import ToolRunner.Proofs.Execution.Notification

/-!
# A run never gets stuck

A child that works alone and never hangs can be kept from going on by a full pipe only, and the
reader of a full pipe has something to read; a reader that has nothing to read waits for a child
that can go on or has ended, and the supervisor waits for nobody else. So until a run is over some
party can move (`never_stuck`). Once the handle is destroyed the engine can even do without the
child, and without the end of its output, which a program in the background may hold open forever.
-/

namespace ToolRunner

namespace Child

/-- A child that has no other tasks, does not hang, and has a status when its task is over. -/
structure Finite (c : Child) : Prop where
  alone : c.background = []
  runs : .hang ∉ c.main.acts
  ends : c.main.ended = true → c.status.isSome = true
  stops : c.status.isSome = true → c.main.ended = true

variable {c c' : Child}

theorem finite_ofActs {acts : List Act} (h : .hang ∉ acts) (ending : Ending) :
    (ofActs acts ending).Finite where
  alone := rfl
  runs := h
  ends h := by cases h
  stops h := by cases h

theorem Finite.finish (h : c.Finite) (ending : Ending) : (c.finish ending).Finite where
  alone := h.alone
  runs := h.runs
  ends _ := by
    show (c.status <|> some ending).isSome = true
    cases c.status <;> rfl
  stops _ := rfl

theorem Finite.turn (h : c.Finite) (turn : c.Turn c') : c'.Finite := by
  have hnone (i : Nat) : c.background[i]? = none := by
    rw [h.alone]
    rfl
  cases turn with
  | went which before after found ended hang =>
    cases which with
    | none =>
      have hbefore : c.main = before := Option.some.inj found
      subst hbefore
      constructor
      · exact h.alone
      · exact fun hhang => h.runs (hang hhang)
      · intro hended
        exact h.ends (ended ▸ hended)
      · intro hstatus
        exact ended.trans (h.stops hstatus)
    | some i => rw [task?, hnone] at found; cases found
  | ended which ending =>
    cases which with
    | none => exact h.finish ending
    | some i =>
      have hsame : c.endTask (some i) ending = c := by
        simp only [endTask, h.alone, List.modify_nil]
        rw [← h.alone]
      rwa [hsame]

/-- A child of one task keeps nothing open when it has ended. -/
theorem Finite.keeps (h : c.Finite) (hs : c.status.isSome = true) (channel : Channel) :
    c.keeps channel = false := by
  rw [Child.keeps, h.alone, Task.keeps, h.stops hs, Bool.not_true, Bool.and_false]
  rfl

end Child

namespace Execution

/-- Whether a move is possible, whatever the tracker. -/
def CanMove (e : Execution) (m : Move) : Prop := ∀ t, (e.step m t).isSome = true

/-- The moves of the supervisor and of the readers. -/
def engineMoves : List Move := [.supervisor, .cancellation, .reader .stdout, .reader .stderr]

/-- The run is over, and the exit listeners have been called. -/
def Over (r : Runner) (e : Execution) : Prop :=
  e.done = true ∧ e.exit = r.listeners.exit.map (·.call e.code)

variable {r : Runner} {e e' : Execution} {m : Move}

theorem supervisor_mem : .supervisor ∈ engineMoves := by decide

theorem cancellation_mem : .cancellation ∈ engineMoves := by decide

theorem reader_mem (c : Channel) : .reader c ∈ engineMoves := by
  cases c <;> decide

theorem finite_change (h : e.child.Finite) (hc : Change e m e') : e'.child.Finite := by
  cases hc with
  | refused => exact h.finish .killed
  | killed => exact h.finish .killed
  | acted which child outlets signals turn pipes => exact h.turn turn
  | _ => exact h

/-! ## When a party can move -/

theorem canMove_reap (at_ : e.phase = .waiting ∨ e.phase = .reaping)
    (status : e.child.status.isSome = true) : e.CanMove .supervisor := by
  intro t
  obtain ⟨ending, hs⟩ := Option.isSome_iff_exists.mp status
  rcases at_ with at_ | at_ <;>
    simp [step, supervise, at_, reap, hs]

theorem canMove_cancellation (at_ : e.phase = .waiting) (destroyed : e.destroyed = true) :
    e.CanMove .cancellation := by
  intro t
  simp [step, seeCancellation, at_, destroyed]

theorem canMove_join {c : Channel} (at_ : e.phase = .joining c)
    (stopped : ∀ rd, e.readers.get c = some rd → rd.finished = true) :
    e.CanMove .supervisor := by
  intro t
  show (e.supervise t).isSome = true
  rw [supervise, at_]
  show ((e.join c).map _).isSome = true
  rw [Option.isSome_map]
  unfold join
  cases hrd : e.readers.get c with
  | none => rfl
  | some rd =>
    simp only [stopped rd hrd]
    rfl

/-- A reader that has not stopped can move when the token, the end of the input or a byte in the
pipe would wake it. -/
theorem canMove_reader (hw : Wired r e) {c : Channel} {rd : Reader}
    (reader : e.readers.get c = some rd) (going : rd.finished = false)
    (wake : e.destroyed = true ∨ e.closed c = true ∨
      ∀ p, e.outlets.get c = .pipe p → p.content ≠ []) : e.CanMove (.reader c) := by
  intro t
  have hreadable := hw.abandons c rd reader
  rw [readable] at hreadable
  cases houtlet : e.outlets.get c with
  | pipe p =>
    have hwake : e.destroyed = true ∨ e.closed c = true ∨ p.content ≠ [] :=
      wake.imp_right (.imp_right fun h => h p houtlet)
    have hstep := rd.step_isSome going hwake
    show ((e.read c _).map _).isSome = true
    rw [Option.isSome_map, read, reader, houtlet]
    show (Option.map _ (rd.step e.destroyed (e.closed c) p)).isSome = true
    rwa [Option.isSome_map]
  | passed bytes => rw [houtlet] at hreadable; cases hreadable
  | discarded => rw [houtlet] at hreadable; cases hreadable

/-- Only a pipe that is full and that somebody reads from keeps a task from going on. -/
theorem act_or_full {which : Option Nat} {t : Task} (found : e.child.task? which = some t)
    (running : t.ended = false) (runs : .hang ∉ t.acts) :
    (e.act which).isSome = true ∨
      ∃ c p, e.outlets.get c = .pipe p ∧ p.readable = true ∧ p.content ≠ [] := by
  have hended : ¬ t.ended = true := by
    rw [running]
    exact Bool.false_ne_true
  unfold act
  simp only [found, if_neg hended]
  cases hacts : t.acts with
  | nil => exact .inl rfl
  | cons a acts =>
    cases a with
    | close channel => exact .inl rfl
    | pause time => exact .inl rfl
    | signal s => exact .inl rfl
    | hang =>
      have hmem : Act.hang ∈ t.acts := by
        rw [hacts]
        exact List.mem_cons_self
      exact absurd hmem runs
    | write channel bytes =>
      dsimp only
      unfold write
      split
      · exact .inl rfl
      split
      · exact .inl rfl
      · exact .inl rfl
      · rename_i p houtlet
        split
        · exact .inl rfl
        split
        · rename_i hreadable hfull
          refine .inr ⟨channel, p, houtlet, by simpa using hreadable, ?_⟩
          -- A pipe holds at least one byte, so that a full one has something in it.
          intro hempty
          have hpos := p.capacity.pos
          rw [Pipe.room, hempty, List.length_nil] at hfull
          omega
        · exact .inl rfl

theorem canMove_child (h : e.child.Finite) (going : e.child.status.isSome = false) :
    e.CanMove (.child none) ∨
      ∃ c p, e.outlets.get c = .pipe p ∧ p.readable = true ∧ p.content ≠ [] := by
  have hrunning : e.child.main.ended = false := by
    refine Bool.eq_false_iff.mpr fun hended => ?_
    have hstatus := h.ends hended
    rw [going] at hstatus
    cases hstatus
  have hmain : e.child.task? none = some e.child.main := rfl
  refine (act_or_full hmain hrunning h.runs).imp_left fun hact t => ?_
  show ((e.act none).map _).isSome = true
  rwa [Option.isSome_map]

/-- The reader of a pipe that has something in it, and that somebody reads from, can move. -/
theorem canMove_of_content (hw : Wired r e) (wired : e.phase.wired = true) {c : Channel} {p : Pipe}
    (pipe : e.outlets.get c = .pipe p) (readable : p.readable = true) (content : p.content ≠ []) :
    e.CanMove (.reader c) := by
  have hpipe : e.readable c = some true := by
    rw [Execution.readable, pipe, ← readable]
    rfl
  have hreads := hw.reads wired c
  rw [← hw.captured c, hpipe] at hreads
  obtain ⟨rd, hrd⟩ := Option.isSome_iff_exists.mp hreads
  have hgoing : rd.finished = false := by
    have habandons := hw.abandons c rd hrd
    rw [hpipe] at habandons
    injection habandons with habandons
    simpa using habandons.symm
  refine canMove_reader hw hrd hgoing (.inr (.inr fun p' houtlet' => ?_))
  rw [pipe] at houtlet'
  injection houtlet' with houtlet'
  rwa [← houtlet']

/-! ## Some party can move -/

/-- The supervisor can go on but where it waits for the child or for a reader. -/
theorem supervisor_or_waits (hw : Wired r e) :
    e.done = true ∨ e.CanMove .supervisor ∨
      e.phase = .waiting ∧ e.child.status.isSome = false ∨
      ∃ c rd, e.phase = .joining c ∧ e.readers.get c = some rd ∧ rd.finished = false := by
  cases hp : e.phase with
  | spawned => exact .inr (.inl fun t => by simp [step, supervise, hp])
  | wiring => exact .inr (.inl fun t => by simp [step, supervise, hp])
  | releasing => exact .inr (.inl fun t => by simp [step, supervise, hp])
  | finished => exact .inl (by rw [done, hp]; rfl)
  | refused cause => exact absurd hp (hw.accepted cause)
  | starting next =>
    refine .inr (.inl fun t => ?_)
    simp only [step, supervise, hp]
    split <;> rfl
  | notifying next =>
    refine .inr (.inl fun t => ?_)
    simp only [step, supervise, hp]
    split <;> rfl
  | waiting =>
    cases hs : e.child.status.isSome with
    | true => exact .inr (.inl (canMove_reap (.inl hp) hs))
    | false => exact .inr (.inr (.inl ⟨rfl, rfl⟩))
  | reaping => exact .inr (.inl (canMove_reap (.inr hp) (hw.reaped (.inr hp))))
  | joining c =>
    cases hrd : e.readers.get c with
    | none => exact .inr (.inl (canMove_join hp fun rd hrd' => by rw [hrd] at hrd'; cases hrd'))
    | some rd =>
      cases hf : rd.finished with
      | true =>
        refine .inr (.inl (canMove_join hp fun rd' hrd' => ?_))
        rw [hrd] at hrd'
        injection hrd' with hrd'
        rwa [← hrd']
      | false => exact .inr (.inr (.inr ⟨c, rd, rfl, hrd, hf⟩))

/-- A child that runs can go on, or else a reader can. -/
theorem child_or_reader_moves (hw : Wired r e) (hc : e.child.Finite)
    (wired : e.phase.wired = true) (going : e.child.status.isSome = false) :
    ∃ m ∈ .child none :: engineMoves, e.CanMove m := by
  rcases canMove_child hc going with hmove | ⟨c, p, houtlet, hreadable, hcontent⟩
  · exact ⟨_, List.mem_cons_self, hmove⟩
  · exact ⟨_, List.mem_cons_of_mem _ (reader_mem c),
      canMove_of_content hw wired houtlet hreadable hcontent⟩

theorem Reaches.over_of_done {capacity : Capacity} {handle : Handle} {pid : Nat} {program : String}
    {child : Child} (h : (r.execution capacity handle pid program child).Reaches e)
    (done : e.done = true) : e.Over r :=
  ⟨done, h.exit_of_done done⟩

/-- In a run of a finite child some party can always move until the run is over, whatever the child
writes and however small the pipes are; in a run of any child, once its handle is destroyed, the
supervisor or a reader can. -/
theorem never_stuck (r : Runner) (capacity : Capacity) (handle : Handle) (pid : Nat)
    (program : String) :
    (∀ acts ending e, .hang ∉ acts →
      (r.execution capacity handle pid program (.ofActs acts ending)).Reaches e →
        e.Over r ∨ ∃ m ∈ .child none :: engineMoves, e.CanMove m) ∧
    ∀ child e, (r.execution capacity handle pid program child).Reaches e →
      e.destroyed = true → e.Over r ∨ ∃ m ∈ engineMoves, e.CanMove m := by
  constructor
  · intro acts ending e hhang h
    have hw := h.wired
    have hc : e.child.Finite :=
      h.invariant (Child.finite_ofActs hhang ending) fun _ hc => finite_change hc
    rcases supervisor_or_waits hw with hdone | hmove | ⟨hphase, hgoing⟩ | ⟨c, rd, hphase, hrd, hf⟩
    · exact .inl (h.over_of_done hdone)
    · exact .inr ⟨_, List.mem_cons_of_mem _ supervisor_mem, hmove⟩
    · exact .inr (child_or_reader_moves hw hc (by rw [hphase]; rfl) hgoing)
    · -- The child has ended, and its outputs with it.
      have hstatus := hw.reaped (.inl (by rw [hphase]; rfl))
      have hclosed : e.closed c = true := by
        rw [closed, hc.keeps hstatus]
        rfl
      exact .inr ⟨_, List.mem_cons_of_mem _ (reader_mem c),
        canMove_reader hw hrd hf (.inr (.inl hclosed))⟩
  · intro child e h hdestroyed
    have hw := h.wired
    rcases supervisor_or_waits hw with hdone | hmove | ⟨hphase, -⟩ | ⟨c, rd, hphase, hrd, hf⟩
    · exact .inl (h.over_of_done hdone)
    · exact .inr ⟨_, supervisor_mem, hmove⟩
    · exact .inr ⟨_, cancellation_mem, canMove_cancellation hphase hdestroyed⟩
    · exact .inr ⟨_, reader_mem c, canMove_reader hw hrd hf (.inl hdestroyed)⟩

/-- A runner with one quiet listener for each output and one for the exit. -/
def quietRunner : Runner where
  mode := .synchronous
  routing := .captured
  listeners :=
    { stdout := [.ofReaction fun _ => .quiet]
      stderr := [.ofReaction fun _ => .quiet]
      exit := [.ofReaction fun _ => .quiet] }
  suits := rfl
  tracker := none

/-- What a child does that writes more to both outputs than a pipe of one byte holds. -/
def floodActs : List Act := [.write .stdout [97, 97], .write .stderr [98, 98]]

/-- A child that hangs, with a program in the background that does too. -/
def hangingChild : Child :=
  ⟨.starting [.hang] 0, [.starting [.hang] 0], .exited 0, none⟩

/-- A child that floods its outputs, at the moment at which it can write no more, and one that hangs
when its handle has been destroyed: somebody can move in both. -/
theorem never_stuck_flood_hang :
    (∃ e : Execution, e.act none = none ∧ e.done = false ∧
      ∃ m ∈ .child none :: engineMoves, e.CanMove m) ∧
    ∃ e : Execution, e.child = hangingChild ∧ e.destroyed = true ∧ e.done = false ∧
      ∃ m ∈ engineMoves, e.CanMove m := by
  have hstuck := never_stuck quietRunner ⟨1, by decide⟩ 0 100 "yes"
  constructor
  · have hrun : (steps [.supervisor, .supervisor, .child none] .new (quietRunner.execution
        ⟨1, by decide⟩ 0 100 "yes" (.ofActs floodActs (.exited 0)))).map
          (fun after => ((after.2.act none).isNone, after.2.done)) = some (true, false) := by
      decide
    obtain ⟨after, hsteps, heq⟩ := Option.map_eq_some_iff.mp hrun
    rw [Prod.mk.injEq, Option.isNone_iff_eq_none] at heq
    have hmoves := hstuck.1 floodActs (.exited 0) after.2 (by decide) (reaches_of_steps hsteps)
    refine ⟨after.2, heq.1, heq.2, hmoves.resolve_left fun hover => ?_⟩
    exact absurd hover.1 (by rw [heq.2]; decide)
  · have hrun : (steps [.supervisor, .supervisor, .supervisor, .destroy] .new (quietRunner.execution
        ⟨1, by decide⟩ 0 100 "yes" hangingChild)).map
          (fun after => (after.2.child, after.2.destroyed, after.2.done)) =
            some (hangingChild, true, false) := by
      decide
    obtain ⟨after, hsteps, heq⟩ := Option.map_eq_some_iff.mp hrun
    rw [Prod.mk.injEq, Prod.mk.injEq] at heq
    have hmoves := hstuck.2 hangingChild after.2 (reaches_of_steps hsteps) heq.2.1
    refine ⟨after.2, heq.1, heq.2.1, heq.2.2, hmoves.resolve_left fun hover => ?_⟩
    exact absurd hover.1 (by rw [heq.2.2]; decide)

end Execution

end ToolRunner
