import ToolRunner.Proofs.Execution.Calls
import ToolRunner.Proofs.Execution.ExitCode

/-!
# Who is notified of a run, in which order, and of what

The start listeners are called one after another, each once, and so are the exit listeners, all of
them with one code; nothing else happens once the first exit listener is called, and that is not
before the child has ended and the readers have stopped (`Reaches.listeners_notified`). The order in
which the parties move is any, and so is what the listeners do when they are called.
-/

namespace ToolRunner

namespace Phase

def started (total : Nat) : Phase → Nat
  | spawned | wiring | refused _ => 0
  | starting next => next
  | _ => total

def notified (total : Nat) : Phase → Nat
  | notifying next => next
  | finished => total
  | _ => 0

/-- Exit listeners are called when the readers of both channels have been joined. -/
theorem joined_of_notified {phase : Phase} {total : Nat} (h : phase.notified total ≠ 0)
    (c : Channel) : phase.joined c = true := by
  cases phase with
  | notifying next => rfl
  | finished => rfl
  | _ => exact absurd rfl h

end Phase

namespace Execution

/-- The calls of so many exit listeners, in the order of registration. -/
def exitCalls (count : Nat) (code : Int) : List Incident :=
  (List.range count).map fun index => .exited index code

theorem exitCalls_succ (count : Nat) (code : Int) :
    exitCalls (count + 1) code = exitCalls count code ++ [.exited count code] := by
  simp [exitCalls, List.range_succ]

/-- The calls of start and exit listeners are made in the order of registration, and when exit
listeners are called nothing else happens any more. -/
structure Ordered (r : Runner) (e : Execution) : Prop where
  starts : e.starts.map (·.1) = List.range (e.phase.started r.listeners.start.length)
  starts_le : e.phase.started r.listeners.start.length ≤ r.listeners.start.length
  last : ∃ before, (∀ i ∈ before, i.exit? = none) ∧
    e.history.reverse = before ++ exitCalls (e.phase.notified r.listeners.exit.length) e.code
  exits_le : e.phase.notified r.listeners.exit.length ≤ r.listeners.exit.length

variable {r : Runner} {e e' : Execution} {m : Move}

namespace Ordered

/-- A change that calls nobody and leaves the numbers of calls as they are. -/
theorem keep (h : Ordered r e) (history : e'.history = e.history)
    (started : e'.phase.started r.listeners.start.length =
      e.phase.started r.listeners.start.length)
    (notified : e'.phase.notified r.listeners.exit.length =
      e.phase.notified r.listeners.exit.length)
    (code : e'.code = e.code ∨ e.phase.notified r.listeners.exit.length = 0) :
    Ordered r e' := by
  constructor
  · rw [started, Execution.starts, history]
    exact h.starts
  · rw [started]
    exact h.starts_le
  · obtain ⟨before, hbefore, heq⟩ := h.last
    refine ⟨before, hbefore, ?_⟩
    rw [notified, history, heq]
    rcases code with code | zero
    · rw [code]
    · rw [zero]
      rfl
  · rw [notified]
    exact h.exits_le

/-- Something other than an exit call happens before all exit calls. -/
theorem before_exits (h : Ordered r e) (zero : e.phase.notified r.listeners.exit.length = 0)
    {incidents : List Incident} (other : ∀ i ∈ incidents, i.exit? = none) (code : Int) :
    ∃ before, (∀ i ∈ before, i.exit? = none) ∧
      e.history.reverse ++ incidents = before ++ exitCalls 0 code := by
  obtain ⟨before, hbefore, heq⟩ := h.last
  refine ⟨before ++ incidents, ?_, ?_⟩
  · intro i hi
    rcases List.mem_append.mp hi with hi | hi
    · exact hbefore i hi
    · exact other i hi
  · rw [heq, zero]
    simp [exitCalls]

theorem startCalled (h : Ordered r e) (hr : Recorded r e) {next : Nat} {l : Registration Started}
    (at_ : e.phase = .starting next) (listener : e.start[next]? = some l) :
    Ordered r (e.callStart next l) := by
  have hlt : next < r.listeners.start.length := by
    rw [← hr.start.length_eq]
    exact (List.getElem?_eq_some_iff.mp listener).1
  have hstarts := h.starts
  rw [at_] at hstarts
  constructor
  · rw [starts_callStart, List.map_append, hstarts]
    exact List.range_succ.symm
  · exact hlt
  · have hother : ∀ i ∈ [Incident.started next ⟨e.program, some e.pid, e.destroyed⟩],
        i.exit? = none := by simp [Incident.exit?]
    have hbefore := h.before_exits (by rw [at_]; rfl) hother e.code
    rw [← List.reverse_cons] at hbefore
    exact hbefore
  · exact Nat.zero_le _

theorem exitCalled (h : Ordered r e) (hr : Recorded r e) {next : Nat} {l : Registration Int}
    (at_ : e.phase = .notifying next) (listener : e.exit[next]? = some l) :
    Ordered r (e.callExit next l) := by
  have hlt : next < r.listeners.exit.length := by
    rw [← hr.exit.length_eq]
    exact (List.getElem?_eq_some_iff.mp listener).1
  constructor
  · have hstarts := h.starts
    rw [at_] at hstarts
    rw [starts_callExit]
    exact hstarts
  · exact Nat.le_refl _
  · obtain ⟨before, hbefore, heq⟩ := h.last
    rw [at_] at heq
    refine ⟨before, hbefore, ?_⟩
    show (Incident.exited next e.code :: e.history).reverse = before ++ exitCalls (next + 1) e.code
    rw [List.reverse_cons, heq, exitCalls_succ, ← List.append_assoc]
    rfl
  · exact hlt

/-- A reader that still works is one that the supervisor has not joined. -/
theorem notified_eq_zero (hw : Wired r e) {c : Channel} {rd : Reader}
    (reader : e.readers.get c = some rd) (going : rd.finished = false) (total : Nat) :
    e.phase.notified total = 0 := by
  refine Decidable.byContradiction fun h => ?_
  have hfinished := hw.joined c rd (Phase.joined_of_notified h c) reader
  rw [going] at hfinished
  cases hfinished

theorem read (h : Ordered r e) (hw : Wired r e) {c : Channel} {rd : Reader} {p : Pipe}
    {s : ReaderStep} (reader : e.readers.get c = some rd) (going : rd.finished = false)
    (turn : rd.Turn p s) : Ordered r (e.afterReader c s) := by
  have hzero := notified_eq_zero hw reader going r.listeners.exit.length
  constructor
  · rw [starts_afterReader turn]
    exact h.starts
  · exact h.starts_le
  · have hbefore := h.before_exits hzero (fun i hi => (turn.incidents i hi).2.1) e.code
    show ∃ before, _ ∧ (s.incidents.reverse ++ e.history).reverse =
      before ++ exitCalls (e.phase.notified r.listeners.exit.length) e.code
    rw [List.reverse_append, List.reverse_reverse, hzero]
    exact hbefore
  · exact h.exits_le

/-- Every change keeps the order. -/
theorem change (h : Ordered r e) (hw : Wired r e) (hr : Recorded r e) (hc : Change e m e') :
    Ordered r e' := by
  cases hc with
  | startCalled next l at_ listener => exact h.startCalled hr at_ listener
  | exitCalled next l at_ listener => exact h.exitCalled hr at_ listener
  | read m c rd p s reader pipe going turn => exact h.read hw reader going turn
  | startsDone next at_ none_left =>
    -- The listeners have run out, so that all of them have been called.
    have hle := h.starts_le
    rw [List.getElem?_eq_none_iff, hr.start.length_eq] at none_left
    rw [at_] at hle
    have hall : r.listeners.start.length = next := Nat.le_antisymm none_left hle
    exact h.keep rfl (by rw [at_]; exact hall) (by rw [at_]; rfl) (.inl rfl)
  | exitsDone next at_ none_left =>
    have hle := h.exits_le
    rw [List.getElem?_eq_none_iff, hr.exit.length_eq] at none_left
    rw [at_] at hle
    have hall : r.listeners.exit.length = next := Nat.le_antisymm none_left hle
    exact h.keep rfl (by rw [at_]; rfl) (by rw [at_]; exact hall) (.inl rfl)
  | reaped ending at_ status =>
    rcases at_ with at_ | at_ <;>
      exact h.keep rfl (by rw [at_]; rfl) (by rw [at_]; rfl) (.inr (by rw [at_]; rfl))
  | waitFailed message at_ ended =>
    rcases at_ with at_ | at_ <;>
      exact h.keep rfl (by rw [at_]; rfl) (by rw [at_]; rfl) (.inr (by rw [at_]; rfl))
  | skipped c at_ unread =>
    cases c <;> exact h.keep rfl (by rw [at_]; rfl) (by rw [at_]; rfl) (.inl rfl)
  | joined c rd at_ reader finished =>
    cases c <;> exact h.keep rfl (by rw [at_]; rfl) (by rw [at_]; rfl) (.inl rfl)
  | registered id at_ => exact h.keep rfl (by rw [at_]; rfl) (by rw [at_]; rfl) (.inl rfl)
  | wired readers at_ wires => exact h.keep rfl (by rw [at_]; rfl) (by rw [at_]; rfl) (.inl rfl)
  | refused cause at_ wires => exact h.keep rfl (by rw [at_]; rfl) (by rw [at_]; rfl) (.inl rfl)
  | released at_ => exact h.keep rfl (by rw [at_]; rfl) (by rw [at_]; rfl) (.inl rfl)
  | killed at_ destroyed => exact h.keep rfl (by rw [at_]; rfl) (by rw [at_]; rfl) (.inl rfl)
  | acted which child outlets signals turn pipes => exact h.keep rfl rfl rfl (.inl rfl)
  | destroyed => exact h.keep rfl rfl rfl (.inl rfl)

/-- The exit calls are those of the first listeners, all with the code of the run. -/
theorem exits_eq (h : Ordered r e) :
    e.exits = (List.range (e.phase.notified r.listeners.exit.length)).map (·, e.code) := by
  obtain ⟨before, hbefore, heq⟩ := h.last
  have hnone : before.filterMap Incident.exit? = [] := List.filterMap_eq_nil_iff.mpr hbefore
  have hcalls (count : Nat) :
      (exitCalls count e.code).filterMap Incident.exit? = (List.range count).map (·, e.code) := by
    rw [exitCalls, List.filterMap_map, ← List.filterMap_eq_map]
    rfl
  rw [exits, heq, List.filterMap_append, hnone, hcalls]
  rfl

end Ordered

theorem Reaches.ordered {capacity : Capacity} {handle : Handle} {pid : Nat} {program : String}
    {child : Child} (h : (r.execution capacity handle pid program child).Reaches e) :
    Ordered r e := by
  refine h.invariant ⟨rfl, Nat.zero_le _, ⟨[], ?_, rfl⟩, Nat.zero_le _⟩
    fun reached ho => ho.change reached.wired reached.recorded
  intro i hi
  cases hi

/-! ## All that is told -/

/-- All is told of a run but its end: the start listeners have been called, the child has ended, and
the reader of every captured channel has stopped. -/
structure Settled (r : Runner) (e : Execution) : Prop where
  starts : e.starts.map (·.1) = List.range r.listeners.start.length
  child : e.child.status.isSome = true
  readers : ∀ c, r.captures c = true → ∃ rd, e.readers.get c = some rd ∧ rd.finished = true

structure Notified (r : Runner) (e : Execution) : Prop where
  /-- The history tells of all calls and of no others. -/
  recorded : Recorded r e
  /-- No start listener is called before its turn or twice. -/
  starts : ∃ n ≤ r.listeners.start.length, e.starts.map (·.1) = List.range n
  /-- Nor is an exit listener, and all of them are given the same code. -/
  exits : ∃ n ≤ r.listeners.exit.length, e.exits = (List.range n).map (·, e.code)
  /-- When the caller has the execution every start listener has been called once. -/
  returned : e.returned = true → e.starts.map (·.1) = List.range r.listeners.start.length ∧
    ∀ (i : Nat) l, r.listeners.start[i]? = some l → ∃ seen, e.start[i]? = some (l.call seen) ∧
      (l.call seen).received = l.received ++ [seen]
  /-- When the run is over so has every exit listener. -/
  done : e.done = true → e.exits = (List.range r.listeners.exit.length).map (·, e.code) ∧
    e.exit = r.listeners.exit.map (·.call e.code) ∧
    e.exit.map (·.received) = r.listeners.exit.map (·.received ++ [e.code])
  /-- Whatever else happens in a run happens before the exit calls. -/
  last : ∃ before, (∀ i ∈ before, i.exit? = none) ∧
    e.history.reverse = before ++ e.exits.map fun call => .exited call.1 call.2
  /-- No move makes an exit call unless all else is settled before it. -/
  settled : ∀ m t t' e', e.step m t = some (t', e') → e'.exits ≠ [] → Settled r e
  code : e.exits ≠ [] ∨ e.done = true → Coded e

/-- The numbers of calls change by a call of the supervisor only. -/
theorem exits_of_change (hc : Change e m e') :
    e'.exits = e.exits ∨ ∃ next, e.phase = .notifying next := by
  cases hc with
  | exitCalled next l at_ listener => exact .inr ⟨next, at_⟩
  | startCalled next l at_ listener => exact .inl (exits_callStart e next l)
  | read m c rd p s reader pipe going turn => exact .inl (exits_afterReader turn c)
  | _ => exact .inl rfl

theorem settled_of_joined (hw : Wired r e) (ho : Ordered r e)
    (joined : ∀ c, e.phase.joined c = true) : Settled r e := by
  have hphase : e.phase.started r.listeners.start.length = r.listeners.start.length ∧
      e.phase.reaped = true ∧ e.phase.wired = true := by
    have hout := joined .stdout
    have herr := joined .stderr
    cases hp : e.phase with
    | joining c =>
      rw [hp] at herr
      cases c <;> cases herr
    | releasing => exact ⟨rfl, rfl, rfl⟩
    | notifying next => exact ⟨rfl, rfl, rfl⟩
    | finished => exact ⟨rfl, rfl, rfl⟩
    | _ =>
      rw [hp] at hout
      cases hout
  obtain ⟨hstarted, hreaped, hwired⟩ := hphase
  constructor
  · rw [ho.starts, hstarted]
  · exact hw.reaped (.inl hreaped)
  · intro c hcaptured
    have hreads := hw.reads hwired c
    rw [hcaptured] at hreads
    obtain ⟨rd, hrd⟩ := Option.isSome_iff_exists.mp hreads
    exact ⟨rd, hrd, hw.joined c rd (joined c) hrd⟩

theorem started_of_returned (hw : Wired r e) (h : e.returned = true) (total : Nat) :
    e.phase.started total = total := by
  have haccepted := hw.accepted
  unfold returned at h
  cases hp : e.phase with
  | spawned => rw [hp] at h; cases e.mode <;> cases h
  | wiring => rw [hp] at h; cases e.mode <;> cases h
  | starting next => rw [hp] at h; cases e.mode <;> cases h
  | refused cause => exact absurd hp (haccepted cause)
  | _ => rfl

/-- When a run is over each exit listener has been called once, with the code of the run. -/
theorem Reaches.exit_of_done {capacity : Capacity} {handle : Handle} {pid : Nat}
    {program : String} {child : Child}
    (h : (r.execution capacity handle pid program child).Reaches e) (done : e.done = true) :
    e.exit = r.listeners.exit.map (·.call e.code) := by
  have hexits := h.ordered.exits_eq
  rw [show e.phase = .finished from eq_of_beq done] at hexits
  exact h.recorded.exit.all hexits

/-- Whatever the parties of a run do and in whichever order, and whatever its listeners answer, they
are notified in order, each once, and of the exit last. -/
theorem Reaches.listeners_notified {capacity : Capacity} {handle : Handle} {pid : Nat}
    {program : String} {child : Child}
    (h : (r.execution capacity handle pid program child).Reaches e) : Notified r e := by
  have hw := h.wired
  have hr := h.recorded
  have ho := h.ordered
  have hnotified (hne : e.exits ≠ []) : e.phase.notified r.listeners.exit.length ≠ 0 := by
    intro hzero
    rw [ho.exits_eq, hzero] at hne
    exact hne rfl
  constructor
  · exact hr
  · exact ⟨_, ho.starts_le, ho.starts⟩
  · exact ⟨_, ho.exits_le, ho.exits_eq⟩
  · intro hreturned
    have hstarts := ho.starts
    rw [started_of_returned hw hreturned] at hstarts
    refine ⟨hstarts, fun i l hl => ?_⟩
    obtain ⟨seen, -, hcall⟩ := hr.start.once hstarts hl
    exact ⟨seen, hcall, l.received_call seen⟩
  · intro hdone
    have hexits := ho.exits_eq
    rw [show e.phase = .finished from eq_of_beq hdone] at hexits
    have hcalled := h.exit_of_done hdone
    refine ⟨hexits, hcalled, ?_⟩
    rw [hcalled, List.map_map]
    exact List.map_congr_left fun l _ => l.received_call e.code
  · obtain ⟨before, hbefore, heq⟩ := ho.last
    refine ⟨before, hbefore, ?_⟩
    rw [heq, ho.exits_eq, List.map_map]
    rfl
  · intro m t t' e' hstep hne
    refine settled_of_joined hw ho ?_
    rcases exits_of_change (step_change hstep) with hsame | ⟨next, hphase⟩
    · exact Phase.joined_of_notified (hnotified (hsame ▸ hne))
    · intro c
      rw [hphase]
      rfl
  · intro hlate
    refine h.waited.after ?_
    rcases hlate with hne | hdone
    · have hnotified := hnotified hne
      cases hp : e.phase with
      | notifying next => rfl
      | finished => rfl
      | _ =>
        rw [hp] at hnotified
        exact absurd rfl hnotified
    · rw [eq_of_beq hdone]
      rfl

/-- A runner most of whose listeners fail. -/
def failingRunner : Runner where
  mode := .asynchronous
  routing := .captured
  listeners :=
    { start := [.ofReaction fun _ => ⟨.panicked none, false⟩]
      stdout := [.ofReaction fun _ => ⟨.failed ["full"], false⟩]
      exit := [.ofReaction fun _ => ⟨.failed ["gone"], false⟩, .ofReaction fun _ => .quiet] }
  suits := rfl
  tracker := none

/-- A run in which the child writes a line and ends before its reader has come to it. -/
def failingRun : Execution :=
  failingRunner.execution .standard 0 100 "cat" (.ofActs [.write .stdout [97, 10]] (.exited 3))

/-- An order of all its moves. -/
def failingMoves : List Move :=
  [.supervisor, .supervisor, .child none, .supervisor, .reader .stdout, .reader .stdout,
    .child none, .supervisor, .reader .stdout, .supervisor, .reader .stdout, .reader .stdout,
    .supervisor, .supervisor, .supervisor, .supervisor, .supervisor, .supervisor]

theorem listeners_notified_failing :
    ∃ e, failingRun.Reaches e ∧ e.done = true ∧ e.told .stdout = ["a"] ∧
      e.exits = [(0, 3), (1, 3)] ∧ Notified failingRunner e := by
  have hrun : (failingRun.steps failingMoves .new).map
      (fun after => (after.2.done, after.2.told .stdout, after.2.exits)) =
        some (true, ["a"], [(0, 3), (1, 3)]) := by decide +kernel
  obtain ⟨after, hsteps, heq⟩ := Option.map_eq_some_iff.mp hrun
  simp only [Prod.mk.injEq] at heq
  obtain ⟨hdone, htold, hexits⟩ := heq
  have hreaches : failingRun.Reaches after.2 := reaches_of_steps hsteps
  exact ⟨after.2, hreaches, hdone, htold, hexits, hreaches.listeners_notified⟩

end Execution

end ToolRunner
