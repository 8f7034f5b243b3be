import ToolRunner.Proofs.Execution.Effort
import ToolRunner.Proofs.Execution.Progress
import ToolRunner.Proofs.Session.Modes

/-!
# Runs end

A session that is advanced is given enough moves: it makes them until it is told to stop or nobody
can move any more (`advance_rests`). Where nobody can move, every run is over whose child has no
task that hangs. So a synchronous run of such a child is brought to its end, whatever else is under
way in the session (`run_done`).
-/

namespace ToolRunner

namespace Child

/-- No task of a child hangs, and the child has a status when its main task is over. -/
structure Finishes (c : Child) : Prop where
  runs : ∀ which t, c.task? which = some t → .hang ∉ t.acts
  ends : c.main.ended = true → c.status.isSome = true

variable {c c' : Child}

theorem finishes_ofActs {acts : List Act} (h : .hang ∉ acts) (ending : Ending) :
    (ofActs acts ending).Finishes where
  runs which t found := by
    cases which with
    | none =>
      obtain rfl := Option.some.inj found
      exact h
    | some i => contradiction
  ends h := by cases h

namespace Finishes

theorem delay (h : c.Finishes) (time : Nat) : (c.delay time).Finishes where
  runs which t found := by
    cases which with
    | none =>
      obtain rfl := Option.some.inj found
      exact h.runs none c.main rfl
    | some i =>
      have hfound : (c.background.map (·.delay time))[i]? = some t := found
      rw [List.getElem?_map, Option.map_eq_some_iff] at hfound
      obtain ⟨t, hfound, rfl⟩ := hfound
      exact h.runs (some i) t hfound
  ends := h.ends

theorem endTask (h : c.Finishes) (which : Option Nat) (ending : Ending) :
    (c.endTask which ending).Finishes := by
  cases which with
  | none =>
    refine ⟨fun other t found => ?_, fun _ => ?_⟩
    · cases other with
      | none =>
        obtain rfl := Option.some.inj found
        exact h.runs none c.main rfl
      | some i => exact h.runs (some i) t found
    · show (c.status <|> some ending).isSome = true
      cases c.status <;> rfl
  | some i =>
    refine ⟨fun other t found => ?_, h.ends⟩
    cases other with
    | none => exact h.runs none t found
    | some j =>
      have hfound : (c.background.modify i ({ · with ended := true }))[j]? = some t := found
      rw [List.getElem?_modify] at hfound
      obtain ⟨t', hbefore, rfl⟩ := Option.map_eq_some_iff.mp hfound
      have hruns := h.runs (some j) t' hbefore
      split <;> exact hruns

theorem turn (h : c.Finishes) (turn : c.Turn c') : c'.Finishes := by
  cases turn with
  | went which before after found ended hang =>
    constructor
    · intro other t hfound
      rw [task?_setTask found] at hfound
      split at hfound
      · injection hfound with hfound
        exact fun hmem => h.runs which before found (hang (hfound ▸ hmem))
      · exact h.runs other t hfound
    · intro hended
      cases which with
      | none =>
        obtain rfl : c.main = before := Option.some.inj found
        exact h.ends (ended ▸ hended)
      | some i => exact h.ends hended
  | ended which ending => exact h.endTask which ending

end Finishes

end Child

namespace Execution

variable {r : Runner} {e e' : Execution} {m : Move}

theorem finishes_change (h : e.child.Finishes) (hc : Change e m e') : e'.child.Finishes := by
  cases hc with
  | refused => exact h.endTask none .killed
  | killed => exact h.endTask none .killed
  | acted which child outlets signals turn pipes => exact h.turn turn
  | _ => exact h

/-- Where neither the supervisor nor a reader nor a task can move, the run is over. -/
theorem done_of_rests (hw : Wired r e) (hf : e.child.Finishes)
    (rests : ∀ m ∈ engineMoves, ¬ e.CanMove m) (idle : ∀ which, e.act which = none) :
    e.done = true := by
  -- A task that has not ended waits for a reader, which then has something to read.
  have hended (wired : e.phase.wired = true) (which : Option Nat) (t : Task)
      (found : e.child.task? which = some t) : t.ended = true := by
    refine Decidable.byContradiction fun hrunning => ?_
    rcases act_or_full found (Bool.eq_false_iff.mpr hrunning) (hf.runs which t found) with
      hact | ⟨c, p, houtlet, hreadable, hcontent⟩
    · rw [idle] at hact
      contradiction
    · exact rests _ (reader_mem c) (canMove_of_content hw wired houtlet hreadable hcontent)
  rcases supervisor_or_waits hw with hdone | hmove | ⟨hphase, hgoing⟩ | ⟨c, rd, hphase, hrd, hstop⟩
  · exact hdone
  · exact absurd hmove (rests _ supervisor_mem)
  · have hstatus := hf.ends (hended (by rw [hphase]; rfl) none e.child.main rfl)
    rw [hgoing] at hstatus
    contradiction
  · have hclosed : e.closed c = true := by
      rw [closed, Bool.not_eq_true']
      refine Bool.eq_false_iff.mpr fun hkeeps => ?_
      obtain ⟨which, t, hfound, htask⟩ := Child.keeps_iff.mp hkeeps
      rw [Task.keeps, hended (by rw [hphase]; rfl) which t hfound] at htask
      simp at htask
    exact absurd (canMove_reader hw hrd hstop (.inr (.inl hclosed))) (rests _ (reader_mem c))

end Execution

namespace Session

variable {s s' : Session} {e : Execution} {h : Handle} {m : Move} {stop : Session → Bool}

/-! ## What is left to do in a session -/

def effort (s : Session) : Nat := (s.executions.map Execution.effort).sum

theorem effort_le_work (s : Session) : s.effort ≤ s.work := by
  rw [work, foldl_add_eq_sum, Nat.zero_add]
  exact List.sum_le_sum fun e _ => e.effort_le_work

theorem move_effort (own : m.own = true) (moves : s.move h m = some s') :
    s'.effort < s.effort := by
  obtain ⟨e, t', e', found, step, rfl⟩ := move_cases moves
  have hset := sum_map_set (f := Execution.effort) found e'
  have hless := Execution.step_effort own step
  show ((s.executions.set h e').map Execution.effort).sum < (s.executions.map Execution.effort).sum
  omega

theorem next_effort (hn : s.next = some s') : s'.effort < s.effort := by
  obtain ⟨h, m, after, hown, hm, rfl | ⟨time, rfl⟩⟩ := next_cases hn
  · exact move_effort hown hm
  · exact (move_effort hown hm : after.effort < s.effort)

/-- A session makes moves until it is told to stop or there are none. -/
theorem advance_rests (s : Session) (stop : Session → Bool) :
    stop (s.advance stop) = true ∨ (s.advance stop).next = none := by
  suffices hrun : ∀ fuel s, s.effort ≤ fuel →
      stop (advanceFor stop fuel s) = true ∨ (advanceFor stop fuel s).next = none from
    hrun s.work s s.effort_le_work
  intro fuel
  induction fuel with
  | zero =>
    intro s hs
    have hnone : s.next = none := by
      refine Option.eq_none_iff_forall_ne_some.mpr fun s' hn => ?_
      have hless := next_effort hn
      omega
    exact .inr hnone
  | succ fuel ih =>
    intro s hs
    unfold advanceFor
    split
    · exact .inl ‹_›
    · split
      · exact .inr ‹_›
      · rename_i s' hn
        have hless := next_effort hn
        exact ih s' (by omega)

/-! ## Nobody can move -/

/-- One of the tasks that can act acts first. -/
theorem earliest_cons (first : Handle × Option Nat × Nat)
    (tasks : List (Handle × Option Nat × Nat)) :
    ∃ t ∈ first :: tasks, earliest (first :: tasks) = some t := by
  show ∃ t ∈ first :: tasks, tasks.foldl _ (some first) = some t
  induction tasks generalizing first with
  | nil => exact ⟨first, List.mem_cons_self, rfl⟩
  | cons next tasks ih =>
    rw [List.foldl_cons]
    dsimp only
    split
    · obtain ⟨t, ht, heq⟩ := ih next
      exact ⟨t, List.mem_cons_of_mem _ ht, heq⟩
    · obtain ⟨t, ht, heq⟩ := ih first
      refine ⟨t, ?_, heq⟩
      rcases List.mem_cons.mp ht with rfl | ht
      · exact List.mem_cons_self
      · exact List.mem_cons_of_mem _ (List.mem_cons_of_mem _ ht)

theorem mem_ready_iff {t : Option Nat × Nat} :
    (h, t) ∈ s.ready ↔ ∃ e, s.execution? h = some e ∧ t ∈ tasks e ∧ (e.act t.1).isSome = true := by
  rw [ready, List.mem_flatten]
  constructor
  · rintro ⟨l, hl, ht⟩
    obtain ⟨i, hi, rfl⟩ := List.mem_mapIdx.mp hl
    obtain ⟨t', ht', heq⟩ := List.mem_filterMap.mp ht
    split at heq
    · injection heq with heq
      obtain ⟨rfl, rfl⟩ := Prod.mk.inj heq
      exact ⟨_, List.getElem?_eq_getElem hi, ht', ‹_›⟩
    · contradiction
  · rintro ⟨e, found, ht, hact⟩
    obtain ⟨hi, rfl⟩ := List.getElem?_eq_some_iff.mp found
    exact ⟨_, List.mem_mapIdx.mpr ⟨h, hi, rfl⟩, List.mem_filterMap.mpr ⟨t, ht, if_pos hact⟩⟩

/-- A task that can act is among the tasks of its execution. -/
theorem mem_tasks_of_act {which : Option Nat} (act : (e.act which).isSome = true) :
    ∃ time, (which, time) ∈ tasks e := by
  cases which with
  | none => exact ⟨_, List.mem_cons_self⟩
  | some i =>
    cases hfound : e.child.background[i]? with
    | none =>
      have htask : e.child.task? (some i) = none := hfound
      rw [Execution.act, htask] at act
      contradiction
    | some t =>
      refine ⟨t.time, List.mem_cons_of_mem _ (List.mem_iff_getElem?.mpr ⟨i, ?_⟩)⟩
      rw [List.getElem?_mapIdx, hfound]
      rfl

theorem move_isSome (found : s.execution? h = some e)
    (step : (e.step m (s.trackers (trackerName e))).isSome = true) :
    (s.move h m).isSome = true := by
  rw [move, found]
  show (Option.map _ _).isSome = true
  rwa [Option.isSome_map]

/-- Where there is no next move, neither a supervisor nor a reader nor a task can move. -/
theorem rests_of_next (hn : s.next = none) (found : s.execution? h = some e) :
    (∀ m ∈ Execution.engineMoves, ¬ e.CanMove m) ∧ ∀ which, e.act which = none := by
  unfold next at hn
  split at hn
  · contradiction
  rename_i hfirst
  have hprompt : s.prompt = none := (Option.or_eq_none_iff.mp hfirst).2
  constructor
  · intro m hm hcan
    have hlt : h < s.executions.length := (List.getElem?_eq_some_iff.mp found).1
    have hnone := List.findSome?_eq_none_iff.mp hprompt h (List.mem_range.mpr hlt)
    have hmove := List.findSome?_eq_none_iff.mp hnone m
      ((by decide : ∀ m ∈ Execution.engineMoves, m ∈ promptMoves) m hm)
    have hsome := move_isSome found (hcan _)
    rw [hmove] at hsome
    contradiction
  · have hready : s.ready = [] := by
      cases hready : s.ready with
      | nil => rfl
      | cons first rest =>
        obtain ⟨⟨h', which, time⟩, hmem, hfirst⟩ := earliest_cons first rest
        rw [← hready] at hmem hfirst
        rw [hfirst] at hn
        obtain ⟨e', found', -, hact⟩ := mem_ready_iff.mp hmem
        have hstep : (e'.step (.child which) (s.trackers (trackerName e'))).isSome = true := by
          show ((e'.act which).map _).isSome = true
          rwa [Option.isSome_map]
        have hsome := move_isSome found' hstep
        rw [Option.map_eq_none_iff.mp hn] at hsome
        contradiction
    intro which
    refine Option.eq_none_iff_forall_ne_some.mpr fun e' hact => ?_
    have hsome : (e.act which).isSome = true := by rw [hact]; rfl
    obtain ⟨time, htask⟩ := mem_tasks_of_act hsome
    have hmem := mem_ready_iff.mpr ⟨e, found, htask, hsome⟩
    rw [hready] at hmem
    contradiction

/-! ## Synchronous runs -/

/-- A synchronous run whose child does not hang is brought to its end before it is handed over. -/
theorem run_done {spawn : Spawn} {r : Runner} {c : Command} {child : Child}
    (mode : r.mode = .synchronous) (check : c.check = .ok ())
    (spawned : spawn (pidOf s.executions.length) c = .ok child) (finishes : child.Finishes) :
    ∃ s' e, s.run spawn r c = (.ok s.executions.length, s') ∧
      s'.execution? s.executions.length = some e ∧ (s.beginning r c child).Reaches e ∧
      e.done = true := by
  have hbegun : Follows s.executions.length (s.beginning r c child) _ :=
    ⟨_, execution?_begun s r c child, .refl⟩
  obtain ⟨e, hfound, hreaches⟩ :=
    hbegun.advance (holds s.executions.length Execution.returned)
  refine ⟨_, e, ?_, hfound, hreaches, ?_⟩
  · exact run_of_begun (by rw [begin_eq, check, spawned])
  · have hw : Execution.Wired r e := Execution.Reaches.wired hreaches
    rcases advance_rests _ (holds s.executions.length Execution.returned) with hstop | hrests
    · refine Execution.done_of_returned hw ((Execution.Reaches.mode_eq hreaches).trans mode) ?_
      rw [holds, hfound] at hstop
      exact hstop
    · obtain ⟨hengine, hidle⟩ := rests_of_next hrests hfound
      have hfinishes : e.child.Finishes :=
        hreaches.invariant (finishes.delay _) fun _ hf hc => Execution.finishes_change hf hc
      exact Execution.done_of_rests hw hfinishes hengine hidle

end Session

end ToolRunner
