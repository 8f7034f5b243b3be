import ToolRunner.Executor.Supervised
import ToolRunner.Proofs.Execution.Wiring

/-!
# How a run begins and how it can fail

A run fails before anything has happened or not at all: where the command names no program, or the
program cannot be started, no execution is begun; and an execution that is begun is handed over,
since a pipe exists only for a channel with listeners, so that every reader can be made
(`runs_begin`).
-/

namespace ToolRunner

/-! ## Runners -/

theorem Routing.suits_iff {routing : Routing} {l : Listeners} :
    routing.suits l = true ↔
      (routing = .captured ∧ (l.stdout ≠ [] ∨ l.stderr ≠ [])) ∨
      (routing = .inherited ∧ l.stdout = [] ∧ l.stderr = []) := by
  cases routing <;> simp [suits, Listeners.wantsOutput]

theorem Runner.new_eq_ok_iff {mode : Mode} {routing : Routing} {l : Listeners} {r : Runner} :
    Runner.new mode routing l = .ok r ↔
      r.mode = mode ∧ r.routing = routing ∧ r.listeners = l ∧ r.tracker = none := by
  unfold new
  constructor
  · intro h
    split at h
    · injection h with h
      subst h
      exact ⟨rfl, rfl, rfl, rfl⟩
    · split at h <;> contradiction
  · rintro ⟨rfl, rfl, rfl, htracker⟩
    rw [dif_pos r.suits, ← htracker]

theorem Runner.new_isOk_iff {mode : Mode} {routing : Routing} {l : Listeners} :
    (∃ r, Runner.new mode routing l = .ok r) ↔ routing.suits l = true := by
  constructor
  · rintro ⟨r, h⟩
    obtain ⟨-, rfl, rfl, -⟩ := new_eq_ok_iff.mp h
    exact r.suits
  · exact fun h => ⟨⟨mode, routing, l, h, none⟩, dif_pos h⟩

namespace Session

variable {s s' : Session} {e e' : Execution} {h : Handle} {m : Move} {spawn : Spawn} {r : Runner}
variable {c : Command}

/-! ## Moves of a session -/

/-- A move of a session is a move of one of its executions. -/
theorem move_cases (moves : s.move h m = some s') :
    ∃ e t' e', s.execution? h = some e ∧ e.step m (s.trackers (trackerName e)) = some (t', e') ∧
      s' = { s.setTracker (trackerName e) t' with executions := s.executions.set h e' } := by
  unfold move at moves
  split at moves
  · contradiction
  · rename_i e found
    rw [Option.map_eq_some_iff] at moves
    obtain ⟨⟨t', e'⟩, hstep, rfl⟩ := moves
    exact ⟨e, t', e', found, hstep, rfl⟩

/-- Whatever the next move is, it is a move of some execution, up to the time. -/
theorem next_cases (hn : s.next = some s') :
    ∃ h m after, m.own = true ∧ s.move h m = some after ∧
      (s' = after ∨ ∃ time, s' = { after with time := time }) := by
  unfold next at hn
  split at hn
  · rename_i after hfirst
    injection hn with hn
    subst hn
    rcases Option.or_eq_some_iff.mp hfirst with hchild | ⟨-, hprompt⟩
    · rcases Option.or_eq_some_iff.mp hchild with hexpire | ⟨-, hforestall⟩
      · obtain ⟨t, -, hm⟩ := Option.bind_eq_some_iff.mp hexpire
        exact ⟨t.1, .child t.2.1, after, rfl, hm, .inl rfl⟩
      · obtain ⟨t, -, hact⟩ := Option.bind_eq_some_iff.mp hforestall
        obtain ⟨before, hm, rfl⟩ := Option.map_eq_some_iff.mp hact
        exact ⟨t.1, .child t.2.1, before, rfl, hm, .inr ⟨_, rfl⟩⟩
    · obtain ⟨h, -, hh⟩ := List.exists_of_findSome?_eq_some hprompt
      obtain ⟨m, hprompt, hm⟩ := List.exists_of_findSome?_eq_some hh
      have hown : ∀ m ∈ promptMoves, m.own = true := by decide
      exact ⟨h, m, after, hown m hprompt, hm, .inl rfl⟩
  · split at hn
    · contradiction
    · rename_i h which time _
      rw [Option.map_eq_some_iff] at hn
      obtain ⟨after, hm, rfl⟩ := hn
      exact ⟨h, .child which, after, rfl, hm, .inr ⟨_, rfl⟩⟩

/-- What the moves of the parties preserve holds however far a session is advanced. -/
theorem advance_invariant_own {Inv : Session → Prop}
    (move : ∀ {s h m after}, m.own = true → Inv s → s.move h m = some after → Inv after)
    (wait : ∀ {s} time, Inv s → Inv { s with time := time }) (stop : Session → Bool)
    (start : Inv s) : Inv (s.advance stop) := by
  suffices hrun : ∀ fuel s, Inv s → Inv (advanceFor stop fuel s) from hrun s.work s start
  intro fuel
  induction fuel with
  | zero => exact fun s hs => hs
  | succ fuel ih =>
    intro s hs
    unfold advanceFor
    split
    · exact hs
    · split
      · exact hs
      · rename_i s' hn
        obtain ⟨h, m, after, hown, hm, rfl | ⟨time, rfl⟩⟩ := next_cases hn
        · exact ih _ (move hown hs hm)
        · exact ih _ (wait time (move hown hs hm))

/-- What moves preserve holds however far a session is advanced. -/
theorem advance_invariant {Inv : Session → Prop}
    (move : ∀ {s h m after}, Inv s → s.move h m = some after → Inv after)
    (wait : ∀ {s} time, Inv s → Inv { s with time := time }) (stop : Session → Bool)
    (start : Inv s) : Inv (s.advance stop) :=
  advance_invariant_own (fun _ => move) wait stop start

/-- The execution of a handle is one that another can become. -/
def Follows (h : Handle) (e : Execution) (s : Session) : Prop :=
  ∃ e', s.execution? h = some e' ∧ e.Reaches e'

theorem Follows.move {other : Handle} (hf : Follows h e s) (moves : s.move other m = some s') :
    Follows h e s' := by
  obtain ⟨before, hbefore, hreaches⟩ := hf
  obtain ⟨e₁, t', e', hfound, hstep, rfl⟩ := move_cases moves
  by_cases hsame : h = other
  · subst hsame
    obtain ⟨hlt, -⟩ := List.getElem?_eq_some_iff.mp hbefore
    rw [hbefore] at hfound
    injection hfound with hfound
    subst hfound
    exact ⟨e', List.getElem?_set_self hlt, hreaches.move hstep⟩
  · exact ⟨before, (List.getElem?_set_ne (Ne.symm hsame)).trans hbefore, hreaches⟩

theorem Follows.advance (hf : Follows h e s) (stop : Session → Bool) :
    Follows h e (s.advance stop) :=
  advance_invariant (fun hf moves => hf.move moves) (fun _ hf => hf) stop hf

/-! ## Beginning -/

/-- The execution that a runner begins with a child. -/
def beginning (s : Session) (r : Runner) (c : Command) (child : Child) : Execution :=
  r.execution .standard s.executions.length (pidOf s.executions.length) c.programText
    (child.delay (s.time + startTime))

/-- An execution is begun where the command is in order and its program can be started. -/
theorem begin_eq (s : Session) (spawn : Spawn) (r : Runner) (c : Command) :
    s.begin spawn r c =
      match c.check, spawn (pidOf s.executions.length) c with
      | .error cause, _ => (.error cause, s)
      | .ok (), .error cause => (.error (.spawn c.programText cause), s)
      | .ok (), .ok child =>
        (.ok s.executions.length,
          { s with executions := s.executions ++ [s.beginning r c child] }) := by
  unfold begin Runner.begin
  cases c.check with
  | error cause => rfl
  | ok checked =>
    cases hspawn : spawn (pidOf s.executions.length) c <;> simp [hspawn, beginning] <;> rfl

theorem begin_cases (begins : s.begin spawn r c = (.ok h, s')) :
    ∃ child, c.check = .ok () ∧ spawn (pidOf s.executions.length) c = .ok child ∧
      h = s.executions.length ∧
      s' = { s with executions := s.executions ++ [s.beginning r c child] } := by
  rw [begin_eq] at begins
  split at begins
  · injection begins with hh hs
    contradiction
  · injection begins with hh hs
    contradiction
  · rename_i child hcheck hspawn
    injection begins with hh hs
    injection hh with hh
    exact ⟨child, hcheck, hspawn, hh.symm, hs.symm⟩

/-- Where nothing is begun the session stays as it is. -/
theorem begin_of_error {cause : RunError} (fails : s.begin spawn r c = (.error cause, s')) :
    s' = s ∧ (c.check = .error cause ∨ c.check = .ok () ∧ ∃ reason,
      spawn (pidOf s.executions.length) c = .error reason ∧
        cause = .spawn c.programText reason) := by
  rw [begin_eq] at fails
  split at fails
  · rename_i hcheck
    injection fails with hcause hs
    injection hcause with hcause
    exact ⟨hs.symm, .inl (hcause ▸ hcheck)⟩
  · rename_i reason hcheck hspawn
    injection fails with hcause hs
    injection hcause with hcause
    exact ⟨hs.symm, .inr ⟨hcheck, reason, hspawn, hcause.symm⟩⟩
  · injection fails with hcause hs
    contradiction

theorem execution?_begun (s : Session) (r : Runner) (c : Command) (child : Child) :
    ({ s with executions := s.executions ++ [s.beginning r c child] } : Session).execution?
      s.executions.length = some (s.beginning r c child) := by
  simp [execution?]

/-- An execution that is wired as it should be is not refused. -/
theorem refusal_of_follows {capacity : Capacity} {pid : Nat} {program : String} {child : Child}
    (hf : Follows h (r.execution capacity h pid program child) s) : s.refusal? h = none := by
  obtain ⟨e, hfound, hreaches⟩ := hf
  unfold refusal?
  rw [hfound, Option.map_some]
  split
  · rename_i cause hphase
    injection hphase with hphase
    exact absurd hphase (hreaches.wired.accepted cause)
  · rfl

/-- A run is handed over whenever it was begun. -/
theorem run_of_begun {s' : Session} (begins : s.begin spawn r c = (.ok h, s')) :
    s.run spawn r c = (.ok h, s'.advance (holds h Execution.returned)) := by
  obtain ⟨child, -, -, rfl, rfl⟩ := begin_cases begins
  have hfollows : Follows s.executions.length (s.beginning r c child) _ :=
    ⟨_, execution?_begun s r c child, .refl⟩
  have hnone := refusal_of_follows
    (hfollows.advance (holds s.executions.length Execution.returned))
  simp only [run, begins, hnone]

theorem run_of_unbegun {s' : Session} {cause : RunError}
    (fails : s.begin spawn r c = (.error cause, s')) : s.run spawn r c = (.error cause, s') := by
  simp only [run, fails]

theorem run_cases (hrun : s.run spawn r c = (.ok h, s')) :
    ∃ between, s.begin spawn r c = (.ok h, between) ∧
      s' = between.advance (holds h Execution.returned) := by
  cases hbegin : s.begin spawn r c with
  | mk begun between =>
    cases begun with
    | error cause =>
      rw [run_of_unbegun hbegin] at hrun
      injection hrun with hh
      contradiction
    | ok handle =>
      rw [run_of_begun hbegin] at hrun
      injection hrun with hh hs
      injection hh with hh
      subst hh
      exact ⟨between, rfl, hs.symm⟩

/-- How a run begins, if it does. -/
structure Begins (s : Session) (spawn : Spawn) (r : Runner) (c : Command) : Prop where
  /-- A run fails before its child was started, and for no other reason than that it cannot be. -/
  error : ∀ cause, (s.run spawn r c).1 = .error cause ↔
    c.check = .error cause ∨ c.check = .ok () ∧ ∃ reason,
      spawn (pidOf s.executions.length) c = .error reason ∧ cause = .spawn c.programText reason
  /-- Then no execution was begun, of which anybody could have heard, and nothing has changed. -/
  unbegun : ∀ cause, (s.run spawn r c).1 = .error cause →
    s.begin spawn r c = (.error cause, s) ∧ (s.run spawn r c).2 = s
  /-- Once the child was started the caller is given its execution. -/
  started : ∀ child, c.check = .ok () → spawn (pidOf s.executions.length) c = .ok child →
    ∃ s', s.run spawn r c = (.ok s.executions.length, s') ∧
      Follows s.executions.length (s.beginning r c child) s'

theorem begins (s : Session) (spawn : Spawn) (r : Runner) (c : Command) : Begins s spawn r c := by
  have hunbegun : ∀ cause, (s.run spawn r c).1 = .error cause →
      s.begin spawn r c = (.error cause, s) ∧ (s.run spawn r c).2 = s := by
    intro cause hrun
    cases hbegin : s.begin spawn r c with
    | mk begun s' =>
      cases begun with
      | error reason =>
        obtain ⟨rfl, -⟩ := begin_of_error hbegin
        rw [run_of_unbegun hbegin] at hrun ⊢
        injection hrun with hrun
        exact ⟨by rw [hrun], rfl⟩
      | ok h =>
        rw [run_of_begun hbegin] at hrun
        contradiction
  refine ⟨fun cause => ⟨fun hrun => ?_, ?_⟩, hunbegun, ?_⟩
  · exact (begin_of_error (hunbegun cause hrun).1).2
  · rintro (hcheck | ⟨hcheck, reason, hspawn, rfl⟩)
    · have hbegin : s.begin spawn r c = (.error cause, s) := by rw [begin_eq, hcheck]
      rw [run_of_unbegun hbegin]
    · have hbegin : s.begin spawn r c = (.error (.spawn c.programText reason), s) := by
        rw [begin_eq, hcheck, hspawn]
      rw [run_of_unbegun hbegin]
  · intro child hcheck hspawn
    have hbegin : s.begin spawn r c = (.ok s.executions.length,
        { s with executions := s.executions ++ [s.beginning r c child] }) := by
      rw [begin_eq, hcheck, hspawn]
    have hbegun : Follows s.executions.length (s.beginning r c child) _ :=
      ⟨_, execution?_begun s r c child, .refl⟩
    exact ⟨_, run_of_begun hbegin, hbegun.advance (holds s.executions.length Execution.returned)⟩

end Session

/-- A pipe is read for listeners, of which there are some. -/
theorem Execution.Wired.listeners_of_pipe {r : Runner} {e : Execution} (hw : Wired r e)
    {c : Channel} {p : Pipe} (pipe : e.outlets.get c = .pipe p) : e.lines.get c ≠ [] := by
  have hcaptured := hw.captured c
  rw [readable, pipe] at hcaptured
  have hcaptures : r.captures c = true := hcaptured.symm
  rw [Runner.captures, Bool.and_eq_true, Bool.not_eq_true', List.isEmpty_eq_false_iff] at hcaptures
  rw [hw.lines, PerChannel.get_ofFn]
  exact hcaptures.2

/-- An executor whose run fails gives back the session and the listeners as they were. -/
theorem Executor.supervised_of_error {tracker : Option String} {spawn : Session.Spawn}
    {s : Session} {c : Command} {w : Watchers} {cause : RunError}
    (h : (s.run spawn (runner tracker w) c).1 = .error cause) :
    supervised tracker spawn s c w = ⟨.error cause, w, s⟩ := by
  have hrun : s.run spawn (runner tracker w) c = (.error cause, s) :=
    Prod.ext h ((Session.begins s spawn _ c).unbegun cause h).2
  rw [supervised, running, hrun]

/-- The setups that make a runner are those in which output is captured for somebody or inherited
with nobody listening. A run with any runner fails at its start or not at all; and in whichever
order the parties of a begun run move, its readers can be made and it is never refused. -/
theorem runs_begin :
    (∀ mode routing (l : Listeners), (∃ r, Runner.new mode routing l = .ok r) ↔
      (routing = .captured ∧ (l.stdout ≠ [] ∨ l.stderr ≠ [])) ∨
      (routing = .inherited ∧ l.stdout = [] ∧ l.stderr = [])) ∧
    ∀ r : Runner, Runner.new r.mode r.routing r.listeners = .ok { r with tracker := none } ∧
      (∀ s spawn c, Session.Begins s spawn r c) ∧
      (∀ s spawn c w cause, r = Executor.runner r.tracker w →
        (s.run spawn r c).1 = .error cause →
        Executor.supervised r.tracker spawn s c w = ⟨.error cause, w, s⟩) ∧
      ∀ capacity handle pid program child (e : Execution),
        (r.execution capacity handle pid program child).Reaches e →
          (∀ cause, e.phase ≠ .refused cause) ∧ (∃ readers, e.newReaders = .ok readers) ∧
            ∀ c p, e.outlets.get c = .pipe p → e.lines.get c ≠ [] := by
  refine ⟨fun mode routing l => ?_, fun r => ⟨?_, ?_, ?_, ?_⟩⟩
  · exact Runner.new_isOk_iff.trans Routing.suits_iff
  · exact Runner.new_eq_ok_iff.mpr ⟨rfl, rfl, rfl, rfl⟩
  · exact fun s spawn c => Session.begins s spawn r c
  · intro s spawn c w cause hr hrun
    rw [hr] at hrun
    exact Executor.supervised_of_error hrun
  · intro capacity handle pid program child e hreaches
    have hw := hreaches.wired
    exact ⟨hw.accepted, ⟨_, hw.newReaders_eq⟩, fun c p => hw.listeners_of_pipe⟩

def quietWatchers : Watchers := ⟨Executor.gatherer, Executor.gatherer⟩

/-- A program that cannot be found leaves the session and the listeners alone; one that ends at once
is handed over. -/
theorem runs_begin_missing :
    let runner := Executor.runner (some "main") quietWatchers
    let missing : Session.Spawn := fun _ _ => .error .notFound
    let brief : Session.Spawn := fun _ _ => .ok (.ofActs [] (.exited 0))
    Session.empty.run missing runner (.new [99]) = (.error (.spawn "c" .notFound), .empty) ∧
      Executor.supervised (some "main") missing .empty (.new [99]) quietWatchers =
        ⟨.error (.spawn "c" .notFound), quietWatchers, .empty⟩ ∧
      ∃ s', Session.empty.run brief runner (.new [99]) = (.ok 0, s') := by
  intro runner missing brief
  obtain ⟨-, hbegins, hsupervised, -⟩ := runs_begin.2 runner
  have hmissing := hbegins .empty missing (.new [99])
  have hrun : (Session.empty.run missing runner (.new [99])).1 = .error (.spawn "c" .notFound) :=
    (hmissing.error _).mpr (.inr ⟨rfl, .notFound, rfl, rfl⟩)
  obtain ⟨s', hstarted, -⟩ := (hbegins .empty brief (.new [99])).started _ rfl rfl
  exact ⟨Prod.ext hrun (hmissing.unbegun _ hrun).2,
    hsupervised .empty missing (.new [99]) quietWatchers _ rfl hrun, s', hstarted⟩

end ToolRunner
