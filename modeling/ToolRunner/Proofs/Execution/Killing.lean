import ToolRunner.Proofs.Execution.ExitCode
import ToolRunner.Proofs.Execution.Failing
import ToolRunner.Proofs.Execution.Notification

/-!
# What a kill has to do with the exit code

The supervisor kills a child at most once, when it sees the destroyed handle, and the child may have
ended by itself before that without anybody having seen it. Killing it changes nothing then: the run
is said to be destroyed, and its code is that of the child (`destroyed_code_iff`).
-/

namespace ToolRunner

/-- Whether the supervisor does not look at the handle any more. -/
def Phase.unheeding (phase : Phase) : Bool := phase == .reaping || phase.reaped

namespace Execution

open SecondaryFailure

variable {r : Runner} {e e' : Execution} {m : Move} {log : List (Option Ending)}

/-- A kill, as how the child had ended before it, if it had. -/
def kills (e : Execution) : Move → List (Option Ending)
  | .cancellation => [e.child.status]
  | _ => []

/-- What is known of the kills of a run. -/
structure Struck (log : List (Option Ending)) (e : Execution) : Prop where
  spared : e.killed = false → log = []
  unheeding : e.killed = true → e.phase.unheeding = true
  /-- The kill is the end of a child that has not ended before. -/
  status : e.killed = true →
    ∃ before, log = [before] ∧ e.child.status = some (before.getD .killed)

namespace Struck

/-- A change that is not a kill. -/
theorem keep (h : Struck log e) (nothing : e.kills m = []) (killed : e'.killed = e.killed)
    (unheeding : e.phase.unheeding = true → e'.phase.unheeding = true)
    (status : ∀ ending, e.child.status = some ending → e'.child.status = some ending) :
    Struck (log ++ e.kills m) e' := by
  rw [nothing, List.append_nil]
  constructor
  · intro hspared
    exact h.spared (killed ▸ hspared)
  · intro hkilled
    exact unheeding (h.unheeding (killed ▸ hkilled))
  · intro hkilled
    obtain ⟨before, hlog, hstatus⟩ := h.status (killed ▸ hkilled)
    exact ⟨before, hlog, status _ hstatus⟩

/-- The supervisor goes on. -/
theorem advance (h : Struck log e) (killed : e'.killed = e.killed) (child : e'.child = e.child)
    (unheeding : e.phase.unheeding = true → e'.phase.unheeding = true) :
    Struck (log ++ e.kills .supervisor) e' :=
  h.keep rfl killed unheeding fun ending hs => by rwa [child]

theorem kill (h : Struck log e) (at_ : e.phase = .waiting) :
    Struck (log ++ e.kills .cancellation)
      { e with child := e.child.kill, killed := true, phase := .reaping } := by
  have hspared : e.killed = false := by
    refine Bool.eq_false_iff.mpr fun hkilled => ?_
    have hunheeding := h.unheeding hkilled
    rw [at_] at hunheeding
    contradiction
  constructor
  · intro hnot
    contradiction
  · exact fun _ => rfl
  · intro _
    refine ⟨e.child.status, ?_, ?_⟩
    · rw [h.spared hspared]
      rfl
    · show e.child.kill.status = _
      rw [Child.status_kill]
      cases e.child.status <;> rfl

/-- What is known of the kills stays known. -/
theorem change (h : Struck log e) (hc : Change e m e') : Struck (log ++ e.kills m) e' := by
  cases hc with
  | killed at_ destroyed => exact h.kill at_
  | acted which child outlets signals turn pipes => exact h.keep rfl rfl id fun _ => turn.status
  | read m c rd p s reader pipe going turn made =>
    have hnothing : e.kills m = [] := by
      rcases Reader.made_cases made with ⟨rfl, -⟩ | ⟨message, rfl, -⟩ <;> rfl
    exact h.keep hnothing rfl id fun _ hs => hs
  | waitFailed message at_ ended => exact h.keep rfl rfl (fun _ => rfl) fun _ hs => hs
  | destroyed => exact h.keep rfl rfl id fun _ hs => hs
  | refused cause at_ wires =>
    refine h.keep rfl rfl ?_ fun _ hs => Child.status_finish hs .killed
    rw [at_]
    nofun
  | skipped c at_ unread => exact h.advance rfl rfl fun _ => by cases c <;> rfl
  | joined c rd at_ reader finished => exact h.advance rfl rfl fun _ => by cases c <;> rfl
  | registered id at_ => exact h.advance rfl rfl (by rw [at_]; nofun)
  | wired readers at_ wires => exact h.advance rfl rfl (by rw [at_]; nofun)
  | startCalled next l at_ listener => exact h.advance rfl rfl (by rw [at_]; nofun)
  | startsDone next at_ none_left => exact h.advance rfl rfl (by rw [at_]; nofun)
  | reaped ending at_ status => exact h.advance rfl rfl fun _ => rfl
  | released at_ => exact h.advance rfl rfl fun _ => rfl
  | exitCalled next l at_ listener => exact h.advance rfl rfl fun _ => rfl
  | exitsDone next at_ none_left => exact h.advance rfl rfl fun _ => rfl

end Struck

section

variable {capacity : Capacity} {handle : Handle} {pid : Nat} {program : String} {child : Child}

theorem Logs.struck (h : Logs kills (r.execution capacity handle pid program child) log e) :
    Struck log e :=
  h.invariant ⟨fun _ => rfl, nofun, nofun⟩ fun _ hs hc => hs.change hc

/-- Only waiting adds failures of waiting, and it adds them to the late ones. -/
theorem Reaches.wait_mem_deferred_iff
    (h : (r.execution capacity handle pid program child).Reaches e) (message : String) :
    .wait message ∈ e.completion.deferred ↔ .wait message ∈ e.failures := by
  obtain ⟨raised, hraised⟩ := h.logs raised
  have hnone : .wait message ∉ e.startFailures := by
    rw [hraised.gathered.start, ofSource, List.mem_filter]
    rintro ⟨-, hsource⟩
    contradiction
  exact List.mem_append.trans (or_iff_right hnone)

/-- The code of a run that is over. -/
theorem Reaches.coded_of_done
    (h : (r.execution capacity handle pid program child).Reaches e) (done : e.done = true) :
    Coded e := by
  refine h.waited.after ?_
  rw [show e.phase = .finished from eq_of_beq done]
  rfl

/-- A run whose child was killed has the code of a child that had ended by itself before, exactly if
waiting did not fail and that code is another than the unknown one; else its code is unknown. The
exit listeners are given the code that the completion has. -/
theorem destroyed_code_iff
    (h : Logs kills (r.execution capacity handle pid program child) log e) (done : e.done = true)
    (destroyed : e.completion.destroyed = true) :
    ∃ before, log = [before] ∧ e.child.status = some (before.getD .killed) ∧
      e.exit = r.listeners.exit.map (·.call e.completion.exitCode) ∧
      (e.completion.exitCode = -1 ↔
        (∃ message, .wait message ∈ e.completion.deferred) ∨
          ∀ code, before = some (.exited code) → code = -1) ∧
      (e.completion.exitCode ≠ -1 → before = some (.exited e.completion.exitCode)) := by
  obtain ⟨before, hlog, hstatus⟩ := h.struck.status destroyed
  refine ⟨before, hlog, hstatus, h.reaches.exit_of_done done, ?_⟩
  show (e.code = -1 ↔ _) ∧ (e.code ≠ -1 → before = some (.exited e.code))
  cases h.reaches.coded_of_done done with
  | unknown message hcode hwait =>
    have hdeferred := (h.reaches.wait_mem_deferred_iff message).mpr hwait
    exact ⟨iff_of_true hcode (.inl ⟨message, hdeferred⟩), fun hne => absurd hcode hne⟩
  | waited ending hending hcode hwaits =>
    have hnone : ¬ ∃ message, .wait message ∈ e.completion.deferred := by
      rintro ⟨message, hmem⟩
      exact hwaits message ((h.reaches.wait_mem_deferred_iff message).mp hmem)
    rw [hstatus] at hending
    injection hending with hending
    rw [or_iff_right hnone]
    -- A child that had not ended by itself, or whose end had no code, has none after the kill.
    match before, hending with
    | none, hending | some .killed, hending =>
      rw [← hending] at hcode
      exact ⟨iff_of_true hcode nofun, fun hne => absurd hcode hne⟩
    | some (.exited code), hending =>
      rw [← hending] at hcode
      have hcode : e.code = code := hcode
      rw [hcode]
      refine ⟨⟨fun h code' heq => ?_, fun h => h code rfl⟩, fun _ => rfl⟩
      injection heq with heq
      injection heq with heq
      rw [← heq, h]

end

/-- A runner that passes the output on and notifies one listener of the exit. -/
def passingRunner : Runner where
  mode := .synchronous
  routing := .inherited
  listeners := { exit := [.ofReaction fun _ => .quiet] }
  suits := rfl
  tracker := none

/-- A run of a child that ends by itself at once. -/
def briefRun : Execution :=
  passingRunner.execution .standard 0 100 "sh" (.ofActs [] (.exited 7))

/-- The child has ended when its handle is destroyed, and the supervisor sees the handle first. -/
def belatedMoves : List Move :=
  [.supervisor, .supervisor, .supervisor, .child none, .destroy, .cancellation, .supervisor,
    .supervisor, .supervisor, .supervisor, .supervisor, .supervisor]

theorem belatedMoves_run :
    (briefRun.steps belatedMoves .new).map
      (fun after => (after.2.done, after.2.completion, after.2.exit.map (·.received))) =
        some (true, ⟨7, true, none, none, []⟩, [[7]]) := by
  decide +kernel

theorem destroyed_code_iff_belated :
    ∃ e, Logs kills briefRun [some (.exited 7)] e ∧ e.done = true ∧
      e.completion.destroyed = true ∧ e.completion.exitCode ≠ -1 ∧
      e.exit = passingRunner.listeners.exit.map (·.call e.completion.exitCode) := by
  obtain ⟨after, hsteps, heq⟩ := Option.map_eq_some_iff.mp belatedMoves_run
  simp only [Prod.mk.injEq] at heq
  obtain ⟨hdone, hcompletion, -⟩ := heq
  have hlogs : Logs kills briefRun [some (.exited 7)] after.2 := logs_of_steps kills hsteps
  have hdestroyed : after.2.completion.destroyed = true := by rw [hcompletion]
  obtain ⟨before, hbefore, -, hexit, hunknown, -⟩ := destroyed_code_iff hlogs hdone hdestroyed
  refine ⟨after.2, hlogs, hdone, hdestroyed, fun hcode => ?_, hexit⟩
  injection hbefore with hbefore
  rcases hunknown.mp hcode with ⟨message, hmem⟩ | hnone
  · rw [hcompletion] at hmem
    contradiction
  · exact absurd (hnone 7 hbefore.symm) (by decide)

/-- A run can be said to be destroyed and have, and tell its exit listeners, the code with which its
child ended by itself. -/
theorem destroyed_with_code_of_child :
    ∃ e, briefRun.Reaches e ∧ e.done = true ∧ e.completion.destroyed = true ∧
      e.completion.exitCode = 7 ∧ e.exit.map (·.received) = [[7]] := by
  obtain ⟨after, hsteps, heq⟩ := Option.map_eq_some_iff.mp belatedMoves_run
  simp only [Prod.mk.injEq] at heq
  obtain ⟨hdone, hcompletion, hexit⟩ := heq
  exact ⟨after.2, reaches_of_steps hsteps, hdone, by rw [hcompletion], by rw [hcompletion], hexit⟩

end Execution

end ToolRunner
