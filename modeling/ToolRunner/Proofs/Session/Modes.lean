import ToolRunner.Proofs.Execution.Outcome
import ToolRunner.Proofs.Execution.Tracking
import ToolRunner.Proofs.Session.Starting

/-!
# The two modes

A synchronous and an asynchronous run make the same moves (`Execution.steps_inMode`); they differ in
when the caller gets the execution, and so in whether it has the exit code by then. If they observe
the same of their children, and nobody destroys the handle, they end in the same way, in whichever
orders their parties have moved (`modes_agree`).
-/

namespace ToolRunner

def Runner.inMode (r : Runner) (mode : Mode) : Runner := { r with mode := mode }

def Execution.inMode (e : Execution) (mode : Mode) : Execution := { e with mode := mode }

/-- The guise that is the given mode. -/
def Guise.ofMode (mode : Mode) : Guise where
  mode _ := mode
  listener := id
  failures := id
  call_eq _ _ := rfl
  destroys_eq _ _ := rfl
  failure_eq _ _ _ _ := rfl
  failures_nil := rfl
  failures_append _ _ := rfl
  failures_read _ _ := rfl
  failures_wait _ := rfl

theorem Guise.execution_ofMode (mode : Mode) (e : Execution) :
    (ofMode mode).execution e = e.inMode mode := by
  have hreader : (ofMode mode).reader = id := by
    funext r
    simp [reader, drain, ofMode]
  have hsame {α : Type} (c : PerChannel α) : PerChannel.ofFn c.get = c := rfl
  rw [execution, hreader]
  simp [Execution.inMode, hsame, ofMode]

namespace Execution

variable {r : Runner} {e e' : Execution} {m : Move} {mode : Mode} {t t' : Tracker}

/-- The mode makes no difference to any moves. -/
theorem steps_inMode (e : Execution) (mode : Mode) (ms : List Move) (t : Tracker) :
    (e.inMode mode).steps ms t =
      (e.steps ms t).map fun after => (after.1, after.2.inMode mode) := by
  have hsteps := (Guise.ofMode mode).steps_eq e ms t
  simpa only [Guise.execution_ofMode] using hsteps

theorem Reaches.mode_eq {capacity : Capacity} {handle : Handle} {pid : Nat} {program : String}
    {child : Child} (h : (r.execution capacity handle pid program child).Reaches e) :
    e.mode = r.mode := by
  induction h with
  | refl => rfl
  | move reached step ih => cases step_change step <;> exact ih

theorem exitCode_of_asynchronous (h : e.mode = .asynchronous) : e.exitCode? = none := by
  rw [exitCode?, h]

/-- The caller of a synchronous run has it back when it is over. -/
theorem done_of_returned (hw : Wired r e) (h : e.mode = .synchronous)
    (returned : e.returned = true) : e.done = true := by
  unfold Execution.returned at returned
  rw [h] at returned
  cases hphase : e.phase with
  | finished => exact beq_iff_eq.mpr hphase
  | refused cause => exact absurd hphase (hw.accepted cause)
  | _ =>
    rw [hphase] at returned
    contradiction

/-- The caller of a synchronous run has the exit code as soon as it has the execution. -/
theorem exitCode_of_synchronous (hw : Wired r e) (h : e.mode = .synchronous)
    (returned : e.returned = true) : e.exitCode? = some e.completion.exitCode := by
  have hphase : e.phase = .finished := eq_of_beq (done_of_returned hw h returned)
  rw [exitCode?, h, hphase]
  rfl

/-- A run that has its tracker to itself is over, and nobody has destroyed its handle. -/
structure Concludes (start : Execution) (t : Tracker) (ms : List Move) (after : Tracker)
    (e : Execution) : Prop where
  steps : start.steps ms t = some (after, e)
  done : e.done = true
  kept : e.destroyed = false

end Execution

/-- What two runs observe of their children is the same, whatever comes first. -/
structure SameObserved (seen seen' : List Observation) : Prop where
  reads : ∀ c, readsOf c seen' = readsOf c seen
  waits : waitsOf seen' = waitsOf seen

section

variable {r : Runner} {mode : Mode} {seen seen' : List Observation}

theorem Runner.outcome_eq (h : SameObserved seen seen') (program : String) (pid : Nat) :
    r.outcome program pid seen' = r.outcome program pid seen ∧
      r.notified program pid seen' = r.notified program pid seen := by
  have hdrained (c : Channel) : r.drained seen' c = r.drained seen c := by
    rw [drained, h.reads]
    rfl
  have hcode : exitCode seen' = exitCode seen := by
    rw [exitCode, h.waits]
    rfl
  constructor
  · simp only [outcome, report, readerFailures, hdrained, hcode, h.waits]
  · simp only [notified, hdrained, hcode]

end

/-- A command runs in the two modes alike. It fails to start in one where it does in the other, and
then nothing has begun that could call a listener, and nothing has changed; any moves that are
possible in one mode are possible in the other. Two runs that observe the same of their children,
which may differ otherwise, and whose handles nobody destroys, have the same completion and the same
calls of all listeners, and leave the same tracker, whatever orders their parties move in. The
caller of the synchronous run has its exit code at once, that of the asynchronous one never before
it waits. -/
theorem modes_agree (r : Runner) :
    (∀ (s : Session) spawn c cause,
      ((s.run spawn (r.inMode .asynchronous) c).1 = .error cause ↔
        (s.run spawn (r.inMode .synchronous) c).1 = .error cause) ∧
      ((s.run spawn (r.inMode .synchronous) c).1 = .error cause →
        ∀ mode, s.begin spawn (r.inMode mode) c = (.error cause, s) ∧
          s.run spawn (r.inMode mode) c = (.error cause, s))) ∧
    (∀ capacity handle pid program child ms t,
      ((r.inMode .asynchronous).execution capacity handle pid program child).steps ms t =
        (((r.inMode .synchronous).execution capacity handle pid program child).steps ms t).map
          fun after => (after.1, after.2.inMode .asynchronous)) ∧
    (∀ capacity handle pid program child e,
      (((r.inMode .synchronous).execution capacity handle pid program child).Reaches e →
        e.returned = true → e.exitCode? = some e.completion.exitCode) ∧
      (((r.inMode .asynchronous).execution capacity handle pid program child).Reaches e →
        e.exitCode? = none)) ∧
    ∀ handle pid program t capacity child ms after e capacity' child' ms' after' e',
      ((r.inMode .synchronous).execution capacity handle pid program child).Concludes
        t ms after e →
      ((r.inMode .asynchronous).execution capacity' handle pid program child').Concludes
        t ms' after' e' →
      SameObserved
        (Execution.seen Execution.observed ms t
          ((r.inMode .synchronous).execution capacity handle pid program child))
        (Execution.seen Execution.observed ms' t
          ((r.inMode .asynchronous).execution capacity' handle pid program child')) →
      e'.completion = e.completion ∧ e'.listeners = e.listeners ∧ after' = after := by
  refine ⟨fun s spawn c cause => ?_, ?_, ?_, ?_⟩
  · have hsame (mode : Mode) : (s.run spawn (r.inMode mode) c).1 = .error cause ↔
        (s.run spawn (r.inMode .synchronous) c).1 = .error cause := by
      rw [(Session.begins s spawn _ c).error, (Session.begins s spawn _ c).error]
    refine ⟨hsame .asynchronous, fun hrun mode => ?_⟩
    have hfails := (hsame mode).mpr hrun
    obtain ⟨hbegin, hsession⟩ := (Session.begins s spawn _ c).unbegun cause hfails
    exact ⟨hbegin, Prod.ext hfails hsession⟩
  · intro capacity handle pid program child ms t
    exact Execution.steps_inMode
      ((r.inMode .synchronous).execution capacity handle pid program child) .asynchronous ms t
  · intro capacity handle pid program child e
    exact ⟨fun h => Execution.exitCode_of_synchronous h.wired h.mode_eq,
      fun h => Execution.exitCode_of_asynchronous h.mode_eq⟩
  · intro handle pid program t capacity child ms after e capacity' child' ms' after' e' h h' hsame
    obtain ⟨hcompletion, hlisteners⟩ :=
      (Execution.logs_of_steps Execution.observed h.steps).outcome h.done h.kept
    obtain ⟨hcompletion', hlisteners'⟩ :=
      (Execution.logs_of_steps Execution.observed h'.steps).outcome h'.done h'.kept
    obtain ⟨houtcome, hnotified⟩ := Runner.outcome_eq (r := r) hsame program pid
    refine ⟨?_, ?_, ?_⟩
    · rw [hcompletion, hcompletion']
      exact houtcome
    · rw [hlisteners, hlisteners']
      exact hnotified
    · rw [Execution.tracker_of_steps h.steps h.done, Execution.tracker_of_steps h'.steps h'.done]
      rfl

/-- A runner whose listeners all fail. -/
def failingRunner : Runner :=
  (Execution.uniformRunner ⟨.failed ["full"], false⟩).withTracker "main"

def failingRun (mode : Mode) (capacity : Capacity) : Execution :=
  (failingRunner.inMode mode).execution capacity 0 100 "cat"
    (.ofActs [.write .stdout [97, 10], .write .stderr [98, 10]] (.exited 3))

/-- The child is waited for before anything is read. -/
def lateReads : List Move :=
  [.supervisor, .supervisor, .supervisor, .supervisor, .child none, .child none, .child none,
    .supervisor, .reader .stdout, .reader .stdout, .reader .stdout, .reader .stdout,
    .reader .stdout, .supervisor, .reader .stderr, .reader .stderr, .reader .stderr,
    .reader .stderr, .reader .stderr, .supervisor, .supervisor, .supervisor, .supervisor]

/-- The error stream is read first, as soon as something is there, and waiting comes last. -/
def earlyReads : List Move :=
  [.supervisor, .supervisor, .supervisor, .reader .stderr, .reader .stdout, .child none,
    .supervisor, .child none, .reader .stderr, .reader .stderr, .reader .stdout, .reader .stdout,
    .child none, .reader .stderr, .reader .stdout, .reader .stderr, .reader .stdout, .supervisor,
    .supervisor, .supervisor, .supervisor, .supervisor, .supervisor]

/-- A synchronous run whose readers come late, and an asynchronous one, with less room in its pipes,
whose readers are early. -/
theorem modes_agree_schedules :
    ∃ after e e', (failingRun .synchronous .standard).Concludes .new lateReads after e ∧
      (failingRun .asynchronous ⟨4, by decide⟩).Concludes .new earlyReads after e' ∧
      e'.completion = e.completion ∧ e'.listeners = e.listeners ∧
      e.completion = ⟨3, false, some ⟨.stdout, 1, false, []⟩, some ⟨.stderr, 1, false, []⟩,
        [.listener .start 0 "full", .listener (.line .stdout) 0 "full",
          .listener (.line .stderr) 0 "full", .listener .exit 0 "full"]⟩ ∧
      e.exitCode? = some 3 ∧ e'.exitCode? = none := by
  have hlate : ((failingRun .synchronous .standard).steps lateReads .new).map
      (fun after => (after.2.done, after.2.destroyed, after.2.completion, after.2.exitCode?)) =
        some (true, false, ⟨3, false, some ⟨.stdout, 1, false, []⟩, some ⟨.stderr, 1, false, []⟩,
          [.listener .start 0 "full", .listener (.line .stdout) 0 "full",
            .listener (.line .stderr) 0 "full", .listener .exit 0 "full"]⟩, some 3) := by
    decide +kernel
  have hearly : ((failingRun .asynchronous ⟨4, by decide⟩).steps earlyReads .new).map
      (fun after => (after.2.done, after.2.destroyed, after.2.exitCode?)) =
        some (true, false, none) := by decide +kernel
  obtain ⟨⟨after, e⟩, hsteps, hend⟩ := Option.map_eq_some_iff.mp hlate
  obtain ⟨⟨after', e'⟩, hsteps', hend'⟩ := Option.map_eq_some_iff.mp hearly
  simp only [Prod.mk.injEq] at hend hend'
  obtain ⟨hdone, hkept, hcompletion, hcode⟩ := hend
  obtain ⟨hdone', hkept', hcode'⟩ := hend'
  have hsame : SameObserved
      (Execution.seen Execution.observed lateReads .new (failingRun .synchronous .standard))
      (Execution.seen Execution.observed earlyReads .new
        (failingRun .asynchronous ⟨4, by decide⟩)) :=
    ⟨fun c => by cases c <;> decide +kernel, by decide +kernel⟩
  obtain ⟨-, -, -, hagree⟩ := modes_agree failingRunner
  obtain ⟨hsameCompletion, hlisteners, rfl⟩ := hagree 0 100 "cat" .new .standard _ lateReads after e
    ⟨4, by decide⟩ _ earlyReads after' e' ⟨hsteps, hdone, hkept⟩ ⟨hsteps', hdone', hkept'⟩ hsame
  exact ⟨after', e, e', ⟨hsteps, hdone, hkept⟩, ⟨hsteps', hdone', hkept'⟩, hsameCompletion,
    hlisteners, hcompletion, hcode, hcode'⟩

end ToolRunner
