import ToolRunner.Proofs.Execution.Failing
import ToolRunner.Proofs.Execution.Muting

/-!
# What a completion reports of the failures of a run

When a run is over, its completion reports everything that failed around it, each failure once and
one source after another, whichever parties failed and in whichever order; it is an error exactly
when something failed. How callbacks fail changes nothing else (`Reaches.failures_reported`).
-/

namespace ToolRunner.Execution

open SecondaryFailure

variable {r : Runner} {e : Execution} {log : List SecondaryFailure}

/-- How a completion reports what has failed, where `log` is that in the order in which it
failed. -/
structure Reports (r : Runner) (log : List SecondaryFailure) (e : Execution) : Prop where
  /-- One source after another. -/
  deferred : e.completion.deferred =
    ofSource .start log ++ ofSource .wait log ++ ofSource (.reader .stdout) log ++
      ofSource (.reader .stderr) log ++ ofSource .exit log
  /-- Nothing is lost, and nothing is reported twice. -/
  once : e.completion.deferred.Perm log
  start : ofSource .start log = callFailures .start r.listeners.start e.starts
  wait : (ofSource .wait log).length ≤ 1
  /-- A reader's failures are those of its calls, and last that of a read. -/
  reader : ∀ c rd, e.readers.get c = some rd → ofSource (.reader c) log =
    (Line.calls (r.listeners.onLine c) (e.told c)).filterMap (·.failure? c) ++
      Line.Stop.readFailure c rd.drain.stop
  unread : ∀ c, e.readers.get c = none → ofSource (.reader c) log = []
  exit : ofSource .exit log = callFailures .exit r.listeners.exit e.exits
  /-- The reports are those of the readers, but that their failures have been taken out. -/
  report : ∀ c, e.completion.report c =
    (e.readers.get c).map fun rd => { rd.drain.report with failures := [] }
  result : e.completion.result =
    if log = [] then .ok e.code else .error (.deferred e.completion.deferred)

theorem Gathered.deferred_eq (h : Gathered r log e) (done : e.done = true) :
    e.completion.deferred = bySource Source.all log := by
  have hcollected := h.collected
  rw [show e.phase = .finished from eq_of_beq done] at hcollected
  show e.startFailures ++ e.failures = _
  rw [h.start, hcollected]
  rfl

theorem Gathered.deferred_perm (h : Gathered r log e) (done : e.done = true) :
    e.completion.deferred.Perm log := by
  rw [h.deferred_eq done]
  refine bySource_perm (by decide) fun f hf => ?_
  obtain ⟨s, hs⟩ := Option.isSome_iff_exists.mp (h.sources f hf)
  refine ⟨s, ?_, hs⟩
  cases s with
  | reader c => cases c <;> decide
  | _ => decide

/-- Where each failure is gathered as it should be, they are all reported in the end. -/
theorem Gathered.reports (hg : Gathered r log e) (ha : Accounted r e) (hc : Collected e)
    (done : e.done = true) : Reports r log e := by
  constructor
  · rw [hg.deferred_eq done]
    simp [bySource, Source.all]
  · exact hg.deferred_perm done
  · exact hg.starts
  · exact hg.waits
  · intro c rd hrd
    rw [← hg.reader, ← (ha c rd hrd).failures_eq, reported, hrd]
    rfl
  · intro c hrd
    rw [← hg.reader, reported, hrd]
  · exact hg.exits
  · exact report_of_done hc done
  · have hnil : e.completion.deferred = [] ↔ log = [] := by
      have hperm := hg.deferred_perm done
      constructor
      · intro hdeferred
        exact (hdeferred ▸ hperm).nil_eq.symm
      · intro hlog
        exact (hlog ▸ hperm).eq_nil
    rw [Completion.result]
    simp only [hnil]
    rfl

/-- A run that is over is reported in full, however it came to its end: what failed is in the
completion, in order of its sources. In a run whose listeners fail otherwise all can go the same
way, up to the exit code and who is told of it. -/
theorem Reaches.failures_reported {capacity : Capacity} {handle : Handle} {pid : Nat}
    {program : String} {child : Child}
    (h : (r.execution capacity handle pid program child).Reaches e) (done : e.done = true) :
    (∃ log, Logs raised (r.execution capacity handle pid program child) log e) ∧
    (∀ log, Logs raised (r.execution capacity handle pid program child) log e →
      Reports r log e) ∧
    ∀ r' : Runner, r'.Alike r →
      ∃ e', (r'.execution capacity handle pid program child).Reaches e' ∧ e'.done = true ∧
        e'.completion.exitCode = e.completion.exitCode ∧ e'.history = e.history ∧
        e'.exit = r'.listeners.exit.map (·.call e.completion.exitCode) ∧
        (∀ c, e'.completion.report c = e.completion.report c) ∧
        uncalled e'.completion.deferred = uncalled e.completion.deferred := by
  refine ⟨h.logs raised, fun log hlogs => ?_, fun r' alike => ?_⟩
  · exact hlogs.gathered.reports h.accounted h.collected done
  · obtain ⟨e', hreaches', hmuted⟩ :=
      Guise.muted.follow h (execution_muted alike capacity handle pid program child)
    have hphase : e'.phase = e.phase := congrArg (·.phase) hmuted
    have hcode : e'.code = e.code := congrArg (·.code) hmuted
    have hreports : e'.reports = e.reports := congrArg (·.reports) hmuted
    have hdone : e'.done = true := by rwa [Execution.done, hphase]
    refine ⟨e', hreaches', hdone, hcode, congrArg (·.history) hmuted, ?_, ?_, ?_⟩
    · rw [hreaches'.exit_of_done hdone, hcode]
      rfl
    · intro c
      cases c
      · exact congrArg PerChannel.stdout hreports
      · exact congrArg PerChannel.stderr hreports
    · have hstart := congrArg Execution.startFailures hmuted
      have hfailures := congrArg Execution.failures hmuted
      show uncalled (e'.startFailures ++ e'.failures) = uncalled (e.startFailures ++ e.failures)
      rw [uncalled_append, uncalled_append]
      exact congrArg₂ (· ++ ·) hstart hfailures

/-- A runner that has listeners of every kind, which all do the same. -/
def uniformRunner (reaction : Reaction) : Runner where
  mode := .synchronous
  routing := .captured
  listeners :=
    { start := [.ofReaction fun _ => reaction]
      stdout := [.ofReaction fun _ => reaction]
      stderr := [.ofReaction fun _ => reaction]
      exit := [.ofReaction fun _ => reaction] }
  suits := rfl
  tracker := none

def uniformRun (reaction : Reaction) : Execution :=
  (uniformRunner reaction).execution .standard 0 100 "cat"
    (.ofActs [.write .stdout [97, 10], .write .stderr [98, 10]] (.exited 3))

/-- An order of moves in which everything fails that can: the listeners, a read, and waiting. -/
def breakingMoves : List Move :=
  [.supervisor, .supervisor, .supervisor, .supervisor, .child none, .child none, .child none,
    .reader .stderr, .reader .stderr, .reader .stderr, .reader .stdout, .reader .stdout,
    .reader .stdout, .reader .stdout, .readFailure .stdout "broken", .waitFailure "lost",
    .reader .stderr, .reader .stderr, .supervisor, .supervisor, .supervisor, .supervisor,
    .supervisor]

/-- What failed first on the error stream is reported after what failed on the output. -/
theorem failures_reported_breaking :
    ∃ log e e', Logs raised (uniformRun ⟨.panicked (some "full"), false⟩) log e ∧
      log = [.listener .start 0 "panicked: full", .listener (.line .stderr) 0 "panicked: full",
        .listener (.line .stdout) 0 "panicked: full", .read .stdout "broken", .wait "lost",
        .listener .exit 0 "panicked: full"] ∧
      Reports (uniformRunner ⟨.panicked (some "full"), false⟩) log e ∧
      e.completion.deferred = [.listener .start 0 "panicked: full", .wait "lost",
        .listener (.line .stdout) 0 "panicked: full", .read .stdout "broken",
        .listener (.line .stderr) 0 "panicked: full", .listener .exit 0 "panicked: full"] ∧
      (uniformRun .quiet).Reaches e' ∧ e'.completion.exitCode = e.completion.exitCode ∧
      uncalled e'.completion.deferred = [.wait "lost", .read .stdout "broken"] := by
  have hrun : ((uniformRun ⟨.panicked (some "full"), false⟩).steps breakingMoves .new).map
      (·.2.done) = some true := by decide +kernel
  obtain ⟨⟨t, e⟩, hsteps, hdone⟩ := Option.map_eq_some_iff.mp hrun
  have hreached := reaches_of_steps hsteps
  have hlogs := logs_of_steps raised hsteps
  have hlog : seen raised breakingMoves .new (uniformRun ⟨.panicked (some "full"), false⟩) =
      [.listener .start 0 "panicked: full", .listener (.line .stderr) 0 "panicked: full",
        .listener (.line .stdout) 0 "panicked: full", .read .stdout "broken", .wait "lost",
        .listener .exit 0 "panicked: full"] := by decide +kernel
  rw [hlog] at hlogs
  have halike : (uniformRunner .quiet).Alike (uniformRunner ⟨.panicked (some "full"), false⟩) :=
    ⟨rfl, rfl, rfl, rfl⟩
  obtain ⟨-, hall, hfollow⟩ := Reaches.failures_reported hreached hdone
  have hreports := hall _ hlogs
  obtain ⟨e', hreaches, -, hcode, -, -, -, huncalled⟩ := hfollow _ halike
  refine ⟨_, e, e', hlogs, rfl, hreports, ?_, hreaches, hcode, ?_⟩
  · rw [hreports.deferred]
    rfl
  · rw [huncalled, hreports.deferred]
    rfl

end ToolRunner.Execution
