import ToolRunner.Proofs.Execution.Observation
import ToolRunner.Proofs.Execution.Reporting

/-!
# A run as a function of what it observes

When nobody destroys the handle of a run, its completion and the calls of its listeners follow from
what its reads and its waiting have brought, and from nothing else: not from the order in which the
parties have moved, nor from the mode (`Logs.outcome`).
-/

namespace ToolRunner

open SecondaryFailure

namespace Runner

/-- The reader of a channel when all that was brought is read, if the channel is captured. -/
def drained (r : Runner) (seen : List Observation) (channel : Channel) :
    Option (Line.Drain .standard) :=
  if r.captures channel then
    some ((readsOf channel seen).foldl Line.Drain.read (r.reader channel).drain)
  else none

/-- What start listeners see of a process that nobody has destroyed. -/
def starting (program : String) (pid : Nat) : Started := ⟨program, some pid, false⟩

/-- The code that waiting has given. -/
def exitCode (seen : List Observation) : Int :=
  ((waitsOf seen).head?.map codeOf).getD Completion.unknownExitCode

/-- What fails where the reader of a channel calls its listeners and reads. -/
def readerFailures (r : Runner) (seen : List Observation) (channel : Channel) :
    List SecondaryFailure :=
  (r.drained seen channel).elim [] (·.report.failures)

def report (r : Runner) (seen : List Observation) (channel : Channel) : Option Report :=
  (r.drained seen channel).map fun d => { d.report with failures := [] }

/-- The completion of an undisturbed run that has observed this. -/
def outcome (r : Runner) (program : String) (pid : Nat) (seen : List Observation) : Completion where
  exitCode := exitCode seen
  destroyed := false
  stdout := r.report seen .stdout
  stderr := r.report seen .stderr
  deferred :=
    callFailures .start r.listeners.start
        ((List.range r.listeners.start.length).map (·, starting program pid)) ++
      (waitsOf seen).filterMap waitFailure? ++ r.readerFailures seen .stdout ++
      r.readerFailures seen .stderr ++
      callFailures .exit r.listeners.exit
        ((List.range r.listeners.exit.length).map (·, exitCode seen))

/-- The listeners of an undisturbed run that has observed this, with the calls they have had. -/
def notified (r : Runner) (program : String) (pid : Nat) (seen : List Observation) :
    Listeners where
  start := r.listeners.start.map (·.call (starting program pid))
  stdout := (r.drained seen .stdout).elim (r.listeners.onLine .stdout) (·.listeners)
  stderr := (r.drained seen .stderr).elim (r.listeners.onLine .stderr) (·.listeners)
  exit := r.listeners.exit.map (·.call (exitCode seen))

end Runner

namespace Execution

variable {r : Runner} {e : Execution} {m : Move} {seen : List Observation}

/-- A failure of waiting is the one that is observed. -/
theorem ofSource_wait_raised (e : Execution) (m : Move) :
    ofSource .wait (e.raised m) = (waitsOf (e.observed m)).filterMap waitFailure? := by
  have hcalls {α : Type} (event : Event) (s : Source) (hne : s ≠ .wait)
      (hsource : ∀ index message, (listener event index message).source? = some s)
      (listeners : List (Registration α)) (calls : List (Nat × α)) :
      ofSource .wait (callFailures event listeners calls) = [] := by
    refine List.filter_eq_nil_iff.mpr fun f hf => ?_
    obtain ⟨call, -, hcall⟩ := List.mem_filterMap.mp hf
    obtain ⟨l, -, hfailure⟩ := Option.bind_eq_some_iff.mp hcall
    rw [Reaction.source_failure (hsource call.1) f (Option.mem_toList.mpr hfailure), beq_iff_eq]
    exact fun heq => hne (Option.some.inj heq)
  cases m with
  | supervisor =>
    have hnone : ofSource .wait (e.raised .supervisor) = [] := by
      simp only [raised]
      split
      · exact hcalls .start .start (by decide) (fun _ _ => rfl) _ _
      · exact hcalls .exit .exit (by decide) (fun _ _ => rfl) _ _
      · rfl
    rw [hnone, observed]
    split
    · cases e.child.status <;> rfl
    · rfl
  | reader c =>
    have hnone : ofSource .wait (e.raised (.reader c)) = [] := by
      refine List.filter_eq_nil_iff.mpr fun f hf => ?_
      obtain ⟨call, -, hcall⟩ := List.mem_filterMap.mp hf
      rw [Line.Call.failure?, Option.map_eq_some_iff] at hcall
      obtain ⟨message, -, rfl⟩ := hcall
      simp [source?]
    rw [hnone, observed]
    split
    · rename_i rd p _ _
      cases rd.arrival (e.closed c) p <;> rfl
    · rfl
  | _ => rfl

/-- What fails in a run goes with what it observes. -/
theorem Logs.raised_of_observed {start : Execution} (h : Logs observed start seen e) :
    ∃ log, Logs raised start log e ∧
      ofSource .wait log = (waitsOf seen).filterMap waitFailure? := by
  induction h with
  | refl => exact ⟨[], .refl, rfl⟩
  | @move before after seen m t t' reached step ih =>
    obtain ⟨log, hlog, hwait⟩ := ih
    refine ⟨_, hlog.move step, ?_⟩
    rw [waitsOf_append, List.filterMap_append, ← hwait, ← ofSource_wait_raised, ofSource,
      List.filter_append]
    rfl

section

variable {capacity : Capacity} {handle : Handle} {pid : Nat} {program : String} {child : Child}

/-- The readers of a run that is over have done what the reads have brought. -/
theorem Logs.drained (h : Logs observed (r.execution capacity handle pid program child) seen e)
    (done : e.done = true) (kept : e.destroyed = false) (c : Channel) :
    (e.readers.get c).map (·.drain) = r.drained seen c := by
  have hw := h.reaches.wired
  have hphase : e.phase = .finished := eq_of_beq done
  have hsome := hw.reads (by rw [hphase]; rfl) c
  rw [Runner.drained]
  cases hrd : e.readers.get c with
  | none =>
    rw [hrd] at hsome
    rw [← hsome]
    rfl
  | some rd =>
    rw [hrd] at hsome
    rw [← hsome, if_pos Option.isSome_some,
      (h.observes.reads kept c rd hrd).drain_eq (hw.joined c rd (by rw [hphase]; rfl) hrd)]
    rfl

theorem Logs.code_eq (h : Logs observed (r.execution capacity handle pid program child) seen e)
    (done : e.done = true) : e.code = Runner.exitCode seen := by
  have hreaped : e.phase.reaped = true := by
    rw [show e.phase = .finished from eq_of_beq done]
    rfl
  obtain ⟨wait, hwaits, hcode⟩ := h.observes.reaped hreaped
  rw [Runner.exitCode, hwaits, hcode]
  rfl

theorem Logs.starts_eq (h : Logs observed (r.execution capacity handle pid program child) seen e)
    (done : e.done = true) (kept : e.destroyed = false) :
    e.starts = (List.range r.listeners.start.length).map (·, Runner.starting program pid) := by
  have hnumbers := h.reaches.ordered.starts
  rw [show e.phase = .finished from eq_of_beq done] at hnumbers
  have hsame : e.starts.map (fun call => (call.1, Runner.starting program pid)) = e.starts := by
    refine (List.map_congr_left fun call hcall => ?_).trans (List.map_id _)
    exact congrArg (call.1, ·) (h.observes.starts kept call hcall).symm
  rw [← hsame, show List.range r.listeners.start.length = e.starts.map (·.1) from hnumbers.symm,
    List.map_map]
  rfl

/-- The completion of an undisturbed run, and who is notified in it and of what, follow from what
the run observes. -/
theorem Logs.outcome (h : Logs observed (r.execution capacity handle pid program child) seen e)
    (done : e.done = true) (kept : e.destroyed = false) :
    e.completion = r.outcome program pid seen ∧ e.listeners = r.notified program pid seen := by
  have hreaches := h.reaches
  have hcode := h.code_eq done
  have hdrained := h.drained done kept
  have hstarts := h.starts_eq done kept
  have hexits := hreaches.ordered.exits_eq
  rw [show e.phase = .finished from eq_of_beq done, hcode] at hexits
  replace hexits : e.exits =
    (List.range r.listeners.exit.length).map (·, Runner.exitCode seen) := hexits
  -- What fails is not observed as such, but the failures go with a run of the same moves.
  obtain ⟨log, hlog, hwait⟩ := h.raised_of_observed
  have hg := hlog.gathered
  constructor
  · have hkilled : e.killed = false := by
      rw [Bool.eq_false_iff]
      intro hkilled
      rw [h.observes.killed hkilled] at kept
      contradiction
    have hreport (c : Channel) : e.completion.report c = r.report seen c := by
      rw [report_of_done hreaches.collected done, Runner.report, ← hdrained, Option.map_map]
      rfl
    have hreported (c : Channel) : ofSource (.reader c) log = r.readerFailures seen c := by
      rw [← hg.reader, reported, Runner.readerFailures, ← hdrained]
      cases e.readers.get c <;> rfl
    have hdeferred : e.completion.deferred = (r.outcome program pid seen).deferred := by
      rw [hg.deferred_eq done]
      simp only [bySource, Source.all, List.flatMap_cons, List.flatMap_nil, List.append_nil,
        List.append_assoc, hg.starts, hg.exits, hstarts, hexits, hwait, hreported, Runner.outcome]
    show (⟨e.code, e.killed, e.completion.report .stdout, e.completion.report .stderr,
      e.completion.deferred⟩ : Completion) = _
    rw [hcode, hkilled, hreport, hreport, hdeferred]
    rfl
  · have honLine (c : Channel) :
        e.onLine c = (r.drained seen c).elim (r.listeners.onLine c) (·.listeners) := by
      rw [← hdrained, onLine]
      cases e.readers.get c with
      | none =>
        show e.lines.get c = _
        rw [hreaches.wired.lines, PerChannel.get_ofFn]
        rfl
      | some rd => rfl
    show (⟨e.start, e.onLine .stdout, e.onLine .stderr, e.exit⟩ : Listeners) = _
    rw [hreaches.recorded.start.all hstarts, honLine, honLine, hreaches.recorded.exit.all hexits]
    rfl

end

end Execution

end ToolRunner
