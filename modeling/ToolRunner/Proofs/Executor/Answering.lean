import ToolRunner.Proofs.Execution.ExitCode
import ToolRunner.Proofs.Execution.Reporting
import ToolRunner.Proofs.Line.RoundTrip
import ToolRunner.Proofs.Session.Ending

/-!
# What an executor answers

An executor has one listener more than its caller on the error stream, which hears every line that
the caller's listener is called with, however that one comes back. When the run is over, the exit
code and what was collected decide between three answers, and an exit code that is not zero comes
with the lines that were heard (`Answers`). That holds however the run was brought to its end; a
child that does not hang is brought to its end by the session itself (`running_answers`).
-/

namespace ToolRunner

namespace Line

open Bytes

theorem texts_pieces {cap : Cap} {reads : List Bytes} (nonempty : ∀ read ∈ reads, read ≠ [])
    (short : Short cap reads.flatten) :
    (pieces (.empty : Partial cap) reads).map (·.text) =
      (segments cap reads.flatten).map Utf8.decode := by
  have hstart : Follows (.empty : Partial cap) [] := follows_empty (by simp [unended])
  have hsegments : (pieces (.empty : Partial cap) reads).map (·.bytes) =
      segments cap reads.flatten := pieces_eq_segments hstart nonempty (strays_of_short short)
  rw [← hsegments, List.map_map]
  rfl

/-- The lines of pieces below the cap, gathered again, are the text of the stream, with a line feed
at its end. -/
theorem gathered_pieces {cap : Cap} {reads : List Bytes} (nonempty : ∀ read ∈ reads, read ≠ [])
    (short : Short cap reads.flatten) :
    gathered ((pieces (.empty : Partial cap) reads).map (·.text)) =
      Utf8.decode reads.flatten ++
        if reads.flatten = [] ∨ reads.flatten.getLast? = some newline then "" else "\n" := by
  rw [texts_pieces nonempty short, gathered_segments short]
  simp only [unended_eq_nil_iff]

end Line

namespace Executor

variable {program text : String} {w : Watchers} {s : Session} {c : Completion} {e : Execution}
variable {tracker : Option String} {failures : List SecondaryFailure}

/-! ## Three answers -/

theorem outcome_of_zero (h : c.exitCode = 0) :
    outcome program text c = if c.deferred = [] then .ok () else .error (.deferred c.deferred) := by
  have hsuccess : c.success = true := beq_iff_eq.mpr h
  rw [outcome, if_pos hsuccess, Completion.result]
  split <;> rfl

theorem outcome_of_nonzero (h : c.exitCode ≠ 0) :
    outcome program text c = .error (.nonZeroExit program c.exitCode text c.deferred) :=
  if_neg fun hsuccess => h (beq_iff_eq.mp hsuccess)

theorem outcome_eq_ok_iff :
    outcome program text c = .ok () ↔ c.exitCode = 0 ∧ c.deferred = [] := by
  by_cases hcode : c.exitCode = 0
  · rw [outcome_of_zero hcode]
    by_cases hnone : c.deferred = []
    · simp [hcode, hnone]
    · simp [hnone]
  · rw [outcome_of_nonzero hcode]
    simp [hcode]

theorem outcome_eq_deferred_iff :
    outcome program text c = .error (.deferred failures) ↔
      c.exitCode = 0 ∧ failures = c.deferred ∧ failures ≠ [] := by
  by_cases hcode : c.exitCode = 0
  · rw [outcome_of_zero hcode]
    by_cases hnone : c.deferred = []
    · simp +contextual [hnone]
    · rw [if_neg hnone]
      constructor
      · intro h
        injection h with h
        injection h with h
        exact ⟨hcode, h.symm, h ▸ hnone⟩
      · rintro ⟨-, rfl, -⟩
        rfl
  · rw [outcome_of_nonzero hcode]
    simp [hcode]

theorem outcome_eq_nonZeroExit_iff {program' text' : String} {code : Int} :
    outcome program text c = .error (.nonZeroExit program' code text' failures) ↔
      code ≠ 0 ∧ code = c.exitCode ∧ program' = program ∧ text' = text ∧ failures = c.deferred := by
  by_cases hcode : c.exitCode = 0
  · rw [outcome_of_zero hcode]
    constructor
    · intro h
      split at h <;> cases h
    · rintro ⟨hne, rfl, -⟩
      exact absurd hcode hne
  · rw [outcome_of_nonzero hcode]
    constructor
    · intro h
      injection h with h
      injection h with h₁ h₂ h₃ h₄
      subst h₁ h₂ h₃ h₄
      exact ⟨hcode, rfl, rfl, rfl, rfl⟩
    · rintro ⟨-, rfl, rfl, rfl, rfl⟩
      rfl

/-! ## Who has heard what -/

/-- The caller's listeners have heard all lines, and so has the one that gathers the error
stream. -/
theorem ofExecution_eq (hr : Execution.Recorded (runner tracker w) e) :
    ofExecution program w s e =
      ⟨outcome program (gathered (e.told .stderr)) e.completion,
        ⟨w.stdout.callAll (e.told .stdout), w.stderr.callAll (e.told .stderr)⟩, s⟩ := by
  have hstdout : e.onLine .stdout = [w.stdout.callAll (e.told .stdout)] := hr.lines .stdout
  have hstderr : e.onLine .stderr =
      [w.stderr.callAll (e.told .stderr), gatherer.callAll (e.told .stderr)] := hr.lines .stderr
  have hgathered : (gatherer.callAll (e.told .stderr)).received = e.told .stderr := by
    rw [Registration.received_callAll]
    rfl
  rw [ofExecution, hstdout, hstderr]
  simp only [hgathered]

/-- No line of a channel is as long as a piece may be. -/
abbrev Short (bytes : Bytes) : Prop := Line.Short .standard bytes

/-- The text of what was written, which ends with a line feed if there is any. -/
def textOf (bytes : Bytes) : String :=
  Utf8.decode bytes ++ if bytes = [] ∨ bytes.getLast? = some Bytes.newline then "" else "\n"

/-- What an executor has answered when the run of a command is over: `start` is the execution that
was begun, and `puts` what its child has written. -/
structure Answers (tracker : Option String) (program : String) (w : Watchers) (start : Execution)
    (puts : List Put) (e : Execution) (x : Executed Session) : Prop where
  ok : x.result = .ok () ↔ e.code = 0 ∧ e.completion.deferred = []
  deferred : ∀ failures, x.result = .error (.deferred failures) ↔
    e.code = 0 ∧ failures = e.completion.deferred ∧ failures ≠ []
  nonZeroExit : ∀ program' code text failures,
    x.result = .error (.nonZeroExit program' code text failures) ↔
      code ≠ 0 ∧ code = e.code ∧ program' = program ∧ text = gathered (e.told .stderr) ∧
        failures = e.completion.deferred
  /-- The exit code is that of the child, and -1 where there is none. -/
  code : e.Coded
  /-- The lines are those that the caller's listeners were called with, whether or not they
  failed. -/
  heard : x.watchers = ⟨w.stdout.callAll (e.told .stdout), w.stderr.callAll (e.told .stderr)⟩
  /-- All that has failed is collected, in order of its sources. -/
  collected : ∀ log, Execution.Logs Execution.raised start log e →
    Execution.Reports (runner tracker w) log e
  /-- If nothing was destroyed and no read failed, the lines are all that was written. -/
  text : e.destroyed = false → (∀ message, .read .stderr message ∉ e.completion.deferred) →
    Short (written .stderr puts) → gathered (e.told .stderr) = textOf (written .stderr puts)

section

variable {capacity : Capacity} {handle : Handle} {pid : Nat} {child : Child} {puts : List Put}

theorem ofExecution_answers
    (h : ((runner tracker w).execution capacity handle pid program child).Writes puts e)
    (done : e.done = true) :
    Answers tracker program w ((runner tracker w).execution capacity handle pid program child)
      puts e (ofExecution program w s e) := by
  have hreaches := h.reaches
  rw [ofExecution_eq hreaches.recorded]
  constructor
  · exact outcome_eq_ok_iff
  · exact fun failures => outcome_eq_deferred_iff
  · exact fun program' code text failures => outcome_eq_nonZeroExit_iff
  · refine hreaches.waited.after ?_
    rw [show e.phase = .finished from eq_of_beq done]
    rfl
  · rfl
  · exact fun log hlogs => hlogs.gathered.reports hreaches.accounted hreaches.collected done
  · intro kept read short
    have hu : Execution.Undisturbed .stderr e := ⟨done, kept, read⟩
    have hne : (runner tracker w).listeners.onLine .stderr ≠ [] := by nofun
    obtain ⟨htold, -⟩ := h.told_eq hne hu
    have hread := (h.delivered hne hu).read
    have hnonempty : ∀ chunk ∈ e.chunks .stderr, chunk ≠ [] :=
      fun chunk hchunk => (h.kept.fits .stderr chunk hchunk).1
    rw [← hread] at short ⊢
    rw [htold]
    exact Line.gathered_pieces hnonempty short

end

/-- An executor answers for the run of its command, with what its listeners were called with, in
whichever way the run was brought to its end. Where the command is in order and its program can be
started and does not hang, the session brings it to its end. -/
theorem running_answers (tracker : Option String) (s : Session) (c : Command) (w : Watchers) :
    (∀ (run : Running) s' h capacity pid child puts e,
      run s (runner tracker w) c = (.ok h, s') → s'.execution? h = some e →
      ((runner tracker w).execution capacity h pid c.programText child).Writes puts e →
      e.done = true →
        Answers tracker c.programText w
          ((runner tracker w).execution capacity h pid c.programText child) puts e
          (running run tracker s c w)) ∧
    ∀ (spawn : Session.Spawn) child, c.check = .ok () →
      spawn (Session.pidOf s.executions.length) c = .ok child → child.Finishes →
      ∃ puts e, (s.beginning (runner tracker w) c child).Writes puts e ∧ e.done = true ∧
        (supervised tracker spawn s c w).state.execution? s.executions.length = some e ∧
        Answers tracker c.programText w (s.beginning (runner tracker w) c child) puts e
          (supervised tracker spawn s c w) := by
  have hrunning (run : Running) (s' : Session) (h : Handle) (e : Execution)
      (hrun : run s (runner tracker w) c = (.ok h, s')) (found : s'.execution? h = some e) :
      running run tracker s c w = ofExecution c.programText w s' e := by
    simp only [running, hrun, found]
  constructor
  · intro run s' h capacity pid child puts e hrun found hwrites hdone
    rw [hrunning run s' h e hrun found]
    exact ofExecution_answers hwrites hdone
  · intro spawn child check spawned finishes
    obtain ⟨s', e, hrun, found, hreaches, hdone⟩ :=
      Session.run_done (r := runner tracker w) rfl check spawned finishes
    obtain ⟨puts, hwrites⟩ := hreaches.writes
    have hsupervised : supervised tracker spawn s c w = ofExecution c.programText w s' e :=
      hrunning _ s' _ e hrun found
    have hstate : (ofExecution c.programText w s' e).state = s' := by
      rw [ofExecution_eq (Execution.Reaches.recorded hreaches)]
    rw [hsupervised, hstate]
    exact ⟨puts, e, hwrites, hdone, found, ofExecution_answers hwrites hdone⟩

/-- The listener of the error stream fails at the second of two lines. -/
def halfDeaf : Watchers where
  stdout := gatherer
  stderr := .ofReaction fun line => if line = "b" then ⟨.failed ["full"], false⟩ else .quiet

/-- A program that writes two lines, of which the second has no end, and goes wrong. -/
def grumble : Session.Spawn := fun _ _ =>
  .ok (.ofActs [.write .stderr [97, 10, 98], .write .stdout [99]] (.exited 3))

theorem running_answers_failing :
    let x := supervised none grumble .empty (.new [99]) halfDeaf
    let start := Session.empty.beginning (runner none halfDeaf) (.new [99])
      (.ofActs [.write .stderr [97, 10, 98], .write .stdout [99]] (.exited 3))
    x.result = .error (.nonZeroExit "c" 3 "a\nb\n" [.listener (.line .stderr) 0 "full"]) ∧
      ∃ puts e, e.done = true ∧ e.code = 3 ∧ e.told .stderr = ["a", "b"] ∧
        Answers none "c" halfDeaf start puts e x ∧
        Answers none "c" halfDeaf start puts e
          (running (fun _ _ _ => (.ok 0, x.state)) none .empty (.new [99]) halfDeaf) := by
  intro x start
  have hresult : x.result =
      .error (.nonZeroExit "c" 3 "a\nb\n" [.listener (.line .stderr) 0 "full"]) := by
    decide +kernel
  obtain ⟨hany, hsupervised⟩ := running_answers none .empty (.new [99]) halfDeaf
  obtain ⟨puts, e, hwrites, hdone, found, hanswers⟩ :=
    hsupervised grumble _ rfl rfl (Child.finishes_ofActs (by decide) _)
  have htold : (x.state.execution? 0).map (·.told .stderr) = some ["a", "b"] := by decide +kernel
  have hfound : x.state.execution? 0 = some e := found
  rw [hfound] at htold
  obtain ⟨-, hcode, -⟩ := (hanswers.nonZeroExit _ _ _ _).mp hresult
  exact ⟨hresult, puts, e, hdone, hcode.symm, Option.some.inj htold, hanswers,
    hany _ _ 0 _ _ _ puts e rfl hfound hwrites hdone⟩

end Executor

end ToolRunner
