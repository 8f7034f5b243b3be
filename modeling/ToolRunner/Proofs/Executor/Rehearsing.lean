import ToolRunner.Executor.Rehearsed
import ToolRunner.Proofs.Executor.Answering
import ToolRunner.Proofs.Session.Undisturbed
import ToolRunner.Proofs.Text.Encoding

/-!
# Rehearsals and runs

A rehearsal stands for the run of a child that writes its lines and ends with its exit code. The run
goes through pipes, reads and pieces, but lines below the cap come out of them as they went in
(`Line.pieces_ofLines`), so the listeners hear the same. Of the error stream the two executors keep
different texts, the lines with a line feed between them or with one after each. That difference
ends where an error is shown, since its message leaves out the blanks at the end
(`message_nonZeroExit_gathered`).
-/

namespace ToolRunner

/-! ## Lines in a stream -/

namespace Line

open Bytes

variable {cap : Cap} {lines : List String}

def ofLines (lines : List String) : Bytes :=
  lines.flatMap fun line => ofString line ++ [newline]

theorem ofLines_cons (line : String) (lines : List String) :
    ofLines (line :: lines) = ofString line ++ newline :: ofLines lines := by
  rw [ofLines, List.flatMap_cons, List.append_assoc]
  rfl

/-- Whether a text goes through a stream as one line and one piece. -/
structure Fits (cap : Cap) (line : String) : Prop where
  oneLine : Utf8.OneLine line
  short : (ofString line).length < cap.size

theorem Fits.newline_not_mem {line : String} (h : Fits cap line) : newline ∉ ofString line :=
  fun hmem => h.oneLine ((Utf8.mem_ofString (by decide)).mp hmem)

theorem splitOn_ofLines (h : ∀ line ∈ lines, Fits cap line) :
    splitOn newline (ofLines lines) = lines.map ofString ++ [[]] := by
  induction lines with
  | nil => rfl
  | cons line lines ih =>
    obtain ⟨hline, hlines⟩ := List.forall_mem_cons.mp h
    rw [ofLines_cons, splitOn_line hline.newline_not_mem, ih hlines]
    rfl

theorem short_ofLines (h : ∀ line ∈ lines, Fits cap line) : Short cap (ofLines lines) := by
  intro run hrun
  rw [splitOn_ofLines h, List.mem_append, List.mem_map, List.mem_singleton] at hrun
  rcases hrun with ⟨line, hline, rfl⟩ | rfl
  · exact (h line hline).short
  · exact cap.pos

theorem segments_ofLines (h : ∀ line ∈ lines, Fits cap line) :
    segments cap (ofLines lines) = lines.map ofString := by
  induction lines with
  | nil => exact segments_short_tail List.not_mem_nil cap.pos
  | cons line lines ih =>
    obtain ⟨hline, hlines⟩ := List.forall_mem_cons.mp h
    rw [ofLines_cons, segments_short_line hline.newline_not_mem hline.short.le, ih hlines]
    rfl

/-- Lines that fit come out of a stream as they went in, wherever the reads end. -/
theorem pieces_ofLines {reads : List Bytes} (nonempty : ∀ read ∈ reads, read ≠ [])
    (h : ∀ line ∈ lines, Fits cap line)
    (brought : reads.flatten = ofLines lines) :
    (pieces (.empty : Partial cap) reads).map (·.text) = lines := by
  have hshort : Short cap reads.flatten := brought ▸ short_ofLines h
  rw [texts_pieces nonempty hshort, brought, segments_ofLines h, List.map_map]
  exact (List.map_congr_left fun line _ => Utf8.decode_ofString line).trans (List.map_id lines)

end Line

/-! ## What a message shows of a text -/

namespace Text

/-- A blank at the end is left out with the others there. -/
theorem trimEnd_append_blank {c : Char} (blank : isBlank c = true) (cs : List Char) :
    trimEnd (cs ++ [c]) = trimEnd cs := by
  rw [trimEnd, List.reverse_append, List.reverse_singleton, List.singleton_append,
    List.dropWhile_cons_of_pos blank]
  rfl

theorem trimStart_append_blank_eq_nil_iff {c : Char} (blank : isBlank c = true) (cs : List Char) :
    trimStart (cs ++ [c]) = [] ↔ trimStart cs = [] := by
  simp only [trimStart_eq_nil_iff, List.mem_append, List.mem_singleton]
  constructor
  · exact fun h c hc => h c (.inl hc)
  · rintro h c (hc | rfl)
    · exact h c hc
    · exact blank

end Text

/-- Lines with a line feed after each are the lines with one between them, and one at the end. -/
theorem gathered_eq_intercalate {lines : List String} (hne : lines ≠ []) :
    gathered lines = ("\n".intercalate lines).push '\n' := by
  induction lines with
  | nil => contradiction
  | cons line lines ih =>
    rw [gathered_cons]
    cases lines with
    | nil => simp [gathered]
    | cons next lines =>
      rw [ih (List.cons_ne_nil _ _), String.intercalate_cons_cons, ← Utf8.append_push]
      apply String.ext
      simp

namespace RunError

theorem stderrPart_push (text : String) : stderrPart (text.push '\n') = stderrPart text := by
  have hblank : Text.isBlank '\n' = true := by decide
  simp only [stderrPart, String.toList_push, Text.trimStart_append_blank_eq_nil_iff hblank,
    Text.trimEnd_append_blank hblank]

theorem stderrPart_gathered (lines : List String) :
    stderrPart (gathered lines) = stderrPart ("\n".intercalate lines) := by
  by_cases hne : lines = []
  · subst hne
    simp [gathered]
  · exact (congrArg stderrPart (gathered_eq_intercalate hne)).trans (stderrPart_push _)

/-- The message of an error is the same whether or not the last line has a line feed. -/
theorem message_nonZeroExit_gathered (program : String) (code : Int) (lines : List String)
    (failures : List SecondaryFailure) :
    message (.nonZeroExit program code (gathered lines) failures) =
      message (.nonZeroExit program code ("\n".intercalate lines) failures) :=
  congrArg (program ++ " exited with non-zero exit code: " ++ toString code ++ · ++
    failuresPart failures) (stderrPart_gathered lines)

end RunError

namespace Executor

theorem each_runner {q : ∀ {α : Type}, Registration α → Prop} {w : Watchers}
    (stdout : q w.stdout) (stderr : q w.stderr) (gathers : q gatherer) (tracker : Option String) :
    (runner tracker w).listeners.Each q where
  start := List.forall_mem_nil _
  lines c := by
    cases c with
    | stdout => exact List.forall_mem_singleton.mpr stdout
    | stderr => exact List.forall_mem_cons.mpr ⟨stderr, List.forall_mem_singleton.mpr gathers⟩
  exit := List.forall_mem_nil _

theorem running_eq {run : Running} {tracker : Option String} {s s' : Session} {c : Command}
    {w : Watchers} {h : Handle} {e : Execution} (hrun : run s (runner tracker w) c = (.ok h, s'))
    (found : s'.execution? h = some e) :
    running run tracker s c w = ofExecution c.programText w s' e := by
  simp only [running, hrun, found]

end Executor

/-! ## What a rehearsal plays -/

namespace Rehearsal

variable {p : Rehearsal} {program : String} {w : Watchers} {child : Child}

def lines (p : Rehearsal) : Channel → List String
  | .stdout => p.stdout
  | .stderr => p.stderr

/-- A child that does in earnest what a rehearsal plays. -/
structure Performs (p : Rehearsal) (child : Child) : Prop where
  writes : ∀ channel, child.main.output channel = Line.ofLines (p.lines channel)
  ending : child.ending = .exited p.exitCode
  running : child.status = none
  alone : child.background = []

theorem Performs.delay (h : p.Performs child) (time : Nat) : p.Performs (child.delay time) where
  writes := h.writes
  ending := h.ending
  running := h.running
  alone := by
    rw [Child.delay, h.alone]
    rfl

theorem play_faultless {r : Registration String} (h : r.Faultless) (lines : List String) :
    play lines r = (none, r.callAll lines) := by
  induction lines generalizing r with
  | nil => rfl
  | cons line lines ih =>
    have hdone : (r.reaction line).outcome.error? = none := by
      rw [Registration.reaction, h]
      rfl
    rw [play, hdone]
    exact ih (h.callAll [line])

/-- Listeners that never fail get all lines. -/
theorem execute_faultless (stdout : w.stdout.Faultless) (stderr : w.stderr.Faultless)
    (noted : List Command) (c : Command) :
    p.execute noted c w =
      ⟨p.outcome c.programText, ⟨w.stdout.callAll p.stdout, w.stderr.callAll p.stderr⟩,
        noted ++ [c]⟩ := by
  simp only [execute, play_faultless stdout, play_faultless stderr]

/-! ## Both executors -/

/-- A rehearsal `x` and a run `y` have come to the same: the listeners have heard the lines, and if
there is an error, it is the same but for the text that it keeps of the error stream, and it shows
the same message. -/
structure Agrees (p : Rehearsal) (program : String) (w : Watchers) (x : Executed (List Command))
    (y : Executed Session) : Prop where
  rehearsed : x.watchers = ⟨w.stdout.callAll p.stdout, w.stderr.callAll p.stderr⟩
  heard : y.watchers = x.watchers
  ok : p.exitCode = 0 → x.result = .ok () ∧ y.result = .ok ()
  nonZeroExit : p.exitCode ≠ 0 → ∃ text text',
    x.result = .error (.nonZeroExit program p.exitCode text []) ∧
      y.result = .error (.nonZeroExit program p.exitCode text' []) ∧
      text = "\n".intercalate p.stderr ∧ text' = gathered p.stderr ∧
      (p.stderr ≠ [] → text' = text.push '\n') ∧
      RunError.message (.nonZeroExit program p.exitCode text []) =
        RunError.message (.nonZeroExit program p.exitCode text' [])

section

open Executor

variable {tracker : Option String} {capacity : Capacity} {handle : Handle} {pid : Nat}
variable {log : List (Execution × Move)} {e : Execution}

/-- The lines of a child go through the pipes unchanged. -/
theorem Performs.told_eq (performs : p.Performs child)
    (fits : ∀ channel, ∀ line ∈ p.lines channel, Line.Fits .standard line)
    (faultless : (runner tracker w).listeners.Each Registration.Faultless)
    (h : ((runner tracker w).execution capacity handle pid program child).Course log e)
    (own : Execution.Own log) (done : e.done = true) (kept : e.destroyed = false)
    (channel : Channel) : e.told channel = p.lines channel := by
  have hne : (runner tracker w).listeners.onLine channel ≠ [] := by cases channel <;> nofun
  obtain ⟨htold, -⟩ := h.writes.told_eq hne (h.undisturbed own faultless done kept channel)
  have hchunks : (e.chunks channel).flatten = Line.ofLines (p.lines channel) :=
    (h.chunks_eq own faultless done kept performs.alone hne).trans (performs.writes channel)
  rw [htold]
  exact Line.pieces_ofLines (fun chunk hchunk => (h.writes.kept.fits _ _ hchunk).1) (fits channel)
    hchunks

theorem Performs.agrees {noted : List Command} {c : Command} {s : Session}
    (performs : p.Performs child)
    (fits : ∀ channel, ∀ line ∈ p.lines channel, Line.Fits .standard line)
    (stdout : w.stdout.Faultless) (stderr : w.stderr.Faultless)
    (h : ((runner tracker w).execution capacity handle pid c.programText child).Course log e)
    (own : Execution.Own log) (done : e.done = true) (kept : e.destroyed = false) :
    p.Agrees c.programText w (p.execute noted c w) (ofExecution c.programText w s e) := by
  have hfaultless : (runner tracker w).listeners.Each Registration.Faultless :=
    each_runner stdout stderr (fun _ _ => rfl) tracker
  have htold (channel : Channel) : e.told channel = p.lines channel :=
    performs.told_eq fits hfaultless h own done kept channel
  have hcode : e.completion.exitCode = p.exitCode := by
    refine (h.code_eq own hfaultless performs.running done kept).trans ?_
    rw [performs.ending]
    rfl
  have hnone := h.deferred_eq own hfaultless done
  rw [execute_faultless stdout stderr, ofExecution_eq h.reaches.recorded, htold, htold]
  refine ⟨rfl, rfl, fun hzero => ⟨if_pos hzero, ?_⟩, fun hne => ?_⟩
  · rw [outcome_of_zero (hcode.trans hzero), if_pos hnone]
  · refine ⟨_, _, if_neg hne, ?_, rfl, rfl, gathered_eq_intercalate, ?_⟩
    · rw [outcome_of_nonzero (hcode.trans_ne hne), hcode, hnone]
      rfl
    · exact (RunError.message_nonZeroExit_gathered _ _ _ _).symm

/-- A rehearsal agrees with every run of a child that performs it, in whichever order its parties
move, as long as nothing fails and nobody destroys the run. A session brings such a run to its end,
and only a listener can destroy it there. -/
theorem execute_agrees (p : Rehearsal) (tracker : Option String) (s : Session) (c : Command)
    (w : Watchers) (noted : List Command)
    (fits : ∀ channel, ∀ line ∈ p.lines channel, Line.Fits .standard line)
    (stdout : w.stdout.Faultless) (stderr : w.stderr.Faultless) :
    (∀ (run : Running) s' h capacity pid child log e, p.Performs child →
      run s (runner tracker w) c = (.ok h, s') → s'.execution? h = some e →
      ((runner tracker w).execution capacity h pid c.programText child).Course log e →
      Execution.Own log → e.done = true → e.destroyed = false →
        p.Agrees c.programText w (p.execute noted c w) (running run tracker s c w)) ∧
    ∀ (spawn : Session.Spawn) child, p.Performs child → c.check = .ok () →
      spawn (Session.pidOf s.executions.length) c = .ok child → child.Finishes →
      ∃ log e, (s.beginning (runner tracker w) c child).Course log e ∧ Execution.Own log ∧
        e.done = true ∧
        (supervised tracker spawn s c w).state.execution? s.executions.length = some e ∧
        (w.stdout.Calm → w.stderr.Calm → e.destroyed = false) ∧
        (e.destroyed = false →
          p.Agrees c.programText w (p.execute noted c w) (supervised tracker spawn s c w)) := by
  constructor
  · intro run s' h capacity pid child log e performs hrun found course own done kept
    rw [running_eq hrun found]
    exact performs.agrees fits stdout stderr course own done kept
  · intro spawn child performs check spawned finishes
    obtain ⟨s', e, hrun, found, hreaches, done⟩ :=
      Session.run_done (r := runner tracker w) rfl check spawned finishes
    obtain ⟨log, e', found', course, own⟩ := Session.run_own spawned hrun
    obtain rfl : e' = e := Option.some.inj (found'.symm.trans found)
    have hsupervised : supervised tracker spawn s c w = ofExecution c.programText w s' e' :=
      running_eq hrun found
    have hstate : (ofExecution c.programText w s' e').state = s' := by
      rw [ofExecution_eq (Execution.Reaches.recorded hreaches)]
    rw [hsupervised, hstate]
    refine ⟨log, e', course, own, done, found, fun hstdout hstderr => ?_, fun kept => ?_⟩
    · exact course.kept own (each_runner hstdout hstderr (fun _ _ => rfl) tracker)
    · exact (performs.delay _).agrees fits stdout stderr course own done kept

/-- A rehearsal whose last lines of the error stream are blank, one of them empty. -/
def blankEnd : Rehearsal := ⟨["a", ""], ["x", " \t", ""], 3⟩

/-- A program that performs it, and writes the error stream in between. -/
def blankEnder : Child :=
  .ofActs [.write .stdout [97], .write .stderr [120, 10, 32], .write .stdout [10, 10],
    .write .stderr [9, 10, 10]] (.exited 3)

theorem execute_agrees_blank :
    let w : Watchers := ⟨gatherer, gatherer⟩
    let x := blankEnd.execute [] (.new [99]) w
    let y := supervised none (fun _ _ => .ok blankEnder) .empty (.new [99]) w
    (∀ channel, ∀ line ∈ blankEnd.lines channel, Line.Fits .standard line) ∧
      blankEnd.Performs blankEnder ∧
      y.watchers.stderr.received = ["x", " \t", ""] ∧
      x.result = .error (.nonZeroExit "c" 3 "x\n \t\n" []) ∧
      y.result = .error (.nonZeroExit "c" 3 "x\n \t\n\n" []) ∧
      RunError.message (.nonZeroExit "c" 3 "x\n \t\n" []) =
        "c exited with non-zero exit code: 3\nstderr:\nx" ∧
      blankEnd.Agrees "c" w x y ∧
      blankEnd.Agrees "c" w x
        (running (fun _ _ _ => (.ok 0, y.state)) none .empty (.new [99]) w) := by
  intro w x y
  have hquiet : gatherer.Faultless ∧ gatherer.Calm := ⟨fun _ _ => rfl, fun _ _ => rfl⟩
  have hfits : ∀ channel, ∀ line ∈ blankEnd.lines channel, Line.Fits .standard line := by
    intro channel line hline
    have h : '\n' ∉ line.toList ∧ (Bytes.ofString line).length < Line.Cap.standard.size := by
      revert line
      cases channel <;> decide
    exact ⟨h.1, h.2⟩
  have hperforms : blankEnd.Performs blankEnder :=
    ⟨fun channel => by cases channel <;> decide, rfl, rfl, rfl⟩
  obtain ⟨hany, hsupervised⟩ :=
    execute_agrees blankEnd none .empty (.new [99]) w [] hfits hquiet.1 hquiet.1
  obtain ⟨log, e, hcourse, hown, hdone, hfound, hcalm, hagrees⟩ :=
    hsupervised (fun _ _ => .ok blankEnder) blankEnder hperforms rfl rfl
      (Child.finishes_ofActs (by decide) _)
  have hkept : e.destroyed = false := hcalm hquiet.2 hquiet.2
  have hagree := hagrees hkept
  obtain ⟨text, text', hx, hy, htext, htext', -, -⟩ := hagree.nonZeroExit (by decide)
  have hbetween : text = "x\n \t\n" := htext.trans (by decide +kernel)
  have hafter : text' = "x\n \t\n\n" := htext'.trans (by decide +kernel)
  refine ⟨hfits, hperforms, ?_, hbetween ▸ hx, hafter ▸ hy, by decide +kernel, hagree, ?_⟩
  · rw [hagree.heard, hagree.rehearsed]
    exact Registration.received_callAll gatherer blankEnd.stderr
  · exact hany _ _ 0 _ _ _ log e (hperforms.delay _) rfl hfound hcourse hown hdone hkept

end

end Rehearsal

end ToolRunner
