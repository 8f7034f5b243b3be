import ToolRunner.Proofs.Execution.Flow
import ToolRunner.Proofs.Line.Stopping

/-!
# What a run delivers of its output

When a run is over that was not disturbed on a channel, the listeners of the channel have got the
lines of all bytes that were written on it, as a reader of a scripted stream gives them, and the
completion has the report of that reader. Both depend on the chunks in which the bytes were read and
on nothing else, so that two runs that differ in everything but these deliver the same
(`Writes.delivers`).
-/

namespace ToolRunner

def Completion.report (c : Completion) : Channel → Option Report
  | .stdout => c.stdout
  | .stderr => c.stderr

namespace Phase

theorem joined_afterJoining (c d : Channel) :
    (Execution.afterJoining c).joined d = (d == c || (joining c).joined d) := by
  cases c <;> cases d <;> rfl

theorem not_joined_joining (c : Channel) : (joining c).joined c = false := by
  cases c <;> rfl

end Phase

namespace Execution

variable {r : Runner} {e e' : Execution} {m : Move} {log : List Put}

/-! ## The reports that the supervisor collects -/

/-- The supervisor has the reports of the readers that it has joined, and their failures. -/
structure Collected (e : Execution) : Prop where
  reports : ∀ c, e.reports.get c = if e.phase.joined c then
    (e.readers.get c).map fun rd => { rd.drain.report with failures := [] } else none
  failures : ∀ c rd, e.phase.joined c = true → e.readers.get c = some rd →
    ∀ f ∈ rd.drain.report.failures, f ∈ e.failures

namespace Collected

theorem keep (h : Collected e) (joined : ∀ c, e'.phase.joined c = e.phase.joined c)
    (readers : ∀ c, e.phase.joined c = true → e'.readers.get c = e.readers.get c)
    (reports : e'.reports = e.reports) (failures : ∀ f ∈ e.failures, f ∈ e'.failures) :
    Collected e' := by
  constructor
  · intro c
    rw [reports, h.reports, joined]
    by_cases hj : e.phase.joined c = true
    · rw [if_pos hj, if_pos hj, readers c hj]
    · rw [if_neg hj, if_neg hj]
  · intro c rd hj hrd f hf
    rw [joined] at hj
    rw [readers c hj] at hrd
    exact failures f (h.failures c rd hj hrd f hf)

theorem joining (h : Collected e) {c : Channel} (at_ : e.phase = .joining c)
    {reports : PerChannel (Option Report)} {failures : List SecondaryFailure}
    (same : reports.get c =
      (e.readers.get c).map fun rd => { rd.drain.report with failures := [] })
    (other : ∀ d ≠ c, reports.get d = e.reports.get d)
    (added : ∀ rd, e.readers.get c = some rd → ∀ f ∈ rd.drain.report.failures, f ∈ failures)
    (kept : ∀ f ∈ e.failures, f ∈ failures) :
    Collected { e with failures := failures, reports := reports, phase := afterJoining c } := by
  constructor
  · intro d
    show reports.get d = if (afterJoining c).joined d = true then _ else _
    rw [Phase.joined_afterJoining]
    by_cases hd : d = c
    · rw [hd, beq_self_eq_true, Bool.true_or, if_pos rfl]
      exact same
    · rw [beq_false_of_ne hd, Bool.false_or, other d hd, h.reports, at_]
  · intro d rd hj hrd f hf
    by_cases hd : d = c
    · exact added rd (hd ▸ hrd) f hf
    · replace hj : (afterJoining c).joined d = true := hj
      rw [Phase.joined_afterJoining, beq_false_of_ne hd, Bool.false_or, ← at_] at hj
      exact kept f (h.failures d rd hj hrd f hf)

theorem read (h : Collected e) (hw : Wired r e) {c : Channel} {rd : Reader} {s : ReaderStep}
    (reader : e.readers.get c = some rd) (going : rd.finished = false) :
    Collected (e.afterReader c s) := by
  refine h.keep (fun _ => rfl) (fun d hj => ?_) rfl fun _ hf => hf
  refine readers_afterReader_other e ?_ s
  rintro rfl
  have hfinished := hw.joined d rd hj reader
  rw [going] at hfinished
  contradiction

theorem change (h : Collected e) (hw : Wired r e) (hc : Change e m e') : Collected e' := by
  have hsame {f : SecondaryFailure} (hf : f ∈ e.failures) : f ∈ e.failures := hf
  have hmore {more : List SecondaryFailure} {f : SecondaryFailure} (hf : f ∈ e.failures) :
      f ∈ e.failures ++ more := List.mem_append_left _ hf
  cases hc with
  | skipped c at_ unread =>
    have hnone : e.reports.get c = none := by
      rw [h.reports, at_, Phase.not_joined_joining]
      rfl
    refine h.joining at_ ?_ (fun _ _ => rfl) ?_ fun _ => hsame
    · rw [hnone, unread]
      rfl
    · intro rd hrd
      rw [unread] at hrd
      contradiction
  | joined c rd at_ reader finished =>
    refine h.joining at_ ?_ (fun d hd => PerChannel.get_set_other _ hd _) ?_ fun _ => hmore
    · rw [PerChannel.get_set_same, reader]
      rfl
    · intro rd' hrd' f hf
      rw [reader] at hrd'
      injection hrd' with hrd'
      rw [hrd']
      exact List.mem_append_right _ hf
  | read m c rd p s reader pipe going turn => exact h.read hw reader going
  | wired readers at_ wires =>
    refine h.keep (fun c => by rw [at_]; rfl) (fun c hj => ?_) rfl fun _ => hsame
    rw [at_] at hj
    contradiction
  | reaped ending at_ status =>
    rcases at_ with at_ | at_ <;>
      exact h.keep (fun c => by rw [at_]; cases c <;> rfl) (fun _ _ => rfl) rfl fun _ => hsame
  | waitFailed message at_ ended =>
    rcases at_ with at_ | at_ <;>
      exact h.keep (fun c => by rw [at_]; cases c <;> rfl) (fun _ _ => rfl) rfl fun _ => hmore
  | exitCalled next l at_ listener =>
    exact h.keep (fun c => by rw [at_]; rfl) (fun _ _ => rfl) rfl fun _ => hmore
  | startCalled next l at_ listener =>
    exact h.keep (fun c => by rw [at_]; rfl) (fun _ _ => rfl) rfl fun _ => hsame
  | registered id at_ =>
    exact h.keep (fun c => by rw [at_]; rfl) (fun _ _ => rfl) rfl fun _ => hsame
  | refused cause at_ wires =>
    exact h.keep (fun c => by rw [at_]; rfl) (fun _ _ => rfl) rfl fun _ => hsame
  | startsDone next at_ none_left =>
    exact h.keep (fun c => by rw [at_]; rfl) (fun _ _ => rfl) rfl fun _ => hsame
  | released at_ => exact h.keep (fun c => by rw [at_]; rfl) (fun _ _ => rfl) rfl fun _ => hsame
  | exitsDone next at_ none_left =>
    exact h.keep (fun c => by rw [at_]; rfl) (fun _ _ => rfl) rfl fun _ => hsame
  | killed at_ destroyed =>
    exact h.keep (fun c => by rw [at_]; rfl) (fun _ _ => rfl) rfl fun _ => hsame
  | acted => exact h.keep (fun _ => rfl) (fun _ _ => rfl) rfl fun _ => hsame
  | destroyed => exact h.keep (fun _ => rfl) (fun _ _ => rfl) rfl fun _ => hsame

end Collected

theorem Reaches.collected {capacity : Capacity} {handle : Handle} {pid : Nat} {program : String}
    {child : Child} (h : (r.execution capacity handle pid program child).Reaches e) :
    Collected e := by
  refine h.invariant ⟨fun c => ?_, nofun⟩ fun reached hc => hc.change reached.wired
  exact PerChannel.get_both none c

/-! ## A run that is over -/

/-- A channel is captured where somebody listens to it. -/
theorem captures_iff (r : Runner) (c : Channel) :
    r.captures c = true ↔ r.listeners.onLine c ≠ [] := by
  have hsuits := r.suits
  rw [Runner.captures, Bool.and_eq_true, beq_iff_eq, Bool.not_eq_true', List.isEmpty_eq_false_iff]
  refine ⟨fun h => h.2, fun hne => ⟨?_, hne⟩⟩
  cases hrouting : r.routing with
  | captured => rfl
  | inherited =>
    rw [hrouting, Routing.suits, Listeners.wantsOutput, Bool.not_eq_true', Bool.or_eq_false_iff,
      Bool.not_eq_false', Bool.not_eq_false', List.isEmpty_iff, List.isEmpty_iff] at hsuits
    cases c with
    | stdout => exact absurd hsuits.1 hne
    | stderr => exact absurd hsuits.2 hne

theorem report_of_done (hc : Collected e) (done : e.done = true) (c : Channel) :
    e.completion.report c =
      (e.readers.get c).map fun rd => { rd.drain.report with failures := [] } := by
  have hreport := hc.reports c
  have hjoined : e.phase.joined c = true := by
    rw [show e.phase = .finished from eq_of_beq done]
    rfl
  rw [if_pos hjoined] at hreport
  rw [← hreport]
  cases c <;> rfl

/-- A run is over in which the handle was not destroyed and no read of a channel failed. -/
structure Undisturbed (channel : Channel) (e : Execution) : Prop where
  done : e.done = true
  kept : e.destroyed = false
  read : ∀ message, .read channel message ∉ e.completion.deferred

/-- What has become of all that was written on a channel when a run is over. -/
structure Delivered (r : Runner) (channel : Channel) (log : List Put) (e : Execution) : Prop where
  /-- It was read, in some chunks. -/
  read : (e.chunks channel).flatten = written channel log
  /-- The listeners have got the lines of these chunks, and the completion has the report. -/
  drained : ∃ d, Line.drain .standard channel (r.listeners.onLine channel) false
      ((e.chunks channel).map .bytes) = .ok d ∧
    e.onLine channel = d.listeners ∧
    e.completion.report channel = some { d.report with failures := [] } ∧
    ∀ f ∈ d.report.failures, f ∈ e.completion.deferred
  told : e.onLine channel = (r.listeners.onLine channel).map (·.callAll (e.told channel))

section

variable {capacity : Capacity} {handle : Handle} {pid : Nat} {program : String} {child : Child}

/-- The reader of a channel that was not disturbed has come to the end of the chunks. -/
theorem Writes.reader_of_undisturbed
    (h : (r.execution capacity handle pid program child).Writes log e) {c : Channel}
    (hne : r.listeners.onLine c ≠ []) (hu : Undisturbed c e) :
    ∃ rd, e.readers.get c = some rd ∧ rd.drain.stop = some .ended ∧
      (e.closed c = true ∧ e.held c = []) ∧
      (∀ f ∈ rd.drain.report.failures, f ∈ e.completion.deferred) ∧
      Line.drain .standard c (r.listeners.onLine c) false ((e.chunks c).map .bytes) =
        .ok rd.drain := by
  have hw := h.reaches.wired
  have hphase : e.phase = .finished := eq_of_beq hu.done
  have hjoined : e.phase.joined c = true := by
    rw [hphase]
    rfl
  have hreads := hw.reads (by rw [hphase]; rfl) c
  rw [(captures_iff r c).mpr hne] at hreads
  obtain ⟨rd, hrd⟩ := Option.isSome_iff_exists.mp hreads
  have hfinished := hw.joined c rd hjoined hrd
  rw [Reader.finished] at hfinished
  have hfailures : ∀ f ∈ rd.drain.report.failures, f ∈ e.completion.deferred := by
    intro f hf
    exact List.mem_append_right _ (h.reaches.collected.failures c rd hjoined hrd f hf)
  have hprogress := h.kept.progress hu.kept c rd hrd
  cases hp : hprogress with
  | reading going free at_ =>
    rw [going] at hfinished
    contradiction
  | last going free unread line dry at_ =>
    rw [going] at hfinished
    contradiction
  | ended dry stop at_ =>
    exact ⟨rd, hrd, stop, dry, hfailures, hprogress.drain_eq stop hne (h.kept.fits c)⟩
  | failed message stop told => exact absurd (hfailures _ told) (hu.read message)

theorem Writes.delivered (h : (r.execution capacity handle pid program child).Writes log e)
    {c : Channel} (hne : r.listeners.onLine c ≠ []) (hu : Undisturbed c e) :
    Delivered r c log e := by
  obtain ⟨rd, hrd, -, ⟨-, hempty⟩, hfailures, hdrain⟩ := h.reader_of_undisturbed hne hu
  constructor
  · rw [h.kept.held c ((captures_iff r c).mpr hne), hempty, List.append_nil]
  · refine ⟨rd.drain, hdrain, onLine_eq hrd, ?_, hfailures⟩
    rw [report_of_done h.reaches.collected hu.done, hrd]
    rfl
  · exact h.reaches.recorded.lines c

/-- The lines and the report are those of the pieces of the chunks. -/
theorem Writes.told_eq (h : (r.execution capacity handle pid program child).Writes log e)
    {c : Channel} (hne : r.listeners.onLine c ≠ []) (hu : Undisturbed c e) :
    e.told c = (Line.pieces (.empty : Line.Partial .standard) (e.chunks c)).map (·.text) ∧
      e.completion.report c = some ⟨c, (e.told c).length, false, []⟩ := by
  obtain ⟨rd, hrd, hstop, -, -, hdrain⟩ := h.reader_of_undisturbed hne hu
  have hsteady : ∀ read ∈ (e.chunks c).map Line.Read.bytes, read.Steady := by
    intro read hread
    obtain ⟨chunk, hchunk, rfl⟩ := List.mem_map.mp hread
    exact (h.kept.fits c chunk hchunk).1
  have hgave := Line.gave_of_ended hne hsteady hdrain hstop
  rw [Reader.brought_chunks (h.kept.fits c)] at hgave
  have hlines := h.reaches.recorded.lines c
  rw [onLine_eq hrd, hgave.listeners_eq] at hlines
  have htold := Registration.callAll_injective hne hlines
  refine ⟨htold.symm, ?_⟩
  rw [report_of_done h.reaches.collected hu.done, hrd, ← htold, ← hgave.lines_eq]
  show some (⟨rd.drain.channel, rd.drain.lines, rd.drain.stop == some .cancelled, []⟩ : Report) = _
  rw [hgave.channel_eq, hstop]
  rfl

/-- A completed run has a report of each channel that somebody listens to and of no other. What was
written on such a channel has come to its listeners, unless the handle was destroyed or a read
failed, and what they get and the report are the same in all runs that read the same chunks. -/
theorem Writes.delivers (h : (r.execution capacity handle pid program child).Writes log e)
    (done : e.done = true) :
    (∀ c, (e.completion.report c).isSome = true ↔ r.listeners.onLine c ≠ []) ∧
    (r.routing = .inherited → e.completion.stdout = none ∧ e.completion.stderr = none) ∧
    (∀ c, r.listeners.onLine c ≠ [] → Undisturbed c e → Delivered r c log e ∧
      ∀ (r' : Runner) (capacity' : Capacity) (handle' : Handle) (pid' : Nat) (program' : String)
        (child' : Child) (log' : List Put) (e' : Execution),
        (r'.execution capacity' handle' pid' program' child').Writes log' e' →
        r'.listeners.onLine c ≠ [] → Undisturbed c e' → e'.chunks c = e.chunks c →
          e'.told c = e.told c ∧ e'.completion.report c = e.completion.report c ∧
          (r'.listeners.onLine c = r.listeners.onLine c → e'.onLine c = e.onLine c)) ∧
    ((∀ c, Undisturbed c e) → ∀ c, r.listeners.onLine c ≠ [] →
      ∀ task t, child.task? task = some t → written c (putsOf task log) = t.output c) := by
  have hw := h.reaches.wired
  have hsome (c : Channel) :
      (e.completion.report c).isSome = true ↔ r.listeners.onLine c ≠ [] := by
    have hwired : e.phase.wired = true := by
      rw [show e.phase = .finished from eq_of_beq done]
      rfl
    rw [report_of_done h.reaches.collected done, Option.isSome_map, hw.reads hwired, captures_iff]
  refine ⟨hsome, ?_, ?_, ?_⟩
  · intro hrouting
    have hnone (c : Channel) : e.completion.report c = none := by
      rw [← Option.not_isSome_iff_eq_none, hsome, ← captures_iff, Runner.captures, hrouting]
      exact Bool.false_ne_true
    exact ⟨hnone .stdout, hnone .stderr⟩
  · intro c hne hu
    refine ⟨h.delivered hne hu, ?_⟩
    intro r' capacity' handle' pid' program' child' log' e' h' hne' hu' hchunks
    obtain ⟨htold, hreport⟩ := h.told_eq hne hu
    obtain ⟨htold', hreport'⟩ := h'.told_eq hne' hu'
    have hsame : e'.told c = e.told c := by rw [htold', htold, hchunks]
    refine ⟨hsame, by rw [hreport', hreport, hsame], ?_⟩
    intro hlisteners
    rw [(h'.delivered hne' hu').told, (h.delivered hne hu).told, hlisteners, hsame]
  · intro hu c hne task t ht
    have hnone : ∀ c rd message, e.readers.get c = some rd →
        rd.drain.stop ≠ some (.failed message) := by
      intro d rd message hrd hfailed
      have hcaptured := (captures_iff r d).mp (captures_of_reader hw hrd)
      obtain ⟨rd', hrd', hstop, -⟩ := h.reader_of_undisturbed hcaptured (hu d)
      rw [hrd] at hrd'
      injection hrd' with hrd'
      rw [hrd', hstop] at hfailed
      cases hfailed
    obtain ⟨now, hnow, hall⟩ := h.owed (hu c).kept hnone task t ht
    obtain ⟨-, -, -, ⟨hclosed, -⟩, -⟩ := h.reader_of_undisturbed hne (hu c)
    -- Nobody keeps the channel open, and so nobody has anything more to write on it.
    have hnokeeps : now.keeps c = false := by
      refine Bool.eq_false_iff.mpr fun hkeeps => ?_
      have hopen : e.child.keeps c = true := Child.keeps_iff.mpr ⟨task, now, hnow, hkeeps⟩
      rw [closed, hopen] at hclosed
      contradiction
    rw [hall, Task.output_of_not_keeps hnokeeps, List.append_nil]

end

/-- A runner that captures one output and has a listener there that panics. -/
def outputRunner : Runner where
  mode := .asynchronous
  routing := .captured
  listeners := { stdout := [.ofReaction fun _ => ⟨.panicked none, false⟩] }
  suits := rfl
  tracker := none

/-- A runner that captures both outputs and has a listener on the other one that fails. -/
def bothRunner : Runner where
  mode := .synchronous
  routing := .captured
  listeners :=
    { stdout := [.ofReaction fun _ => .quiet]
      stderr := [.ofReaction fun _ => ⟨.failed ["full"], false⟩] }
  suits := rfl
  tracker := none

def outputRun : Execution :=
  outputRunner.execution .standard 0 100 "cat" (.ofActs [.write .stdout [97, 10]] (.exited 3))

def bothRun : Execution :=
  bothRunner.execution ⟨4, by decide⟩ 0 100 "tee"
    (.ofActs [.write .stderr [98], .write .stdout [97, 10]] (.exited 0))

/-- The child of the first run has ended when its reader begins to read. -/
def outputMoves : List Move :=
  [.supervisor, .supervisor, .child none, .child none, .supervisor, .supervisor, .reader .stdout,
    .reader .stdout, .reader .stdout, .reader .stdout, .reader .stdout, .supervisor, .supervisor,
    .supervisor, .supervisor]

/-- The readers of the second run read while its child writes. -/
def bothMoves : List Move :=
  [.supervisor, .supervisor, .child none, .reader .stderr, .reader .stderr, .supervisor,
    .child none, .reader .stderr, .reader .stdout, .reader .stdout, .child none, .reader .stdout,
    .reader .stdout, .reader .stdout, .reader .stderr, .reader .stderr, .reader .stderr,
    .supervisor, .supervisor, .supervisor, .supervisor, .supervisor]

/-- Two runs that have nothing in common but the chunk that their readers read. -/
theorem delivers_whatever_else :
    ∃ log e log' e', outputRun.Writes log e ∧ bothRun.Writes log' e' ∧
      Delivered outputRunner .stdout log e ∧ e'.told .stdout = e.told .stdout ∧
      e'.completion.report .stdout = e.completion.report .stdout ∧
      written .stdout (putsOf none log) = [97, 10] ∧
      e.completion.stderr = none ∧ e.completion.exitCode = 3 ∧ e'.completion.exitCode = 0 := by
  have hrun : (outputRun.steps outputMoves .new).map (fun after =>
      (after.2.done && !after.2.destroyed, after.2.completion, after.2.chunks .stdout)) =
        some (true, ⟨3, false, some ⟨.stdout, 1, false, []⟩, none,
          [.listener (.line .stdout) 0 "panicked: unknown panic payload"]⟩, [[97, 10]]) := by
    decide +kernel
  have hrun' : (bothRun.steps bothMoves .new).map (fun after =>
      (after.2.done && !after.2.destroyed, after.2.completion, after.2.chunks .stdout)) =
        some (true, ⟨0, false, some ⟨.stdout, 1, false, []⟩, some ⟨.stderr, 1, false, []⟩,
          [.listener (.line .stderr) 0 "full"]⟩, [[97, 10]]) := by
    decide +kernel
  obtain ⟨⟨t, e⟩, hsteps, heq⟩ := Option.map_eq_some_iff.mp hrun
  obtain ⟨⟨t', e'⟩, hsteps', heq'⟩ := Option.map_eq_some_iff.mp hrun'
  simp only [Prod.mk.injEq, Bool.and_eq_true, Bool.not_eq_true'] at heq heq'
  obtain ⟨⟨hdone, hkept⟩, hcompletion, hchunks⟩ := heq
  obtain ⟨⟨hdone', hkept'⟩, hcompletion', hchunks'⟩ := heq'
  obtain ⟨log, hwrites⟩ := (reaches_of_steps hsteps).writes
  obtain ⟨log', hwrites'⟩ := (reaches_of_steps hsteps').writes
  have hundisturbed (c : Channel) : Undisturbed c e :=
    ⟨hdone, hkept, fun message => by rw [hcompletion]; simp⟩
  have hundisturbed' : Undisturbed .stdout e' :=
    ⟨hdone', hkept', fun message => by rw [hcompletion']; simp⟩
  have hne : outputRunner.listeners.onLine .stdout ≠ [] := nofun
  obtain ⟨-, -, hdelivers, howed⟩ := Writes.delivers hwrites hdone
  obtain ⟨hdelivered, hsame⟩ := hdelivers .stdout hne (hundisturbed .stdout)
  obtain ⟨htold, hreport, -⟩ := hsame _ _ _ _ _ _ _ _ hwrites' nofun hundisturbed'
    (hchunks'.trans hchunks.symm)
  refine ⟨log, e, log', e', hwrites, hwrites', hdelivered, htold, hreport, ?_,
    congrArg (·.stderr) hcompletion, congrArg (·.exitCode) hcompletion,
    congrArg (·.exitCode) hcompletion'⟩
  exact howed hundisturbed .stdout hne none _ rfl

end Execution

end ToolRunner
