import ToolRunner.Proofs.Execution.Token
import ToolRunner.Proofs.Session.Tracking

/-!
# What comes of destroying a handle

The supervisor and the two readers look at the token of a run at different moments, and each of them
sets a flag of its own if it finds the token cancelled. Each flag that is set has the same reason:
somebody destroyed the handle before the supervisor had waited for the child and the readers
(`Course.destroyed_in_time`). If nobody did, both outputs were read to their end or to a read that
failed. The exit listeners are notified as ever.
-/

namespace ToolRunner

namespace Execution

variable {r : Runner} {e e' : Execution} {m : Move} {log later : List (Execution × Move)}

/-! ## Moves after the end -/

/-- When a run is over, only tasks in the background and the holder of the handle still move. -/
theorem over_of_change (hw : Wired r e) (done : e.done = true) (hc : Change e m e') :
    e'.done = true ∧ e'.completion = e.completion ∧ e'.exit = e.exit ∧ e'.history = e.history := by
  have hphase : e.phase = .finished := eq_of_beq done
  cases hc with
  | acted | destroyed => exact ⟨done, rfl, rfl, rfl⟩
  | read m c rd p s reader pipe going =>
    have hfinished := hw.joined c rd (by rw [hphase]; rfl) reader
    rw [going] at hfinished
    contradiction
  | reaped _ at_ | waitFailed _ at_ =>
    rcases at_ with at_ | at_ <;> rw [hphase] at at_ <;> contradiction
  | registered _ at_ | wired _ at_ | refused _ at_ | startCalled _ _ at_ | startsDone _ at_
  | skipped _ at_ | joined _ _ at_ | released at_ | exitCalled _ _ at_ | exitsDone _ at_
  | killed at_ => rw [hphase] at at_; contradiction

theorem exits_prefix_of_change (hc : Change e m e') : e.exits <+: e'.exits := by
  cases hc with
  | exitCalled next l at_ listener =>
    rw [exits_callExit]
    exact List.prefix_append _ _
  | startCalled next l at_ listener => exact (exits_callStart e next l).symm ▸ List.prefix_refl _
  | read m c rd p s reader pipe going turn =>
    exact (exits_afterReader turn c).symm ▸ List.prefix_refl _
  | _ => exact List.prefix_refl _

/-- To destroy a handle any number of times does nothing but cancel the token. -/
theorem steps_destroy {ms : List Move} (only : ∀ m ∈ ms, m = .destroy) (t : Tracker)
    (e : Execution) :
    e.steps ms t = some (t, { e with destroyed := e.destroyed || !ms.isEmpty }) := by
  induction ms generalizing e with
  | nil => simp [steps]
  | cons m ms ih =>
    obtain ⟨rfl, hrest⟩ := List.forall_mem_cons.mp only
    have hstep : e.step .destroy t = some (t, e.destroy) := rfl
    rw [steps, hstep]
    show steps ms t e.destroy = _
    rw [ih hrest]
    simp [destroy]

/-! ## The flags -/

/-- All that was written on a channel has been read, and nobody can write more. -/
def ReadOut (log : List (Execution × Move)) (channel : Channel) (e : Execution) : Prop :=
  e.closed channel = true ∧
    (e.chunks channel).flatten = written channel (log.flatMap fun now => now.1.puts now.2)

/-- What a run says of its handle, and of what it has read and whom it has notified. -/
structure Answers (r : Runner) (log : List (Execution × Move)) (e : Execution) : Prop where
  destroyed : e.destroyed = true ↔ ∃ now ∈ log, now.1.Destroys now.2
  stays : e.destroyed = true → ∀ later e', e.Course later e' → e'.destroyed = true
  /-- Any flag says that somebody destroyed the handle in time. -/
  flagged : (e.completion.destroyed = true ∨ ∃ c report, e.completion.report c = some report ∧
    report.cancelled = true) → InTime log ∧ e.destroyed = true
  /-- Without a flag the output has been read to its end or to a read that failed. -/
  read : e.done = true → ∀ c, r.listeners.onLine c ≠ [] →
    ∃ report, e.completion.report c = some report ∧ (report.cancelled = false →
      ReadOut log c e ∨ ∃ message, .read c message ∈ e.completion.deferred)
  /-- The exit listeners are notified one after another, each once. -/
  exits : ∃ n ≤ r.listeners.exit.length, e.exits = (List.range n).map (·, e.code)
  grows : ∀ later e', e.Course later e' → e.exits <+: e'.exits
  /-- When the run is over all of them have been, and nothing changes any more. -/
  ended : e.done = true →
    e.exits = (List.range r.listeners.exit.length).map (·, e.code) ∧
    e.exit = r.listeners.exit.map (·.call e.code) ∧
    ∀ later e', e.Course later e' →
      e'.completion = e.completion ∧ e'.exit = e.exit ∧ e'.exits = e.exits

section

variable {capacity : Capacity} {handle : Handle} {pid : Nat} {program : String} {child : Child}

theorem Course.append {e₀ : Execution} (h : e₀.Course log e) (h' : e.Course later e') :
    e₀.Course (log ++ later) e' := by
  induction h' with
  | refl => rwa [List.append_nil]
  | move reached step ih =>
    rw [← List.append_assoc]
    exact ih.move step

/-- A report tells why its reader has stopped. -/
theorem Course.stopped_of_report
    (h : (r.execution capacity handle pid program child).Course log e) {c : Channel}
    {report : Report} (hreport : e.completion.report c = some report) :
    (report.cancelled = true → InTime log) ∧ (report.cancelled = false →
      ReadOut log c e ∨ ∃ message, .read c message ∈ e.completion.deferred) := by
  have hw := h.reaches.wired
  have hcollected := h.reaches.collected
  have hget : e.reports.get c = some report := by
    rw [← hreport]
    cases c <;> rfl
  rw [hcollected.reports c] at hget
  split at hget
  · rename_i hjoined
    obtain ⟨rd, hrd, rfl⟩ := Option.map_eq_some_iff.mp hget
    show ((rd.drain.stop == some .cancelled) = true → _) ∧
      ((rd.drain.stop == some .cancelled) = false → _)
    cases h.heeded.stopped c rd hrd with
    | going stop =>
      have hfinished := hw.joined c rd hjoined hrd
      rw [Reader.finished, stop] at hfinished
      contradiction
    | cancelled stop seen =>
      rw [stop]
      exact ⟨fun _ => seen, fun h => by contradiction⟩
    | ended stop dry =>
      rw [stop]
      have hheld := h.writes.kept.held c (captures_of_reader hw hrd)
      rw [dry.2, List.append_nil] at hheld
      exact ⟨fun h => by contradiction, fun _ => .inl ⟨dry.1, hheld.symm⟩⟩
    | failed message stop told =>
      rw [stop]
      have hdeferred := hcollected.failures c rd hjoined hrd _ told
      rw [hw.channel c rd hrd] at hdeferred
      exact ⟨fun h => by contradiction, fun _ => .inr ⟨message, List.mem_append_right _ hdeferred⟩⟩
  · contradiction

theorem Course.ended (h : (r.execution capacity handle pid program child).Course log e)
    (done : e.done = true) (later' : e.Course later e') :
    e'.completion = e.completion ∧ e'.exit = e.exit ∧ e'.exits = e.exits := by
  have hover : Wired r e' ∧ e'.done = true ∧ e'.completion = e.completion ∧ e'.exit = e.exit ∧
      e'.exits = e.exits := by
    induction later' with
    | refl => exact ⟨h.reaches.wired, done, rfl, rfl, rfl⟩
    | move reached step ih =>
      obtain ⟨hw, hdone, hcompletion, hexit, hexits⟩ := ih
      have hc := step_change step
      obtain ⟨hdone', hcompletion', hexit', hhistory'⟩ := over_of_change hw hdone hc
      exact ⟨hw.change hc, hdone', hcompletion'.trans hcompletion, hexit'.trans hexit,
        (congrArg (·.reverse.filterMap Incident.exit?) hhistory').trans hexits⟩
  exact hover.2.2

theorem Course.answers (h : (r.execution capacity handle pid program child).Course log e) :
    Answers r log e := by
  have hw := h.reaches.wired
  have hheeded := h.heeded
  have hordered := h.reaches.ordered
  constructor
  · exact hheeded.destroyed
  · intro hdestroyed later e' hlater
    obtain ⟨now, hnow, hdestroys⟩ := hheeded.destroyed.mp hdestroyed
    exact (h.append hlater).heeded.destroyed.mpr ⟨now, List.mem_append_left _ hnow, hdestroys⟩
  · intro hflag
    have hintime : InTime log := by
      rcases hflag with hkilled | ⟨c, report, hreport, hcancelled⟩
      · exact hheeded.killed hkilled
      · exact (h.stopped_of_report hreport).1 hcancelled
    refine ⟨hintime, hheeded.destroyed.mpr ?_⟩
    obtain ⟨now, hnow, -, hdestroys⟩ := hintime
    exact ⟨now, hnow, hdestroys⟩
  · intro hdone c hne
    have hreads := hw.reads (by rw [show e.phase = .finished from eq_of_beq hdone]; rfl) c
    rw [(captures_iff r c).mpr hne] at hreads
    obtain ⟨rd, hrd⟩ := Option.isSome_iff_exists.mp hreads
    have hreport := report_of_done h.reaches.collected hdone c
    rw [hrd] at hreport
    exact ⟨_, hreport, (h.stopped_of_report hreport).2⟩
  · exact ⟨_, hordered.exits_le, hordered.exits_eq⟩
  · intro later e' hlater
    induction hlater with
    | refl => exact List.prefix_refl _
    | move reached step ih => exact ih.trans (exits_prefix_of_change (step_change step))
  · intro hdone
    have hexits := hordered.exits_eq
    rw [show e.phase = .finished from eq_of_beq hdone] at hexits
    exact ⟨hexits, h.reaches.exit_of_done hdone, fun later e' hlater => h.ended hdone hlater⟩

/-- Whatever the parties of a run do and in whichever order, its handle is destroyed exactly if
somebody has destroyed it, and stays so. A run that was not destroyed in time has no flag set, and
has read both outputs to their end or to a read that failed. Handles are destroyed one by one or all
that a tracker knows, any number of times and at any moment; that cancels a token and does nothing
else, and in particular no exit listener is notified more or less often. -/
theorem Course.destroyed_in_time
    (h : (r.execution capacity handle pid program child).Course log e) :
    Answers r log e ∧
    (¬ InTime log → e.completion.destroyed = false ∧
      ∀ c report, e.completion.report c = some report → report.cancelled = false ∧
        (ReadOut log c e ∨ ∃ message, .read c message ∈ e.completion.deferred)) ∧
    (∀ (s : Session) (i : Handle), s.execution? i = some e →
      (s.destroy i).execution? i = some e.destroy ∧
      ∀ name, (s.destroyAll name).2.execution? i =
        some (if (s.trackers name).handles.contains i then e.destroy else e)) ∧
    ∀ ms t, (∀ m ∈ ms, m = .destroy) →
      ∃ e', e.steps ms t = some (t, e') ∧ e'.exits = e.exits ∧ e'.listeners = e.listeners ∧
        e' = { e with destroyed := e'.destroyed } := by
  refine ⟨h.answers, fun hlate => ?_, fun s i found => ⟨?_, fun name => ?_⟩, fun ms t only => ?_⟩
  · have hflagged := h.answers.flagged
    constructor
    · exact Bool.eq_false_iff.mpr fun hkilled => hlate (hflagged (.inl hkilled)).1
    · intro c report hreport
      have hfree : report.cancelled = false :=
        Bool.eq_false_iff.mpr fun hc => hlate (hflagged (.inr ⟨c, report, hreport, hc⟩)).1
      exact ⟨hfree, (h.stopped_of_report hreport).2 hfree⟩
  · rw [Session.destroy_eq, Session.execution?_destroying, found]
    simp
  · rw [Session.destroyAll_eq, Session.execution?_destroying, found]
    rfl
  · exact ⟨_, steps_destroy only t e, rfl, rfl, rfl⟩

end

/-- A runner whose listener destroys the handle as soon as it gets a line. -/
def drainingRunner : Runner where
  mode := .synchronous
  routing := .captured
  listeners :=
    { stdout := [.ofReaction fun _ => ⟨.done, true⟩]
      exit := [.ofReaction fun _ => .quiet] }
  suits := rfl
  tracker := none

def drainingRun : Execution :=
  drainingRunner.execution .standard 0 100 "cat"
    (.ofActs [.write .stdout [97, 10, 98, 10]] (.exited 3))

/-- The child has ended, and the supervisor has seen that, before its output is read. -/
def drainingMoves : List Move :=
  [.supervisor, .supervisor, .child none, .child none, .supervisor, .supervisor, .reader .stdout,
    .reader .stdout, .reader .stdout, .reader .stdout, .supervisor, .supervisor, .supervisor,
    .supervisor, .supervisor]

theorem destroyed_in_time_draining :
    ∃ log e, drainingRun.Course log e ∧ e.done = true ∧
      e.completion = ⟨3, false, some ⟨.stdout, 1, true, []⟩, none, []⟩ ∧ e.exits = [(0, 3)] ∧
      InTime log ∧ e.destroyed = true := by
  have hrun : (drainingRun.steps drainingMoves .new).map
      (fun after => (after.2.done, after.2.completion, after.2.exits)) =
        some (true, ⟨3, false, some ⟨.stdout, 1, true, []⟩, none, []⟩, [(0, 3)]) := by
    decide +kernel
  obtain ⟨after, hsteps, heq⟩ := Option.map_eq_some_iff.mp hrun
  simp only [Prod.mk.injEq] at heq
  obtain ⟨hdone, hcompletion, hexits⟩ := heq
  have hcourse : drainingRun.Course _ after.2 := logs_of_steps _ hsteps
  obtain ⟨hanswers, -⟩ := Course.destroyed_in_time hcourse
  have hreport : after.2.completion.report .stdout = some ⟨.stdout, 1, true, []⟩ := by
    rw [hcompletion]
    rfl
  have hflagged := hanswers.flagged (.inr ⟨.stdout, _, hreport, rfl⟩)
  exact ⟨_, after.2, hcourse, hdone, hcompletion, hexits, hflagged⟩

end Execution

end ToolRunner
