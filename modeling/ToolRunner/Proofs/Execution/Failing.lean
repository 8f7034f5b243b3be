import Mathlib.Data.List.Basic
import ToolRunner.Proofs.Execution.Account
import ToolRunner.Proofs.Execution.Capture
import ToolRunner.Proofs.Execution.Notification

/-!
# What fails in a run, and how it is reported

A call of a listener can fail, a read of a pipe, and waiting for the child. What fails in one move
is said by `raised`, whoever collects it later; the failures of a run are those of its moves. The
supervisor collects them in another order than that in which they happen, namely by where they come
from (`Source`), and among those of one source in the order in which they happened. At any moment it
has collected what the phase says, and the readers have the rest (`Gathered`).
-/

namespace ToolRunner

inductive Source where
  | start
  | wait
  | reader (channel : Channel)
  | exit
deriving DecidableEq, Repr

/-- The sources in the order in which a completion reports what failed. -/
def Source.all : List Source := [.start, .wait, .reader .stdout, .reader .stderr, .exit]

/-- The sources from which the supervisor has collected what failed there. -/
def Phase.collected : Phase → List Source
  | joining .stdout => [.wait]
  | joining .stderr => [.wait, .reader .stdout]
  | releasing => [.wait, .reader .stdout, .reader .stderr]
  | notifying _ | finished => [.wait, .reader .stdout, .reader .stderr, .exit]
  | _ => []

theorem Phase.joined_of_collected {phase : Phase} {c : Channel}
    (h : .reader c ∈ phase.collected) : phase.joined c = true := by
  cases phase with
  | joining d => cases c <;> cases d <;> first | rfl | simp [collected] at h
  | releasing => rfl
  | notifying next => rfl
  | finished => rfl
  | _ => cases h

namespace SecondaryFailure

/-- A task that is lost has no source among the parties of a run. -/
def source? : SecondaryFailure → Option Source
  | listener .start _ _ => some .start
  | listener (.line channel) _ _ => some (.reader channel)
  | listener .exit _ _ => some .exit
  | read channel _ => some (.reader channel)
  | wait _ => some .wait
  | join _ _ => none

/-- The failures that come from a source. -/
def ofSource (s : Source) (log : List SecondaryFailure) : List SecondaryFailure :=
  log.filter (·.source? == some s)

/-- The failures that come from some sources, one source after another. -/
def bySource (sources : List Source) (log : List SecondaryFailure) : List SecondaryFailure :=
  sources.flatMap (ofSource · log)

section

variable {s : Source} {sources : List Source} {log new : List SecondaryFailure}

theorem ofSource_append_same (h : ∀ f ∈ new, f.source? = some s) :
    ofSource s (log ++ new) = ofSource s log ++ new := by
  have hall : ofSource s new = new :=
    List.filter_eq_self.mpr fun f hf => beq_iff_eq.mpr (h f hf)
  rw [ofSource, List.filter_append, ← ofSource, ← ofSource, hall]

theorem ofSource_append_other {other : Source} (h : ∀ f ∈ new, f.source? = some s)
    (hne : other ≠ s) : ofSource other (log ++ new) = ofSource other log := by
  have hnone : ofSource other new = [] := by
    refine List.filter_eq_nil_iff.mpr fun f hf => ?_
    rw [h f hf, beq_iff_eq]
    exact fun heq => hne (Option.some.inj heq).symm
  rw [ofSource, List.filter_append, ← ofSource, ← ofSource, hnone, List.append_nil]

theorem bySource_append_other (h : ∀ f ∈ new, f.source? = some s) (hs : s ∉ sources) :
    bySource sources (log ++ new) = bySource sources log := by
  refine List.flatMap_congr fun other hother => ofSource_append_other h ?_
  rintro rfl
  exact hs hother

theorem bySource_concat (sources : List Source) (s : Source) (log : List SecondaryFailure) :
    bySource (sources ++ [s]) log = bySource sources log ++ ofSource s log := by
  simp [bySource]

/-- Sorting failures by their sources loses none and repeats none. -/
theorem bySource_perm (nodup : sources.Nodup)
    (h : ∀ f ∈ log, ∃ s ∈ sources, f.source? = some s) : (bySource sources log).Perm log := by
  induction sources generalizing log with
  | nil =>
    have hnil : log = [] := List.eq_nil_iff_forall_not_mem.mpr fun f hf => by simpa using h f hf
    rw [hnil]
    exact List.Perm.refl _
  | cons s sources ih =>
    obtain ⟨hs, nodup⟩ := List.nodup_cons.mp nodup
    -- What comes from the other sources is not among what comes from the first.
    have hrest : bySource sources log =
        bySource sources (log.filter fun f => !(f.source? == some s)) := by
      refine List.flatMap_congr fun other hother => ?_
      rw [ofSource, ofSource, List.filter_filter]
      refine List.filter_congr fun f _ => ?_
      by_cases hf : f.source? = some other
      · have hne : other ≠ s := fun heq => hs (heq ▸ hother)
        simp [hf, hne]
      · simp [hf]
    have hperm : (bySource sources (log.filter fun f => !(f.source? == some s))).Perm
        (log.filter fun f => !(f.source? == some s)) := by
      refine ih nodup fun f hf => ?_
      obtain ⟨hf, hne⟩ := List.mem_filter.mp hf
      obtain ⟨other, hother, hsource⟩ := h f hf
      rcases List.mem_cons.mp hother with rfl | hother
      · simp [hsource] at hne
      · exact ⟨other, hother, hsource⟩
    rw [bySource, List.flatMap_cons, ← bySource, hrest]
    exact (hperm.append_left _).trans (List.filter_append_perm _ log)

end

end SecondaryFailure

namespace Line

/-- The calls with some lines go on where those with the lines before them have ended. -/
theorem calls_append (listeners : List (Registration String)) (texts more : List String) :
    calls listeners (texts ++ more) =
      calls listeners texts ++ calls (listeners.map (·.callAll texts)) more := by
  induction texts generalizing listeners with
  | nil => simp [calls, Registration.callAll]
  | cons text texts ih =>
    rw [List.cons_append, calls, ih, calls, List.append_assoc, List.map_map]
    rfl

end Line

/-- The failures among some calls of listeners, each of which is called once. -/
def callFailures {α : Type} (event : Event) (listeners : List (Registration α))
    (calls : List (Nat × α)) : List SecondaryFailure :=
  calls.filterMap fun call =>
    listeners[call.1]?.bind fun l => (l.reaction call.2).failure? event call.1

theorem callFailures_concat {α : Type} {event : Event} {listeners : List (Registration α)}
    {index : Nat} {l : Registration α} (listener : listeners[index]? = some l)
    (calls : List (Nat × α)) (a : α) :
    callFailures event listeners (calls ++ [(index, a)]) =
      callFailures event listeners calls ++ ((l.reaction a).failure? event index).toList := by
  rw [callFailures, List.filterMap_append, ← callFailures]
  simp only [List.filterMap_cons, List.filterMap_nil, listener, Option.bind_some]
  cases (l.reaction a).failure? event index <;> rfl

theorem Reaction.source_failure {now : Reaction} {event : Event} {index : Nat} {s : Source}
    (h : ∀ message, (SecondaryFailure.listener event index message).source? = some s) :
    ∀ f ∈ (now.failure? event index).toList, f.source? = some s := by
  intro f hf
  rw [Option.mem_toList, Reaction.failure?, Option.map_eq_some_iff] at hf
  obtain ⟨message, -, rfl⟩ := hf
  exact h message

namespace Execution

open SecondaryFailure

variable {r : Runner} {e e' : Execution} {m : Move} {log : List SecondaryFailure}

/-- The lines that the reader of a channel gives in its next step. -/
def given (e : Execution) (channel : Channel) : List String :=
  match e.readers.get channel, e.outlets.get channel with
  | some rd, .pipe p =>
    ((rd.step e.destroyed (e.closed channel) p).map
      (·.incidents.filterMap (Incident.line? channel))).getD []
  | _, _ => []

/-- What fails in a move. -/
def raised (e : Execution) : Move → List SecondaryFailure
  | .supervisor =>
    match e.phase with
    | .starting next =>
      callFailures .start e.start [(next, ⟨e.program, some e.pid, e.destroyed⟩)]
    | .notifying next => callFailures .exit e.exit [(next, e.code)]
    | _ => []
  | .reader channel =>
    (Line.calls (e.onLine channel) (e.given channel)).filterMap (·.failure? channel)
  | .readFailure channel message => [.read channel message]
  | .waitFailure message => [.wait message]
  | .cancellation | .child _ | .destroy => []

def reported (e : Execution) (channel : Channel) : List SecondaryFailure :=
  match e.readers.get channel with
  | some rd => rd.drain.report.failures
  | none => []

theorem given_eq {c : Channel} {rd : Reader} {p : Pipe} {s : ReaderStep}
    (reader : e.readers.get c = some rd) (pipe : e.outlets.get c = .pipe p)
    (step : rd.step e.destroyed (e.closed c) p = some s) :
    e.given c = s.incidents.filterMap (Incident.line? c) := by
  simp only [given, reader, pipe, step, Option.map_some, Option.getD_some]

/-! ## What the supervisor has collected -/

/-- Where the failures of a run are that have happened so far. -/
structure Gathered (r : Runner) (log : List SecondaryFailure) (e : Execution) : Prop where
  sources : ∀ f ∈ log, f.source?.isSome = true
  start : e.startFailures = ofSource .start log
  reader : ∀ c, e.reported c = ofSource (.reader c) log
  collected : e.failures = bySource e.phase.collected log
  unreaped : e.phase.reaped = false → ofSource .wait log = []
  waits : (ofSource .wait log).length ≤ 1
  silent : .exit ∉ e.phase.collected → ofSource .exit log = []
  starts : ofSource .start log = callFailures .start r.listeners.start e.starts
  exits : ofSource .exit log = callFailures .exit r.listeners.exit e.exits

namespace Gathered

/-- The supervisor goes on, and perhaps collects what has failed before. -/
theorem advance (h : Gathered r log e) (start : e'.startFailures = e.startFailures)
    (readers : ∀ c, e'.reported c = e.reported c)
    (collected : e'.failures = bySource e'.phase.collected log)
    (reaped : e'.phase.reaped = false → e.phase.reaped = false)
    (notified : .exit ∉ e'.phase.collected → .exit ∉ e.phase.collected)
    (starts : e'.starts = e.starts) (exits : e'.exits = e.exits) : Gathered r log e' := by
  constructor
  · exact h.sources
  · rw [start]
    exact h.start
  · intro c
    rw [readers]
    exact h.reader c
  · exact collected
  · exact fun hp => h.unreaped (reaped hp)
  · exact h.waits
  · exact fun hp => h.silent (notified hp)
  · rw [starts]
    exact h.starts
  · rw [exits]
    exact h.exits

/-- The supervisor goes on and collects nothing. -/
theorem keep (h : Gathered r log e) (start : e'.startFailures = e.startFailures)
    (readers : ∀ c, e'.reported c = e.reported c) (failures : e'.failures = e.failures)
    (collected : e'.phase.collected = e.phase.collected)
    (reaped : e'.phase.reaped = e.phase.reaped) (starts : e'.starts = e.starts)
    (exits : e'.exits = e.exits) : Gathered r log e' := by
  refine h.advance start readers ?_ (fun hp => by rwa [← reaped]) (fun hp => by rwa [← collected])
    starts exits
  rw [failures, collected]
  exact h.collected

/-- Where one more source is to be collected from, what failed there is the last to be reported. -/
theorem collect (h : Gathered r log e) {s : Source} (start : e'.startFailures = e.startFailures)
    (readers : ∀ c, e'.reported c = e.reported c)
    (failures : e'.failures = e.failures ++ ofSource s log)
    (collected : e'.phase.collected = e.phase.collected ++ [s])
    (reaped : e'.phase.reaped = true) (starts : e'.starts = e.starts)
    (exits : e'.exits = e.exits) : Gathered r log e' := by
  refine h.advance start readers ?_ (fun hp => ?_) (fun hp hmem => hp ?_) starts exits
  · rw [failures, collected, bySource_concat, h.collected]
  · rw [reaped] at hp
    contradiction
  · rw [collected]
    exact List.mem_append_left _ hmem

theorem sources_append (h : Gathered r log e) {s : Source} {new : List SecondaryFailure}
    (hnew : ∀ f ∈ new, f.source? = some s) : ∀ f ∈ log ++ new, f.source?.isSome = true := by
  intro f hf
  rcases List.mem_append.mp hf with hf | hf
  · exact h.sources f hf
  · rw [hnew f hf]
    rfl

/-- Failures of a source from which the supervisor has not collected yet. -/
theorem raise (h : Gathered r log e) {s : Source} {new : List SecondaryFailure}
    (hnew : ∀ f ∈ new, f.source? = some s) (uncollected : s ∉ e'.phase.collected)
    (collected : e'.phase.collected = e.phase.collected) (failures : e'.failures = e.failures)
    (reaped : e'.phase.reaped = e.phase.reaped)
    (late : s ≠ .wait ∧ s ≠ .exit)
    (start : e'.startFailures = ofSource .start (log ++ new))
    (readers : ∀ c, e'.reported c = ofSource (.reader c) (log ++ new))
    (starts : e'.startFailures = callFailures .start r.listeners.start e'.starts)
    (exits : e'.exits = e.exits) : Gathered r (log ++ new) e' := by
  constructor
  · exact h.sources_append hnew
  · exact start
  · exact readers
  · rw [failures, bySource_append_other hnew uncollected, collected]
    exact h.collected
  · intro hp
    rw [ofSource_append_other hnew late.1.symm]
    exact h.unreaped (reaped ▸ hp)
  · rw [ofSource_append_other hnew late.1.symm]
    exact h.waits
  · intro hp
    rw [ofSource_append_other hnew late.2.symm]
    exact h.silent (collected ▸ hp)
  · rw [← start, starts]
  · rw [ofSource_append_other hnew late.2.symm, exits]
    exact h.exits

theorem startCalled (h : Gathered r log e) (hr : Recorded r e) (ho : Ordered r e) {next : Nat}
    {l : Registration Started} (at_ : e.phase = .starting next)
    (listener : e.start[next]? = some l) :
    Gathered r (log ++ e.raised .supervisor) (e.callStart next l) := by
  have hstarts := ho.starts
  rw [at_] at hstarts
  have horiginal : r.listeners.start[next]? = some l := hr.start.untouched hstarts listener
  have hraised : e.raised .supervisor =
      ((l.reaction ⟨e.program, some e.pid, e.destroyed⟩).failure? .start next).toList := by
    simp only [raised, at_]
    exact callFailures_concat listener [] _
  have hsource :
      ∀ f ∈ ((l.reaction ⟨e.program, some e.pid, e.destroyed⟩).failure? .start next).toList,
        f.source? = some .start := Reaction.source_failure fun _ => rfl
  rw [hraised]
  refine h.raise hsource (fun hmem => by cases hmem) (by rw [at_]; rfl) rfl (by rw [at_]; rfl)
    ⟨nofun, nofun⟩ ?_ ?_ ?_ (exits_callStart e next l)
  · rw [ofSource_append_same hsource, ← h.start]
    rfl
  · intro c
    rw [ofSource_append_other hsource (show Source.reader c ≠ _ from nofun)]
    exact h.reader c
  · rw [starts_callStart, callFailures_concat horiginal, ← h.starts, ← h.start]
    rfl

theorem exitCalled (h : Gathered r log e) (hr : Recorded r e) (ho : Ordered r e) {next : Nat}
    {l : Registration Int} (at_ : e.phase = .notifying next)
    (listener : e.exit[next]? = some l) :
    Gathered r (log ++ e.raised .supervisor) (e.callExit next l) := by
  have hexits : e.exits.map (·.1) = List.range next := by
    rw [ho.exits_eq, List.map_map, at_]
    exact List.map_id _
  have horiginal : r.listeners.exit[next]? = some l := hr.exit.untouched hexits listener
  have hraised : e.raised .supervisor = ((l.reaction e.code).failure? .exit next).toList := by
    simp only [raised, at_]
    exact callFailures_concat listener [] _
  have hsource : ∀ f ∈ ((l.reaction e.code).failure? .exit next).toList,
      f.source? = some .exit := Reaction.source_failure fun _ => rfl
  rw [hraised]
  have hwait : ofSource .wait (log ++ _) = _ := ofSource_append_other hsource nofun
  have hstart : ofSource .start (log ++ _) = _ := ofSource_append_other hsource nofun
  constructor
  · exact h.sources_append hsource
  · rw [hstart]
    exact h.start
  · intro c
    rw [ofSource_append_other hsource (show Source.reader c ≠ _ from nofun)]
    exact h.reader c
  · -- The exit listeners are the last source.
    have hbefore := h.collected
    rw [at_] at hbefore
    show e.failures ++ _ = bySource ([.wait, .reader .stdout, .reader .stderr] ++ [.exit]) _
    rw [bySource_concat, bySource_append_other hsource (by decide), ofSource_append_same hsource,
      ← List.append_assoc, ← bySource_concat, hbefore]
    rfl
  · intro hp
    cases hp
  · rw [hwait]
    exact h.waits
  · intro hp
    exact absurd (by simp [callExit, Phase.collected]) hp
  · rw [hstart, starts_callExit]
    exact h.starts
  · rw [exits_callExit, callFailures_concat horiginal, ofSource_append_same hsource, h.exits]

theorem waitFailed (h : Gathered r log e) (message : String)
    (at_ : e.phase = .waiting ∨ e.phase = .reaping) :
    Gathered r (log ++ [.wait message])
      { e with
        failures := e.failures ++ [.wait message]
        code := Completion.unknownExitCode
        phase := .joining .stdout } := by
  have hsource : ∀ f ∈ [SecondaryFailure.wait message], f.source? = some .wait := by
    intro f hf
    rw [List.mem_singleton.mp hf]
    rfl
  have hcollected : e.phase.collected = [] ∧ e.phase.reaped = false := by
    rcases at_ with at_ | at_ <;> rw [at_] <;> exact ⟨rfl, rfl⟩
  have hnone := h.unreaped hcollected.2
  have hstart : ofSource .start (log ++ _) = _ := ofSource_append_other hsource nofun
  have hexit : ofSource .exit (log ++ _) = _ := ofSource_append_other hsource nofun
  have hwait : ofSource .wait (log ++ [.wait message]) = [.wait message] := by
    rw [ofSource_append_same hsource, hnone]
    rfl
  constructor
  · exact h.sources_append hsource
  · rw [hstart]
    exact h.start
  · intro c
    rw [ofSource_append_other hsource (show Source.reader c ≠ _ from nofun)]
    exact h.reader c
  · have hbefore := h.collected
    rw [hcollected.1] at hbefore
    show e.failures ++ _ = bySource ([] ++ [.wait]) _
    rw [bySource_concat, hwait, hbefore]
    rfl
  · intro hp
    cases hp
  · rw [hwait]
    exact Nat.le_refl 1
  · intro hp
    rw [hexit]
    exact h.silent (by rw [hcollected.1]; nofun)
  · rw [hstart]
    exact h.starts
  · rw [hexit]
    exact h.exits

/-- What a reader reports after a step is what it reported before and what failed in the step. -/
theorem reported_afterReader (ha : Accounted r e) {c : Channel} {rd : Reader}
    {p : Pipe} {s : ReaderStep} (reader : e.readers.get c = some rd)
    (pipe : e.outlets.get c = .pipe p)
    (made : rd.made e.destroyed (e.closed c) p c m = some s) :
    (e.afterReader c s).reported c = e.reported c ++ e.raised m ∧
      ∀ f ∈ e.raised m, f.source? = some (.reader c) := by
  have hg := ha c rd reader
  have hafter : (e.afterReader c s).reported c = s.reader.drain.failures.toList := by
    simp only [reported, readers_afterReader]
    rfl
  have hbefore : e.reported c = rd.drain.failures.toList := by
    simp only [reported, reader]
    rfl
  rw [hafter, hbefore]
  rcases Reader.made_cases made with ⟨rfl, hstep⟩ | ⟨message, rfl, hfail⟩
  · obtain ⟨hgave, hstop⟩ := Reader.step_gave hstep hg
    have hgoing := (Reader.step_action hstep).1
    have hraised : e.raised (.reader c) =
        (Line.calls (e.onLine c) (s.incidents.filterMap (Incident.line? c))).filterMap
          (·.failure? c) := by
      rw [raised, given_eq reader pipe hstep]
    rw [hraised]
    constructor
    · have hnone : Line.Stop.readFailure c s.reader.drain.stop = [] := by
        unfold Line.Stop.readFailure
        split
        · rename_i message hmessage
          exact absurd hmessage (hstop message)
        · rfl
      rw [hgave.failures_eq, hg.failures_eq, hgoing, hnone, Line.calls_append,
        List.filterMap_append, onLine_eq reader, hg.listeners_eq]
      simp [Line.Stop.readFailure]
    · intro f hf
      obtain ⟨call, -, hcall⟩ := List.mem_filterMap.mp hf
      rw [Line.Call.failure?, Option.map_eq_some_iff] at hcall
      obtain ⟨message, -, rfl⟩ := hcall
      rfl
  · obtain ⟨hgoing, rfl⟩ := Reader.fail_eq hfail
    have hfailed := Line.Drain.fail_of_going hgoing message
    rw [raised]
    constructor
    · show (rd.drain.fail message).failures.toList = _
      rw [hfailed, Array.toList_push, hg.channel_eq]
    · intro f hf
      rw [List.mem_singleton.mp hf]
      rfl

theorem read (h : Gathered r log e) (hw : Wired r e) (ha : Accounted r e)
    {c : Channel} {rd : Reader} {p : Pipe} {s : ReaderStep}
    (reader : e.readers.get c = some rd) (pipe : e.outlets.get c = .pipe p)
    (going : rd.finished = false) (turn : rd.Turn p s)
    (made : rd.made e.destroyed (e.closed c) p c m = some s) :
    Gathered r (log ++ e.raised m) (e.afterReader c s) := by
  obtain ⟨hreported, hsource⟩ := reported_afterReader ha reader pipe made
  have hstart : ofSource .start (log ++ _) = _ := ofSource_append_other hsource nofun
  refine h.raise hsource (fun hmem => ?_) rfl rfl rfl ⟨nofun, nofun⟩ ?_ ?_ ?_
    (exits_afterReader turn c)
  · have hfinished := hw.joined c rd (Phase.joined_of_collected hmem) reader
    rw [going] at hfinished
    contradiction
  · rw [hstart]
    exact h.start
  · intro d
    by_cases hd : d = c
    · subst hd
      rw [hreported, h.reader, ofSource_append_same hsource]
    · have hne : Source.reader d ≠ .reader c := fun heq => hd (by injection heq)
      rw [ofSource_append_other hsource hne, ← h.reader, reported,
        readers_afterReader_other e hd]
      rfl
  · rw [starts_afterReader turn, ← h.starts]
    exact h.start

/-- Every change puts what fails in it where it belongs. -/
theorem change (h : Gathered r log e) (hw : Wired r e) (hr : Recorded r e) (ha : Accounted r e)
    (ho : Ordered r e) (hc : Change e m e') : Gathered r (log ++ e.raised m) e' := by
  have hnothing {new : List SecondaryFailure} (hnew : new = []) (hg : Gathered r log e') :
      Gathered r (log ++ new) e' := by
    rwa [hnew, List.append_nil]
  have hphase {phase : Phase} (at_ : e.phase = phase) (starting : ∀ next, phase ≠ .starting next)
      (notifying : ∀ next, phase ≠ .notifying next) : e.raised .supervisor = [] := by
    rw [raised, at_]
    split
    · exact absurd rfl (starting _)
    · exact absurd rfl (notifying _)
    · rfl
  -- Calls, reads and waiting can fail; elsewhere the supervisor at most collects.
  cases hc with
  | startCalled next l at_ listener => exact h.startCalled hr ho at_ listener
  | exitCalled next l at_ listener => exact h.exitCalled hr ho at_ listener
  | waitFailed message at_ ended => exact h.waitFailed message at_
  | read m c rd p s reader pipe going turn made => exact h.read hw ha reader pipe going turn made
  | registered id at_ =>
    refine hnothing (hphase at_ nofun nofun) ?_
    exact h.keep rfl (fun _ => rfl) rfl (by rw [at_]; rfl) (by rw [at_]; rfl) rfl rfl
  | wired readers at_ wires =>
    refine hnothing (hphase at_ nofun nofun) ?_
    refine h.keep rfl (fun c => ?_) rfl (by rw [at_]; rfl) (by rw [at_]; rfl) rfl rfl
    have hnone := (hw.unwired (by rw [at_]; rfl) c).1
    simp only [reported, hnone]
    cases hrd : readers.get c with
    | none => rfl
    | some rd =>
      rw [(hw.reader_of_wires wires hrd).2]
      rfl
  | refused cause at_ wires =>
    refine hnothing (hphase at_ nofun nofun) ?_
    exact h.keep rfl (fun _ => rfl) rfl (by rw [at_]; rfl) (by rw [at_]; rfl) rfl rfl
  | startsDone next at_ none_left =>
    refine hnothing ?_ ?_
    · simp only [raised, at_]
      simp [callFailures, none_left]
    exact h.keep rfl (fun _ => rfl) rfl (by rw [at_]; rfl) (by rw [at_]; rfl) rfl rfl
  | exitsDone next at_ none_left =>
    refine hnothing ?_ ?_
    · simp only [raised, at_]
      simp [callFailures, none_left]
    exact h.keep rfl (fun _ => rfl) rfl (by rw [at_]; rfl) (by rw [at_]; rfl) rfl rfl
  | reaped ending at_ status =>
    have hwait : ofSource .wait log = [] :=
      h.unreaped (by rcases at_ with at_ | at_ <;> rw [at_] <;> rfl)
    refine hnothing (by rcases at_ with at_ | at_ <;> exact hphase at_ nofun nofun) ?_
    refine h.collect (s := .wait) rfl (fun _ => rfl) ?_ ?_ rfl rfl rfl
    · rw [hwait, List.append_nil]
    · rcases at_ with at_ | at_ <;> rw [at_] <;> rfl
  | skipped c at_ unread =>
    have hnone : ofSource (.reader c) log = [] := by
      rw [← h.reader, reported, unread]
    refine hnothing (hphase at_ nofun nofun) ?_
    refine h.collect (s := .reader c) rfl (fun _ => rfl) ?_ ?_ ?_ rfl rfl
    · rw [hnone, List.append_nil]
    · rw [at_]
      cases c <;> rfl
    · cases c <;> rfl
  | joined c rd at_ reader finished =>
    refine hnothing (hphase at_ nofun nofun) ?_
    refine h.collect (s := .reader c) rfl (fun _ => rfl) ?_ ?_ ?_ rfl rfl
    · rw [← h.reader, reported, reader]
    · rw [at_]
      cases c <;> rfl
    · cases c <;> rfl
  | released at_ =>
    have hnone : ofSource .exit log = [] := h.silent (by rw [at_]; decide)
    refine hnothing (hphase at_ nofun nofun) ?_
    refine h.collect (s := .exit) rfl (fun _ => rfl) ?_ ?_ rfl rfl rfl
    · rw [hnone, List.append_nil]
    · rw [at_]
      rfl
  | killed at_ destroyed =>
    exact hnothing rfl
      (h.keep rfl (fun _ => rfl) rfl (by rw [at_]; rfl) (by rw [at_]; rfl) rfl rfl)
  | acted => exact hnothing rfl (h.keep rfl (fun _ => rfl) rfl rfl rfl rfl rfl)
  | destroyed => exact hnothing rfl (h.keep rfl (fun _ => rfl) rfl rfl rfl rfl rfl)

end Gathered

/-- At any moment what has failed is where the phase of the supervisor says. -/
theorem Logs.gathered {capacity : Capacity} {handle : Handle} {pid : Nat} {program : String}
    {child : Child} (h : Logs raised (r.execution capacity handle pid program child) log e) :
    Gathered r log e := by
  refine h.invariant ?_ fun reached hg hc =>
    hg.change reached.wired reached.recorded reached.accounted reached.ordered hc
  constructor
  · nofun
  · rfl
  · intro c
    rw [reported, readers_execution]
    rfl
  · rfl
  · exact fun _ => rfl
  · exact Nat.zero_le 1
  · exact fun _ => rfl
  · rfl
  · rfl

end Execution

end ToolRunner
