import ToolRunner.Proofs.Execution.Failing
import ToolRunner.Proofs.Execution.Reading

/-!
# What a run observes

A run learns of its child by reading from the pipes and by waiting for it: what the reads bring, and
what waiting gives, is all that it observes (`Execution.observed`). When nobody destroys its handle,
its readers have done at any moment what readers of scripted streams do with what was read, and its
code is what waiting has given (`Logs.observes`).
-/

namespace ToolRunner

/-- What a run learns of its child. -/
inductive Observation where
  | read (channel : Channel) (brought : Line.Read)
  | waited (ending : Ending)
  | waitFailed (message : String)
deriving DecidableEq, Repr

namespace Observation

/-- What a read of a channel has brought. -/
def read? (channel : Channel) : Observation → Option Line.Read
  | read c brought => if c = channel then some brought else none
  | _ => none

def wait? : Observation → Option (Except String Ending)
  | waited ending => some (.ok ending)
  | waitFailed message => some (.error message)
  | _ => none

end Observation

def codeOf : Except String Ending → Int
  | .ok ending => ending.code?.getD Completion.unknownExitCode
  | .error _ => Completion.unknownExitCode

/-- What a run reports of its waiting. -/
def waitFailure? : Except String Ending → Option SecondaryFailure
  | .ok _ => none
  | .error message => some (.wait message)

def readsOf (channel : Channel) (seen : List Observation) : List Line.Read :=
  seen.filterMap (Observation.read? channel)

def waitsOf (seen : List Observation) : List (Except String Ending) :=
  seen.filterMap Observation.wait?

theorem readsOf_append (c : Channel) (seen more : List Observation) :
    readsOf c (seen ++ more) = readsOf c seen ++ readsOf c more := List.filterMap_append

theorem waitsOf_append (seen more : List Observation) :
    waitsOf (seen ++ more) = waitsOf seen ++ waitsOf more := List.filterMap_append

namespace Reader

/-- What the read brings that the reader makes in its next step, if it makes one. -/
def arrival (r : Reader) (closed : Bool) (p : Pipe) : Option Line.Read :=
  if r.phase = .reading ∧ r.unread = [] then
    if p.content = [] then if closed then some (.bytes []) else none
    else some (.bytes (p.content.take Line.readSize))
  else none

variable {r : Reader} {p : Pipe} {s : ReaderStep} {closed : Bool} {script : List Line.Read}
variable {start : Line.Drain .standard}

/-- A reader has done with what it has used up of some reads what a reader of a scripted stream does
with them. -/
structure Reads (script : List Line.Read) (start : Line.Drain .standard) (r : Reader) : Prop where
  idle : r.finished = true ∨ r.phase = .asleep → r.unread = []
  at_ : script.foldl Line.Drain.read start = r.drain.consume r.unread

theorem reads_chunk (d : Line.Drain .standard) {content : Bytes} (h : content ≠ []) :
    d.read (.bytes (content.take Line.readSize)) = d.consume (content.take Line.readSize) := by
  obtain ⟨b, bs, rfl⟩ := List.exists_cons_of_ne_nil h
  have hle : ((b :: bs).take Line.readSize).length ≤ Line.readSize := by
    rw [List.length_take]
    exact Nat.min_le_left _ _
  show (Line.Drain.reads ((b :: bs).take Line.readSize)).foldl Line.Drain.consume d = _
  rw [reads_eq_singleton hle]
  rfl

namespace Reads

theorem fill (h : r.Reads script start) (at_ : r.phase = .reading) (unread : r.unread = [])
    (going : r.drain.stop = none) (content : p.content ≠ []) :
    (r.fill p).reader.Reads (script ++ [.bytes (p.content.take Line.readSize)]) start := by
  constructor
  · rintro (hstopped | hasleep)
    · rw [show (r.fill p).reader.finished = r.finished from rfl, finished, going] at hstopped
      contradiction
    · rw [show (r.fill p).reader.phase = r.phase from rfl, at_] at hasleep
      contradiction
  · rw [List.foldl_append, h.at_, unread, Line.Drain.consume_nil]
    exact reads_chunk r.drain content

/-- A reader that has not been cancelled by the line goes on with the next one. -/
theorem deliver {bytes : Array UInt8} {rest : Bytes} (going : r.drain.stop = none)
    (kept : (r.drain.deliver bytes).cancelled = false)
    (at_ : script.foldl Line.Drain.read start =
      (r.drain.deliver bytes).checkToken.consume rest) :
    (r.deliver p bytes rest).reader.Reads script start := by
  constructor
  · rintro (hstopped | hasleep)
    · have hgoing : (r.drain.deliver bytes).stop.isSome = true := hstopped
      rw [show (r.drain.deliver bytes).stop = r.drain.stop from rfl, going] at hgoing
      contradiction
    · contradiction
  · rw [at_, Line.Drain.checkToken_of_free kept]
    rfl

theorem consume (h : r.Reads script start) (going : r.drain.stop = none)
    (kept : (r.consume p).reader.drain.cancelled = false) :
    (r.consume p).reader.Reads script start := by
  unfold Reader.consume at kept ⊢
  cases htake : Line.take r.drain.line r.unread with
  | more line =>
    constructor
    · rintro (hstopped | hasleep)
      · rfl
      · rfl
    · rw [h.at_, Line.Drain.consume_of_more going htake]
      exact (Line.Drain.consume_nil _).symm
  | line bytes rest =>
    rw [htake] at kept
    have hpiece : (Line.take r.drain.line r.unread).piece? = some (bytes, rest) := by
      rw [htake]
      rfl
    exact deliver (p := p) going kept
      (h.at_.trans (Line.Drain.consume_of_piece going hpiece))
  | split bytes rest =>
    rw [htake] at kept
    have hpiece : (Line.take r.drain.line r.unread).piece? = some (bytes, rest) := by
      rw [htake]
      rfl
    exact deliver (p := p) going kept
      (h.at_.trans (Line.Drain.consume_of_piece going hpiece))

theorem endInput (h : r.Reads script start) (unread : r.unread = [])
    (going : r.drain.stop = none) (kept : (r.endInput p).reader.drain.cancelled = false) :
    (r.endInput p).reader.Reads (script ++ [.bytes []]) start := by
  have hall : (script ++ [Line.Read.bytes []]).foldl Line.Drain.read start = r.drain.endInput := by
    rw [List.foldl_append, h.at_, unread, Line.Drain.consume_nil]
    rfl
  unfold Reader.endInput at kept ⊢
  by_cases hempty : r.drain.line.bytes.isEmpty = true
  · rw [if_pos hempty]
    refine ⟨fun _ => rfl, ?_⟩
    rw [hall]
    exact (Line.Drain.consume_nil _).symm
  · rw [if_neg hempty] at kept ⊢
    refine deliver (p := p) going kept ?_
    rw [hall, Line.Drain.endInput_of_begun going hempty, Line.Drain.consume_nil]

/-- A step of a reader whose token is free brings what it reads. -/
theorem step (h : r.Reads script start) (hs : r.step false closed p = some s)
    (kept : s.reader.drain.cancelled = false) :
    s.reader.Reads (script ++ (r.arrival closed p).toList) start := by
  obtain ⟨going, haction⟩ := step_action hs
  cases haction with
  | turned phase asleep idle =>
    have hnothing : r.arrival closed p = none := by
      unfold arrival
      split
      · rename_i hreads
        obtain ⟨hcontent, hopen⟩ := idle hreads.1
        rw [if_pos hcontent, hopen]
        rfl
      · rfl
    rw [hnothing]
    refine ⟨?_, ?_⟩
    · rintro (hstopped | hasleep)
      · exact h.idle (.inl hstopped)
      · exact asleep hasleep
    · rw [Option.toList_none, List.append_nil]
      exact h.at_
  | cancelled seen => contradiction
  | consumed at_ unread =>
    rw [arrival, if_neg fun hreads => unread hreads.2, Option.toList_none, List.append_nil]
    exact h.consume going kept
  | filled at_ unread content =>
    rw [arrival, if_pos ⟨at_, unread⟩, if_neg content]
    exact h.fill at_ unread going content
  | ended at_ unread content dry =>
    rw [arrival, if_pos ⟨at_, unread⟩, if_pos content, dry]
    exact h.endInput unread going kept

/-- A failing read is one that brings its failure. -/
theorem fail {message : String} (h : r.Reads script start)
    (hs : r.fail false message p = some s) :
    s.reader.Reads (script ++ [.failure message]) start := by
  have hunread : r.unread = [] := by
    unfold Reader.fail at hs
    split at hs
    · rename_i hreads
      rw [Bool.and_eq_true] at hreads
      have hreads := hreads.2
      unfold reads at hreads
      cases hphase : r.phase with
      | fresh =>
        rw [hphase] at hreads
        contradiction
      | reading =>
        rw [hphase] at hreads
        exact List.isEmpty_iff.mp hreads
      | asleep => exact h.idle (.inr hphase)
    · contradiction
  obtain ⟨-, rfl⟩ := fail_eq hs
  refine ⟨fun _ => rfl, ?_⟩
  rw [List.foldl_append, h.at_, hunread, Line.Drain.consume_nil]
  exact (Line.Drain.consume_nil _).symm

/-- A reader that has stopped has used up everything. -/
theorem drain_eq (h : r.Reads script start) (finished : r.finished = true) :
    script.foldl Line.Drain.read start = r.drain := by
  rw [h.at_, h.idle (.inl finished), Line.Drain.consume_nil]

end Reads

end Reader

/-- The supervisor waits for the child. -/
def Phase.waits : Phase → Bool
  | waiting | reaping => true
  | _ => false

namespace Execution

variable {r : Runner} {e e' : Execution} {m : Move} {seen : List Observation}
variable {program : String} {pid : Nat}

/-- What a run observes in a move. -/
def observed (e : Execution) : Move → List Observation
  | .supervisor => if e.phase.waits then (e.child.status.map .waited).toList else []
  | .reader channel =>
    match e.readers.get channel, e.outlets.get channel with
    | some rd, .pipe p => ((rd.arrival (e.closed channel) p).map (.read channel)).toList
    | _, _ => []
  | .readFailure channel message => [.read channel (.failure message)]
  | .waitFailure message => [.waitFailed message]
  | .cancellation | .child _ | .destroy => []

theorem observed_supervisor (h : e.phase.waits = false) : e.observed .supervisor = [] := by
  rw [observed, h]
  rfl

/-- What a run knows by what it has observed, as long as its handle is not destroyed. -/
structure Observed (r : Runner) (program : String) (pid : Nat) (seen : List Observation)
    (e : Execution) : Prop where
  named : e.program = program
  numbered : e.pid = pid
  killed : e.killed = true → e.destroyed = true
  starts : e.destroyed = false → ∀ call ∈ e.starts, call.2 = ⟨program, some pid, false⟩
  unwired : e.phase.wired = false → ∀ c, readsOf c seen = []
  reads : e.destroyed = false → ∀ c rd, e.readers.get c = some rd →
    rd.Reads (readsOf c seen) (r.reader c).drain
  unreaped : e.phase.reaped = false → waitsOf seen = []
  reaped : e.phase.reaped = true → ∃ wait, waitsOf seen = [wait] ∧ e.code = codeOf wait

namespace Observed

/-- The supervisor goes on, and neither reads nor waits. -/
theorem keep (h : Observed r program pid seen e) (same : e'.program = e.program ∧ e'.pid = e.pid)
    (killed : e'.killed = true → e'.destroyed = true)
    (kept : e'.destroyed = false → e.destroyed = false)
    (starts : e'.destroyed = false → ∀ call ∈ e'.starts, call.2 = ⟨program, some pid, false⟩)
    (wired : e'.phase.wired = e.phase.wired) (readers : e'.readers = e.readers)
    (reaped : e'.phase.reaped = e.phase.reaped) (code : e'.code = e.code) :
    Observed r program pid seen e' := by
  constructor
  · rw [same.1]
    exact h.named
  · rw [same.2]
    exact h.numbered
  · exact killed
  · exact starts
  · rw [wired]
    exact h.unwired
  · rw [readers]
    exact fun hkept => h.reads (kept hkept)
  · rw [reaped]
    exact h.unreaped
  · rw [reaped, code]
    exact h.reaped

theorem wire (h : Observed r program pid seen e) (hw : Wired r e)
    {readers : PerChannel (Option Reader)} (at_ : e.phase = .wiring)
    (wires : e.newReaders = .ok readers) :
    Observed r program pid seen { e with readers := readers, phase := .starting 0 } := by
  refine ⟨h.named, h.numbered, h.killed, h.starts, nofun, fun _ c rd hrd => ?_, ?_, nofun⟩
  · obtain ⟨-, rfl⟩ := hw.reader_of_wires wires hrd
    rw [h.unwired (by rw [at_]; rfl) c]
    exact ⟨fun _ => rfl, (Line.Drain.consume_nil _).symm⟩
  · exact fun _ => h.unreaped (by rw [at_]; rfl)

theorem startCalled (h : Observed r program pid seen e) {next : Nat} {l : Registration Started}
    (at_ : e.phase = .starting next) : Observed r program pid seen (e.callStart next l) := by
  have hkept (hafter : (e.callStart next l).destroyed = false) : e.destroyed = false :=
    (Bool.or_eq_false_iff.mp hafter).1
  refine h.keep ⟨rfl, rfl⟩ (fun hkilled => ?_) hkept (fun hafter call hcall => ?_)
    (by rw [at_]; rfl) rfl (by rw [at_]; rfl) rfl
  · exact Bool.or_eq_true_iff.mpr (.inl (h.killed hkilled))
  · rw [starts_callStart, List.mem_append, List.mem_singleton] at hcall
    rcases hcall with hcall | rfl
    · exact h.starts (hkept hafter) call hcall
    · rw [h.named, h.numbered, hkept hafter]

theorem exitCalled (h : Observed r program pid seen e) {next : Nat} {l : Registration Int}
    (at_ : e.phase = .notifying next) : Observed r program pid seen (e.callExit next l) := by
  have hkept (hafter : (e.callExit next l).destroyed = false) : e.destroyed = false :=
    (Bool.or_eq_false_iff.mp hafter).1
  refine h.keep ⟨rfl, rfl⟩ (fun hkilled => ?_) hkept (fun hafter => ?_)
    (by rw [at_]; rfl) rfl (by rw [at_]; rfl) rfl
  · exact Bool.or_eq_true_iff.mpr (.inl (h.killed hkilled))
  · rw [starts_callExit]
    exact h.starts (hkept hafter)

theorem destroy (h : Observed r program pid seen e) : Observed r program pid seen e.destroy := by
  have hdestroyed : e.destroy.destroyed ≠ false := by simp [Execution.destroy]
  exact h.keep ⟨rfl, rfl⟩ (fun _ => rfl) (fun hkept => absurd hkept hdestroyed)
    (fun hkept => absurd hkept hdestroyed) rfl rfl rfl rfl

/-- Waiting is over. -/
theorem reap (h : Observed r program pid seen e) (wait : Except String Ending)
    {now : Observation} {failures : List SecondaryFailure}
    (at_ : e.phase = .waiting ∨ e.phase = .reaping) (waits : now.wait? = some wait)
    (reads : ∀ c, now.read? c = none) :
    Observed r program pid (seen ++ [now])
      { e with failures := failures, code := codeOf wait, phase := .joining .stdout } := by
  have hreaped : e.phase.reaped = false ∧ e.phase.wired = true := by
    rcases at_ with at_ | at_ <;> rw [at_] <;> exact ⟨rfl, rfl⟩
  have hreads (c : Channel) : readsOf c (seen ++ [now]) = readsOf c seen := by
    rw [readsOf_append, readsOf, readsOf, List.filterMap_cons_none (reads c)]
    exact List.append_nil _
  have hwaits : waitsOf (seen ++ [now]) = [wait] := by
    rw [waitsOf_append, h.unreaped hreaped.1, waitsOf, List.filterMap_cons_some waits]
    rfl
  refine ⟨h.named, h.numbered, h.killed, h.starts, nofun, fun hkept c rd hrd => ?_, nofun, ?_⟩
  · rw [hreads]
    exact h.reads hkept c rd hrd
  · exact fun _ => ⟨wait, hwaits, rfl⟩

theorem readsOf_brought (c : Channel) (brought : List Line.Read) :
    readsOf c (brought.map (.read c)) = brought := by
  simp [readsOf, List.filterMap_map, Function.comp_def, Observation.read?]

theorem readsOf_brought_other {c d : Channel} (hd : d ≠ c) (brought : List Line.Read) :
    readsOf d (brought.map (.read c)) = [] := by
  simp [readsOf, List.filterMap_map, Function.comp_def, Observation.read?, Ne.symm hd]

theorem waitsOf_brought (c : Channel) (brought : List Line.Read) :
    waitsOf (brought.map (.read c)) = [] := by
  simp [waitsOf, List.filterMap_map, Function.comp_def, Observation.wait?]

/-- What is observed in a step of a reader is what a read of its channel brings. -/
theorem brought_of_made (script : List Line.Read) (start : Line.Drain .standard) {c : Channel}
    {rd : Reader} {p : Pipe} {s : ReaderStep}
    (reader : e.readers.get c = some rd) (pipe : e.outlets.get c = .pipe p)
    (made : rd.made e.destroyed (e.closed c) p c m = some s) :
    ∃ brought : List Line.Read, e.observed m = brought.map (.read c) ∧
      (e.destroyed = false → s.reader.drain.cancelled = false → rd.Reads script start →
        s.reader.Reads (script ++ brought) start) := by
  rcases Reader.made_cases made with ⟨rfl, hstep⟩ | ⟨message, rfl, hfail⟩
  · refine ⟨(rd.arrival (e.closed c) p).toList, ?_, fun hkept hfree hreads => ?_⟩
    · simp only [observed, reader, pipe]
      cases rd.arrival (e.closed c) p <;> rfl
    · rw [hkept] at hstep
      exact hreads.step hstep hfree
  · refine ⟨[.failure message], rfl, fun hkept _ hreads => ?_⟩
    rw [hkept] at hfail
    exact hreads.fail hfail

theorem read (h : Observed r program pid seen e) (hw : Wired r e) {c : Channel} {rd : Reader}
    {p : Pipe} {s : ReaderStep} (reader : e.readers.get c = some rd)
    (pipe : e.outlets.get c = .pipe p) (turn : rd.Turn p s)
    (made : rd.made e.destroyed (e.closed c) p c m = some s) :
    Observed r program pid (seen ++ e.observed m) (e.afterReader c s) := by
  obtain ⟨brought, hbrought, hreads⟩ := brought_of_made (readsOf c seen)
    (r.reader c).drain reader pipe made
  have hwired := hw.wired_of_reader reader
  have hwaits : waitsOf (seen ++ e.observed m) = waitsOf seen := by
    rw [waitsOf_append, hbrought, waitsOf_brought, List.append_nil]
  refine ⟨h.named, h.numbered, fun hkilled => ?_, fun hafter => ?_, fun hunwired => ?_,
    fun hafter d rd' hrd' => ?_, ?_, ?_⟩
  · exact Bool.or_eq_true_iff.mpr (.inl (h.killed hkilled))
  · rw [starts_afterReader turn]
    exact h.starts (Bool.or_eq_false_iff.mp hafter).1
  · rw [show (e.afterReader c s).phase = e.phase from rfl, hwired] at hunwired
    contradiction
  · obtain ⟨hkept, hfree⟩ := Bool.or_eq_false_iff.mp hafter
    rw [readsOf_append, hbrought]
    by_cases hd : d = c
    · subst hd
      rw [readers_afterReader] at hrd'
      injection hrd' with hrd'
      subst hrd'
      rw [readsOf_brought]
      exact hreads hkept hfree (h.reads hkept d rd reader)
    · rw [readers_afterReader_other e hd] at hrd'
      rw [readsOf_brought_other hd, List.append_nil]
      exact h.reads hkept d rd' hrd'
  · rw [hwaits]
    exact h.unreaped
  · rw [hwaits]
    exact h.reaped

/-- Every change goes with what is observed in it. -/
theorem change (h : Observed r program pid seen e) (hw : Wired r e) (hc : Change e m e') :
    Observed r program pid (seen ++ e.observed m) e' := by
  have hnothing {new : List Observation} (hnew : new = []) (ho : Observed r program pid seen e') :
      Observed r program pid (seen ++ new) e' := by
    rwa [hnew, List.append_nil]
  have hphase {phase : Phase} (at_ : e.phase = phase) (waits : phase.waits = false) :
      e.observed .supervisor = [] := observed_supervisor (at_ ▸ waits)
  have hkeep {e' : Execution} (same : e'.program = e.program ∧ e'.pid = e.pid)
      (killed : e'.killed = e.killed) (destroyed : e'.destroyed = e.destroyed)
      (history : e'.history = e.history) (wired : e'.phase.wired = e.phase.wired)
      (readers : e'.readers = e.readers) (reaped : e'.phase.reaped = e.phase.reaped)
      (code : e'.code = e.code) : Observed r program pid seen e' := by
    refine h.keep same (by rw [killed, destroyed]; exact h.killed) (by rw [destroyed]; exact id)
      ?_ wired readers reaped code
    rw [destroyed, Execution.starts, history]
    exact h.starts
  -- Reads and waiting are observed; a new reader and a call need the handle not to be destroyed.
  cases hc with
  | wired readers at_ wires => exact hnothing (hphase at_ rfl) (h.wire hw at_ wires)
  | startCalled next l at_ listener => exact hnothing (hphase at_ rfl) (h.startCalled at_)
  | exitCalled next l at_ listener => exact hnothing (hphase at_ rfl) (h.exitCalled at_)
  | read m c rd p s reader pipe going turn made => exact h.read hw reader pipe turn made
  | reaped ending at_ status =>
    have hobserved : e.observed .supervisor = [.waited ending] := by
      rcases at_ with at_ | at_ <;> simp [observed, Phase.waits, at_, status]
    rw [hobserved]
    exact h.reap (.ok ending) at_ rfl fun _ => rfl
  | waitFailed message at_ ended =>
    exact h.reap (.error message) at_ rfl fun _ => rfl
  | registered id at_ =>
    refine hnothing (hphase at_ rfl) ?_
    exact hkeep ⟨rfl, rfl⟩ rfl rfl rfl (by rw [at_]; rfl) rfl (by rw [at_]; rfl) rfl
  | refused cause at_ wires =>
    refine hnothing (hphase at_ rfl) ?_
    exact hkeep ⟨rfl, rfl⟩ rfl rfl rfl (by rw [at_]; rfl) rfl (by rw [at_]; rfl) rfl
  | startsDone next at_ none_left =>
    refine hnothing (hphase at_ rfl) ?_
    exact hkeep ⟨rfl, rfl⟩ rfl rfl rfl (by rw [at_]; rfl) rfl (by rw [at_]; rfl) rfl
  | skipped c at_ unread =>
    refine hnothing (hphase at_ rfl) ?_
    cases c <;>
      exact hkeep ⟨rfl, rfl⟩ rfl rfl rfl (by rw [at_]; rfl) rfl (by rw [at_]; rfl) rfl
  | joined c rd at_ reader finished =>
    refine hnothing (hphase at_ rfl) ?_
    cases c <;>
      exact hkeep ⟨rfl, rfl⟩ rfl rfl rfl (by rw [at_]; rfl) rfl (by rw [at_]; rfl) rfl
  | released at_ =>
    refine hnothing (hphase at_ rfl) ?_
    exact hkeep ⟨rfl, rfl⟩ rfl rfl rfl (by rw [at_]; rfl) rfl (by rw [at_]; rfl) rfl
  | exitsDone next at_ none_left =>
    refine hnothing (hphase at_ rfl) ?_
    exact hkeep ⟨rfl, rfl⟩ rfl rfl rfl (by rw [at_]; rfl) rfl (by rw [at_]; rfl) rfl
  | killed at_ destroyed =>
    refine hnothing rfl (h.keep ⟨rfl, rfl⟩ (fun _ => destroyed) id h.starts ?_ rfl ?_ rfl)
    · rw [at_]
      rfl
    · rw [at_]
      rfl
  | acted => exact hnothing rfl (hkeep ⟨rfl, rfl⟩ rfl rfl rfl rfl rfl rfl rfl)
  | destroyed => exact hnothing rfl h.destroy

end Observed

theorem Logs.observes {capacity : Capacity} {handle : Handle} {child : Child}
    (h : Logs observed (r.execution capacity handle pid program child) seen e) :
    Observed r program pid seen e := by
  refine h.invariant ?_ fun reached ho hc => ho.change reached.wired hc
  refine ⟨rfl, rfl, nofun, fun _ => nofun, fun _ _ => rfl, fun _ c rd hrd => ?_, fun _ => rfl,
    nofun⟩
  rw [readers_execution] at hrd
  contradiction

end Execution

end ToolRunner
