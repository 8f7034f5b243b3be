import ToolRunner.Proofs.Execution.Wiring

/-!
# The exit code of a run

The code that exit listeners are given is that of the child's status, and unknown where there is
none or where waiting failed. Waiting fails at most once, and the failure is collected when it does;
readers and listeners never add one of that kind.
-/

namespace ToolRunner.Execution

variable {r : Runner} {e e' : Execution} {m : Move}

/-- The exit code of a run is that of its child, as far as that is known. -/
inductive Coded (e : Execution) : Prop where
  | waited (ending : Ending) (status : e.child.status = some ending)
      (code : e.code = ending.code?.getD (-1)) (waits : ∀ message, .wait message ∉ e.failures)
  | unknown (message : String) (code : e.code = -1) (wait : .wait message ∈ e.failures)

/-- What is known of the exit code and of the failure of waiting. -/
structure Waited (e : Execution) : Prop where
  before : e.phase.reaped = false → ∀ message, .wait message ∉ e.failures
  readers : ∀ c rd, e.readers.get c = some rd → ∀ message,
    .wait message ∉ rd.drain.failures.toList
  after : e.phase.reaped = true → Coded e

namespace Waited

/-- A change that is not the end of waiting, and adds other failures at most. -/
theorem keep (h : Waited e)
    (readers : ∀ c rd, e'.readers.get c = some rd → ∀ message,
      .wait message ∉ rd.drain.failures.toList)
    (reaped : e'.phase.reaped = e.phase.reaped)
    (status : ∀ ending, e.child.status = some ending → e'.child.status = some ending)
    (code : e'.code = e.code)
    (failures : ∀ message, .wait message ∈ e'.failures ↔ .wait message ∈ e.failures) :
    Waited e' := by
  constructor
  · intro hphase message hmem
    rw [reaped] at hphase
    exact h.before hphase message ((failures message).mp hmem)
  · exact readers
  · intro hphase
    rw [reaped] at hphase
    cases h.after hphase with
    | waited ending hstatus hcode hwaits =>
      refine .waited ending (status ending hstatus) (code.trans hcode) ?_
      intro message hmem
      exact hwaits message ((failures message).mp hmem)
    | unknown message hcode hwait =>
      exact .unknown message (code.trans hcode) ((failures message).mpr hwait)

/-- The supervisor goes on. -/
theorem advance (h : Waited e) (readers : e'.readers = e.readers)
    (reaped : e'.phase.reaped = e.phase.reaped) (child : e'.child = e.child)
    (code : e'.code = e.code) (failures : e'.failures = e.failures) : Waited e' := by
  refine h.keep ?_ reaped ?_ code ?_
  · rw [readers]
    exact h.readers
  · intro ending hs
    rwa [child]
  · intro message
    rw [failures]

theorem exitCalled (h : Waited e) {next : Nat} {l : Registration Int}
    (at_ : e.phase = .notifying next) : Waited (e.callExit next l) := by
  refine h.keep h.readers (by rw [at_]; rfl) (fun _ hs => hs) rfl fun message => ?_
  show _ ∈ e.failures ++ ((l.reaction e.code).failure? .exit next).toList ↔ _
  simp [Reaction.failure?]

theorem joined (h : Waited e) {c : Channel} {rd : Reader} (at_ : e.phase = .joining c)
    (reader : e.readers.get c = some rd) (reports : PerChannel (Option Report)) :
    Waited
      { e with
        failures := e.failures ++ rd.drain.report.failures
        reports := reports
        phase := afterJoining c } := by
  refine h.keep h.readers (by rw [at_]; cases c <;> rfl) (fun _ hs => hs) rfl fun message => ?_
  have hnone := h.readers c rd reader message
  rw [List.mem_append]
  exact ⟨fun hmem => hmem.resolve_right hnone, .inl⟩

theorem read (h : Waited e) {c : Channel} {rd : Reader} {p : Pipe} {s : ReaderStep}
    (reader : e.readers.get c = some rd) (turn : rd.Turn p s) :
    Waited (e.afterReader c s) := by
  refine h.keep ?_ rfl (fun _ hs => hs) rfl fun _ => Iff.rfl
  intro d rd' hrd' message hmem
  by_cases hd : d = c
  · subst hd
    rw [readers_afterReader] at hrd'
    injection hrd' with hrd'
    subst hrd'
    rcases turn.failures _ hmem with hmem | ⟨_, heq⟩ | ⟨_, _, _, heq⟩
    · exact h.readers d rd reader message hmem
    · cases heq
    · cases heq
  · rw [readers_afterReader_other e hd] at hrd'
    exact h.readers d rd' hrd' message hmem

theorem wire (h : Waited e) (hw : Wired r e) {readers : PerChannel (Option Reader)}
    (at_ : e.phase = .wiring) (wires : e.newReaders = .ok readers) :
    Waited { e with readers := readers, phase := .starting 0 } := by
  refine h.keep ?_ (by rw [at_]; rfl) (fun _ hs => hs) rfl fun _ => Iff.rfl
  intro c rd hrd message hmem
  rw [(hw.reader_of_wires wires hrd).2] at hmem
  simp [Runner.reader, Line.Drain.start] at hmem

theorem kill (h : Waited e) (at_ : e.phase = .waiting) :
    Waited { e with child := e.child.kill, killed := true, phase := .reaping } :=
  h.keep h.readers (by rw [at_]; rfl) (fun _ hs => Child.status_finish hs .killed) rfl
    fun _ => Iff.rfl

/-- What is known of the exit code stays known. -/
theorem change (h : Waited e) (hw : Wired r e) (hc : Change e m e') : Waited e' := by
  cases hc with
  | reaped ending at_ status =>
    have hbefore := h.before (by rcases at_ with at_ | at_ <;> rw [at_] <;> rfl)
    exact ⟨fun hp => (by cases hp), h.readers, fun _ => .waited ending status rfl hbefore⟩
  | waitFailed message at_ ended =>
    exact ⟨fun hp => (by cases hp), h.readers, fun _ => .unknown message rfl (by simp)⟩
  | wired readers at_ wires => exact h.wire hw at_ wires
  | exitCalled next l at_ listener => exact h.exitCalled at_
  | joined c rd at_ reader finished => exact h.joined at_ reader _
  | read m c rd p s reader pipe going turn => exact h.read reader turn
  | killed at_ destroyed => exact h.kill at_
  | refused cause at_ wires =>
    rw [hw.newReaders_eq] at wires
    cases wires
  | acted which child outlets signals turn pipes =>
    exact h.keep h.readers rfl (fun _ hs => turn.status hs) rfl fun _ => Iff.rfl
  | skipped c at_ unread => exact h.advance rfl (by rw [at_]; cases c <;> rfl) rfl rfl rfl
  | registered id at_ => exact h.advance rfl (by rw [at_]; rfl) rfl rfl rfl
  | startCalled next l at_ listener => exact h.advance rfl (by rw [at_]; rfl) rfl rfl rfl
  | startsDone next at_ none_left => exact h.advance rfl (by rw [at_]; rfl) rfl rfl rfl
  | released at_ => exact h.advance rfl (by rw [at_]; rfl) rfl rfl rfl
  | exitsDone next at_ none_left => exact h.advance rfl (by rw [at_]; rfl) rfl rfl rfl
  | destroyed => exact h.advance rfl rfl rfl rfl rfl

end Waited

theorem Reaches.waited {capacity : Capacity} {handle : Handle} {pid : Nat} {program : String}
    {child : Child} (h : (r.execution capacity handle pid program child).Reaches e) :
    Waited e := by
  refine h.invariant ⟨?_, ?_, ?_⟩ fun reached hw => hw.change reached.wired
  · intro _ message hmem
    cases hmem
  · intro c rd hrd
    rw [readers_execution] at hrd
    cases hrd
  · intro hphase
    cases hphase

end ToolRunner.Execution
