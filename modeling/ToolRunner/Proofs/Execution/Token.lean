import ToolRunner.Proofs.Execution.Capture
import ToolRunner.Proofs.Execution.Notification

/-!
# The token of a run

A handle is destroyed by whoever holds it and by listeners, when they are called. The course of a
run is its moves, each with the execution in which it was made, and from it follows whether the
handle is destroyed. Whoever reports that it was has seen the token before the supervisor had waited
for the child and the readers (`Heeded`); a reader that reports nothing of the kind has come to the
end of its input, or to a read that failed (`Stops`).
-/

namespace ToolRunner

/-- The reader of the error stream is joined last. -/
theorem Phase.joined_of_stderr {phase : Phase} (h : phase.joined .stderr = true) (c : Channel) :
    phase.joined c = true := by
  cases phase with
  | joining d => cases d <;> contradiction
  | releasing | notifying | finished => rfl
  | _ => contradiction

/-- The step of a reader in which a listener destroys when it gets a line. -/
def ReaderStep.Destroys (s : ReaderStep) (r : Reader) : Prop :=
  ∃ text l, .line r.drain.channel text ∈ s.incidents ∧ l ∈ r.drain.listeners ∧
    (l.reaction text).destroys = true

namespace Reader

variable {r : Reader} {p : Pipe} {s : ReaderStep}

theorem deliver_cancelled_iff (r : Reader) (p : Pipe) (bytes : Array UInt8) (rest : Bytes) :
    (r.deliver p bytes rest).reader.drain.cancelled = true ↔ r.drain.cancelled = true ∨
      ∃ l ∈ r.drain.listeners, (l.reaction (Utf8.decode bytes.toList)).destroys = true := by
  show (r.drain.cancelled || (dispatch _ _ _).destroyed) = true ↔ _
  rw [Bool.or_eq_true, dispatch, dispatchFrom_destroyed_iff]

/-- A reader that gives a line is cancelled if a listener destroys, or if it was already. -/
theorem deliver_cancelled {bytes : Array UInt8} {rest : Bytes} {incidents : List Incident}
    (told : ∀ text, .line r.drain.channel text ∈ incidents ↔ text = Utf8.decode bytes.toList) :
    (r.deliver p bytes rest).reader.drain.cancelled = true ↔ r.drain.cancelled = true ∨
      ReaderStep.Destroys ⟨(r.deliver p bytes rest).reader, p, incidents⟩ r := by
  rw [deliver_cancelled_iff]
  refine or_congr_right ⟨?_, ?_⟩
  · rintro ⟨l, hl, hdestroys⟩
    exact ⟨_, l, (told _).mpr rfl, hl, hdestroys⟩
  · rintro ⟨text, l, htext, hl, hdestroys⟩
    obtain rfl := (told text).mp htext
    exact ⟨l, hl, hdestroys⟩

/-- A step in which nothing is told leaves the token as it is, unless it was seen. -/
theorem cancelled_of_silent (same : s.reader.drain.cancelled = r.drain.cancelled)
    (silent : ∀ text, .line r.drain.channel text ∉ s.incidents) :
    s.reader.drain.cancelled = true ↔ r.drain.cancelled = true ∨ s.Destroys r := by
  rw [same]
  refine ⟨.inl, fun h => h.resolve_right ?_⟩
  rintro ⟨text, l, htext, -⟩
  exact silent text htext

theorem consume_cancelled (r : Reader) (p : Pipe) :
    (r.consume p).reader.drain.cancelled = true ↔
      r.drain.cancelled = true ∨ (r.consume p).Destroys r := by
  unfold consume
  split
  · exact cancelled_of_silent rfl (by simp)
  · exact deliver_cancelled (by simp)
  · exact deliver_cancelled (by simp [deliver])

theorem endInput_cancelled (going : r.drain.stop = none) (p : Pipe) :
    (r.endInput p).reader.drain.cancelled = true ↔
      r.drain.cancelled = true ∨ (r.endInput p).Destroys r := by
  unfold endInput
  split
  · refine cancelled_of_silent ?_ (by simp [stopped])
    exact congrArg (·.cancelled) (Line.Drain.endInput_of_empty going ‹_›)
  · exact deliver_cancelled (by simp)

/-- The token is cancelled in a step of the reader by a listener, or it was before. -/
theorem step_cancelled {token closed : Bool} (h : r.step token closed p = some s)
    (tokens : r.drain.cancelled = true → token = true) :
    (token = true ∨ s.reader.drain.cancelled = true) ↔ token = true ∨ s.Destroys r := by
  have hof (hiff : s.reader.drain.cancelled = true ↔ r.drain.cancelled = true ∨ s.Destroys r) :
      (token = true ∨ s.reader.drain.cancelled = true) ↔ token = true ∨ s.Destroys r := by
    rw [hiff, ← or_assoc, or_iff_left_of_imp tokens]
  obtain ⟨going, haction⟩ := step_action h
  cases haction with
  | turned phase => exact hof (cancelled_of_silent rfl (by simp))
  | cancelled seen => simp [seen]
  | consumed => exact hof (consume_cancelled r p)
  | filled => exact hof (cancelled_of_silent rfl (by simp [fill]))
  | ended => exact hof (endInput_cancelled going p)

theorem fail_cancelled {token : Bool} {message : String} (h : r.fail token message p = some s) :
    s.reader.drain.cancelled = r.drain.cancelled := by
  unfold fail at h
  split at h
  · rename_i hcond
    injection h with h
    subst h
    have hgoing : r.drain.stop = none :=
      stop_of_not_finished (by simpa using (Bool.and_eq_true_iff.mp hcond).1)
    exact congrArg (·.cancelled) (Line.Drain.fail_of_going hgoing message)
  · contradiction

/-- Why a reader has stopped, if it has: there is a reason for each way to stop. -/
inductive Stopped (r : Reader) (token dry : Prop) : Prop where
  | going (stop : r.drain.stop = none)
  | cancelled (stop : r.drain.stop = some .cancelled) (seen : token)
  | ended (stop : r.drain.stop = some .ended) (dry : dry)
  | failed (message : String) (stop : r.drain.stop = some (.failed message))
      (told : .read r.drain.channel message ∈ r.drain.report.failures)

theorem Stopped.mono {token token' dry dry' : Prop} (h : r.Stopped token dry)
    (htoken : token → token') (hdry : dry → dry') : r.Stopped token' dry' := by
  cases h with
  | going stop => exact .going stop
  | cancelled stop seen => exact .cancelled stop (htoken seen)
  | ended stop dry => exact .ended stop (hdry dry)
  | failed message stop told => exact .failed message stop told

theorem Stride.stopped {token closed : Bool} (h : r.Stride token closed p s)
    (going : r.drain.stop = none) :
    s.reader.Stopped (token = true) (closed = true ∧ s.pipe.content = []) := by
  cases h with
  | turned phase => exact .going going
  | used line more => exact .going going
  | filled unread content => exact .going going
  | gave bytes rest piece incidents silent => exact .going going
  | gaveLast unread content dry line => exact .going going
  | cancelled seen =>
    have htoken :=
      Line.Drain.checkToken_of_cancelled (d := { r.drain with cancelled := true }) going rfl
    exact .cancelled (congrArg (·.stop) htoken) seen
  | ended unread content dry line =>
    refine .ended ?_ ⟨dry, content⟩
    exact congrArg (·.stop) (Line.Drain.endInput_of_empty going line)
  | failed message =>
    have hfail := Line.Drain.fail_of_going going message
    refine .failed message (congrArg (·.stop) hfail) ?_
    show _ ∈ (r.drain.fail message).failures.toList
    rw [hfail, Array.toList_push]
    exact List.mem_append_right _ (List.mem_singleton_self _)

end Reader

namespace Execution

/-- What destroys a handle: its holder does, or a listener that is called in a move. -/
inductive Destroys (e : Execution) : Move → Prop where
  | holder : Destroys e .destroy
  | start (next : Nat) (l : Registration Started) (at_ : e.phase = .starting next)
      (listener : e.start[next]? = some l)
      (destroys : (l.reaction ⟨e.program, some e.pid, e.destroyed⟩).destroys = true) :
      Destroys e .supervisor
  | line (c : Channel) (r : Reader) (p : Pipe) (s : ReaderStep)
      (reader : e.readers.get c = some r) (pipe : e.outlets.get c = .pipe p)
      (step : r.step e.destroyed (e.closed c) p = some s) (destroys : s.Destroys r) :
      Destroys e (.reader c)
  | exit (next : Nat) (l : Registration Int) (at_ : e.phase = .notifying next)
      (listener : e.exit[next]? = some l) (destroys : (l.reaction e.code).destroys = true) :
      Destroys e .supervisor

/-- The readers know of no token that is not cancelled. -/
def Tokens (e : Execution) : Prop :=
  ∀ c r, e.readers.get c = some r → r.drain.cancelled = true → e.destroyed = true

variable {r : Runner} {e e' : Execution} {m : Move}

/-! ## Who destroys -/

/-- A supervisor that calls no listener destroys nothing. -/
theorem not_destroys_supervisor
    (start : ∀ next l, e.phase = .starting next → e.start[next]? ≠ some l)
    (exit : ∀ next l, e.phase = .notifying next → e.exit[next]? ≠ some l) :
    ¬ e.Destroys .supervisor := by
  intro h
  cases h with
  | start next l at_ listener => exact start next l at_ listener
  | exit next l at_ listener => exact exit next l at_ listener

theorem destroyed_iff_of_read {c : Channel} {rd : Reader} {p : Pipe} {s : ReaderStep}
    (tokens : e.Tokens) (reader : e.readers.get c = some rd) (pipe : e.outlets.get c = .pipe p)
    (made : rd.made e.destroyed (e.closed c) p c m = some s) :
    (e.afterReader c s).destroyed = true ↔ e.destroyed = true ∨ e.Destroys m := by
  show (e.destroyed || s.reader.drain.cancelled) = true ↔ _
  rw [Bool.or_eq_true]
  rcases Reader.made_cases made with ⟨rfl, hstep⟩ | ⟨message, rfl, hfail⟩
  · rw [Reader.step_cancelled hstep (tokens c rd reader)]
    refine or_congr_right ⟨.line c rd p s reader pipe hstep, fun h => ?_⟩
    cases h with
    | line _ rd' p' s' reader' pipe' step' destroys =>
      obtain rfl : rd = rd' := Option.some.inj (reader.symm.trans reader')
      obtain rfl : p = p' := Outlet.pipe.inj (pipe.symm.trans pipe')
      obtain rfl : s = s' := Option.some.inj (hstep.symm.trans step')
      exact destroys
  · rw [Reader.fail_cancelled hfail, or_iff_left_of_imp (tokens c rd reader)]
    exact ⟨.inl, fun h => h.resolve_right nofun⟩

/-- A handle is destroyed after a move if it was before or somebody destroys it in the move. -/
theorem Change.destroyed_iff (hc : Change e m e') (tokens : e.Tokens) :
    e'.destroyed = true ↔ e.destroyed = true ∨ e.Destroys m := by
  have hnobody (h : ¬ e.Destroys m) : e.destroyed = true ↔ e.destroyed = true ∨ e.Destroys m :=
    (or_iff_left h).symm
  cases hc with
  | destroyed => exact ⟨fun _ => .inr .holder, fun _ => rfl⟩
  | read m c rd p s reader pipe going turn made =>
    exact destroyed_iff_of_read tokens reader pipe made
  | startCalled next l at_ listener =>
    show (e.destroyed || _) = true ↔ _
    rw [Bool.or_eq_true]
    refine or_congr_right ⟨.start next l at_ listener, fun h => ?_⟩
    cases h with
    | start next' l' at_' listener' destroys =>
      obtain rfl : next = next' := Phase.starting.inj (at_.symm.trans at_')
      obtain rfl : l = l' := Option.some.inj (listener.symm.trans listener')
      exact destroys
    | exit next' l' at_' => rw [at_] at at_'; contradiction
  | exitCalled next l at_ listener =>
    show (e.destroyed || _) = true ↔ _
    rw [Bool.or_eq_true]
    refine or_congr_right ⟨.exit next l at_ listener, fun h => ?_⟩
    cases h with
    | exit next' l' at_' listener' destroys =>
      obtain rfl : next = next' := Phase.notifying.inj (at_.symm.trans at_')
      obtain rfl : l = l' := Option.some.inj (listener.symm.trans listener')
      exact destroys
    | start next' l' at_' => rw [at_] at at_'; contradiction
  | startsDone next at_ none_left =>
    refine hnobody (not_destroys_supervisor (fun next' l at_' => ?_) (by simp [at_]))
    obtain rfl : next = next' := Phase.starting.inj (at_.symm.trans at_')
    rw [none_left]
    nofun
  | exitsDone next at_ none_left =>
    refine hnobody (not_destroys_supervisor (by simp [at_]) fun next' l at_' => ?_)
    obtain rfl : next = next' := Phase.notifying.inj (at_.symm.trans at_')
    rw [none_left]
    nofun
  | reaped ending at_ status =>
    rcases at_ with at_ | at_ <;>
      exact hnobody (not_destroys_supervisor (by simp [at_]) (by simp [at_]))
  | registered _ at_ | wired _ at_ _ | refused _ at_ _ | skipped _ at_ _ | joined _ _ at_ _ _
  | released at_ => exact hnobody (not_destroys_supervisor (by simp [at_]) (by simp [at_]))
  | killed | waitFailed | acted => exact hnobody nofun

/-! ## The course of a run -/

/-- What an execution becomes by some moves, each given with the execution in which it was made. -/
abbrev Course (e : Execution) : List (Execution × Move) → Execution → Prop :=
  Logs (fun before m => [(before, m)]) e

/-- Whether the supervisor has still to wait for the child or for a reader. -/
def supervising (e : Execution) : Bool := !e.phase.joined .stderr

/-- Somebody destroys the handle while the supervisor has still to wait. -/
def InTime (log : List (Execution × Move)) : Prop :=
  ∃ now ∈ log, now.1.supervising = true ∧ now.1.Destroys now.2

variable {log later : List (Execution × Move)}

theorem InTime.append (h : InTime log) : InTime (log ++ later) := by
  obtain ⟨now, hnow, h⟩ := h
  exact ⟨now, List.mem_append_left _ hnow, h⟩

theorem Course.writes {e e' : Execution} (h : e.Course log e') :
    e.Writes (log.flatMap fun now => now.1.puts now.2) e' := by
  induction h with
  | refl => exact .refl
  | move reached step ih =>
    rw [List.flatMap_append, List.flatMap_singleton]
    exact ih.move step

/-- A reader that was joined stays so. -/
theorem joined_of_change (hc : Change e m e') {c : Channel} (h : e.phase.joined c = true) :
    e'.phase.joined c = true := by
  cases hc with
  | skipped d at_ | joined d _ at_ =>
    show (afterJoining d).joined c = true
    rw [Phase.joined_afterJoining, ← at_, h, Bool.or_true]
  | reaped ending at_ | waitFailed message at_ =>
    rcases at_ with at_ | at_ <;> rw [at_] at h <;> contradiction
  | registered _ at_ | wired _ at_ | refused _ at_ | startCalled _ _ at_ | startsDone _ at_
  | killed at_ => rw [at_] at h; contradiction
  | released | exitCalled | exitsDone => rfl
  | acted | read | destroyed => exact h

/-- A reader that still works is waited for. -/
theorem supervising_of_going (hw : Wired r e) {c : Channel} {rd : Reader}
    (reader : e.readers.get c = some rd) (going : rd.finished = false) :
    e.supervising = true := by
  rw [supervising, Bool.not_eq_true']
  refine Bool.eq_false_iff.mpr fun hjoined => ?_
  rw [hw.joined c rd (Phase.joined_of_stderr hjoined c) reader] at going
  contradiction

/-! ## What the token has to do with the flags -/

/-- The handle is destroyed exactly if somebody has destroyed it, and who says that it was has seen
that in time. -/
structure Heeded (log : List (Execution × Move)) (e : Execution) : Prop where
  destroyed : e.destroyed = true ↔ ∃ now ∈ log, now.1.Destroys now.2
  tokens : e.Tokens
  before : e.supervising = true → ∀ now ∈ log, now.1.supervising = true
  killed : e.killed = true → InTime log
  stopped : ∀ c rd, e.readers.get c = some rd →
    rd.Stopped (InTime log) (e.closed c = true ∧ e.held c = [])

namespace Heeded

theorem inTime (h : Heeded log e) (supervising : e.supervising = true)
    (destroyed : e.destroyed = true) : InTime log := by
  obtain ⟨now, hnow, hdestroys⟩ := h.destroyed.mp destroyed
  exact ⟨now, hnow, h.before supervising now hnow, hdestroys⟩

/-- A reader that has stopped when a move was made has a reason, wherever it was before. -/
theorem stopped_flow (h : Heeded log e) (hw : Wired r e) (hf : Flow e m e') {c : Channel}
    {rd : Reader} (reader : e'.readers.get c = some rd) :
    rd.Stopped (InTime log) (e'.closed c = true ∧ e'.held c = []) := by
  cases hf with
  | wrote goes =>
    have hsame : e.readers.get c = some rd := by
      rw [goes.same] at reader
      exact reader
    exact (h.stopped c rd hsame).mono id (goes.dry (captures_of_reader hw hsame ▸ hw.captured c))
  | read d rd' p s puts reader' pipe going stride =>
    by_cases hc : c = d
    · subst hc
      rw [readers_afterReader] at reader
      injection reader with reader
      rw [held_afterReader, ← reader]
      have hgoing := Reader.stop_of_not_finished (by rw [going]; exact Bool.false_ne_true)
      exact (stride.stopped hgoing).mono (h.inTime (supervising_of_going hw reader' going)) id
    · rw [readers_afterReader_other e hc] at reader
      rw [held_afterReader_other e hc]
      exact h.stopped c rd reader
  | aside puts aside =>
    rw [aside.held_eq]
    rcases aside.readers with hsame | ⟨-, hwires⟩
    · rw [hsame] at reader
      exact (h.stopped c rd reader).mono id fun hdry => ⟨aside.closed hdry.1, hdry.2⟩
    · rw [(hw.reader_of_wires hwires reader).2]
      exact .going rfl

theorem tokens_change (h : e.Tokens) (hw : Wired r e) (hc : Change e m e') : e'.Tokens := by
  have hkept (hsame : e'.readers = e.readers) : e'.Tokens := by
    intro c rd hrd hcancelled
    rw [hsame] at hrd
    exact (hc.destroyed_iff h).mpr (.inl (h c rd hrd hcancelled))
  cases hc with
  | wired readers at_ wires =>
    intro c rd hrd hcancelled
    rw [(hw.reader_of_wires wires hrd).2] at hcancelled
    contradiction
  | read m c rd p s reader =>
    intro d rd' hrd' hcancelled
    show (e.destroyed || s.reader.drain.cancelled) = true
    by_cases hd : d = c
    · subst hd
      rw [readers_afterReader] at hrd'
      injection hrd' with hrd'
      rw [hrd', hcancelled, Bool.or_true]
    · rw [readers_afterReader_other e hd] at hrd'
      rw [h d rd' hrd' hcancelled, Bool.true_or]
  | _ => exact hkept rfl

theorem killed_change (h : Heeded log e) (hc : Change e m e') (killed : e'.killed = true) :
    InTime log := by
  cases hc with
  | killed at_ destroyed => exact h.inTime (by rw [supervising, at_]; rfl) destroyed
  | _ => exact h.killed killed

theorem move (h : Heeded log e) (hw : Wired r e) {t t' : Tracker}
    (step : e.step m t = some (t', e')) : Heeded (log ++ [(e, m)]) e' := by
  have hc := step_change step
  have hbefore (hs : e'.supervising = true) : e.supervising = true := by
    rw [supervising, Bool.not_eq_true'] at hs ⊢
    refine Bool.eq_false_iff.mpr fun hjoined => ?_
    rw [joined_of_change hc hjoined] at hs
    contradiction
  constructor
  · rw [hc.destroyed_iff h.tokens, h.destroyed]
    simp [or_and_right, exists_or]
  · exact tokens_change h.tokens hw hc
  · intro hs now hnow
    rcases List.mem_append.mp hnow with hnow | hnow
    · exact h.before (hbefore hs) now hnow
    · rw [List.mem_singleton.mp hnow]
      exact hbefore hs
  · intro hkilled
    exact (h.killed_change hc hkilled).append
  · intro c rd hrd
    exact (h.stopped_flow hw (step_flow step) hrd).mono InTime.append id

end Heeded

section

variable {capacity : Capacity} {handle : Handle} {pid : Nat} {program : String} {child : Child}

theorem Course.heeded (h : (r.execution capacity handle pid program child).Course log e) :
    Heeded log e := by
  induction h with
  | refl =>
    have hnone := readers_execution r capacity handle pid program child
    constructor
    · simp [Runner.execution]
    · intro c rd hrd
      rw [hnone] at hrd
      contradiction
    · simp
    · simp [Runner.execution]
    · intro c rd hrd
      rw [hnone] at hrd
      contradiction
  | move reached step ih => exact ih.move reached.reaches.wired step

end

end Execution

end ToolRunner
