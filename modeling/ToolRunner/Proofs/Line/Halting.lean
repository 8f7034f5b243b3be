import ToolRunner.Proofs.Line.Account

/-!
# The end of a reader

A reader that has stopped does nothing any more, and its report shows how it stopped (`Stop.Shown`).
A cancelled token lets at most one more line pass (`Drain.Spent`), and at a failed read, or when the
reader is woken with its token cancelled, what has been read of a line is given to nobody.
-/

namespace ToolRunner

namespace Line

/-- Whether a reader, cancelled or not, stops at a read in the middle of a line. -/
def Read.halts (cancelled : Bool) : Read → Bool
  | failure _ => true
  | pending => cancelled
  | bytes _ | cancel => false

/-- What a report says of the way in which the reader has stopped. -/
def Stop.Shown (channel : Channel) (report : Report) : Stop → Prop
  | .ended => report.cancelled = false ∧ ∀ c message, .read c message ∉ report.failures
  | .cancelled => report.cancelled = true ∧ ∀ c message, .read c message ∉ report.failures
  | .failed message => report.cancelled = false ∧ ∃ earlier,
      report.failures = earlier ++ [.read channel message] ∧ ∀ c text, .read c text ∉ earlier

theorem Stop.Shown.unique {channel : Channel} {report : Report} {a b : Stop}
    (ha : a.Shown channel report) (hb : b.Shown channel report) : a = b := by
  -- Either what the report says of the cancellation differs, or what it says of a failed read.
  have hflag {x y : Bool} (hx : report.cancelled = x) (hy : report.cancelled = y) : x = y :=
    hx.symm.trans hy
  have hread {message : String} {earlier : List SecondaryFailure}
      (hlast : report.failures = earlier ++ [.read channel message]) :
      .read channel message ∈ report.failures := by
    rw [hlast]
    exact List.mem_append_right _ (List.mem_singleton_self _)
  match a, b, ha, hb with
  | .ended, .ended, _, _ => rfl
  | .cancelled, .cancelled, _, _ => rfl
  | .ended, .cancelled, ⟨hx, _⟩, ⟨hy, _⟩ => cases hflag hx hy
  | .cancelled, .ended, ⟨hx, _⟩, ⟨hy, _⟩ => cases hflag hx hy
  | .cancelled, .failed _, ⟨hx, _⟩, ⟨hy, _⟩ => cases hflag hx hy
  | .failed _, .cancelled, ⟨hx, _⟩, ⟨hy, _⟩ => cases hflag hx hy
  | .ended, .failed _, ⟨_, hnone⟩, ⟨_, _, hlast, _⟩ => exact absurd (hread hlast) (hnone _ _)
  | .failed _, .ended, ⟨_, _, hlast, _⟩, ⟨_, hnone⟩ => exact absurd (hread hlast) (hnone _ _)
  | .failed _, .failed _, ⟨_, _, hlast, _⟩, ⟨_, _, hlast', _⟩ =>
    have heq := List.append_inj_right' (hlast.symm.trans hlast') rfl
    injection heq with heq
    injection heq with _ heq
    rw [heq]

variable {cap : Cap}

namespace Drain

theorem Gave.shown {channel : Channel} {listeners : List (Registration String)}
    {texts : List String} {d : Drain cap} (h : d.Gave channel listeners texts) {stop : Stop}
    (hstop : d.stop = some stop) : stop.Shown channel d.report := by
  have hfailures := h.failures_eq
  have hcancelled : d.report.cancelled = (some stop == some .cancelled) := by
    rw [← hstop]
    rfl
  have hcalls (c : Channel) (message : String) :
      .read c message ∉ (calls listeners texts).filterMap (·.failure? channel) := by
    intro hmem
    obtain ⟨call, -, hcall⟩ := List.mem_filterMap.mp hmem
    obtain ⟨text, -, htext⟩ := Option.map_eq_some_iff.mp hcall
    cases htext
  rw [hstop] at hfailures
  cases stop with
  | ended =>
    refine ⟨hcancelled, fun c message => ?_⟩
    show _ ∉ d.failures.toList
    rw [hfailures.trans (List.append_nil _)]
    exact hcalls c message
  | cancelled =>
    refine ⟨hcancelled, fun c message => ?_⟩
    show _ ∉ d.failures.toList
    rw [hfailures.trans (List.append_nil _)]
    exact hcalls c message
  | failed message => exact ⟨hcancelled, _, hfailures, hcalls⟩

variable {d : Drain cap}

/-! ## Nothing happens after the end -/

theorem read_of_stopped (h : d.stop.isSome = true) (r : Read) :
    ∃ token, d.read r = { d with cancelled := token } := by
  cases r with
  | bytes bs =>
    refine ⟨d.cancelled, ?_⟩
    cases bs with
    | nil => exact endInput_of_stopped h
    | cons b bs =>
      show (reads (b :: bs)).foldl consume d = d
      induction reads (b :: bs) with
      | nil => rfl
      | cons read reads ih => rwa [List.foldl_cons, consume_of_stopped h]
  | failure message => exact ⟨d.cancelled, fail_of_stopped h message⟩
  | pending => exact ⟨d.cancelled, checkToken_of_stopped h⟩
  | cancel => exact ⟨true, rfl⟩

theorem foldl_read_of_stopped (h : d.stop.isSome = true) (later : List Read) :
    ∃ token, later.foldl read d = { d with cancelled := token } := by
  induction later generalizing d with
  | nil => exact ⟨d.cancelled, rfl⟩
  | cons r later ih =>
    obtain ⟨token, hread⟩ := read_of_stopped h r
    rw [List.foldl_cons, hread]
    obtain ⟨last, hlast⟩ := @ih { d with cancelled := token } h
    exact ⟨last, hlast⟩

theorem finish_of_stopped (h : d.stop.isSome = true) (later : List Read) :
    ∃ token, (later.foldl read d).endInput.endInput = { d with cancelled := token } := by
  obtain ⟨token, hlater⟩ := foldl_read_of_stopped h later
  have hstop : ({ d with cancelled := token } : Drain cap).stop.isSome = true := h
  refine ⟨token, ?_⟩
  rw [hlater, endInput_of_stopped hstop, endInput_of_stopped hstop]

/-- A stream that has ended twice leaves no reader at work. -/
theorem endInput_endInput_stops (d : Drain cap) : d.endInput.endInput.stop.isSome = true := by
  cases hstop : d.stop with
  | some stop =>
    have h : d.stop.isSome = true := by rw [hstop]; rfl
    rwa [endInput_of_stopped h, endInput_of_stopped h]
  | none =>
    by_cases hempty : d.line.bytes.isEmpty = true
    · rw [endInput_of_empty hstop hempty, endInput_of_stopped rfl]
      rfl
    · have going : (d.deliver d.line.bytes).stop = none := hstop
      rw [endInput_of_begun hstop hempty]
      cases htoken : (d.deliver d.line.bytes).cancelled with
      | true =>
        rw [checkToken_of_cancelled going htoken, endInput_of_stopped rfl]
        rfl
      | false =>
        rw [checkToken_of_free htoken, endInput_of_empty going rfl]
        rfl

/-! ## A cancelled token lets one more line pass -/

/-- The token is cancelled, and the lines are within a limit, with room for one more while the
reader goes on. -/
structure Spent (limit : Nat) (d : Drain cap) : Prop where
  cancelled : d.cancelled = true
  le : d.lines ≤ limit
  lt : d.stop = none → d.lines < limit

namespace Spent

variable {limit : Nat}

theorem checkToken (h : Spent limit d) : Spent limit d.checkToken := by
  cases hstop : d.stop with
  | some stop => rwa [checkToken_of_stopped (by rw [hstop]; rfl)]
  | none =>
    rw [checkToken_of_cancelled hstop h.cancelled]
    exact ⟨h.cancelled, h.le, nofun⟩

/-- The line that is given now is the last one. -/
theorem deliver (h : Spent limit d) (going : d.stop = none) (bytes : Array UInt8) :
    Spent limit (d.deliver bytes).checkToken ∧
      (d.deliver bytes).checkToken.stop.isSome = true := by
  have htoken : (d.deliver bytes).cancelled = true := by
    show (d.cancelled || _) = true
    rw [h.cancelled, Bool.true_or]
  have hgoing : (d.deliver bytes).stop = none := going
  rw [checkToken_of_cancelled hgoing htoken]
  exact ⟨⟨htoken, h.lt going, nofun⟩, rfl⟩

theorem consume (h : Spent limit d) (bs : Bytes) : Spent limit (d.consume bs) := by
  cases hstop : d.stop with
  | some stop => rwa [consume_of_stopped (by rw [hstop]; rfl)]
  | none =>
    rcases take_cases d.line bs with ⟨after, htake⟩ | ⟨bytes, rest, htake, -⟩
    · rw [consume_of_more hstop htake]
      exact ⟨h.cancelled, h.le, h.lt⟩
    · obtain ⟨hlast, hstopped⟩ := h.deliver hstop bytes
      rwa [consume_of_piece hstop htake, consume_of_stopped hstopped]

theorem endInput (h : Spent limit d) : Spent limit d.endInput := by
  cases hstop : d.stop with
  | some stop => rwa [endInput_of_stopped (by rw [hstop]; rfl)]
  | none =>
    by_cases hempty : d.line.bytes.isEmpty = true
    · rw [endInput_of_empty hstop hempty]
      exact ⟨h.cancelled, h.le, nofun⟩
    · rw [endInput_of_begun hstop hempty]
      exact (h.deliver hstop d.line.bytes).1

theorem read (h : Spent limit d) (r : Read) : Spent limit (d.read r) := by
  cases r with
  | bytes bs =>
    cases bs with
    | nil => exact h.endInput
    | cons b bs =>
      show Spent limit ((reads (b :: bs)).foldl Drain.consume d)
      induction reads (b :: bs) generalizing d with
      | nil => exact h
      | cons read reads ih => exact ih (h.consume read)
  | failure message =>
    cases hstop : d.stop with
    | some stop =>
      show Spent limit (d.fail message)
      rwa [fail_of_stopped (by rw [hstop]; rfl)]
    | none =>
      show Spent limit (d.fail message)
      rw [fail_of_going hstop]
      exact ⟨h.cancelled, h.le, nofun⟩
  | pending => exact h.checkToken
  | cancel => exact ⟨rfl, h.le, h.lt⟩

theorem finish (h : Spent limit d) (later : List Read) :
    Spent limit (later.foldl Drain.read d).endInput.endInput := by
  induction later generalizing d with
  | nil => exact h.endInput.endInput
  | cons r later ih => exact ih (h.read r)

end Spent

/-! ## A moment of a run, and its end -/

theorem stop_run (d : Drain cap) (script : List Read) : (d.run script).stop.isSome = true :=
  endInput_endInput_stops _

theorem report_cancelled_iff : d.report.cancelled = true ↔ d.stop = some .cancelled := beq_iff_eq

theorem run_append (d : Drain cap) (now later : List Read) :
    d.run (now ++ later) = ((later.foldl read (d.reached now)).endInput).endInput := by
  rw [run_eq_reached, reached_append]

theorem run_of_stopped {now : List Read} (h : (d.reached now).stop.isSome = true)
    (later : List Read) :
    (d.run (now ++ later)).listeners = (d.reached now).listeners ∧
      (d.run (now ++ later)).report = (d.reached now).report := by
  obtain ⟨token, hend⟩ := finish_of_stopped h later
  rw [run_append, hend]
  exact ⟨rfl, rfl⟩

theorem lines_run_le {now : List Read} (h : (d.reached now).cancelled = true)
    (later : List Read) : (d.run (now ++ later)).lines ≤ (d.reached now).lines + 1 := by
  have hspent : Spent ((d.reached now).lines + 1) (d.reached now) :=
    ⟨h, Nat.le_succ _, fun _ => Nat.lt_succ_self _⟩
  rw [run_append]
  exact (hspent.finish later).le

theorem stop_read_of_halts {r : Read} (h : r.halts d.cancelled = true) :
    (d.read r).stop.isSome = true ∧ (d.read r).listeners = d.listeners := by
  cases hstop : d.stop with
  | some stop =>
    obtain ⟨token, hread⟩ := read_of_stopped (by rw [hstop]; rfl) r
    rw [hread]
    exact ⟨by rw [hstop]; rfl, rfl⟩
  | none =>
    cases r with
    | bytes bs => cases h
    | cancel => cases h
    | failure message =>
      show (d.fail message).stop.isSome = true ∧ (d.fail message).listeners = d.listeners
      rw [fail_of_going hstop]
      exact ⟨rfl, rfl⟩
    | pending =>
      show d.checkToken.stop.isSome = true ∧ d.checkToken.listeners = d.listeners
      rw [checkToken_of_cancelled hstop h]
      exact ⟨rfl, rfl⟩

theorem listeners_run_of_halts {now : List Read} {r : Read}
    (h : r.halts (d.reached now).cancelled = true) (later : List Read) :
    (d.run (now ++ r :: later)).listeners = (d.reached now).listeners := by
  obtain ⟨hstopped, hlisteners⟩ := stop_read_of_halts h
  obtain ⟨token, hend⟩ := finish_of_stopped hstopped later
  rw [run_append, List.foldl_cons, hend]
  exact hlisteners

end Drain

end Line

end ToolRunner
