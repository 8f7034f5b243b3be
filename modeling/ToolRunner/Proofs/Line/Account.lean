import ToolRunner.Proofs.Line.Delivery

/-!
# What a reader has given and reports

Whatever a reader does, it has given the same lines to all its listeners, one line after another and
each to every listener in the order of registration. What it reports are these lines, counted, and
the failures of the calls in the order of the calls; last comes the failed read, if it stopped at
one (`Drain.Gave`).
-/

namespace ToolRunner

section

variable {α : Type}

theorem dispatchFrom_failures_eq (event : Event) (a : α) (index : Nat)
    (rs : List (Registration α)) :
    (dispatchFrom event a index rs).failures =
      (rs.zipIdx index).filterMap fun (r, i) => (r.reaction a).failure? event i := by
  induction rs generalizing index with
  | nil => rfl
  | cons r rs ih =>
    rw [dispatchFrom, ih, List.zipIdx_cons]
    cases h : (r.reaction a).failure? event index <;> simp [h]

theorem dispatchFrom_destroyed_iff {event : Event} {a : α} {index : Nat}
    {rs : List (Registration α)} :
    (dispatchFrom event a index rs).destroyed = true ↔
      ∃ r ∈ rs, (r.reaction a).destroys = true := by
  induction rs generalizing index with
  | nil => simp [dispatchFrom]
  | cons r rs ih => simp [dispatchFrom, ih]

/-- From what listeners have become it is known which calls they have had. -/
theorem Registration.callAll_injective {rs : List (Registration α)} (hne : rs ≠ []) {as bs : List α}
    (h : rs.map (·.callAll as) = rs.map (·.callAll bs)) : as = bs := by
  obtain ⟨r, rs, rfl⟩ := List.exists_cons_of_ne_nil hne
  rw [List.map_cons, List.map_cons, List.cons_eq_cons] at h
  have hreceived := congrArg Registration.received h.1
  rwa [received_callAll, received_callAll, List.append_cancel_left_eq] at hreceived

end

namespace Line

/-- A call of a line listener: its number, the line, and how the call came back. -/
structure Call where
  index : Nat
  text : String
  outcome : Outcome
deriving DecidableEq, Repr

/-- What a call that fails is reported as. -/
def Call.failure? (channel : Channel) (c : Call) : Option SecondaryFailure :=
  c.outcome.failure?.map (.listener (.line channel) c.index ·)

/-- The calls with one line, in the order of registration. -/
def callsOn (listeners : List (Registration String)) (text : String) : List Call :=
  listeners.zipIdx.map fun call => ⟨call.2, text, (call.1.reaction text).outcome⟩

/-- The calls with some lines. What a listener answers may depend on the calls that it has had. -/
def calls (listeners : List (Registration String)) : List String → List Call
  | [] => []
  | text :: texts => callsOn listeners text ++ calls (listeners.map (·.call text)) texts

theorem calls_concat (listeners : List (Registration String)) (texts : List String)
    (text : String) :
    calls listeners (texts ++ [text]) =
      calls listeners texts ++ callsOn (listeners.map (·.callAll texts)) text := by
  induction texts generalizing listeners with
  | nil => simp [calls, Registration.callAll]
  | cons first texts ih =>
    rw [List.cons_append, calls, ih, calls, List.append_assoc, List.map_map]
    rfl

/-- Each line goes to every listener once, before the next line goes to any. -/
theorem map_calls (listeners : List (Registration String)) (texts : List String) :
    (calls listeners texts).map (fun c => (c.index, c.text)) =
      texts.flatMap fun text => (List.range listeners.length).map (·, text) := by
  have hon (rs : List (Registration String)) (text : String) :
      (callsOn rs text).map (fun c => (c.index, c.text)) =
        (List.range rs.length).map (·, text) := by
    rw [callsOn, List.map_map, List.range_eq_range', ← List.zipIdx_map_snd 0 rs, List.map_map]
    rfl
  induction texts generalizing listeners with
  | nil => rfl
  | cons text texts ih =>
    rw [calls, List.map_append, hon, ih, List.length_map, List.flatMap_cons]

theorem dispatch_failures_eq (channel : Channel) (listeners : List (Registration String))
    (text : String) :
    (dispatch (.line channel) listeners text).failures =
      (callsOn listeners text).filterMap (·.failure? channel) := by
  rw [dispatch, dispatchFrom_failures_eq, callsOn, List.filterMap_map]
  rfl

/-- What a reader that stopped at a failed read reports of that. -/
def Stop.readFailure (channel : Channel) : Option Stop → List SecondaryFailure
  | some (.failed message) => [.read channel message]
  | _ => []

variable {cap : Cap}

/-! ## Using up bytes, case by case -/

/-- The piece that a line has become, and what it leaves of the bytes. -/
def Taken.piece? : Taken cap → Option (Array UInt8 × Bytes)
  | .more _ => none
  | .line bytes rest => some (bytes, rest)
  | .split bytes rest => some (bytes, rest)

theorem take_cases (line : Partial cap) (bs : Bytes) :
    (∃ after, take line bs = .more after) ∨
      ∃ bytes rest, (take line bs).piece? = some (bytes, rest) ∧ rest.length < bs.length := by
  cases h : take line bs with
  | more after => exact .inl ⟨after, rfl⟩
  | line bytes rest => exact .inr ⟨bytes, rest, rfl, rest_lt_of_take_line h⟩
  | split bytes rest => exact .inr ⟨bytes, rest, rfl, rest_lt_of_take_split h⟩

namespace Drain

variable {d : Drain cap}

theorem consume_of_stopped (h : d.stop.isSome = true) (bs : Bytes) : d.consume bs = d := by
  rw [consume, if_pos h]

theorem consume_of_more {bs : Bytes} {after : Partial cap} (going : d.stop = none)
    (h : take d.line bs = .more after) : d.consume bs = { d with line := after } := by
  rw [consume, if_neg (by simp [going])]
  split
  · rename_i line htake
    rw [h] at htake
    injection htake with hline
    rw [hline]
  · rename_i htake
    rw [h] at htake
    contradiction
  · rename_i htake
    rw [h] at htake
    contradiction

theorem consume_nil (d : Drain cap) : d.consume [] = d := by
  cases hstop : d.stop with
  | some stop => exact consume_of_stopped (by rw [hstop]; rfl) []
  | none => exact consume_of_more hstop rfl

theorem consume_of_piece {bs rest : Bytes} {bytes : Array UInt8} (going : d.stop = none)
    (h : (take d.line bs).piece? = some (bytes, rest)) :
    d.consume bs = ((d.deliver bytes).checkToken).consume rest := by
  rw [consume, if_neg (by simp [going])]
  split
  · rename_i htake
    rw [htake] at h
    contradiction
  · rename_i htake
    rw [htake] at h
    cases h
    rfl
  · rename_i htake
    rw [htake] at h
    cases h
    rfl

theorem checkToken_of_stopped (h : d.stop.isSome = true) : d.checkToken = d := by
  obtain ⟨stop, hs⟩ := Option.isSome_iff_exists.mp h
  rw [checkToken, hs]
  rfl

theorem checkToken_of_free (h : d.cancelled = false) : d.checkToken = d := by
  rw [checkToken, h, Bool.and_false]
  rfl

theorem checkToken_of_cancelled (going : d.stop = none) (h : d.cancelled = true) :
    d.checkToken = { d with stop := some .cancelled, line := .empty } := by
  rw [checkToken, going, h]
  rfl

theorem fail_of_stopped (h : d.stop.isSome = true) (message : String) : d.fail message = d := by
  rw [fail, if_pos h]

theorem fail_of_going (going : d.stop = none) (message : String) :
    d.fail message =
      { d with
        stop := some (.failed message)
        line := .empty
        failures := d.failures.push (.read d.channel message) } := by
  rw [fail, if_neg (by simp [going])]

theorem endInput_of_empty (going : d.stop = none) (h : d.line.bytes.isEmpty = true) :
    d.endInput = { d with stop := some .ended } := by
  rw [endInput, if_neg (by simp [going]), if_pos h]

theorem endInput_of_begun (going : d.stop = none) (h : ¬ d.line.bytes.isEmpty = true) :
    d.endInput = (d.deliver d.line.bytes).checkToken := by
  rw [endInput, if_neg (by simp [going]), if_neg h]

/-- The reader after some reads, which more may follow. -/
def reached (d : Drain cap) (script : List Read) : Drain cap :=
  script.foldl read d.checkToken

theorem run_eq_reached (d : Drain cap) (script : List Read) :
    d.run script = ((d.reached script).endInput).endInput := rfl

theorem reached_append (d : Drain cap) (now later : List Read) :
    d.reached (now ++ later) = later.foldl read (d.reached now) := List.foldl_append

/-! ## The account of a reader -/

/-- A reader that began with some listeners has given them some lines. -/
structure Gave (channel : Channel) (listeners : List (Registration String)) (texts : List String)
    (d : Drain cap) : Prop where
  channel_eq : d.channel = channel
  listeners_eq : d.listeners = listeners.map (·.callAll texts)
  lines_eq : d.lines = texts.length
  failures_eq : d.failures.toList =
    (calls listeners texts).filterMap (·.failure? channel) ++ Stop.readFailure channel d.stop

variable {channel : Channel} {listeners : List (Registration String)} {texts : List String}

theorem gave_start (cap : Cap) (channel : Channel) (listeners : List (Registration String))
    (cancelled : Bool) : Gave channel listeners [] (start cap channel listeners cancelled) where
  channel_eq := rfl
  listeners_eq := by simp [start, Registration.callAll]
  lines_eq := rfl
  failures_eq := rfl

namespace Gave

theorem stopAt (h : Gave channel listeners texts d) (going : d.stop = none) {stop : Option Stop}
    (hstop : Stop.readFailure channel stop = []) (line : Partial cap) :
    Gave channel listeners texts { d with stop := stop, line := line } where
  channel_eq := h.channel_eq
  listeners_eq := h.listeners_eq
  lines_eq := h.lines_eq
  failures_eq := by
    have hfailures := h.failures_eq
    rw [going] at hfailures
    rw [hstop]
    exact hfailures

theorem withLine (h : Gave channel listeners texts d) (line : Partial cap) :
    Gave channel listeners texts { d with line := line } :=
  ⟨h.channel_eq, h.listeners_eq, h.lines_eq, h.failures_eq⟩

theorem withToken (h : Gave channel listeners texts d) (cancelled : Bool) :
    Gave channel listeners texts { d with cancelled := cancelled } :=
  ⟨h.channel_eq, h.listeners_eq, h.lines_eq, h.failures_eq⟩

theorem deliver (h : Gave channel listeners texts d) (going : d.stop = none)
    (bytes : Array UInt8) :
    Gave channel listeners (texts ++ [Utf8.decode bytes.toList]) (d.deliver bytes) where
  channel_eq := h.channel_eq
  listeners_eq := by
    rw [Drain.deliver, dispatch_listeners, h.listeners_eq, List.map_map]
    refine List.map_congr_left fun r _ => ?_
    simp [Registration.callAll]
  lines_eq := by
    rw [List.length_append, ← h.lines_eq]
    rfl
  failures_eq := by
    have hfailures := h.failures_eq
    have hstop : (d.deliver bytes).stop = none := going
    rw [going] at hfailures
    rw [failures_deliver, hfailures, h.channel_eq, h.listeners_eq, dispatch_failures_eq,
      calls_concat, List.filterMap_append, hstop]
    simp [Stop.readFailure]

theorem deliverAll (h : Gave channel listeners texts d) (going : d.stop = none) (ps : List Piece) :
    Gave channel listeners (texts ++ ps.map (·.text)) (d.deliverAll ps) := by
  induction ps generalizing d texts with
  | nil => rwa [List.map_nil, List.append_nil]
  | cons p ps ih =>
    have hnext := ih (h.deliver going p.bytes.toArray) going
    rwa [List.append_assoc] at hnext

theorem checkToken (h : Gave channel listeners texts d) :
    Gave channel listeners texts d.checkToken := by
  cases hstop : d.stop with
  | some stop => rwa [checkToken_of_stopped (by rw [hstop]; rfl)]
  | none =>
    cases hcancelled : d.cancelled with
    | false => rwa [checkToken_of_free hcancelled]
    | true =>
      rw [checkToken_of_cancelled hstop hcancelled]
      exact h.stopAt hstop rfl .empty

theorem fail (h : Gave channel listeners texts d) (message : String) :
    Gave channel listeners texts (d.fail message) := by
  cases hstop : d.stop with
  | some stop => rwa [fail_of_stopped (by rw [hstop]; rfl)]
  | none =>
    rw [fail_of_going hstop]
    refine ⟨h.channel_eq, h.listeners_eq, h.lines_eq, ?_⟩
    have hfailures := h.failures_eq
    rw [hstop] at hfailures
    rw [Array.toList_push, hfailures, h.channel_eq]
    simp [Stop.readFailure]

theorem quiet (h : Gave channel listeners texts d) (hquiet : ∀ r ∈ listeners, r.Quiet) :
    ∀ r ∈ d.listeners, r.Quiet := by
  intro r hr
  rw [h.listeners_eq] at hr
  obtain ⟨r', hr', rfl⟩ := List.mem_map.mp hr
  have hall (as : List String) : ∀ r : Registration String, r.Quiet → (r.callAll as).Quiet := by
    induction as with
    | nil => exact fun r hr => hr
    | cons a as ih => exact fun r hr => ih (r.call a) (hr.call a)
  exact hall texts r' (hquiet r' hr')

end Gave

end Drain

end Line

end ToolRunner
