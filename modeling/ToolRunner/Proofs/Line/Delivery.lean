import ToolRunner.Line.Drain
import ToolRunner.Proofs.Line.Pieces

/-!
# A reader delivers the pieces of its stream

A script that only brings bytes and lets the reader wait is `Steady`; a reader that runs on it, and
that none of its listeners cancels, delivers the pieces of the reads and nothing else, and stops at
the end of the input (`run_eq`). What the listeners answer makes no difference to that: their
failures are collected and nothing more.
-/

namespace ToolRunner

/-- A listener that never destroys what it is called for. -/
def Registration.Quiet {α : Type} (r : Registration α) : Prop :=
  ∀ calls a, (r.respond calls a).destroys = false

/-- The registration after some calls. -/
def Registration.callAll {α : Type} (r : Registration α) (as : List α) : Registration α :=
  as.foldl call r

@[simp] theorem Registration.received_callAll {α : Type} (r : Registration α) (as : List α) :
    (r.callAll as).received = r.received ++ as := by
  induction as generalizing r with
  | nil => simp [callAll]
  | cons a as ih =>
    have := ih (r.call a)
    rw [callAll, List.foldl_cons, ← callAll, this, received_call, List.append_assoc]
    rfl

theorem Registration.quiet_ofReaction {α : Type} {react : α → Reaction}
    (h : ∀ a, (react a).destroys = false) : (ofReaction react).Quiet := fun _ a => h a

theorem Registration.Quiet.call {α : Type} {r : Registration α} (h : r.Quiet) (a : α) :
    (r.call a).Quiet := h

theorem dispatchFrom_destroyed {α : Type} {event : Event} {a : α} {index : Nat}
    {rs : List (Registration α)} (h : ∀ r ∈ rs, r.Quiet) :
    (dispatchFrom event a index rs).destroyed = false := by
  induction rs generalizing index with
  | nil => rfl
  | cons r rs ih =>
    have hr : (r.reaction a).destroys = false := h r (by simp) _ _
    have hrs : (dispatchFrom event a (index + 1) rs).destroyed = false :=
      ih fun r h' => h r (by simp [h'])
    simp only [dispatchFrom, hr, hrs, Bool.or_false]

/-- Calls of quiet listeners destroy nothing. -/
theorem dispatch_destroyed {α : Type} {event : Event} {a : α} {rs : List (Registration α)}
    (h : ∀ r ∈ rs, r.Quiet) : (dispatch event rs a).destroyed = false :=
  dispatchFrom_destroyed h

theorem dispatchFrom_failures {α : Type} {event : Event} {a : α} {index : Nat}
    {rs : List (Registration α)} {f : SecondaryFailure}
    (h : f ∈ (dispatchFrom event a index rs).failures) :
    ∃ i message, f = .listener event i message := by
  induction rs generalizing index with
  | nil => simp [dispatchFrom] at h
  | cons r rs ih =>
    rw [dispatchFrom, List.mem_append] at h
    rcases h with h | h
    · rw [Option.mem_toList, Reaction.failure?, Option.map_eq_some_iff] at h
      obtain ⟨message, -, rfl⟩ := h
      exact ⟨index, message, rfl⟩
    · exact ih h

/-- The failures of a call are failures of listeners. -/
theorem dispatch_failures {α : Type} {event : Event} {a : α} {rs : List (Registration α)}
    {f : SecondaryFailure} (h : f ∈ (dispatch event rs a).failures) :
    ∃ i message, f = .listener event i message :=
  dispatchFrom_failures h

namespace Line

open Bytes

variable {cap : Cap}

/-- The text that the listeners get of a piece. -/
def Piece.text (p : Piece) : String := Utf8.decode p.bytes

namespace Read

/-- A read that brings bytes, or one that the reader has to wait for. -/
def Steady : Read → Prop
  | bytes bs => bs ≠ []
  | pending => True
  | failure _ => False
  | cancel => False

/-- The runs of bytes that a read brings. -/
def runs : Read → List Bytes
  | bytes bs => Drain.reads bs
  | _ => []

def content : Read → Bytes
  | bytes bs => bs
  | _ => []

end Read

/-- The runs of bytes that a script brings, each of which is at hand by itself. -/
def brought (script : List Read) : List Bytes := script.flatMap Read.runs

def content (script : List Read) : Bytes := script.flatMap Read.content

namespace Drain

theorem flatten_reads (bs : Bytes) : (reads bs).flatten = bs := by
  rw [reads]
  split
  · simp
  · rename_i b rest h
    have hlt : rest.length + 1 < bs.length := by
      have := congrArg List.length h
      simp only [List.length_drop, List.length_cons, readSize] at this
      omega
    rw [List.flatten_cons, flatten_reads (b :: rest), ← h, List.take_append_drop]
termination_by bs.length

theorem reads_ne_nil {bs : Bytes} (hne : bs ≠ []) : ∀ read ∈ reads bs, read ≠ [] := by
  intro read hread
  rw [reads] at hread
  split at hread
  · rw [List.mem_singleton] at hread
    rwa [hread]
  · rename_i b rest h
    have hlt : rest.length + 1 < bs.length := by
      have := congrArg List.length h
      simp only [List.length_drop, List.length_cons, readSize] at this
      omega
    rcases List.mem_cons.mp hread with rfl | hmem
    · have hpos := List.length_pos_iff.mpr hne
      refine List.length_pos_iff.mp ?_
      rw [List.length_take, readSize]
      omega
    · exact reads_ne_nil (by simp) read hmem
termination_by bs.length

end Drain

theorem flatten_brought {script : List Read} (h : ∀ r ∈ script, r.Steady) :
    (brought script).flatten = content script := by
  induction script with
  | nil => rfl
  | cons r script ih =>
    have hr : r.runs.flatten = r.content := by
      cases r with
      | bytes bs => exact Drain.flatten_reads bs
      | failure _ => rfl
      | pending => rfl
      | cancel => rfl
    have hscript := ih (fun r h' => h r (by simp [h']))
    simp only [brought, content, List.flatMap_cons, List.flatten_append] at hscript ⊢
    rw [hr, hscript]

theorem brought_ne_nil {script : List Read} (h : ∀ r ∈ script, r.Steady) :
    ∀ read ∈ brought script, read ≠ [] := by
  intro read hread
  obtain ⟨r, hr, hmem⟩ := List.mem_flatMap.mp hread
  cases r with
  | bytes bs => exact Drain.reads_ne_nil (h _ hr) read hmem
  | failure _ => simp [Read.runs] at hmem
  | pending => simp [Read.runs] at hmem
  | cancel => simp [Read.runs] at hmem

namespace Drain

/-- The reader goes on, and no listener will cancel it. -/
structure Running (d : Drain cap) : Prop where
  going : d.stop = none
  free : d.cancelled = false
  quiet : ∀ r ∈ d.listeners, r.Quiet

def deliverAll (d : Drain cap) (ps : List Piece) : Drain cap :=
  ps.foldl (fun d p => d.deliver p.bytes.toArray) d

theorem deliverAll_cons (d : Drain cap) (p : Piece) (ps : List Piece) :
    d.deliverAll (p :: ps) = (d.deliver p.bytes.toArray).deliverAll ps := rfl

theorem deliverAll_append (d : Drain cap) (ps qs : List Piece) :
    d.deliverAll (ps ++ qs) = (d.deliverAll ps).deliverAll qs := List.foldl_append

theorem Running.checkToken {d : Drain cap} (h : d.Running) : d.checkToken = d := by
  rw [Drain.checkToken, h.free, Bool.and_false]
  rfl

theorem Running.withLine {d : Drain cap} (h : d.Running) (line : Partial cap) :
    { d with line := line }.Running := ⟨h.going, h.free, h.quiet⟩

theorem Running.deliver {d : Drain cap} (h : d.Running) (bytes : Array UInt8) :
    (d.deliver bytes).Running where
  going := h.going
  free := by
    show (d.cancelled || _) = false
    rw [h.free, dispatch_destroyed h.quiet]
    rfl
  quiet := by
    intro r hr
    rw [Drain.deliver, dispatch_listeners] at hr
    obtain ⟨r', hr', rfl⟩ := List.mem_map.mp hr
    exact (h.quiet r' hr').call _

theorem Running.deliverAll {d : Drain cap} (h : d.Running) (ps : List Piece) :
    (d.deliverAll ps).Running := by
  induction ps generalizing d with
  | nil => exact h
  | cons p ps ih => exact ih (h.deliver _)

/-- What was begun of a line makes no difference to the delivery of a piece. -/
theorem deliverAll_withLine (d : Drain cap) (line after : Partial cap) (ps : List Piece) :
    { { d with line := line }.deliverAll ps with line := after } =
      { d.deliverAll ps with line := after } := by
  cases ps <;> rfl

/-- Bytes at hand are used up by delivering their pieces. -/
theorem consume_eq {d : Drain cap} (h : d.Running) (bs : Bytes) :
    d.consume bs = { d.deliverAll (cut d.line bs).1 with line := (cut d.line bs).2 } := by
  have hsome : d.stop.isSome = false := by rw [h.going]; rfl
  rw [consume, if_neg (by simp [hsome])]
  split
  · rename_i line htake
    rw [cut_of_more htake]
    rfl
  · rename_i bytes rest htake
    have hlt := rest_lt_of_take_line htake
    have hd := h.deliver bytes
    rw [hd.checkToken, consume_eq hd rest, cut_of_line htake]
    rfl
  · rename_i bytes rest htake
    have hlt := rest_lt_of_take_split htake
    have hd := h.deliver bytes
    rw [hd.checkToken, consume_eq hd rest, cut_of_split htake]
    rfl
termination_by bs.length

theorem foldl_consume_eq {d : Drain cap} (h : d.Running) (reads : List Bytes) :
    reads.foldl consume d =
      { d.deliverAll (cutAll d.line reads).1 with line := (cutAll d.line reads).2 } := by
  induction reads generalizing d with
  | nil => rfl
  | cons read reads ih =>
    have hnext := (h.deliverAll (cut d.line read).1).withLine (cut d.line read).2
    rw [List.foldl_cons, consume_eq h, ih hnext, deliverAll_withLine, ← deliverAll_append]
    rfl

theorem foldl_read_eq {d : Drain cap} (h : d.Running) {script : List Read}
    (hs : ∀ r ∈ script, r.Steady) : script.foldl read d = (brought script).foldl consume d := by
  induction script generalizing d with
  | nil => rfl
  | cons r script ih =>
    have hr := hs r (by simp)
    have hrest : ∀ r ∈ script, r.Steady := fun r h' => hs r (by simp [h'])
    rw [List.foldl_cons, brought, List.flatMap_cons, List.foldl_append, ← brought]
    cases r with
    | bytes bs =>
      have hread : d.read (.bytes bs) = (reads bs).foldl consume d := by
        cases bs with
        | nil => exact absurd rfl hr
        | cons b bs => rfl
      have hnext : ((reads bs).foldl consume d).Running := by
        rw [foldl_consume_eq h]
        exact (h.deliverAll _).withLine _
      rw [hread]
      exact ih hnext hrest
    | pending =>
      rw [show d.read .pending = d from h.checkToken]
      exact ih h hrest
    | failure _ => exact absurd hr id
    | cancel => exact absurd hr id

theorem eq_empty_of_isEmpty {line : Partial cap} (h : line.bytes.isEmpty = true) :
    line = .empty := by
  cases line with
  | mk bytes room =>
    have hbytes : bytes = #[] := Array.isEmpty_iff.mp h
    subst hbytes
    rfl

theorem endInput_of_stopped {d : Drain cap} (h : d.stop.isSome = true) : d.endInput = d :=
  if_pos h

theorem Running.endInput_empty {d : Drain cap} (h : d.Running)
    (he : d.line.bytes.isEmpty = true) :
    d.endInput = { d with line := .empty, stop := some .ended } := by
  have hgoing : ¬ d.stop.isSome = true := by simp [h.going]
  rw [endInput, if_neg hgoing, if_pos he, ← eq_empty_of_isEmpty he]

theorem Running.endInput_line {d : Drain cap} (h : d.Running)
    (he : ¬ d.line.bytes.isEmpty = true) : d.endInput = d.deliver d.line.bytes := by
  have hgoing : ¬ d.stop.isSome = true := by simp [h.going]
  rw [endInput, if_neg hgoing, if_neg he, (h.deliver _).checkToken]

/-- The input ends for good: what has begun of a line is its last piece. -/
theorem Running.endInput_endInput {d : Drain cap} (h : d.Running) :
    d.endInput.endInput =
      { d.deliverAll (lastPiece d.line) with line := .empty, stop := some .ended } := by
  unfold lastPiece
  by_cases he : d.line.bytes.isEmpty = true
  · rw [if_pos he, h.endInput_empty he]
    exact endInput_of_stopped rfl
  · rw [if_neg he, h.endInput_line he, (h.deliver _).endInput_empty rfl]
    rfl

/-- On a steady script the reader delivers the pieces of what it reads and stops at the end. -/
theorem run_eq {d : Drain cap} (h : d.Running) {script : List Read}
    (hs : ∀ r ∈ script, r.Steady) :
    d.run script =
      { d.deliverAll (pieces d.line (brought script)) with
        line := .empty, stop := some .ended } := by
  have hend := (h.deliverAll (cutAll d.line (brought script)).1).withLine
    (cutAll d.line (brought script)).2
  rw [run, h.checkToken, foldl_read_eq h hs, foldl_consume_eq h, hend.endInput_endInput]
  unfold pieces
  rw [deliverAll_append]
  cases lastPiece (cutAll d.line (brought script)).2 <;> rfl

/-! ## What is left after a delivery -/

theorem lines_deliverAll (d : Drain cap) (ps : List Piece) :
    (d.deliverAll ps).lines = d.lines + ps.length := by
  induction ps generalizing d with
  | nil => rfl
  | cons p ps ih =>
    rw [deliverAll_cons, ih, List.length_cons]
    show d.lines + 1 + ps.length = _
    omega

/-- Every listener gets every piece, in order. -/
theorem listeners_deliverAll (d : Drain cap) (ps : List Piece) :
    (d.deliverAll ps).listeners = d.listeners.map (·.callAll (ps.map (·.text))) := by
  induction ps generalizing d with
  | nil => simp [deliverAll, Registration.callAll]
  | cons p ps ih =>
    have hl : (d.deliver p.bytes.toArray).listeners = d.listeners.map (·.call p.text) := by
      simp [deliver, Piece.text]
    rw [deliverAll_cons, ih, hl, List.map_map]
    rfl

theorem failures_deliver (d : Drain cap) (bytes : Array UInt8) :
    (d.deliver bytes).failures.toList = d.failures.toList ++
      (dispatch (.line d.channel) d.listeners (Utf8.decode bytes.toList)).failures := by
  simp [deliver]

/-- A delivery adds failures of listeners only. -/
theorem failures_deliverAll {d : Drain cap} {ps : List Piece} {f : SecondaryFailure}
    (h : f ∈ (d.deliverAll ps).failures.toList) :
    f ∈ d.failures.toList ∨ ∃ i message, f = .listener (.line d.channel) i message := by
  induction ps generalizing d with
  | nil => exact .inl h
  | cons p ps ih =>
    rcases ih h with h | h
    · rw [failures_deliver, List.mem_append] at h
      rcases h with h | h
      · exact .inl h
      · exact .inr (dispatch_failures h)
    · exact .inr h

end Drain

theorem running_start {channel : Channel} {listeners : List (Registration String)}
    (h : ∀ r ∈ listeners, r.Quiet) : (Drain.start cap channel listeners false).Running :=
  ⟨rfl, rfl, h⟩

/-- What a drained stream leaves behind: the texts of its pieces with every listener, their number,
and no trace of a cancellation or of a failed read. -/
theorem drain_steady (cap : Cap) (channel : Channel) {listeners : List (Registration String)}
    (hne : listeners ≠ []) (hquiet : ∀ r ∈ listeners, r.Quiet) {script : List Read}
    (hsteady : ∀ r ∈ script, r.Steady) :
    ∃ d, drain cap channel listeners false script = .ok d ∧
      d.listeners.map (·.received) =
        listeners.map
          (·.received ++ (pieces (.empty : Partial cap) (brought script)).map (·.text)) ∧
      d.report.lines = (pieces (.empty : Partial cap) (brought script)).length ∧
      d.report.cancelled = false ∧
      ∀ channel message, .read channel message ∉ d.report.failures := by
  have hstart : (Drain.start cap channel listeners false).Running := running_start hquiet
  have hrun := Drain.run_eq hstart hsteady
  refine ⟨_, by rw [drain, if_neg (by simpa using hne), hrun], ?_, ?_, rfl, ?_⟩
  · show (Drain.deliverAll _ _).listeners.map _ = _
    rw [Drain.listeners_deliverAll, List.map_map]
    exact List.map_congr_left fun r _ => r.received_callAll _
  · show (Drain.deliverAll _ _).lines = _
    rw [Drain.lines_deliverAll]
    exact Nat.zero_add _
  · intro c m hm
    rcases Drain.failures_deliverAll hm with h | ⟨i, message, h⟩
    · simp [Drain.start] at h
    · cases h

end Line

end ToolRunner
