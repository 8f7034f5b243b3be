import Mathlib.Logic.Function.Iterate
import ToolRunner.Proofs.Line.Overflow
import ToolRunner.Proofs.Line.Stopping
import ToolRunner.Proofs.Line.Window

/-!
# A reader, pass by pass

A reader is two loops. The inner one fills a buffer, pass by pass, until a line feed, the cap or the
end of the input ends the line; the outer one gives the line away and empties the buffer. `Loops` is
a reader between two passes, with a buffer of which nothing is assumed, and with its counts in
machine words. Its passes are on the way to what the reader of a script comes to (`Bound`), and show
it when they are over (`Bound.shows`). The counts of every pass are right unless the cap is the
largest word (`passes_counted_iff`): then the first pass with bytes at hand panics.
-/

namespace ToolRunner.Line

open Bytes

/-- A reader between two passes of its loops. -/
structure Loops (w : UInt64) where
  /-- Its listeners, its token and its report. The line that has begun is not here but in the
  buffer. -/
  reader : Drain (.ofWord w)
  buf : Array UInt8
  /-- Bytes that were read and are not used yet. -/
  atHand : Bytes
  script : List Read
  /-- A count has overflowed. -/
  panicked : Bool

/-- What a pass of the inner loop comes to. -/
inductive Pass (w : UInt64) where
  /-- The next pass follows. -/
  | again (l : Loops w)
  /-- The inner loop is over, and the outer one has done its part. -/
  | returned (l : Loops w)
  /-- A panic leaves both loops. -/
  | panicked (l : Loops w)

def Pass.loops {w : UInt64} : Pass w → Loops w
  | again l => l
  | returned l => l
  | panicked l => l

namespace Loops

variable {w : UInt64}

def start (w : UInt64) (channel : Channel) (listeners : List (Registration String))
    (cancelled : Bool) (script : List Read) : Loops w :=
  ⟨(Drain.start (.ofWord w) channel listeners cancelled).checkToken, #[], [], script, false⟩

def stopped (l : Loops w) : Bool := l.reader.stop.isSome

/-- No pass follows. -/
def isOver (l : Loops w) : Bool := l.stopped || l.panicked

/-- What one read does not bring of a run of bytes. -/
def leftover (bs : Bytes) : List Read :=
  match bs.drop readSize with
  | [] => []
  | more => [.bytes more]

/-- Waits for a read. A failed one ends the reader, and so does its token if it is cancelled when
the reader is woken. -/
def wait (l : Loops w) : List Read → Loops w
  | [] => { l with script := [] }
  | .bytes bs :: later => { l with atHand := bs.take readSize, script := leftover bs ++ later }
  | .failure message :: later =>
    { l with reader := l.reader.fail message, buf := #[], script := later }
  | .pending :: later =>
    if l.reader.cancelled then
      { l with reader := l.reader.checkToken, buf := #[], script := later }
    else l.wait later
  | .cancel :: later => { l with reader := { l.reader with cancelled := true } }.wait later

/-- Brings bytes to hand if there are none. If there are none then, the input has ended. -/
def fill (l : Loops w) : Loops w :=
  match l.atHand with
  | [] => l.wait l.script
  | _ :: _ => l

/-- Gives a line to all listeners, and looks at the token. -/
def give (l : Loops w) (bytes : Array UInt8) (rest : Bytes) : Loops w :=
  { l with reader := (l.reader.deliver bytes).checkToken, buf := #[], atHand := rest }

/-- What is done with the bytes at hand, or at the end of the input. -/
def use (l : Loops w) : Pass w :=
  if l.stopped then .returned l
  else if l.atHand.isEmpty then
    if l.buf.isEmpty then .returned { l with reader := { l.reader with stop := some .ended } }
    else .returned (l.give l.buf [])
  else
    match scan w l.buf l.atHand with
    | .more buf rest => .again { l with buf := buf, atHand := rest }
    | .line bytes rest => .returned (l.give bytes rest)
    | .split bytes rest => .returned (l.give bytes rest)
    | .overflow => .panicked { l with panicked := true }

def pass (l : Loops w) : Pass w := l.fill.use

def next (l : Loops w) : Loops w := if l.isOver then l else l.pass.loops

/-! ## Beside the reader of a script -/

/-- What a reader comes to with some reads, after which the input ends. -/
def finish (d : Drain (.ofWord w)) (script : List Read) : Except Fault (Drain (.ofWord w)) := do
  let d ← script.foldlM Drain.readUpTo d
  return d.endInput.endInput

/-- The reader of a script that is where the loops are, if the line holds what the buffer holds. -/
def reading (l : Loops w) (line : Partial (.ofWord w)) : Drain (.ofWord w) :=
  { l.reader with line := line }

/-- The same reader, after it has used what is at hand or found the input ended. -/
def used (l : Loops w) (line : Partial (.ofWord w)) : Except Fault (Drain (.ofWord w)) :=
  if l.atHand.isEmpty then .ok (l.reading line).endInput
  else if w = largest then .error .overflow
  else .ok ((l.reading line).consume l.atHand)

/-- What is done with the bytes at hand, where the buffer holds what the line holds. -/
inductive Uses (line : Partial (.ofWord w)) (l : Loops w) : Pass w → Prop where
  | stopped (halted : l.stopped = true) : Uses line l (.returned l)
  | ended (going : l.stopped = false) (none : l.atHand.isEmpty = true)
      (empty : l.buf.isEmpty = true) :
      Uses line l (.returned { l with reader := { l.reader with stop := some .ended } })
  | last (going : l.stopped = false) (none : l.atHand.isEmpty = true)
      (begun : ¬ l.buf.isEmpty = true) : Uses line l (.returned (l.give l.buf []))
  | more (going : l.stopped = false) (some : ¬ l.atHand.isEmpty = true) (counts : w ≠ largest)
      (after : Partial (.ofWord w)) (taken : take line l.atHand = .more after) :
      Uses line l (.again { l with buf := after.bytes, atHand := [] })
  | piece (going : l.stopped = false) (some : ¬ l.atHand.isEmpty = true) (counts : w ≠ largest)
      (bytes : Array UInt8) (rest : Bytes)
      (taken : (take line l.atHand).piece? = Option.some (bytes, rest))
      (less : rest.length < l.atHand.length) : Uses line l (.returned (l.give bytes rest))
  | overflow (going : l.stopped = false) (some : ¬ l.atHand.isEmpty = true) (last : w = largest) :
      Uses line l (.panicked { l with panicked := true })

variable {l : Loops w} {line : Partial (.ofWord w)} {d : Drain (.ofWord w)}
  {r : Except Fault (Drain (.ofWord w))}

theorem stop_eq_none (going : l.stopped = false) : l.reader.stop = none := by
  simpa [stopped] using going

theorem isOver_eq_false (h : l.isOver = false) : l.stopped = false ∧ l.panicked = false := by
  simpa [isOver] using h

/-! ## A script -/

theorem finish_of_not_overflows {script : List Read} (h : ¬ d.Overflows script) :
    finish d script = .ok (script.foldl Drain.read d).endInput.endInput := by
  rw [finish, Drain.foldlM_readUpTo_of_not_overflows h]
  rfl

theorem finish_of_calm {r : Read} (calm : r.brings = false) (d : Drain (.ofWord w))
    (later : List Read) : finish d (r :: later) = finish (d.read r) later := by
  have hsound : ¬ (w = largest ∧ r.brings = true ∧ d.stop = none) := by simp [calm]
  rw [finish, List.foldlM_cons, Drain.readUpTo_of_sound hsound]
  rfl

theorem finish_nil_endInput (d : Drain (.ofWord w)) : finish d.endInput [] = finish d [] :=
  congrArg Except.ok (Drain.endInput_of_stopped (Drain.endInput_endInput_stops d))

theorem read_bytes {bs : Bytes} (hne : bs ≠ []) (d : Drain (.ofWord w)) :
    d.read (.bytes bs) = (leftover bs).foldl Drain.read (d.consume (bs.take readSize)) := by
  have hread : d.read (.bytes bs) = (Drain.reads bs).foldl Drain.consume d := by
    cases bs with
    | nil => exact absurd rfl hne
    | cons b bs => rfl
  rw [hread, Drain.reads]
  split
  · rename_i hdrop
    have hleft : leftover bs = [] := by rw [leftover, hdrop]
    rw [hleft, List.take_of_length_le (List.drop_eq_nil_iff.mp hdrop)]
    rfl
  · rename_i b more hdrop
    have hleft : leftover bs = [.bytes (b :: more)] := by rw [leftover, hdrop]
    rw [hleft]
    rfl

theorem finish_bytes {bs : Bytes} (hne : bs ≠ []) (hw : w ≠ largest) (d : Drain (.ofWord w))
    (later : List Read) :
    finish d (.bytes bs :: later) =
      finish (d.consume (bs.take readSize)) (leftover bs ++ later) := by
  rw [finish_of_not_overflows (Drain.not_overflows_of_ne hw _ _),
    finish_of_not_overflows (Drain.not_overflows_of_ne hw _ _), List.foldl_cons, read_bytes hne,
    List.foldl_append]

theorem finish_bytes_of_largest {bs : Bytes} (hne : bs ≠ []) (hw : w = largest)
    (going : d.stop = none) (later : List Read) :
    finish d (.bytes bs :: later) = .error .overflow := by
  have hbrings : (Read.bytes bs).brings = true := by simpa [Read.brings] using hne
  have hover : d.Overflows (.bytes bs :: later) :=
    Drain.overflows_cons.mpr (.inl ⟨hw, hbrings, going⟩)
  rw [finish, Drain.foldlM_readUpTo_of_overflows hover]
  rfl

/-! ## A wait -/

theorem stopped_wait_failure (going : l.stopped = false) (message : String) (later : List Read) :
    (l.wait (.failure message :: later)).stopped = true := by
  have hstop := stop_eq_none going
  simp only [wait, stopped, Drain.fail_of_going hstop]
  rfl

theorem wait_pending_of_free (htoken : l.reader.cancelled = false) (later : List Read) :
    l.wait (.pending :: later) = l.wait later := by
  simp [wait, htoken]

theorem wait_pending_of_cancelled (going : l.stopped = false) (htoken : l.reader.cancelled = true)
    (later : List Read) :
    l.wait (.pending :: later) =
      { l with
        reader := { l.reader with stop := some .cancelled, line := .empty }
        buf := #[]
        script := later } := by
  have hstop := stop_eq_none going
  simp [wait, htoken, Drain.checkToken_of_cancelled hstop htoken]

theorem used_of_stopped (h : l.stopped = true) (none : l.atHand = []) :
    l.used line = .ok (l.reading line) := by
  have hstop : (l.reading line).stop.isSome = true := h
  rw [used, if_pos (List.isEmpty_iff.mpr none), Drain.endInput_of_stopped hstop]

theorem finish_wait (going : l.stopped = false) (hbuf : line.bytes = l.buf)
    (hnone : l.atHand = []) (script : List Read) :
    ∃ after : Partial (.ofWord w), after.bytes = (l.wait script).buf ∧
      ((l.wait script).used after >>= fun d => finish d (l.wait script).script) =
        finish (l.reading line) script := by
  have hstop := stop_eq_none going
  induction script generalizing l with
  | nil =>
    refine ⟨line, hbuf, ?_⟩
    have hused : (l.wait []).used line = .ok (l.reading line).endInput := by
      simp [used, wait, hnone, reading]
    rw [hused]
    exact finish_nil_endInput _
  | cons r later ih =>
    cases r with
    | bytes bs =>
      refine ⟨line, hbuf, ?_⟩
      by_cases hne : bs = []
      · subst hne
        have hcalm : (Read.bytes []).brings = false := rfl
        exact (finish_of_calm hcalm _ _).symm
      · have htake : ¬ (bs.take readSize).isEmpty = true := by
          simpa [List.take_eq_nil_iff, readSize] using hne
        by_cases hw : w = largest
        · have hused : (l.wait (.bytes bs :: later)).used line = .error .overflow :=
            (if_neg htake).trans (if_pos hw)
          rw [hused, finish_bytes_of_largest hne hw (d := l.reading line) hstop]
          rfl
        · have hused : (l.wait (.bytes bs :: later)).used line =
              .ok ((l.reading line).consume (bs.take readSize)) :=
            (if_neg htake).trans (if_neg hw)
          rw [hused, finish_bytes hne hw]
          rfl
    | failure message =>
      refine ⟨.empty, rfl, ?_⟩
      have hfail : (l.wait (.failure message :: later)).reading .empty =
          (l.reading line).fail message := by
        rw [Drain.fail_of_going (d := l.reading line) hstop]
        simp only [wait, reading, Drain.fail_of_going hstop]
      rw [used_of_stopped (stopped_wait_failure going message later) hnone, hfail,
        finish_of_calm rfl]
      rfl
    | pending =>
      rw [finish_of_calm rfl]
      show ∃ after : Partial (.ofWord w), _ ∧ _ = finish (l.reading line).checkToken later
      cases htoken : l.reader.cancelled with
      | false =>
        rw [wait_pending_of_free htoken, Drain.checkToken_of_free (d := l.reading line) htoken]
        exact ih going hbuf hnone hstop
      | true =>
        have hwait := wait_pending_of_cancelled going htoken later
        have hused : (l.wait (.pending :: later)).used .empty =
            .ok ((l.wait (.pending :: later)).reading .empty) :=
          used_of_stopped (by rw [hwait]; rfl) (by rw [hwait]; exact hnone)
        refine ⟨.empty, by rw [hwait]; rfl, ?_⟩
        rw [hused, hwait, Drain.checkToken_of_cancelled (d := l.reading line) hstop htoken]
        rfl
    | cancel =>
      rw [finish_of_calm rfl]
      exact @ih { l with reader := { l.reader with cancelled := true } } going hbuf hnone hstop

/-- To wait for bytes, or to find that the input has ended, is what comes first for the reader. -/
theorem finish_fill (going : l.stopped = false) (hbuf : line.bytes = l.buf)
    (hnone : w = largest → l.atHand = []) :
    ∃ after : Partial (.ofWord w), after.bytes = l.fill.buf ∧
      (l.fill.used after >>= fun d => finish d l.fill.script) =
        finish ((l.reading line).consume l.atHand) l.script := by
  cases hat : l.atHand with
  | nil =>
    rw [Drain.consume_nil]
    have hfill : l.fill = l.wait l.script := by rw [fill, hat]
    rw [hfill]
    exact finish_wait going hbuf hat l.script
  | cons b bs =>
    have hfill : l.fill = l := by rw [fill, hat]
    have hw : w ≠ largest := fun h => by simp [hnone h] at hat
    refine ⟨line, by rw [hfill, hbuf], ?_⟩
    rw [hfill, used, hat, if_neg (by simp), if_neg hw]
    rfl

/-! ## What a wait keeps -/

/-- The bytes of the stream that are not used yet. -/
def left (l : Loops w) : Nat := l.atHand.length + (content l.script).length

/-- What the loops have when they have waited. Nothing of the stream is lost, and the line that has
begun is kept unless the reader has stopped. -/
structure Filled (l f : Loops w) : Prop where
  left_eq : f.left = l.left
  script_le : f.script.length ≤ l.script.length
  lines_eq : f.reader.lines = l.reader.lines
  panicked_eq : f.panicked = l.panicked
  kept : f.stopped = false → f.buf = l.buf
  dropped : f.stopped = true → f.buf = #[] ∧ f.atHand = []

theorem content_leftover (bs : Bytes) : content (leftover bs) = bs.drop readSize := by
  unfold leftover
  split
  · rename_i hdrop
    rw [hdrop]
    rfl
  · rename_i hdrop
    simp [content, Read.content]

theorem length_leftover_le (bs : Bytes) : (leftover bs).length ≤ 1 := by
  unfold leftover
  split
  · exact Nat.zero_le _
  · exact Nat.le_refl _

theorem filled_wait (going : l.stopped = false) (hnone : l.atHand = []) (script : List Read) :
    Filled { l with script := script } (l.wait script) := by
  have hstop := stop_eq_none going
  have hover {f : Loops w} {P : Prop} (h : f.stopped = false) (hf : f.stopped = true) : P := by
    rw [h] at hf
    contradiction
  induction script generalizing l with
  | nil => exact ⟨rfl, Nat.le_refl _, rfl, rfl, fun _ => rfl, hover going⟩
  | cons r later ih =>
    cases r with
    | bytes bs =>
      refine ⟨?_, ?_, rfl, rfl, fun _ => rfl, hover going⟩
      · have hcontent : content (leftover bs ++ later) = bs.drop readSize ++ content later := by
          rw [content, List.flatMap_append, ← content, content_leftover]
          rfl
        have hall : content (.bytes bs :: later) = bs ++ content later := rfl
        simp only [left, wait, hcontent, hall, hnone, List.length_append, List.length_take,
          List.length_drop, List.length_nil]
        omega
      · have hle := length_leftover_le bs
        simp only [wait, List.length_append, List.length_cons]
        omega
    | failure message =>
      have hstopped := stopped_wait_failure going message later
      refine ⟨rfl, Nat.le_succ _, ?_, rfl, fun h => hover h hstopped, fun _ => ⟨rfl, hnone⟩⟩
      simp only [wait, Drain.fail_of_going hstop]
    | pending =>
      cases htoken : l.reader.cancelled with
      | false =>
        have h := ih going hnone hstop
        rw [wait_pending_of_free htoken]
        exact ⟨h.left_eq, Nat.le_succ_of_le h.script_le, h.lines_eq, h.panicked_eq, h.kept,
          h.dropped⟩
      | true =>
        rw [wait_pending_of_cancelled going htoken]
        exact ⟨rfl, Nat.le_succ _, rfl, rfl, fun h => hover h rfl, fun _ => ⟨rfl, hnone⟩⟩
    | cancel =>
      have h := @ih { l with reader := { l.reader with cancelled := true } } going hnone hstop
      exact ⟨h.left_eq, Nat.le_succ_of_le h.script_le, h.lines_eq, h.panicked_eq, h.kept,
        h.dropped⟩

theorem filled_fill (going : l.stopped = false) : Filled l l.fill := by
  cases hat : l.atHand with
  | nil =>
    have hfill : l.fill = l.wait l.script := by rw [fill, hat]
    rw [hfill]
    exact filled_wait going hat l.script
  | cons b bs =>
    have hfill : l.fill = l := by rw [fill, hat]
    rw [hfill]
    refine ⟨rfl, Nat.le_refl _, rfl, rfl, fun _ => rfl, fun h => ?_⟩
    rw [going] at h
    contradiction

/-- What is empty stays so in a wait. -/
theorem Filled.buf_eq_empty {f : Loops w} (h : Filled l f) (empty : l.buf = #[]) :
    f.buf = #[] := by
  cases hstopped : f.stopped with
  | true => exact (h.dropped hstopped).1
  | false => rw [h.kept hstopped, empty]

/-! ## The use of what is at hand -/

theorem reading_give (line : Partial (.ofWord w)) (bytes : Array UInt8) (rest : Bytes) :
    (l.give bytes rest).reading .empty = ((l.reading line).deliver bytes).checkToken := by
  have hempty : (l.reader.deliver bytes).checkToken.line = .empty := by
    unfold Drain.checkToken
    split <;> rfl
  show { (l.reader.deliver bytes).checkToken with line := .empty } =
    (l.reader.deliver bytes).checkToken
  rw [← hempty]

/-- At the largest cap there is no such count while the line is empty. -/
theorem scan_of_largest (hw : w = largest) (atHand : Bytes) : scan w #[] atHand = .overflow := by
  subst hw
  rfl

theorem uses_use (hbuf : line.bytes = l.buf) (hempty : w = largest → l.buf = #[]) :
    Uses line l l.use := by
  unfold use
  split
  · exact .stopped ‹_›
  · have going : l.stopped = false := by simpa using ‹¬ l.stopped = true›
    split
    · split
      · exact .ended going ‹_› ‹_›
      · exact .last going ‹_› ‹_›
    · by_cases hw : w = largest
      · have hscan : scan w l.buf l.atHand = .overflow := by rw [hempty hw, scan_of_largest hw]
        rw [hscan]
        exact .overflow going ‹_› hw
      · rw [← hbuf, scan_eq hw]
        rcases take_cases line l.atHand with ⟨after, htake⟩ | ⟨bytes, rest, htake, hlt⟩
        · rw [htake]
          exact .more going ‹_› hw after htake
        · have hpiece : Uses line l (.returned (l.give bytes rest)) :=
            .piece going ‹_› hw bytes rest htake hlt
          cases h : take line l.atHand with
          | more after => rw [h] at htake; cases htake
          | line bytes' rest' => rw [h] at htake; cases htake; exact hpiece
          | split bytes' rest' => rw [h] at htake; cases htake; exact hpiece

/-- The loops are on the way to what a reader comes to. -/
inductive Bound (l : Loops w) (r : Except Fault (Drain (.ofWord w))) : Prop where
  | panicked (last : w = largest) (failed : l.panicked = true) (comes : r = .error .overflow)
  | sound (line : Partial (.ofWord w)) (counts : l.panicked = false) (holds : line.bytes = l.buf)
      (none : w = largest → l.buf = #[] ∧ l.atHand = [])
      (comes : finish ((l.reading line).consume l.atHand) l.script = r)

/-- What is done with the bytes at hand is what the reader does with them. -/
theorem bound_use (sound : l.panicked = false) (hbuf : line.bytes = l.buf)
    (hempty : w = largest → l.buf = #[]) (dropped : l.stopped = true → l.atHand = [])
    (comes : (l.used line >>= fun d => finish d l.script) = r) : l.use.loops.Bound r := by
  have hstop (going : l.stopped = false) : (l.reading line).stop = none := stop_eq_none going
  have huses := uses_use hbuf hempty
  generalize l.use = p at huses ⊢
  cases huses with
  | stopped halted =>
    have hnone := dropped halted
    rw [used_of_stopped halted hnone] at comes
    refine .sound line sound hbuf (fun hw => ⟨hempty hw, hnone⟩) ?_
    show finish ((l.reading line).consume l.atHand) l.script = r
    rwa [hnone, Drain.consume_nil]
  | ended going none empty =>
    have hline : (l.reading line).line.bytes.isEmpty = true := by rw [← empty, ← hbuf]; rfl
    rw [used, if_pos none, Drain.endInput_of_empty (hstop going) hline] at comes
    refine .sound line sound hbuf (fun hw => ⟨hempty hw, List.isEmpty_iff.mp none⟩) ?_
    rw [Drain.consume_of_stopped rfl]
    exact comes
  | last going none begun =>
    have hline : ¬ (l.reading line).line.bytes.isEmpty = true := by
      rw [← hbuf] at begun
      exact begun
    rw [used, if_pos none, Drain.endInput_of_begun (hstop going) hline] at comes
    refine .sound .empty sound rfl (fun _ => ⟨rfl, rfl⟩) ?_
    show finish (((l.give l.buf []).reading .empty).consume []) l.script = r
    rw [Drain.consume_nil, reading_give line, ← hbuf]
    exact comes
  | more going some counts after taken =>
    rw [used, if_neg some, if_neg counts, Drain.consume_of_more (hstop going) taken] at comes
    refine .sound after sound rfl (fun hw => absurd hw counts) ?_
    rw [← comes]
    exact congrArg (finish · l.script) (Drain.consume_nil _)
  | piece going some counts bytes rest taken less =>
    rw [used, if_neg some, if_neg counts, Drain.consume_of_piece (hstop going) taken] at comes
    refine .sound .empty sound rfl (fun hw => absurd hw counts) ?_
    show finish (((l.give bytes rest).reading .empty).consume rest) l.script = r
    rw [reading_give line]
    exact comes
  | overflow going some last =>
    rw [used, if_neg some, if_pos last] at comes
    exact .panicked last rfl comes.symm

/-- The first bytes at hand are too many to count at the largest cap. -/
theorem bound_start (w : UInt64) (channel : Channel) (listeners : List (Registration String))
    (cancelled : Bool) (script : List Read) :
    (start w channel listeners cancelled script).Bound
      ((Drain.start (.ofWord w) channel listeners cancelled).runUpTo script) := by
  refine .sound .empty rfl rfl (fun _ => ⟨rfl, rfl⟩) ?_
  have hreading : (start w channel listeners cancelled script).reading .empty =
      (Drain.start (.ofWord w) channel listeners cancelled).checkToken := by
    cases cancelled <;> rfl
  rw [hreading]
  show finish ((Drain.start _ channel listeners cancelled).checkToken.consume []) script = _
  rw [Drain.consume_nil]
  rfl

/-- The loops are over, and show what came of the reader. -/
inductive Shows (l : Loops w) : Except Fault (Drain (.ofWord w)) → Prop where
  | overflow (panicked : l.panicked = true) : Shows l (.error .overflow)
  | ended (d : Drain (.ofWord w)) (counts : l.panicked = false) (stopped : l.stopped = true)
      (listeners : l.reader.listeners = d.listeners) (report : l.reader.report = d.report) :
      Shows l (.ok d)

namespace Bound

theorem next (h : l.Bound r) : l.next.Bound r := by
  cases hover : l.isOver with
  | true => rwa [Loops.next, if_pos hover]
  | false =>
    obtain ⟨going, counts⟩ := isOver_eq_false hover
    cases h with
    | panicked _ failed _ =>
      rw [counts] at failed
      contradiction
    | sound line _ holds none comes =>
      have hf := filled_fill going
      obtain ⟨filled, hfill, hfinish⟩ := finish_fill going holds fun hw => (none hw).2
      rw [Loops.next, if_neg (by simp [hover])]
      exact bound_use (hf.panicked_eq.trans counts) hfill
        (fun hw => hf.buf_eq_empty (none hw).1) (fun h => (hf.dropped h).2) (hfinish.trans comes)

/-- When they are over they are there. -/
theorem shows (h : l.Bound r) (hover : l.isOver = true) : l.Shows r := by
  cases h with
  | panicked _ failed comes => exact comes ▸ .overflow failed
  | sound line counts _ none comes =>
    have hstopped : l.stopped = true := by simpa [isOver, counts] using hover
    have hstop : (l.reading line).stop.isSome = true := hstopped
    rw [Drain.consume_of_stopped hstop,
      finish_of_not_overflows (Drain.not_overflows_of_stopped hstop)] at comes
    obtain ⟨token, hfinish⟩ := Drain.finish_of_stopped hstop l.script
    rw [← comes, hfinish]
    exact .ended _ counts hstopped rfl rfl

/-- What the next pass does. -/
theorem uses (h : l.Bound r) (going : l.isOver = false) :
    ∃ filled : Partial (.ofWord w), filled.bytes = l.fill.buf ∧ Uses filled l.fill l.pass ∧
      (w = largest → l.fill.buf = #[]) := by
  obtain ⟨hgoing, counts⟩ := isOver_eq_false going
  cases h with
  | panicked _ failed _ =>
    rw [counts] at failed
    contradiction
  | sound line _ holds none _ =>
    have hempty : w = largest → l.fill.buf = #[] := fun hw =>
      (filled_fill hgoing).buf_eq_empty (none hw).1
    obtain ⟨filled, hfill, -⟩ := finish_fill hgoing holds fun hw => (none hw).2
    exact ⟨filled, hfill, uses_use hfill hempty, hempty⟩

end Bound

def after (l : Loops w) (n : Nat) : Loops w := next^[n] l

theorem after_succ (l : Loops w) (n : Nat) : l.after (n + 1) = (l.after n).next :=
  Function.iterate_succ_apply' next n l

theorem Bound.after (h : l.Bound r) (n : Nat) : (l.after n).Bound r := by
  induction n with
  | zero => exact h
  | succ n ih =>
    rw [after_succ]
    exact ih.next

theorem next_of_going (going : l.isOver = false) : l.next = l.pass.loops := by
  rw [next, if_neg (by simp [going])]

/-! ## The counts of every pass -/

/-- The next pass has bytes at hand. -/
structure Scans (l : Loops w) : Prop where
  going : l.isOver = false
  filled : l.fill.stopped = false
  some : l.fill.atHand ≠ []

/-- A pass with bytes at hand finds room in the buffer. It panics at the largest cap, where the
buffer is empty, and at no other. -/
theorem Bound.scans (h : l.Bound r) (scans : l.Scans) :
    l.fill.buf.size < (limit w).toNat ∧ (w = largest → l.fill.buf = #[]) ∧
      (l.next.panicked = true ↔ w = largest) := by
  obtain ⟨going, counts⟩ := isOver_eq_false scans.going
  obtain ⟨filled, hfill, huses, hempty⟩ := h.uses scans.going
  have hsound : l.fill.panicked = false := (filled_fill going).panicked_eq.trans counts
  have hsome : ¬ l.fill.atHand.isEmpty = true := by simpa using scans.some
  refine ⟨?_, hempty, ?_⟩
  · by_cases hw : w = largest
    · rw [hempty hw, hw]
      decide
    · rw [← hfill]
      exact size_lt_limit hw filled
  · have hnot {f : Loops w} (hf : f.panicked = false) (hw : w ≠ largest) :
        f.panicked = true ↔ w = largest := by simp [hf, hw]
    rw [next_of_going scans.going]
    generalize l.pass = p at huses ⊢
    cases huses with
    | stopped halted => simp [scans.filled] at halted
    | ended _ empty => exact absurd empty hsome
    | last _ empty => exact absurd empty hsome
    | more _ _ counts => exact hnot hsound counts
    | piece _ _ counts => exact hnot hsound counts
    | overflow _ _ last => exact ⟨fun _ => last, fun _ => rfl⟩

end Loops

open Loops

/-- In every pass of a reader the line that has begun leaves room, so that the difference is right.
The sum is right, some byte is searched, and a line feed within the cap ends its line, unless the
cap is the largest word: then the line is empty, the sum is too large for a word, and the reader
panics. -/
theorem passes_counted_iff (w : UInt64) (channel : Channel)
    (listeners : List (Registration String)) (cancelled : Bool) (script : List Read) :
    ∃ r, drainUpTo w channel listeners cancelled script =
        (if listeners.isEmpty then .error (.refused (noListeners channel)) else r) ∧
      ∀ n l, (start w channel listeners cancelled script).after n = l →
        (l.isOver = true → l.Shows r) ∧
        (l.Scans →
          l.fill.buf.size < (limit w).toNat ∧
          (room w l.fill.buf).toNat = (limit w).toNat - l.fill.buf.size ∧
          (Counted w l.fill.buf l.fill.atHand ↔ w ≠ largest) ∧
          (w = largest → l.fill.buf = #[] ∧ room w l.fill.buf + 1 = 0) ∧
          (l.next.panicked = true ↔ w = largest)) := by
  refine ⟨_, rfl, ?_⟩
  rintro n l rfl
  have hbound := (bound_start w channel listeners cancelled script).after n
  refine ⟨hbound.shows, fun hscans => ?_⟩
  obtain ⟨hlt, hempty, hpanics⟩ := hbound.scans hscans
  refine ⟨hlt, toNat_room (Nat.le_of_lt hlt), ?_, fun hw => ⟨hempty hw, ?_⟩, hpanics⟩
  · rw [counted_iff hlt hscans.some, not_and_or]
    exact ⟨fun h => h.elim id fun hbuf hw => hbuf (hempty hw), .inl⟩
  · exact (room_add_one_eq_zero_iff hlt).mpr ⟨hw, hempty hw⟩

instance {w : UInt64} (l : Loops w) : Decidable l.Scans :=
  decidable_of_iff (l.isOver = false ∧ l.fill.stopped = false ∧ l.fill.atHand ≠ [])
    ⟨fun h => ⟨h.1, h.2.1, h.2.2⟩, fun h => ⟨h.going, h.filled, h.some⟩⟩

/-- A line that has begun, at the largest cap for which the counts are right. -/
theorem passes_counted_iff_begun :
    ∃ l, (start (largest - 1) .stdout [noting] false
        [.bytes [97], .bytes [98, 10, 99]]).after 1 = l ∧
      l.Scans ∧ l.fill.buf = #[97] ∧ Counted (largest - 1) l.fill.buf l.fill.atHand := by
  obtain ⟨r, -, hpasses⟩ := passes_counted_iff (largest - 1) .stdout [noting] false
    [.bytes [97], .bytes [98, 10, 99]]
  obtain ⟨-, hcounted⟩ := hpasses 1 _ rfl
  have hscans : ((start (largest - 1) .stdout [noting] false
      [.bytes [97], .bytes [98, 10, 99]]).after 1).Scans := by decide +kernel
  obtain ⟨-, -, hiff, -⟩ := hcounted hscans
  exact ⟨_, rfl, hscans, by decide +kernel, hiff.mpr (by decide)⟩

/-- At the largest cap the number of bytes to search for the first line feed is zero as a word, and
the reader panics where there are two lines. -/
theorem largest_cap_miscounts :
    ∃ l, start largest .stdout [noting] false [.bytes [97, 10, 98, 10]] = l ∧ l.Scans ∧
      ¬ Counted largest l.fill.buf l.fill.atHand ∧ room largest l.fill.buf + 1 = 0 ∧
      l.next.panicked = true ∧
      drainUpTo largest .stdout [noting] false [.bytes [97, 10, 98, 10]] =
        .error .overflow ∧
      (segments (.ofWord largest) [97, 10, 98, 10]).map Utf8.decode = ["a", "b"] := by
  have hwindow : window largest #[] [97, 10, 98, 10] = [] := rfl
  exact ⟨_, rfl, by decide +kernel, fun h => h.searched hwindow, rfl, rfl, rfl, by decide +kernel⟩

end ToolRunner.Line
