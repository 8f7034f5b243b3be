import ToolRunner.Proofs.Line.Passes

/-!
# The loops of a reader end

Every pass of a reader spends something (`Spends`): a pass of the inner loop that does not return
uses up bytes at hand, and one that gives a line away has used up a byte at least since the line
before. So both loops end, whatever the reads, the token and the listeners are, and there are no
more lines than bytes. A pass that panics does neither, and there is one exactly if bytes come to
hand at the largest cap (`drain_ends_iff`).
-/

namespace ToolRunner.Line

open Bytes

namespace Loops

variable {w : UInt64} {l l' : Loops w} {line : Partial (.ofWord w)}
  {r : Except Fault (Drain (.ofWord w))}

/-- A pass of the outer loop: passes of the inner one, up to the first that returns. -/
inductive Turn : Loops w → Loops w → Prop where
  | returned {l l' : Loops w} (call : l.pass = .returned l') : Turn l l'
  | again {l between l' : Loops w} (call : l.pass = .again between) (later : Turn between l') :
      Turn l l'

/-- A pass of the outer loop that does not come to its end. -/
inductive Panics : Loops w → Prop where
  | panicked {l l' : Loops w} (call : l.pass = .panicked l') : Panics l
  | again {l between : Loops w} (call : l.pass = .again between) (later : Panics between) : Panics l

/-- The bytes that the lines to come may have: those that have begun one, and those not used yet. -/
def due (l : Loops w) : Nat := l.buf.size + l.left

/-- A bound of the passes to come. -/
def effort (l : Loops w) : Nat :=
  if l.isOver then 0 else l.due + l.left + l.script.length + 1

theorem due_of_empty (h : l.buf = #[]) : l.due = l.left := by
  rw [due, h]
  exact Nat.zero_add _

theorem isOver_of_stopped (h : l.stopped = true) : l.isOver = true := by simp [isOver, h]

/-! ## One pass -/

/-- What a pass spends. -/
inductive Spends (l : Loops w) : Pass w → Prop where
  | again (l' : Loops w) (going : l'.isOver = false) (lines : l'.reader.lines = l.reader.lines)
      (uses : l'.atHand.length < l.fill.atHand.length) (less : l'.left < l.left)
      (due : l'.due = l.due) (reads : l'.script.length ≤ l.script.length) :
      Spends l (.again l')
  | halted (l' : Loops w) (stopped : l'.stopped = true) (lines : l'.reader.lines = l.reader.lines)
      (empty : l'.buf = #[]) (le : l'.left ≤ l.left) : Spends l (.returned l')
  | gave (l' : Loops w) (lines : l'.reader.lines = l.reader.lines + 1) (empty : l'.buf = #[])
      (less : l'.left < l.due) (le : l'.left ≤ l.left)
      (reads : l'.script.length ≤ l.script.length) : Spends l (.returned l')
  | panicked (l' : Loops w) (last : w = largest) (stopped : l'.isOver = true)
      (lines : l'.reader.lines = l.reader.lines) (due : l'.due = l.due) : Spends l (.panicked l')

theorem lines_give (l : Loops w) (bytes : Array UInt8) (rest : Bytes) :
    (l.give bytes rest).reader.lines = l.reader.lines + 1 := by
  show (l.reader.deliver bytes).checkToken.lines = _
  unfold Drain.checkToken
  split <;> rfl

/-- A line that goes on has all the bytes at hand. -/
theorem size_take {cap : Cap} {line after : Partial cap} {bs : Bytes}
    (h : take line bs = .more after) : after.bytes.size = line.bytes.size + bs.length := by
  have htakes := takes_take line bs
  rw [h] at htakes
  cases htakes with
  | more free all => simpa using congrArg List.length all

theorem spends_pass (h : l.Bound r) (going : l.isOver = false) : Spends l l.pass := by
  obtain ⟨filled, hfill, huses, -⟩ := h.uses going
  obtain ⟨hgoing, counts⟩ := isOver_eq_false going
  have hf := filled_fill hgoing
  have hleft := hf.left_eq
  generalize l.pass = p at huses ⊢
  cases huses with
  | stopped halted =>
    exact .halted _ halted hf.lines_eq (hf.dropped halted).1 (Nat.le_of_eq hf.left_eq)
  | ended _ _ empty =>
    exact .halted _ rfl hf.lines_eq (Array.isEmpty_iff.mp empty) (Nat.le_of_eq hf.left_eq)
  | last filledGoing none begun =>
    have hnone := List.isEmpty_iff.mp none
    have hkept := hf.kept filledGoing
    have hpos : 0 < l.buf.size := by
      rw [← hkept]
      exact Nat.pos_of_ne_zero fun h0 => begun (by simpa using h0)
    have hgiven : (l.fill.give l.fill.buf []).left = l.fill.left := by
      rw [left, left, hnone]
      rfl
    refine .gave _ ?_ rfl ?_ ?_ hf.script_le
    · rw [lines_give, hf.lines_eq]
    · rw [due, hgiven]
      omega
    · rw [hgiven]
      exact Nat.le_of_eq hleft
  | more filledGoing some _ after taken =>
    have hsome : 0 < l.fill.atHand.length :=
      List.length_pos_iff.mpr (by simpa using some)
    have hsize := size_take taken
    rw [hfill, hf.kept filledGoing] at hsize
    have hused : l.left = l.fill.atHand.length + (content l.fill.script).length := hleft.symm
    have hover : l.fill.isOver = false := by
      rw [isOver, filledGoing, hf.panicked_eq, counts]
      rfl
    refine .again _ hover hf.lines_eq hsome ?_ ?_ hf.script_le
    · show 0 + (content l.fill.script).length < l.left
      omega
    · show after.bytes.size + (0 + (content l.fill.script).length) = l.buf.size + l.left
      omega
  | piece filledGoing some _ bytes rest taken less =>
    have hgiven : (l.fill.give bytes rest).left < l.fill.left := by
      show rest.length + _ < l.fill.atHand.length + _
      exact Nat.add_lt_add_right less _
    refine .gave _ ?_ rfl ?_ ?_ hf.script_le
    · rw [lines_give, hf.lines_eq]
    · rw [due]
      omega
    · omega
  | overflow filledGoing some last =>
    refine .panicked _ last (by simp [isOver]) hf.lines_eq ?_
    show l.fill.buf.size + l.fill.left = l.buf.size + l.left
    rw [hf.kept filledGoing, hleft]

/-! ## All passes -/

theorem effort_next_lt (h : l.Bound r) (going : l.isOver = false) : l.next.effort < l.effort := by
  have hspends := spends_pass h going
  have heffort : l.effort = l.due + l.left + l.script.length + 1 := if_neg (by simp [going])
  have hover {f : Loops w} (hf : f.isOver = true) : f.effort < l.effort := by
    rw [effort, if_pos hf, heffort]
    exact Nat.succ_pos _
  rw [next_of_going going]
  generalize l.pass = p at hspends ⊢
  cases hspends with
  | again l' going lines uses less due reads =>
    show l'.effort < _
    rw [effort, if_neg (by simp [going]), heffort]
    omega
  | halted l' stopped lines empty le => exact hover (isOver_of_stopped stopped)
  | gave l' lines empty less le reads =>
    -- The last line may take nothing from the stream; then it is the buffer that gets less.
    have hdue := due_of_empty empty
    show l'.effort < _
    rw [effort, heffort]
    split <;> omega
  | panicked l' last stopped lines due => exact hover stopped

/-- The loops end. -/
theorem exists_isOver {l : Loops w} (h : l.Bound r) :
    ∃ n, n ≤ l.effort ∧ (l.after n).isOver = true := by
  cases hover : l.isOver with
  | true => exact ⟨0, Nat.zero_le _, hover⟩
  | false =>
    have hlt := effort_next_lt h hover
    obtain ⟨n, hn, hafter⟩ := exists_isOver h.next
    exact ⟨n + 1, by omega, hafter⟩
termination_by l.effort

/-- A byte that is due makes one line at most. -/
theorem lines_next_le (h : l.Bound r) :
    l.next.reader.lines + l.next.due ≤ l.reader.lines + l.due := by
  cases hover : l.isOver with
  | true => exact Nat.le_of_eq (by rw [next, if_pos hover])
  | false =>
    have hspends := spends_pass h hover
    have hle : l.left ≤ l.due := Nat.le_add_left _ _
    rw [next_of_going hover]
    generalize l.pass = p at hspends ⊢
    cases hspends with
    | again l' going lines uses less due reads =>
      exact Nat.le_of_eq (by rw [Pass.loops, lines, due])
    | halted l' stopped lines empty le =>
      have hdue := due_of_empty empty
      show l'.reader.lines + l'.due ≤ _
      omega
    | gave l' lines empty less le reads =>
      have hdue := due_of_empty empty
      show l'.reader.lines + l'.due ≤ _
      omega
    | panicked l' last stopped lines due => exact Nat.le_of_eq (by rw [Pass.loops, lines, due])

theorem lines_after_le (h : l.Bound r) (n : Nat) :
    (l.after n).reader.lines + (l.after n).due ≤ l.reader.lines + l.due := by
  induction n with
  | zero => exact Nat.le_refl _
  | succ n ih =>
    rw [after_succ]
    exact Nat.le_trans (lines_next_le (h.after n)) ih

/-! ## The passes of the outer loop -/

/-- The inner loop returns, unless a pass of it panics. -/
theorem turn_or_panics {l : Loops w} (h : l.Bound r) (going : l.isOver = false) :
    (∃ l', Turn l l') ∨ w = largest ∧ Panics l := by
  have hspends := spends_pass h going
  cases hpass : l.pass with
  | returned l' => exact .inl ⟨l', .returned hpass⟩
  | again between =>
    have hbound : between.Bound r := by
      have hnext := h.next
      rwa [next_of_going going, hpass] at hnext
    rw [hpass] at hspends
    cases hspends with
    | again _ betweenGoing _ _ less _ _ =>
      rcases turn_or_panics hbound betweenGoing with ⟨l', hlater⟩ | ⟨last, hlater⟩
      · exact .inl ⟨l', .again hpass hlater⟩
      · exact .inr ⟨last, .again hpass hlater⟩
  | panicked l' =>
    rw [hpass] at hspends
    cases hspends with
    | panicked _ last _ _ _ => exact .inr ⟨last, .panicked hpass⟩
termination_by l.left

/-- It leaves the buffer empty. Either the reader has stopped, or a line was given away, and a byte
at least was used up for it. -/
theorem Turn.spends (turn : Turn l l') (h : l.Bound r) (going : l.isOver = false) :
    l'.buf = #[] ∧ (∃ k, l.after (k + 1) = l') ∧
      (l'.stopped = true ∧ l'.reader.lines = l.reader.lines ∨
        l'.reader.lines = l.reader.lines + 1 ∧ l'.left < l.due) := by
  induction turn with
  | @returned l l' call =>
    have hspends := spends_pass h going
    have hnext := next_of_going going
    rw [call] at hspends hnext
    cases hspends with
    | halted _ stopped lines empty le => exact ⟨empty, ⟨0, hnext⟩, .inl ⟨stopped, lines⟩⟩
    | gave _ lines empty less le reads => exact ⟨empty, ⟨0, hnext⟩, .inr ⟨lines, less⟩⟩
  | @again l between l' call later ih =>
    have hspends := spends_pass h going
    have hnext := next_of_going going
    have hbound := h.next
    rw [call] at hspends hnext
    rw [hnext] at hbound
    cases hspends with
    | again _ betweenGoing lines uses less due reads =>
      obtain ⟨hempty, ⟨k, hk⟩, hspent⟩ := ih hbound betweenGoing
      rw [lines, due] at hspent
      refine ⟨hempty, ⟨k + 1, ?_⟩, hspent⟩
      rw [← hk]
      show (l.next).after (k + 1) = _
      rw [hnext]
      rfl

/-! ## The whole run -/

/-- The loops of a reader end with what the reader comes to. -/
structure Terminates (l : Loops w) (r : Except Fault (Drain (.ofWord w))) : Prop where
  /-- There are at most two passes for a byte, one for a read, and one more. -/
  ends : ∃ n, n ≤ 2 * l.left + l.script.length + 1 ∧ (l.after n).isOver = true ∧ (l.after n).Shows r
  /-- A pass of the inner loop that does not return uses up a byte at hand, unless it panics. -/
  uses : ∀ n between, (l.after n).isOver = false → (l.after n).pass = .again between →
    between.atHand.length < (l.after n).fill.atHand.length ∧ between.left < (l.after n).left
  /-- The inner loop returns, unless a pass of it panics. -/
  returns : ∀ n, (l.after n).isOver = false →
    (∃ l', Turn (l.after n) l') ∨ w = largest ∧ Panics (l.after n)
  /-- A pass of the outer loop begins with an empty buffer and ends with one. If the reader has not
  stopped, it has given one line away and used up a byte at least. -/
  turns : ∀ n l', (l.after n).isOver = false → (l.after n).buf = #[] → Turn (l.after n) l' →
    l'.buf = #[] ∧ (∃ k, l.after (n + k + 1) = l') ∧
      (l'.stopped = true ∧ l'.reader.lines = (l.after n).reader.lines ∨
        l'.reader.lines = (l.after n).reader.lines + 1 ∧ l'.left < (l.after n).left)

theorem after_add (l : Loops w) (n k : Nat) : (l.after n).after k = l.after (n + k) := by
  rw [Nat.add_comm]
  exact (Function.iterate_add_apply next k n l).symm

theorem Bound.terminates (h : l.Bound r) (hbuf : l.buf = #[]) : l.Terminates r where
  ends := by
    obtain ⟨n, hn, hover⟩ := exists_isOver h
    refine ⟨n, ?_, hover, (h.after n).shows hover⟩
    rw [effort, due_of_empty hbuf] at hn
    split at hn <;> omega
  uses := by
    intro n between going hpass
    have hspends := spends_pass (h.after n) going
    rw [hpass] at hspends
    cases hspends with
    | again _ _ _ uses less _ _ => exact ⟨uses, less⟩
  returns n going := turn_or_panics (h.after n) going
  turns := by
    intro n l' going hempty turn
    obtain ⟨hlast, ⟨k, hk⟩, hspent⟩ := turn.spends (h.after n) going
    rw [after_add] at hk
    rw [due_of_empty hempty] at hspent
    exact ⟨hlast, ⟨k, hk⟩, hspent⟩

end Loops

open Loops

/-- Whatever the cap, the reads, the token and the listeners are, the loops of a reader end. Without
listeners there is no reader. It comes to a report unless its cap is the largest word and bytes come
to hand before it stops; then each line is counted once, and there are no more of them than
bytes. -/
theorem drain_ends_iff (w : UInt64) (channel : Channel) (listeners : List (Registration String))
    (cancelled : Bool) (script : List Read) :
    ∃ r, drainUpTo w channel listeners cancelled script =
        (if listeners.isEmpty then .error (.refused (noListeners channel)) else r) ∧
      (start w channel listeners cancelled script).Terminates r ∧
      (r = .error .overflow ↔ w = largest ∧ ∃ now bs later, script = now ++ .bytes bs :: later ∧
        bs ≠ [] ∧ ((Drain.start (.ofWord w) channel listeners cancelled).reached now).stop = none) ∧
      (r ≠ .error .overflow → ∃ d texts, r = .ok d ∧
        drain (.ofWord w) channel listeners cancelled script =
          (if listeners.isEmpty then .error (noListeners channel) else .ok d) ∧
        d.listeners = listeners.map (·.callAll texts) ∧ d.report.lines = texts.length ∧
        d.report.lines ≤ (content script).length) := by
  have hbound := bound_start w channel listeners cancelled script
  refine ⟨_, rfl, hbound.terminates rfl, Drain.runUpTo_eq_overflow_iff, fun hsound => ?_⟩
  have hrun := Drain.runUpTo_of_not_overflows (mt Drain.runUpTo_eq_overflow_iff.mpr hsound)
  obtain ⟨texts, more, h⟩ := Drain.trails_run (.ofWord w) channel listeners cancelled script
  refine ⟨_, texts, hrun, rfl, h.gave.listeners_eq, h.gave.lines_eq, ?_⟩
  rw [hrun] at hbound
  obtain ⟨n, -, hover⟩ := exists_isOver hbound
  have hlines := lines_after_le hbound n
  have hnone : (start w channel listeners cancelled script).reader.lines = 0 := by
    cases cancelled <;> rfl
  have hdue : (start w channel listeners cancelled script).due = (content script).length := by
    simp [due, left, start]
  rw [hnone, hdue, Nat.zero_add] at hlines
  cases (hbound.after n).shows hover with
  | ended _ _ _ _ hreport =>
    rw [← hreport]
    exact Nat.le_trans (Nat.le_add_right _ _) hlines

/-- Two bytes at a cap of one, a line feed, a read without bytes, and one that fails too late. -/
def fewBytes : List Read :=
  [.bytes [97, 98], .pending, .bytes [10], .bytes [], .failure "late"]

theorem drain_ends_iff_few_bytes :
    ∃ d, drainUpTo 0 .stdout [noting] false fewBytes = .ok d ∧
      (start 0 .stdout [noting] false fewBytes).Terminates (.ok d) ∧
      d.report = ⟨.stdout, 3, false, []⟩ ∧ (content fewBytes).length = 3 := by
  obtain ⟨r, hr, hends, hiff, hsound⟩ := drain_ends_iff 0 .stdout [noting] false fewBytes
  have hne : r ≠ .error .overflow := fun h => absurd (hiff.mp h).1 (by decide)
  obtain ⟨d, texts, rfl, hd, -⟩ := hsound hne
  refine ⟨d, hr, hends, ?_, rfl⟩
  have hreport : (drain (.ofWord 0) .stdout [noting] false fewBytes).toOption.map (·.report) =
      some ⟨.stdout, 3, false, []⟩ := by decide +kernel
  rw [hd] at hreport
  exact Option.some.inj hreport

/-- At the largest cap the first pass over a byte panics: it uses up no byte and does not return. -/
theorem largest_cap_panics :
    ∃ l l', start largest .stdout [noting] false [.bytes [97]] = l ∧ l.pass = .panicked l' ∧
      l'.atHand = l.fill.atHand ∧ l'.reader.lines = 0 ∧ (¬ ∃ after, Turn l after) ∧
      drainUpTo largest .stdout [noting] false [.bytes [97]] = .error .overflow := by
  refine ⟨_, _, rfl, rfl, rfl, rfl, fun ⟨after, turn⟩ => ?_, rfl⟩
  cases turn with
  | returned call => contradiction
  | again call later => contradiction

end ToolRunner.Line
