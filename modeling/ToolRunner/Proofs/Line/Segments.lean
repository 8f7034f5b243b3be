import ToolRunner.Line.Piece

/-!
# How a stream should be cut

A stream is a sequence of runs without a line feed, each ended by one, and a last run that is not.
`segments` cuts every run into parts of the cap's size, of which only the last may be shorter; an
ended run has at least one part. It knows nothing of reads: this is the cutting that the reads of a
stream are compared with.
-/

namespace ToolRunner

namespace Bytes

/-- The bytes after the last line feed. -/
def unended : Bytes → Bytes
  | [] => []
  | b :: bs => if newline ∈ b :: bs then unended bs else b :: bs

theorem unended_of_not_mem {bs : Bytes} (h : newline ∉ bs) : unended bs = bs := by
  cases bs with
  | nil => rfl
  | cons b bs => rw [unended, if_neg h]

theorem unended_line (before rest : Bytes) :
    unended (before ++ newline :: rest) = unended rest := by
  induction before with
  | nil => simp [unended]
  | cons b before ih =>
    rw [List.cons_append, unended, if_pos (by simp)]
    exact ih

theorem unended_append {run : Bytes} (h : newline ∉ run) (before : Bytes) :
    unended (before ++ run) = unended before ++ run := by
  induction before with
  | nil => exact unended_of_not_mem h
  | cons b before ih =>
    by_cases hb : newline ∈ b :: before
    · have hm : newline ∈ b :: (before ++ run) := List.mem_append_left run hb
      rw [List.cons_append, unended, if_pos hm, unended, if_pos hb, ih]
    · have hm : newline ∉ b :: before ++ run := by
        simp only [List.mem_append, not_or]
        exact ⟨hb, h⟩
      rw [unended_of_not_mem hm, unended_of_not_mem hb]

theorem newline_not_mem_unended (bs : Bytes) : newline ∉ unended bs := by
  induction bs with
  | nil => simp [unended]
  | cons b bs ih =>
    rw [unended]
    split
    · exact ih
    · assumption

/-- A byte string is its last run, or a run, a line feed and a byte string. -/
@[elab_as_elim]
theorem line_induction {motive : Bytes → Prop} (bs : Bytes)
    (tail : ∀ run, newline ∉ run → motive run)
    (line : ∀ run rest, newline ∉ run → motive rest → motive (run ++ newline :: rest)) :
    motive bs := by
  by_cases h : newline ∈ bs
  · obtain ⟨run, rest, he, hr⟩ := List.eq_append_cons_of_mem h
    have hlt : rest.length < bs.length := by
      rw [he, List.length_append, List.length_cons]
      omega
    rw [he]
    exact line run rest hr (line_induction rest tail line)
  · exact tail bs h
termination_by bs.length

end Bytes

namespace Line

open Bytes

/-- A run in parts of the cap's size, of which only the last may be shorter. -/
def parts (cap : Cap) (run : Bytes) : List Bytes :=
  if _h : run = [] then [] else run.take cap.size :: parts cap (run.drop cap.size)
termination_by run.length
decreasing_by
  have := List.length_pos_iff.mpr _h
  have := cap.pos
  rw [List.length_drop]
  omega

/-- The parts of a run that a line feed ends: the empty run has an empty one. -/
def endedParts (cap : Cap) (run : Bytes) : List Bytes :=
  if run = [] then [[]] else parts cap run

/-- The parts of runs of which the last is not ended. -/
def runParts (cap : Cap) : List Bytes → List Bytes
  | [] => []
  | [run] => parts cap run
  | run :: runs => endedParts cap run ++ runParts cap runs

/-- The parts of a stream. -/
def segments (cap : Cap) (bs : Bytes) : List Bytes := runParts cap (splitOn newline bs)

variable {cap : Cap}

@[simp] theorem parts_nil : parts cap [] = [] := by rw [parts, dif_pos rfl]

theorem parts_append {full : Bytes} (h : full.length = cap.size) (rest : Bytes) :
    parts cap (full ++ rest) = full :: parts cap rest := by
  have hne : full ++ rest ≠ [] := by
    intro he
    have := cap.pos
    have hl := congrArg List.length he
    rw [List.length_append, h, List.length_nil] at hl
    omega
  rw [parts, dif_neg hne, List.take_left' h, List.drop_left' h]

theorem parts_of_le {run : Bytes} (hne : run ≠ []) (h : run.length ≤ cap.size) :
    parts cap run = [run] := by
  rw [parts, dif_neg hne, List.take_of_length_le h, List.drop_eq_nil_of_le h, parts_nil]

/-- A run has as many parts as it takes, the number of its bytes over the cap, rounded up. -/
theorem length_parts (run : Bytes) :
    (parts cap run).length = (run.length + cap.size - 1) / cap.size := by
  have hpos := cap.pos
  by_cases hne : run = []
  · subst hne
    rw [parts_nil, List.length_nil, List.length_nil, Nat.div_eq_of_lt (by omega)]
  · have hlen := List.length_pos_iff.mpr hne
    rw [parts, dif_neg hne, List.length_cons, length_parts (run.drop cap.size), List.length_drop]
    by_cases hle : run.length ≤ cap.size
    · have h0 : run.length - cap.size + cap.size - 1 < cap.size := by omega
      rw [Nat.div_eq_of_lt h0]
      exact (Nat.div_eq_of_lt_le (by omega) (by omega)).symm
    · have he : run.length + cap.size - 1 = (run.length - cap.size + cap.size - 1) + cap.size := by
        omega
      rw [he, Nat.add_div_right _ hpos]
termination_by run.length
decreasing_by
  rw [List.length_drop]
  omega

/-- An ended run has at least one part. -/
theorem length_endedParts (run : Bytes) :
    (endedParts cap run).length = max 1 ((run.length + cap.size - 1) / cap.size) := by
  have hpos := cap.pos
  unfold endedParts
  split
  · rename_i he
    subst he
    rw [List.length_nil, Nat.div_eq_of_lt (by omega)]
    rfl
  · rename_i hne
    have hlen := List.length_pos_iff.mpr hne
    have h1 : 1 ≤ (run.length + cap.size - 1) / cap.size :=
      (Nat.le_div_iff_mul_le hpos).mpr (by omega)
    rw [length_parts, Nat.max_eq_right h1]

theorem endedParts_of_le {run : Bytes} (h : run.length ≤ cap.size) :
    endedParts cap run = [run] := by
  unfold endedParts
  split
  · rename_i he
    rw [he]
  · rename_i hne
    exact parts_of_le hne h

theorem segments_tail {run : Bytes} (h : newline ∉ run) : segments cap run = parts cap run := by
  rw [segments, splitOn_of_not_mem h, runParts]

theorem segments_line {run : Bytes} (h : newline ∉ run) (rest : Bytes) :
    segments cap (run ++ newline :: rest) = endedParts cap run ++ segments cap rest := by
  rw [segments, splitOn_line h, segments]
  cases hs : splitOn newline rest with
  | nil => exact absurd hs (splitOn_ne_nil _ _)
  | cons next more => rw [runParts]; simp

/-- A line that fits the cap is one segment. -/
theorem segments_short_line {run : Bytes} (hn : newline ∉ run) (h : run.length ≤ cap.size)
    (rest : Bytes) : segments cap (run ++ newline :: rest) = run :: segments cap rest := by
  rw [segments_line hn, endedParts_of_le h]
  rfl

/-- A full part that no line feed follows is a segment by itself. -/
theorem segments_full {full : Bytes} (hn : newline ∉ full) (h : full.length = cap.size)
    {rest : Bytes} (hr : rest.head? ≠ some newline) :
    segments cap (full ++ rest) = full :: segments cap rest := by
  by_cases hm : newline ∈ rest
  · obtain ⟨run, more, rfl, hrun⟩ := List.eq_append_cons_of_mem hm
    have hne : run ≠ [] := by
      rintro rfl
      exact hr rfl
    have hfull : newline ∉ full ++ run := by
      simp only [List.mem_append, not_or]
      exact ⟨hn, hrun⟩
    rw [← List.append_assoc, segments_line hfull, segments_line hrun, endedParts, endedParts,
      if_neg hne, if_neg (by simp [hne]), parts_append h]
    rfl
  · have hfull : newline ∉ full ++ rest := by
      simp only [List.mem_append, not_or]
      exact ⟨hn, hm⟩
    rw [segments_tail hfull, segments_tail hm, parts_append h]

end Line

end ToolRunner
