import ToolRunner.Proofs.Line.Segments

/-!
# The pieces that reads give

`pieces` are the pieces of a stream that arrives in given reads, one call of `take` after another.
The bytes at hand never reach past a read, so a line feed after a full line is seen only where both
came in the same read. `length_pieces` compares the pieces with the segments of the stream: there is
one more for each read that ends between a full line and its line feed (`Stray`), and without such a
read the two are the same (`pieces_eq_segments`).
-/

namespace ToolRunner.Line

open Bytes

/-- A piece of a stream, and whether the line or the input ended with it; else the cap was
reached. -/
structure Piece where
  bytes : Bytes
  ended : Bool
deriving DecidableEq, Repr

variable {cap : Cap}

/-- What `take` does with bytes at hand. -/
inductive Takes (line : Partial cap) : Bytes → Taken cap → Prop
  | more {atHand : Bytes} {after : Partial cap} (free : newline ∉ atHand)
      (all : after.bytes.toList = line.bytes.toList ++ atHand) : Takes line atHand (.more after)
  | line (run : Bytes) {rest : Bytes} {bytes : Array UInt8} (free : newline ∉ run)
      (all : bytes.toList = line.bytes.toList ++ run) (fits : bytes.size ≤ cap.size) :
      Takes line (run ++ newline :: rest) (.line bytes rest)
  | split (run : Bytes) {rest : Bytes} {bytes : Array UInt8} (free : newline ∉ run)
      (all : bytes.toList = line.bytes.toList ++ run) (full : bytes.size = cap.size)
      (next : rest.head? ≠ some newline) : Takes line (run ++ rest) (.split bytes rest)

theorem takes_cons {line after : Partial cap} {b : UInt8} (hb : b ≠ newline)
    (hpush : after.bytes = line.bytes.push b) {bs : Bytes} {taken : Taken cap}
    (h : Takes after bs taken) : Takes line (b :: bs) taken := by
  have hfree {run : Bytes} (hr : newline ∉ run) : newline ∉ b :: run := by
    simp only [List.mem_cons, not_or]
    exact ⟨Ne.symm hb, hr⟩
  have hall {run : Bytes} : after.bytes.toList ++ run = line.bytes.toList ++ b :: run := by
    rw [hpush, Array.toList_push, List.append_assoc]
    rfl
  cases h with
  | more free all => exact .more (hfree free) (all.trans hall)
  | line run free all fits => exact .line (b :: run) (hfree free) (all.trans hall) fits
  | split run free all full next =>
    exact .split (b :: run) (hfree free) (all.trans hall) full next

theorem takes_full {line : Partial cap} {b : UInt8} (hb : b ≠ newline)
    (hfull : (line.bytes.push b).size = cap.size) (bs : Bytes) :
    Takes line (b :: bs) (takeFull (line.bytes.push b) bs) := by
  have hfree : newline ∉ [b] := by simpa using Ne.symm hb
  cases bs with
  | nil => exact .split [b] hfree (by simp) hfull (by simp)
  | cons next rest =>
    by_cases hn : next = newline
    · subst hn
      exact .line [b] hfree (by simp) (by omega)
    · have hs : takeFull (line.bytes.push b) (next :: rest) =
          (.split (line.bytes.push b) (next :: rest) : Taken cap) := by simp [takeFull, hn]
      rw [hs]
      exact .split [b] hfree (by simp) hfull (by simpa using hn)

theorem takes_take (line : Partial cap) (bs : Bytes) : Takes line bs (take line bs) := by
  induction bs generalizing line with
  | nil => exact .more (by simp) (by simp)
  | cons b bs ih =>
    by_cases hb : b = newline
    · subst hb
      have hroom := line.room
      have ht : take line (newline :: bs) = .line line.bytes bs := by simp [take]
      rw [ht]
      exact .line [] (by simp) (by simp) (by omega)
    · by_cases hroom : line.bytes.size + 1 < cap.size
      · have ht : take line (b :: bs) = take ⟨line.bytes.push b, by simpa using hroom⟩ bs := by
          simp [take, hb, hroom]
        rw [ht]
        exact takes_cons hb rfl (ih _)
      · have ht : take line (b :: bs) = takeFull (line.bytes.push b) bs := by
          simp [take, hb, hroom]
        have hlt := line.room
        rw [ht]
        exact takes_full hb (by rw [Array.size_push]; omega) bs

/-! ## Pieces -/

/-- The pieces that the bytes of a read complete, and the line that they leave begun. -/
def cut (line : Partial cap) (atHand : Bytes) : List Piece × Partial cap :=
  match h : take line atHand with
  | .more line => ([], line)
  | .line bytes rest =>
    have := rest_lt_of_take_line h
    let later := cut .empty rest
    (⟨bytes.toList, true⟩ :: later.1, later.2)
  | .split bytes rest =>
    have := rest_lt_of_take_split h
    let later := cut .empty rest
    (⟨bytes.toList, false⟩ :: later.1, later.2)
termination_by atHand.length

/-- The pieces that reads complete one after another, and the line that they leave begun. -/
def cutAll (line : Partial cap) : List Bytes → List Piece × Partial cap
  | [] => ([], line)
  | read :: reads =>
    let now := cut line read
    let later := cutAll now.2 reads
    (now.1 ++ later.1, later.2)

/-- The piece that a line becomes where the input ends. -/
def lastPiece (line : Partial cap) : List Piece :=
  if line.bytes.isEmpty then [] else [⟨line.bytes.toList, true⟩]

/-- The pieces of a stream that comes in some reads, when a line has begun before. -/
def pieces (line : Partial cap) (reads : List Bytes) : List Piece :=
  let all := cutAll line reads
  all.1 ++ lastPiece all.2

@[simp] theorem pieces_nil (line : Partial cap) : pieces line [] = lastPiece line := rfl

theorem pieces_cons (line : Partial cap) (read : Bytes) (reads : List Bytes) :
    pieces line (read :: reads) = (cut line read).1 ++ pieces (cut line read).2 reads := by
  simp [pieces, cutAll, List.append_assoc]

theorem cut_of_more {line after : Partial cap} {bs : Bytes} (h : take line bs = .more after) :
    cut line bs = ([], after) := by
  rw [cut]
  split <;> simp_all

theorem cut_of_line {line : Partial cap} {bs rest : Bytes} {bytes : Array UInt8}
    (h : take line bs = .line bytes rest) :
    cut line bs = (⟨bytes.toList, true⟩ :: (cut (.empty : Partial cap) rest).1,
      (cut .empty rest).2) := by
  rw [cut]
  split <;> simp_all

theorem cut_of_split {line : Partial cap} {bs rest : Bytes} {bytes : Array UInt8}
    (h : take line bs = .split bytes rest) :
    cut line bs = (⟨bytes.toList, false⟩ :: (cut (.empty : Partial cap) rest).1,
      (cut .empty rest).2) := by
  rw [cut]
  split <;> simp_all

/-- The pieces and the line that bytes at hand give, by what `take` does again and again. -/
inductive Cuts : Partial cap → Bytes → List Piece → Partial cap → Prop
  | more {line after : Partial cap} {atHand : Bytes} (free : newline ∉ atHand)
      (all : after.bytes.toList = line.bytes.toList ++ atHand) : Cuts line atHand [] after
  | line {line after : Partial cap} {run rest bytes : Bytes} {later : List Piece}
      (free : newline ∉ run) (all : bytes = line.bytes.toList ++ run)
      (fits : bytes.length ≤ cap.size) (next : Cuts .empty rest later after) :
      Cuts line (run ++ newline :: rest) (⟨bytes, true⟩ :: later) after
  | split {line after : Partial cap} {run rest bytes : Bytes} {later : List Piece}
      (free : newline ∉ run) (all : bytes = line.bytes.toList ++ run)
      (full : bytes.length = cap.size) (open' : rest.head? ≠ some newline)
      (next : Cuts .empty rest later after) :
      Cuts line (run ++ rest) (⟨bytes, false⟩ :: later) after

theorem cuts_cut (line : Partial cap) (bs : Bytes) :
    Cuts line bs (cut line bs).1 (cut line bs).2 := by
  have ht := takes_take line bs
  cases htake : take line bs with
  | more after =>
    rw [htake] at ht
    rw [cut_of_more htake]
    cases ht with
    | more free all => exact .more free all
  | line bytes rest =>
    have hlt := rest_lt_of_take_line htake
    have ih := cuts_cut .empty rest
    rw [htake] at ht
    rw [cut_of_line htake]
    cases ht with
    | line run free all fits => exact .line free all fits ih
  | split bytes rest =>
    have hlt := rest_lt_of_take_split htake
    have ih := cuts_cut .empty rest
    rw [htake] at ht
    rw [cut_of_split htake]
    cases ht with
    | split run free all full next => exact .split free all full next ih
termination_by bs.length

/-! ## Pieces and segments -/

/-- Some read ends between a full line and its line feed: `before` came up to the end of the read,
`rest` comes after it. -/
def Stray (cap : Cap) (before rest : Bytes) : Prop :=
  unended before ≠ [] ∧ cap.size ∣ (unended before).length ∧ rest.head? = some newline

instance (cap : Cap) (before rest : Bytes) : Decidable (Stray cap before rest) :=
  inferInstanceAs (Decidable (_ ∧ _ ∧ _))

/-- The line is what has begun after some bytes: only full pieces stand between it and the last line
feed. -/
def Follows (line : Partial cap) (before : Bytes) : Prop :=
  ∃ full, cap.size ∣ full.length ∧ unended before = full ++ line.bytes.toList

theorem follows_empty {before : Bytes} (h : cap.size ∣ (unended before).length) :
    Follows (.empty : Partial cap) before :=
  ⟨unended before, h, by simp [Partial.empty]⟩

theorem Follows.free {line : Partial cap} {before : Bytes} (h : Follows line before) :
    newline ∉ line.bytes.toList := by
  obtain ⟨full, _, he⟩ := h
  have hn := newline_not_mem_unended before
  rw [he, List.mem_append, not_or] at hn
  exact hn.2

theorem Follows.append {line after : Partial cap} {before run : Bytes} (h : Follows line before)
    (hn : newline ∉ run) (ha : after.bytes.toList = line.bytes.toList ++ run) :
    Follows after (before ++ run) := by
  obtain ⟨full, hd, he⟩ := h
  exact ⟨full, hd, by rw [unended_append hn, he, ha, List.append_assoc]⟩

/-- After a full piece the bytes since the last line feed are a multiple of the cap. -/
theorem Follows.full {line : Partial cap} {before run : Bytes} (h : Follows line before)
    (hn : newline ∉ run) (hf : (line.bytes.toList ++ run).length = cap.size) :
    unended (before ++ run) ≠ [] ∧ cap.size ∣ (unended (before ++ run)).length := by
  obtain ⟨full, hd, he⟩ := h
  have hpos := cap.pos
  have hlen : (unended (before ++ run)).length = full.length + cap.size := by
    rw [unended_append hn, he, List.append_assoc, List.length_append, hf]
  refine ⟨List.length_pos_iff.mp (by omega), ?_⟩
  rw [hlen]
  exact Nat.dvd_add hd (Nat.dvd_refl _)

/-- After a line feed nothing has begun. -/
theorem follows_lineFeed (before run : Bytes) :
    Follows (.empty : Partial cap) (before ++ (run ++ [newline])) := by
  apply follows_empty
  rw [← List.append_assoc, unended_line]
  simp [unended]

theorem not_stray_lineFeed (before run rest : Bytes) :
    ¬ Stray cap (before ++ (run ++ [newline])) rest := by
  intro h
  apply h.1
  rw [← List.append_assoc, unended_line]
  rfl

theorem Follows.empty_of_stray {line : Partial cap} {before rest : Bytes} (h : Follows line before)
    (hs : Stray cap before rest) : line.bytes.toList = [] := by
  obtain ⟨full, hd, he⟩ := h
  have hdvd := hs.2.1
  rw [he, List.length_append, Nat.dvd_add_right hd] at hdvd
  have hroom : line.bytes.toList.length < cap.size := line.room
  exact List.length_eq_zero_iff.mp (Nat.eq_zero_of_dvd_of_lt hdvd hroom)

/-- The segments still to come after some bytes: a line feed after a full line is part of it. -/
def remaining (before : Bytes) (line : Partial cap) (rest : Bytes) : List Bytes :=
  if Stray cap before rest then segments cap rest.tail
  else segments cap (line.bytes.toList ++ rest)

theorem remaining_of_not_stray {before rest : Bytes} {line : Partial cap}
    (h : ¬ Stray cap before rest) :
    remaining before line rest = segments cap (line.bytes.toList ++ rest) := if_neg h

/-- Where the line feed of a full line comes with a later read, it makes a segment of its own. -/
theorem segments_of_stray {line : Partial cap} {before rest : Bytes} (h : Follows line before)
    (hs : Stray cap before rest) :
    segments cap (line.bytes.toList ++ rest) = [] :: remaining before line rest := by
  have hnil := h.empty_of_stray hs
  obtain ⟨more, rfl⟩ := List.head?_eq_some_iff.mp hs.2.2
  rw [remaining, if_pos hs, hnil, List.nil_append, List.tail_cons]
  have hfree : newline ∉ ([] : Bytes) := by simp
  exact segments_short_line hfree (Nat.zero_le _) more

theorem Cuts.follows {line after : Partial cap} {read before : Bytes} {ps : List Piece}
    (h : Cuts line read ps after) (hl : Follows line before) : Follows after (before ++ read) := by
  induction h generalizing before with
  | more free all => exact hl.append free all
  | line _ _ _ _ ih => simpa [List.append_assoc] using ih (follows_lineFeed before _)
  | split free all full _ _ ih =>
    have hnext := follows_empty (hl.full free (by rw [← all]; exact full)).2
    simpa [List.append_assoc] using ih hnext

theorem Cuts.of_nil {after : Partial cap} {ps : List Piece} (h : Cuts .empty [] ps after) :
    ps = [] ∧ after.bytes.toList = [] := by
  generalize hr : ([] : Bytes) = read at h
  cases h with
  | more free all =>
    subst hr
    exact ⟨rfl, by simpa [Partial.empty] using all⟩
  | line => simp at hr
  | split free all full _ next =>
    have hpos := cap.pos
    obtain ⟨hrun, -⟩ := List.append_eq_nil_iff.mp hr.symm
    rw [all, hrun] at full
    simp only [Partial.empty, List.append_nil, List.length_nil] at full
    omega

/-- The pieces of a read are the next segments of the stream. The induction goes from piece to
piece; only at the first may the bytes at hand be none, and then no line feed may stray. -/
theorem Cuts.segments_eq {line after : Partial cap} {read before : Bytes} {ps : List Piece}
    (h : Cuts line read ps after) (rest : Bytes) (hl : Follows line before)
    (hr : read ≠ [] ∨ ¬ Stray cap before rest) :
    segments cap (line.bytes.toList ++ (read ++ rest)) =
      ps.map (·.bytes) ++ remaining (before ++ read) after rest := by
  induction h generalizing before with
  | @more line after atHand free all =>
    have hs : ¬ Stray cap (before ++ atHand) rest := by
      intro hs
      have he := (hl.append free all).empty_of_stray hs
      rw [all, List.append_eq_nil_iff] at he
      rcases hr with hr | hr
      · exact hr he.2
      · rw [he.2, List.append_nil] at hs
        exact hr hs
    rw [remaining_of_not_stray hs, all, List.append_assoc]
    rfl
  | @line line after run more bytes later free all fits next ih =>
    have hb : newline ∉ bytes := by
      rw [all, List.mem_append, not_or]
      exact ⟨hl.free, free⟩
    have hlater := ih (follows_lineFeed before run) (.inr (not_stray_lineFeed before run rest))
    have he : line.bytes.toList ++ (run ++ newline :: more ++ rest) =
        bytes ++ newline :: (more ++ rest) := by rw [all]; simp [List.append_assoc]
    rw [he, segments_short_line hb fits]
    simpa [Partial.empty, List.append_assoc] using hlater
  | @split line after run more bytes later free all full open' next ih =>
    have hb : newline ∉ bytes := by
      rw [all, List.mem_append, not_or]
      exact ⟨hl.free, free⟩
    obtain ⟨hne, hdvd⟩ := hl.full free (by rw [← all]; exact full)
    have he : line.bytes.toList ++ (run ++ more ++ rest) = bytes ++ (more ++ rest) := by
      rw [all]; simp [List.append_assoc]
    by_cases hs : more = [] ∧ Stray cap (before ++ run) rest
    · obtain ⟨rfl, hs⟩ := hs
      obtain ⟨rfl, hafter⟩ := next.of_nil
      obtain ⟨tail, rfl⟩ := List.head?_eq_some_iff.mp hs.2.2
      have hs' : Stray cap (before ++ (run ++ [])) (newline :: tail) := by simpa using hs
      rw [he, List.nil_append, segments_short_line hb (by omega), remaining, if_pos hs']
      rfl
    · have hlater := ih (follows_empty hdvd) (by
        by_cases hm : more = []
        · exact .inr (fun h => hs ⟨hm, h⟩)
        · exact .inl hm)
      have hhead : (more ++ rest).head? ≠ some newline := by
        cases more with
        | nil => exact fun hh => hs ⟨rfl, hne, hdvd, hh⟩
        | cons b more => exact open'
      rw [he, segments_full hb full hhead]
      simpa [Partial.empty, List.append_assoc] using hlater

/-- How many of the reads end between a full line and its line feed. -/
def strays (cap : Cap) (before : Bytes) : List Bytes → Nat
  | [] => 0
  | read :: reads =>
    (if Stray cap (before ++ read) reads.flatten then 1 else 0) + strays cap (before ++ read) reads

theorem segments_last {line : Partial cap} (h : newline ∉ line.bytes.toList) :
    (lastPiece line).map (·.bytes) = segments cap line.bytes.toList := by
  have hroom : line.bytes.toList.length < cap.size := line.room
  rw [segments_tail h]
  unfold lastPiece
  split
  · rename_i he
    rw [Array.isEmpty_iff] at he
    simp [he]
  · rename_i he
    rw [parts_of_le (by simpa using he) (by omega)]
    rfl

/-- There are as many pieces as segments, and one more for each stray line feed. -/
theorem length_pieces {line : Partial cap} {before : Bytes} (hl : Follows line before)
    {reads : List Bytes} (hr : ∀ read ∈ reads, read ≠ []) :
    (pieces line reads).length =
      (segments cap (line.bytes.toList ++ reads.flatten)).length + strays cap before reads := by
  induction reads generalizing line before with
  | nil =>
    have hlast := congrArg List.length (segments_last hl.free)
    rw [List.length_map] at hlast
    rw [pieces_nil, hlast]
    simp [strays]
  | cons read reads ih =>
    have hcuts := cuts_cut line read
    have hnext := hcuts.follows hl
    have hseg := hcuts.segments_eq reads.flatten hl (.inl (hr read (by simp)))
    have hlater := ih hnext (fun r h => hr r (by simp [h]))
    rw [pieces_cons, List.length_append, hlater, List.flatten_cons, hseg, List.length_append,
      List.length_map, strays]
    split
    · rename_i hs
      rw [segments_of_stray hnext hs, List.length_cons]
      omega
    · rename_i hs
      rw [remaining_of_not_stray hs]
      omega

/-- Without a stray line feed the pieces are the segments of the stream. -/
theorem pieces_eq_segments {line : Partial cap} {before : Bytes} (hl : Follows line before)
    {reads : List Bytes} (hr : ∀ read ∈ reads, read ≠ [])
    (hs : strays cap before reads = 0) :
    (pieces line reads).map (·.bytes) = segments cap (line.bytes.toList ++ reads.flatten) := by
  induction reads generalizing line before with
  | nil => rw [pieces_nil, segments_last hl.free]; simp
  | cons read reads ih =>
    have hcuts := cuts_cut line read
    have hnext := hcuts.follows hl
    have hseg := hcuts.segments_eq reads.flatten hl (.inl (hr read (by simp)))
    rw [strays, Nat.add_eq_zero_iff] at hs
    have hno : ¬ Stray cap (before ++ read) reads.flatten := by
      intro h
      rw [if_pos h] at hs
      exact absurd hs.1 (by decide)
    rw [pieces_cons, List.map_append, ih hnext (fun r h => hr r (by simp [h])) hs.2,
      List.flatten_cons, hseg, remaining_of_not_stray hno]

theorem strays_eq_zero_iff {before : Bytes} {reads : List Bytes} :
    strays cap before reads = 0 ↔
      ∀ now later, now ≠ [] → reads = now ++ later →
        ¬ Stray cap (before ++ now.flatten) later.flatten := by
  induction reads generalizing before with
  | nil =>
    refine ⟨fun _ now later hne he => ?_, fun _ => rfl⟩
    exact absurd (List.append_eq_nil_iff.mp he.symm).1 hne
  | cons read reads ih =>
    rw [strays, Nat.add_eq_zero_iff, ih]
    constructor
    · rintro ⟨hnow, hlater⟩ now later hne he
      cases now with
      | nil => exact absurd rfl hne
      | cons r now =>
        obtain ⟨rfl, rfl⟩ := List.cons_eq_cons.mp he
        by_cases hn : now = []
        · subst hn
          simpa using hnow
        · simpa [List.append_assoc] using hlater now later hn rfl
    · intro h
      refine ⟨if_neg (by simpa using h [read] reads (by simp) rfl), ?_⟩
      rintro now later hne rfl
      simpa [List.append_assoc] using h (read :: now) later (by simp) rfl

end ToolRunner.Line
