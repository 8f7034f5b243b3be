import Mathlib.Algebra.GroupWithZero.Nat
import ToolRunner.Proofs.Text.Encoding

/-!
# Excerpts of a text

A stretch of the bytes of a text may begin and end inside characters. What is decoded of it is told
by where the characters are: those that are in it as a whole stay as they are, each byte that is
left at its beginning of a character is replaced by itself, and what is there at its end of a
character is replaced as one (`decode_cut`).
-/

namespace ToolRunner.Utf8

open Decoder

/-- A character of a text, and the number of bytes before it. -/
structure Placed where
  char : Char
  start : Nat
deriving DecidableEq

def Placed.stop (c : Placed) : Nat := c.start + c.char.utf8Size

/-- The characters from a place on. -/
def placedFrom (place : Nat) : List Char → List Placed
  | [] => []
  | c :: cs => ⟨c, place⟩ :: placedFrom (place + c.utf8Size) cs

def placed (text : String) : List Placed := placedFrom 0 text.toList

/-- A stretch of bytes, by where it begins and where it ends. -/
structure Span where
  start : Nat
  stop : Nat
deriving DecidableEq

namespace Span

/-- The character is in the stretch as a whole. -/
def Holds (s : Span) (c : Placed) : Prop := s.start ≤ c.start ∧ c.stop ≤ s.stop

/-- The character begins in the stretch and goes on after it. -/
def Cuts (s : Span) (c : Placed) : Prop :=
  s.start ≤ c.start ∧ c.start < s.stop ∧ s.stop < c.stop

/-- The number of bytes in the stretch of a character that begins before it. -/
def orphans (s : Span) (c : Placed) : Nat :=
  if c.start < s.start then min c.stop s.stop - s.start else 0

instance (s : Span) (c : Placed) : Decidable (s.Holds c) := inferInstanceAs (Decidable (_ ∧ _))

instance (s : Span) (c : Placed) : Decidable (s.Cuts c) := inferInstanceAs (Decidable (_ ∧ _))

def cut (s : Span) (bs : Bytes) : Bytes := (bs.take s.stop).drop s.start

end Span

/-- What is left of characters that begin in a stretch where all after it is missing. -/
def kept (cs : List Placed) (s : Span) : List Char :=
  (cs.filter fun c => s.Holds c).map (·.char) ++
    if cs.any fun c => s.Cuts c then [replacement] else []

/-- What is left of characters where all before and after a stretch is missing. -/
def excerptOf (cs : List Placed) (s : Span) : List Char :=
  List.replicate (cs.map s.orphans).sum replacement ++ kept cs s

def excerpt (text : String) (s : Span) : String := String.ofList (excerptOf (placed text) s)

/-! ## Bytes of a stretch, character by character -/

/-- The bytes of a character that are in the stretch. -/
def bytesAt (s : Span) (c : Placed) : Bytes :=
  ((String.utf8EncodeChar c.char).take (s.stop - c.start)).drop (s.start - c.start)

variable {s : Span} {c : Placed} {place : Nat} {cs : List Char}

theorem le_start_of_mem_placedFrom (h : c ∈ placedFrom place cs) : place ≤ c.start := by
  induction cs generalizing place with
  | nil => simp [placedFrom] at h
  | cons ch cs ih =>
    rcases List.mem_cons.mp h with rfl | hmem
    · exact Nat.le_refl place
    · exact Nat.le_trans (Nat.le_add_right _ _) (ih hmem)

theorem drop_take_flatMap (s : Span) (place : Nat) (cs : List Char) :
    ((cs.flatMap String.utf8EncodeChar).take (s.stop - place)).drop (s.start - place) =
      (placedFrom place cs).flatMap (bytesAt s) := by
  induction cs generalizing place with
  | nil => simp [placedFrom]
  | cons ch cs ih =>
    rw [placedFrom, List.flatMap_cons, List.flatMap_cons, ← ih, List.take_append, List.drop_append,
      bytesAt, List.length_take, String.length_utf8EncodeChar, Nat.sub_sub s.stop]
    congr 1
    by_cases hstop : place + ch.utf8Size ≤ s.stop
    · rw [Nat.min_eq_right (by omega), Nat.sub_sub]
    · have hnone : s.stop - (place + ch.utf8Size) = 0 := by omega
      rw [hnone, List.take_zero, List.drop_nil, List.drop_nil]

/-- The bytes of a stretch are those of its characters. -/
theorem cut_ofString (s : Span) (text : String) :
    s.cut (Bytes.ofString text) = (placed text).flatMap (bytesAt s) :=
  drop_take_flatMap s 0 text.toList

theorem bytesAt_after (h : s.stop ≤ c.start) : bytesAt s c = [] := by
  rw [bytesAt, Nat.sub_eq_zero_of_le h, List.take_zero, List.drop_nil]

theorem bytesAt_of_holds (h : s.Holds c) : bytesAt s c = String.utf8EncodeChar c.char := by
  have hstop : (String.utf8EncodeChar c.char).length ≤ s.stop - c.start := by
    have hle := h.2
    rw [String.length_utf8EncodeChar]
    simp only [Placed.stop] at hle
    omega
  rw [bytesAt, List.take_of_length_le hstop, Nat.sub_eq_zero_of_le h.1, List.drop_zero]

theorem bytesAt_of_cuts (h : s.Cuts c) :
    bytesAt s c = (String.utf8EncodeChar c.char).take (s.stop - c.start) := by
  rw [bytesAt, Nat.sub_eq_zero_of_le h.1, List.drop_zero]

/-- The bytes that are left of a character that begins before the stretch. -/
theorem decodeFrom_orphans (h : c.start < s.start) (text : String) :
    decodeFrom ⟨text, none⟩ (bytesAt s c) =
      ⟨text ++ String.ofList (List.replicate (s.orphans c) replacement), none⟩ := by
  have hlength : (bytesAt s c).length = s.orphans c := by
    rw [bytesAt, List.length_drop, List.length_take, String.length_utf8EncodeChar, Span.orphans,
      if_pos h, Placed.stop]
    omega
  have htails : ∀ b ∈ bytesAt s c, IsTail b := by
    intro b hb
    refine isTail_of_mem_drop (c := c.char) (n := s.start - c.start) (by omega) ?_
    rw [bytesAt, List.drop_take] at hb
    exact List.mem_of_mem_take hb
  rw [decodeFrom_tails htails, hlength]

/-! ## What is decoded of a stretch -/

section

variable {cs : List Placed}

theorem kept_cons_of_holds (h : s.Holds c) : kept (c :: cs) s = c.char :: kept cs s := by
  have hcuts : ¬ s.Cuts c := fun hcut => Nat.not_lt.mpr h.2 hcut.2.2
  simp [kept, h, hcuts]

theorem kept_cons_of_not (holds : ¬ s.Holds c) (cuts : ¬ s.Cuts c) :
    kept (c :: cs) s = kept cs s := by
  simp [kept, holds, cuts]

theorem kept_eq_nil (h : ∀ c ∈ cs, s.stop ≤ c.start) : kept cs s = [] := by
  have hholds : ∀ c ∈ cs, ¬ s.Holds c := by
    intro c hc hhold
    have hpos := c.char.utf8Size_pos
    have hstart := h c hc
    have hstop := hhold.2
    simp only [Placed.stop] at hstop
    omega
  have hcuts : ∀ c ∈ cs, ¬ s.Cuts c := fun c hc hcut => Nat.not_lt.mpr (h c hc) hcut.2.1
  simpa [kept] using ⟨hholds, hcuts⟩

theorem kept_cons_of_cuts (h : s.Cuts c) (hafter : ∀ c ∈ cs, s.stop ≤ c.start) :
    kept (c :: cs) s = [replacement] := by
  have hholds : ¬ s.Holds c := fun hhold => Nat.not_lt.mpr hhold.2 h.2.2
  have hnone := kept_eq_nil hafter
  simp only [kept, List.append_eq_nil_iff, List.map_eq_nil_iff] at hnone
  simp [kept, h, hholds, hnone.1]

theorem excerptOf_of_start_le (h : ∀ c ∈ cs, s.start ≤ c.start) : excerptOf cs s = kept cs s := by
  have hnone : (cs.map s.orphans).sum = 0 := by
    refine List.sum_eq_zero_iff_forall_eq_nat.mpr fun n hn => ?_
    obtain ⟨c, hc, rfl⟩ := List.mem_map.mp hn
    exact if_neg (Nat.not_lt.mpr (h c hc))
  rw [excerptOf, hnone]
  rfl

theorem excerptOf_cons_of_lt (h : c.start < s.start) :
    excerptOf (c :: cs) s = List.replicate (s.orphans c) replacement ++ excerptOf cs s := by
  have hholds : ¬ s.Holds c := fun hhold => Nat.not_lt.mpr hhold.1 h
  have hcuts : ¬ s.Cuts c := fun hcut => Nat.not_lt.mpr hcut.1 h
  rw [excerptOf, excerptOf, kept_cons_of_not hholds hcuts, List.map_cons, List.sum_cons,
    ← List.replicate_append_replicate, List.append_assoc]

end

/-- Where no character begins before the stretch, all are kept that end in it. -/
theorem decodeFrom_kept (h : s.start ≤ place) (text : String) (cs : List Char) :
    (decodeFrom ⟨text, none⟩ ((placedFrom place cs).flatMap (bytesAt s))).finish =
      text ++ String.ofList (kept (placedFrom place cs) s) := by
  induction cs generalizing place text with
  | nil => simp [placedFrom, kept, decodeFrom, finish]
  | cons ch cs ih =>
    have hlater : ∀ c ∈ placedFrom (place + ch.utf8Size) cs, place + ch.utf8Size ≤ c.start :=
      fun c hc => le_start_of_mem_placedFrom hc
    rw [placedFrom, List.flatMap_cons, decodeFrom_append]
    rcases Nat.lt_or_ge s.stop (place + ch.utf8Size) with hlt | hle
    · -- The stretch ends before the character does, so that nothing of the others is in it.
      have hafter : ∀ c ∈ placedFrom (place + ch.utf8Size) cs, s.stop ≤ c.start :=
        fun c hc => Nat.le_of_lt (Nat.lt_of_lt_of_le hlt (hlater c hc))
      have hnothing : (placedFrom (place + ch.utf8Size) cs).flatMap (bytesAt s) = [] :=
        List.flatMap_eq_nil_iff.mpr fun c hc => bytesAt_after (hafter c hc)
      rw [hnothing]
      rcases Nat.lt_or_ge place s.stop with hbegun | hbeyond
      · have hcut : s.Cuts ⟨ch, place⟩ := ⟨h, hbegun, hlt⟩
        have hfinish := finish_begun text ch (n := s.stop - place) (by omega) (by omega)
        rw [bytesAt_of_cuts hcut, kept_cons_of_cuts hcut hafter]
        refine hfinish.trans (String.ext ?_)
        simp
      · have hnone : kept (⟨ch, place⟩ :: placedFrom (place + ch.utf8Size) cs) s = [] :=
          kept_eq_nil (List.forall_mem_cons.mpr ⟨hbeyond, hafter⟩)
        rw [bytesAt_after (show s.stop ≤ (⟨ch, place⟩ : Placed).start from hbeyond), hnone]
        simp [decodeFrom, finish]
    · have hhold : s.Holds ⟨ch, place⟩ := ⟨h, hle⟩
      rw [bytesAt_of_holds hhold, decodeFrom_char, ih (by omega), kept_cons_of_holds hhold]
      apply String.ext
      simp

theorem decodeFrom_excerptOf (s : Span) (place : Nat) (text : String) (cs : List Char) :
    (decodeFrom ⟨text, none⟩ ((placedFrom place cs).flatMap (bytesAt s))).finish =
      text ++ String.ofList (excerptOf (placedFrom place cs) s) := by
  induction cs generalizing place text with
  | nil => simp [placedFrom, excerptOf, kept, decodeFrom, finish]
  | cons ch cs ih =>
    rcases Nat.lt_or_ge place s.start with hlt | hle
    · have hbefore : (⟨ch, place⟩ : Placed).start < s.start := hlt
      rw [placedFrom, List.flatMap_cons, decodeFrom_append, decodeFrom_orphans hbefore, ih,
        excerptOf_cons_of_lt hbefore]
      apply String.ext
      simp
    · rw [decodeFrom_kept hle, excerptOf_of_start_le]
      exact fun c hc => Nat.le_trans hle (le_start_of_mem_placedFrom hc)

/-- A stretch of a text is decoded to the excerpt of the text. -/
theorem decode_cut (s : Span) (text : String) :
    decode (s.cut (Bytes.ofString text)) = excerpt text s := by
  have h := decodeFrom_excerptOf s 0 "" text.toList
  rw [decode, cut_ofString, Decoder.start, placed, h, String.empty_append]
  rfl

end ToolRunner.Utf8
