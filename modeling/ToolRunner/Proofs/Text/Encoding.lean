import ToolRunner.Text.Utf8

/-!
# Decoding what was encoded

The bytes of a character are either one byte that stands for it, or a byte that begins it and tails,
which bring it to its end (`spelled`). So the automaton gives every character of a text back when it
has taken all bytes of it (`decodeFrom_char`), gives nothing yet when it has taken some of them
(`finish_begun`), and finds no beginning in the others (`decodeFrom_tails`). A text is therefore got
back from its bytes (`decode_ofString`), and an ASCII byte is in them only where its character is in
the text (`mem_ofString`).
-/

namespace ToolRunner.Utf8

open Decoder

/-- A byte that goes on with a character and begins none. -/
def IsTail (b : UInt8) : Prop := 0x80 ≤ b ∧ b < 0xC0

theorem opening_tail {b : UInt8} (h : IsTail b) : opening b = .invalid := by
  have hlow : ¬ b < 0x80 := UInt8.not_lt.mpr h.1
  have hhigh : b < 0xC2 := UInt8.lt_trans h.2 (by decide)
  rw [opening, if_neg hlow, if_pos hhigh]

/-- The bytes that a character still lacks when it has begun. -/
inductive Completes (c : Char) : Due → Bytes → Prop
  | last {due : Due} {b : UInt8} (within : due.low ≤ b ∧ b ≤ due.high) (tail : IsTail b)
      (count : due.count = 1) (value : due.value * 64 + (b.toNat - 0x80) = c.toNat) :
      Completes c due [b]
  | more {due : Due} {b : UInt8} {bs : Bytes} {count : Nat}
      (within : due.low ≤ b ∧ b ≤ due.high) (tail : IsTail b) (many : due.count = count + 2)
      (next : Completes c ⟨due.value * 64 + (b.toNat - 0x80), count + 1, 0x80, 0xBF⟩ bs) :
      Completes c due (b :: bs)

inductive Spelled (c : Char) : Bytes → Prop
  | single {b : UInt8} (only : opening b = .char c) : Spelled c [b]
  | several {b : UInt8} {due : Due} {bs : Bytes} (first : opening b = .due due)
      (rest : Completes c due bs) : Spelled c (b :: bs)

/-! ## How a character is spelled -/

/-- The tail that holds the lowest six bits of a number. -/
def tailByte (n : Nat) : UInt8 := UInt8.ofNat (n % 64 + 128)

theorem toNat_tailByte (n : Nat) : (tailByte n).toNat = n % 64 + 128 := by
  rw [tailByte, UInt8.toNat_ofNat']
  omega

theorem isTail_tailByte (n : Nat) : IsTail (tailByte n) := by
  have h := toNat_tailByte n
  constructor
  · rw [UInt8.le_iff_toNat_le, h]
    simp
  · rw [UInt8.lt_iff_toNat_lt, h]
    simp
    omega

section

variable {c : Char} {due : Due} {n count : Nat} {bs : Bytes}

theorem completes_last : Completes c ⟨c.toNat / 64, 1, 0x80, 0xBF⟩ [tailByte c.toNat] := by
  have h := toNat_tailByte c.toNat
  refine .last ⟨(isTail_tailByte _).1, ?_⟩ (isTail_tailByte _) rfl ?_
  · rw [UInt8.le_iff_toNat_le, h]
    simp
    omega
  · rw [h]
    simp only
    omega

theorem Completes.tailByte (low : due.low.toNat ≤ n % 64 + 128)
    (high : n % 64 + 128 ≤ due.high.toNat) (many : due.count = count + 2)
    (value : due.value = n / 64) (next : Completes c ⟨n, count + 1, 0x80, 0xBF⟩ bs) :
    Completes c due (tailByte n :: bs) := by
  have h := toNat_tailByte n
  have hvalue : due.value * 64 + ((Utf8.tailByte n).toNat - 0x80) = n := by
    rw [value, h]
    omega
  refine .more ⟨?_, ?_⟩ (isTail_tailByte n) many (by rwa [hvalue])
  · rw [UInt8.le_iff_toNat_le, h]
    exact low
  · rw [UInt8.le_iff_toNat_le, h]
    exact high

theorem opening_two (low : 2 ≤ n) (high : n < 32) :
    opening (UInt8.ofNat (n + 0xC0)) = .due ⟨n, 1, 0x80, 0xBF⟩ := by
  have hb : (UInt8.ofNat (n + 0xC0)).toNat = n + 0xC0 := by
    rw [UInt8.toNat_ofNat']
    omega
  simp only [opening, UInt8.lt_iff_toNat_lt, hb, UInt8.reduceToNat]
  rw [if_neg (by omega), if_neg (by omega), if_pos (by omega), Nat.add_sub_cancel]

theorem opening_three (high : n < 16) :
    opening (UInt8.ofNat (n + 0xE0)) =
      .due ⟨n, 2, if n = 0 then 0xA0 else 0x80, if n = 13 then 0x9F else 0xBF⟩ := by
  have hb : (UInt8.ofNat (n + 0xE0)).toNat = n + 0xE0 := by
    rw [UInt8.toNat_ofNat']
    omega
  simp only [opening, UInt8.lt_iff_toNat_lt, ← UInt8.toNat_inj, hb, UInt8.reduceToNat]
  rw [if_neg (by omega), if_neg (by omega), if_neg (by omega), if_pos (by omega),
    Nat.add_sub_cancel]
  simp

theorem opening_four (high : n < 5) :
    opening (UInt8.ofNat (n + 0xF0)) =
      .due ⟨n, 3, if n = 0 then 0x90 else 0x80, if n = 4 then 0x8F else 0xBF⟩ := by
  have hb : (UInt8.ofNat (n + 0xF0)).toNat = n + 0xF0 := by
    rw [UInt8.toNat_ofNat']
    omega
  simp only [opening, UInt8.lt_iff_toNat_lt, ← UInt8.toNat_inj, hb, UInt8.reduceToNat]
  rw [if_neg (by omega), if_neg (by omega), if_neg (by omega), if_neg (by omega),
    if_pos (by omega), Nat.add_sub_cancel]
  simp

end

theorem spelled (c : Char) : Spelled c (String.utf8EncodeChar c) := by
  have hval : c.val.toNat = c.toNat := rfl
  have hvalid : c.toNat < 0xD800 ∨ 0xDFFF < c.toNat ∧ c.toNat < 0x110000 := c.valid
  have hlast := completes_last (c := c)
  simp only [String.utf8EncodeChar, hval]
  split
  · have hb : (UInt8.ofNat c.toNat).toNat = c.toNat := by
      rw [UInt8.toNat_ofNat']
      omega
    have hlow : UInt8.ofNat c.toNat < 0x80 := by
      rw [UInt8.lt_iff_toNat_lt, hb]
      simp
      omega
    refine .single ?_
    rw [opening, if_pos hlow, hb, Char.ofNat_toNat]
  split
  · have hn : c.toNat / 64 % 32 = c.toNat / 64 := by omega
    rw [hn]
    exact .several (opening_two (by omega) (by omega)) hlast
  split
  · -- Below 0x800 and among the surrogates there are no characters, so the bounds are met.
    have hn : c.toNat / 4096 % 16 = c.toNat / 4096 := by omega
    rw [hn]
    refine .several (opening_three (by omega)) (.tailByte ?_ ?_ rfl (by simp only; omega) hlast)
    · show (if _ then _ else _ : UInt8).toNat ≤ _
      split
      · simp; omega
      · simp
    · show _ ≤ (if _ then _ else _ : UInt8).toNat
      split <;> simp <;> omega
  · -- Nor are there any below 0x10000 that come here, or above 0x10FFFF.
    have hn : c.toNat / 262144 % 8 = c.toNat / 262144 := by omega
    have hm : c.toNat / 4096 = c.toNat / 64 / 64 := by omega
    rw [hn]
    refine .several (opening_four (by omega)) (.tailByte ?_ ?_ rfl (by simp only; omega) ?_)
    · show (if _ then _ else _ : UInt8).toNat ≤ _
      split
      · simp; omega
      · simp
    · show _ ≤ (if _ then _ else _ : UInt8).toNat
      split <;> simp <;> omega
    · exact .tailByte (by simp) (by simp; omega) rfl hm hlast

/-! ## What the automaton makes of it -/

section

variable {c : Char} {due : Due} {bs : Bytes}

theorem push_within {b : UInt8} (h : due.low ≤ b ∧ b ≤ due.high) (text : String) :
    push ⟨text, some due⟩ b =
      match due.count with
      | 0 | 1 => ⟨text.push (Char.ofNat (due.value * 64 + (b.toNat - 0x80))), none⟩
      | more + 1 => ⟨text, some ⟨due.value * 64 + (b.toNat - 0x80), more, 0x80, 0xBF⟩⟩ :=
  if_pos h

theorem push_more {b : UInt8} {count : Nat} (h : due.low ≤ b ∧ b ≤ due.high)
    (many : due.count = count + 2) (text : String) :
    push ⟨text, some due⟩ b =
      ⟨text, some ⟨due.value * 64 + (b.toNat - 0x80), count + 1, 0x80, 0xBF⟩⟩ := by
  rw [push_within h, many]
  rfl

theorem Completes.decodeFrom_eq (h : Completes c due bs) (text : String) :
    decodeFrom ⟨text, some due⟩ bs = ⟨text.push c, none⟩ := by
  induction h with
  | last within tail count value =>
    rw [decodeFrom, List.foldl_cons, List.foldl_nil, push_within within, count, value,
      Char.ofNat_toNat]
    rfl
  | more within tail many next ih =>
    show decodeFrom (push _ _) _ = _
    rw [push_more within many]
    exact ih

/-- A character that has begun goes on as long as not all of its bytes have come. -/
theorem Completes.decodeFrom_take (h : Completes c due bs) {n : Nat} (hn : n < bs.length)
    (text : String) : ∃ due', decodeFrom ⟨text, some due⟩ (bs.take n) = ⟨text, some due'⟩ := by
  induction h generalizing n with
  | @last due =>
    rw [List.length_singleton, Nat.lt_one_iff] at hn
    subst hn
    exact ⟨due, rfl⟩
  | @more due b bs count within tail many next ih =>
    cases n with
    | zero => exact ⟨due, rfl⟩
    | succ n =>
      obtain ⟨due', hdue⟩ := ih (Nat.lt_of_succ_lt_succ hn)
      refine ⟨due', ?_⟩
      show decodeFrom (push _ _) _ = _
      rw [push_more within many]
      exact hdue

theorem Completes.isTail (h : Completes c due bs) : ∀ b ∈ bs, IsTail b := by
  induction h with
  | last within tail count value => simpa using tail
  | more within tail many next ih => simpa using ⟨tail, ih⟩

end

/-- The bytes of a character give it back. -/
theorem decodeFrom_char (text : String) (c : Char) :
    decodeFrom ⟨text, none⟩ (String.utf8EncodeChar c) = ⟨text.push c, none⟩ := by
  generalize hbs : String.utf8EncodeChar c = bs
  have h := hbs ▸ spelled c
  cases h with
  | single only =>
    show begin text _ = _
    rw [begin, only]
  | several first rest =>
    show decodeFrom (begin text _) _ = _
    rw [begin, first]
    exact rest.decodeFrom_eq text

/-- Some of the bytes of a character, but not all, give one replacement where the input ends. -/
theorem finish_begun (text : String) (c : Char) {n : Nat} (hpos : 0 < n) (hn : n < c.utf8Size) :
    (decodeFrom ⟨text, none⟩ ((String.utf8EncodeChar c).take n)).finish =
      text.push replacement := by
  have hlength := String.length_utf8EncodeChar c
  generalize hbs : String.utf8EncodeChar c = bs at hlength
  have h := hbs ▸ spelled c
  obtain ⟨n, rfl⟩ := Nat.exists_eq_succ_of_ne_zero (Nat.ne_of_gt hpos)
  cases h with
  | single only =>
    rw [List.length_singleton] at hlength
    omega
  | @several b due bs first rest =>
    obtain ⟨due', hdue⟩ := rest.decodeFrom_take (n := n) (by simp at hlength; omega) text
    show (decodeFrom (begin text b) (bs.take n)).finish = _
    rw [begin, first, hdue]
    rfl

/-- All bytes of a character but the first are tails. -/
theorem isTail_of_mem_drop {c : Char} {n : Nat} (hpos : 0 < n) {b : UInt8}
    (hb : b ∈ (String.utf8EncodeChar c).drop n) : IsTail b := by
  generalize hbs : String.utf8EncodeChar c = bs at hb
  have h := hbs ▸ spelled c
  obtain ⟨n, rfl⟩ := Nat.exists_eq_succ_of_ne_zero (Nat.ne_of_gt hpos)
  cases h with
  | single only => simp at hb
  | several first rest => exact rest.isTail b (List.mem_of_mem_drop hb)

theorem begin_tail {b : UInt8} (h : IsTail b) (text : String) :
    begin text b = ⟨text.push replacement, none⟩ := by
  rw [begin, opening_tail h]

/-- Tails where no character has begun are replaced one by one. -/
theorem decodeFrom_tails {bs : Bytes} (h : ∀ b ∈ bs, IsTail b) (text : String) :
    decodeFrom ⟨text, none⟩ bs =
      ⟨text ++ String.ofList (List.replicate bs.length replacement), none⟩ := by
  induction bs generalizing text with
  | nil => simp [decodeFrom]
  | cons b bs ih =>
    obtain ⟨hb, hbs⟩ := List.forall_mem_cons.mp h
    show decodeFrom (begin text b) bs = _
    rw [begin_tail hb, ih hbs]
    congr 1
    apply String.ext
    simp [List.replicate_succ]

/-! ## Texts and their bytes -/

theorem decodeFrom_chars (text : String) (cs : List Char) :
    decodeFrom ⟨text, none⟩ (cs.flatMap String.utf8EncodeChar) =
      ⟨text ++ String.ofList cs, none⟩ := by
  induction cs generalizing text with
  | nil => simp [decodeFrom]
  | cons c cs ih =>
    rw [List.flatMap_cons, decodeFrom_append, decodeFrom_char, ih]
    congr 1
    apply String.ext
    simp

/-- A text is got back from its bytes. -/
@[simp] theorem decode_ofString (s : String) : decode (Bytes.ofString s) = s := by
  have h := decodeFrom_chars "" s.toList
  rw [decode, Bytes.ofString, Decoder.start, h]
  simp [finish]

@[simp] theorem decode?_ofString (s : String) : decode? (Bytes.ofString s) = some s := by
  simp [decode?]

/-- An ASCII byte is in the bytes of its own character and of no other. -/
theorem mem_utf8EncodeChar {b : UInt8} (hb : b < 0x80) {c : Char} :
    b ∈ String.utf8EncodeChar c ↔ c = Char.ofNat b.toNat := by
  have hascii : opening b = .char (Char.ofNat b.toNat) := by rw [opening, if_pos hb]
  constructor
  · intro hmem
    generalize hbs : String.utf8EncodeChar c = bs at hmem
    have h := hbs ▸ spelled c
    cases h with
    | single only =>
      rw [← List.mem_singleton.mp hmem, hascii] at only
      exact (Opening.char.inj only).symm
    | several first rest =>
      rcases List.mem_cons.mp hmem with rfl | htail
      · rw [hascii] at first
        cases first
      · exact absurd hb (UInt8.not_lt.mpr (rest.isTail b htail).1)
  · rintro rfl
    have hlt : b.toNat < 0x80 := UInt8.lt_iff_toNat_lt.mp hb
    have hvalid : b.toNat.isValidChar := .inl (by omega)
    have hnat : (Char.ofNat b.toNat).val.toNat = b.toNat := by
      rw [Char.ofNat, dif_pos hvalid]
      rfl
    have hbytes : String.utf8EncodeChar (Char.ofNat b.toNat) = [UInt8.ofNat b.toNat] := by
      simp only [String.utf8EncodeChar, hnat]
      exact if_pos (by omega)
    rw [hbytes, UInt8.ofNat_toNat]
    exact List.mem_singleton_self b

theorem mem_ofString {b : UInt8} (hb : b < 0x80) {s : String} :
    b ∈ Bytes.ofString s ↔ Char.ofNat b.toNat ∈ s.toList := by
  rw [Bytes.ofString, List.mem_flatMap]
  simp [mem_utf8EncodeChar hb]

end ToolRunner.Utf8
