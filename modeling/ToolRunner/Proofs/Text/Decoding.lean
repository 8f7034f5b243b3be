import ToolRunner.Text.Utf8

/-!
# Decoding commutes with line feeds

No well-formed character contains the byte of a line feed, so a line feed ends whatever has begun
before it. The text of a byte string is therefore the text before a line feed, the line feed, and
the text after it, also where both sides are malformed. `decode_line` says so; it needs nothing of
the bytes.
-/

namespace ToolRunner.Utf8

open Decoder

/-- What the automaton keeps of a character that has begun: the next byte is no ASCII byte, and the
number that comes out in the end is no ASCII number. -/
structure Due.Sound (d : Due) : Prop where
  low : 0x80 ≤ d.low
  next : 0 < d.value * 64 + (d.low.toNat - 0x80)
  last : d.count ≤ 1 → 0 < d.value

/-- A decoder whose begun character, if there is one, is sound. -/
def Decoder.Sound (d : Decoder) : Prop := ∀ due, d.due = some due → due.Sound

theorem sound_start : Decoder.start.Sound := by
  intro due h
  cases h

theorem sound_due {value count : Nat} {low high : UInt8} (hl : 0x80 ≤ low)
    (hn : 0 < value * 64 + (low.toNat - 0x80)) (hc : count ≤ 1 → 0 < value) :
    (Due.mk value count low high).Sound := ⟨hl, hn, hc⟩

theorem sound_opening {b : UInt8} {d : Due} (h : opening b = .due d) : d.Sound := by
  have hb := b.toNat_lt
  unfold opening at h
  simp only [UInt8.lt_iff_toNat_lt, UInt8.reduceToNat] at h
  split at h
  · contradiction
  split at h
  · contradiction
  split at h
  · injection h with h
    subst h
    exact sound_due (by decide) (by omega) (fun _ => by omega)
  split at h
  · injection h with h
    subst h
    by_cases he : b = 0xE0
    · subst he
      exact sound_due (by decide) (by decide) (fun h => absurd h (by decide))
    · have hne : b.toNat ≠ 0xE0 := fun h => he (UInt8.toNat_inj.mp h)
      rw [if_neg he]
      exact sound_due (by decide) (by omega) (fun h => absurd h (by decide))
  split at h
  · injection h with h
    subst h
    by_cases he : b = 0xF0
    · subst he
      exact sound_due (by decide) (by decide) (fun h => absurd h (by decide))
    · have hne : b.toNat ≠ 0xF0 := fun h => he (UInt8.toNat_inj.mp h)
      rw [if_neg he]
      exact sound_due (by decide) (by omega) (fun h => absurd h (by decide))
  · contradiction

theorem sound_begin (text : String) (b : UInt8) : (begin text b).Sound := by
  intro due h
  unfold begin at h
  split at h
  · contradiction
  · rename_i d hd
    injection h with h
    subst h
    exact sound_opening hd
  · contradiction

theorem sound_push {d : Decoder} (hd : d.Sound) (b : UInt8) : (d.push b).Sound := by
  unfold push
  split
  · exact sound_begin _ _
  · rename_i due hdue
    have hs := hd due hdue
    split
    · rename_i hb
      have hlow := UInt8.le_iff_toNat_le.mp hb.1
      have hnext := hs.next
      have hpos : 0 < due.value * 64 + (b.toNat - 0x80) := by omega
      split
      · intro due h
        simp at h
      · intro due h
        simp at h
      · intro due h
        injection h with h
        subst h
        exact sound_due (by decide) (by omega) (fun _ => hpos)
    · exact sound_begin _ _

theorem sound_decodeFrom {d : Decoder} (hd : d.Sound) (bs : Bytes) : (decodeFrom d bs).Sound := by
  induction bs generalizing d with
  | nil => exact hd
  | cons b bs ih => exact ih (sound_push hd b)

/-! ## A line feed ends what has begun -/

theorem begin_newline (text : String) : begin text Bytes.newline = ⟨text.push '\n', none⟩ := by
  have h : opening Bytes.newline = .char '\n' := by decide
  simp [begin, h]

theorem push_newline {d : Decoder} (hd : d.Sound) :
    d.push Bytes.newline = ⟨d.finish.push '\n', none⟩ := by
  unfold push finish
  split
  · exact begin_newline _
  · rename_i due hdue
    have hlow := (hd due hdue).low
    have hout : ¬ (due.low ≤ Bytes.newline ∧ Bytes.newline ≤ due.high) := by
      intro h
      have := UInt8.le_trans hlow h.1
      exact absurd this (by decide)
    rw [if_neg hout, begin_newline]

/-- A decoder with some text put before its own. -/
def Decoder.after (text : String) (d : Decoder) : Decoder := ⟨text ++ d.text, d.due⟩

theorem append_push (s t : String) (c : Char) : (s ++ t).push c = s ++ t.push c := by
  apply String.ext
  simp [List.append_assoc]

theorem begin_after (s t : String) (b : UInt8) : begin (s ++ t) b = (begin t b).after s := by
  unfold begin Decoder.after
  split <;> simp [append_push]

theorem push_after (s : String) (d : Decoder) (b : UInt8) :
    (d.after s).push b = (d.push b).after s := by
  unfold push
  simp only [Decoder.after]
  split
  · exact begin_after _ _ _
  · split
    · split <;> simp [append_push]
    · rw [append_push]
      exact begin_after _ _ _

theorem decodeFrom_after (s : String) (d : Decoder) (bs : Bytes) :
    decodeFrom (d.after s) bs = (decodeFrom d bs).after s := by
  induction bs generalizing d with
  | nil => rfl
  | cons b bs ih =>
    show decodeFrom ((d.after s).push b) bs = _
    rw [push_after]
    exact ih _

theorem finish_after (s : String) (d : Decoder) : (d.after s).finish = s ++ d.finish := by
  unfold finish
  simp only [Decoder.after]
  split <;> simp [append_push]

/-- The text of a line, its line feed and the rest is the text of the line, a line feed and the
text of the rest, whatever the bytes are. -/
theorem decode_line (line rest : Bytes) :
    decode (line ++ Bytes.newline :: rest) = (decode line).push '\n' ++ decode rest := by
  have hs := sound_decodeFrom sound_start line
  have hstart : (⟨(decode line).push '\n', none⟩ : Decoder) =
      Decoder.start.after ((decode line).push '\n') := by
    simp [Decoder.after, Decoder.start]
  unfold decode
  rw [decodeFrom_append]
  show (decodeFrom ((decodeFrom .start line).push Bytes.newline) rest).finish = _
  rw [push_newline hs]
  show (decodeFrom ⟨(decode line).push '\n', none⟩ rest).finish = _
  rw [hstart, decodeFrom_after, finish_after]
  rfl

/-! ## Where no line feed goes in, none comes out -/

/-- No character is a line feed. -/
def OneLine (s : String) : Prop := '\n' ∉ s.toList

theorem oneLine_push {s : String} {c : Char} (hs : OneLine s) (hc : c ≠ '\n') :
    OneLine (s.push c) := by
  simp only [OneLine, String.toList_push, List.mem_append, List.mem_singleton]
  rintro (h | h)
  · exact hs h
  · exact hc h.symm

theorem ofNat_ne_newline {n : Nat} (h : n ≠ 10) : Char.ofNat n ≠ '\n' := by
  intro he
  unfold Char.ofNat at he
  by_cases hv : n.isValidChar
  · rw [dif_pos hv] at he
    exact h (congrArg Char.toNat he)
  · rw [dif_neg hv] at he
    exact absurd he (by decide)

theorem opening_ne_newline {b : UInt8} {c : Char} (h : opening b = .char c)
    (hb : b ≠ Bytes.newline) : c ≠ '\n' := by
  have hn : b.toNat ≠ 10 := fun h => hb (UInt8.toNat_inj.mp h)
  unfold opening at h
  split at h
  · injection h with h
    subst h
    exact ofNat_ne_newline hn
  all_goals (repeat' split at h) <;> contradiction

theorem oneLine_begin {text : String} (ht : OneLine text) {b : UInt8} (hb : b ≠ Bytes.newline) :
    OneLine (begin text b).text := by
  unfold begin
  split
  · rename_i c hc
    exact oneLine_push ht (opening_ne_newline hc hb)
  · exact ht
  · exact oneLine_push ht (by decide)

/-- A byte that continues a character to its end leaves a number above those of ASCII. -/
theorem oneLine_pushByte {d : Decoder} (hd : d.Sound) (ht : OneLine d.text) {b : UInt8}
    (hb : b ≠ Bytes.newline) : OneLine (d.push b).text := by
  unfold push
  split
  · exact oneLine_begin ht hb
  · rename_i due hdue
    have hs := hd due hdue
    split
    · have hlast (h : due.count ≤ 1) : due.value * 64 + (b.toNat - 0x80) ≠ 10 := by
        have := hs.last h
        omega
      split
      · rename_i hc
        exact oneLine_push ht (ofNat_ne_newline (hlast (by omega)))
      · rename_i hc
        exact oneLine_push ht (ofNat_ne_newline (hlast (by omega)))
      · exact ht
    · exact oneLine_begin (oneLine_push ht (by decide)) hb

theorem oneLine_finish {d : Decoder} (ht : OneLine d.text) : OneLine d.finish := by
  unfold finish
  split
  · exact ht
  · exact oneLine_push ht (by decide)

/-- Bytes without a line feed make a text without one. -/
theorem oneLine_decode {bs : Bytes} (h : Bytes.newline ∉ bs) : OneLine (decode bs) := by
  suffices hall : ∀ d : Decoder, d.Sound → OneLine d.text → OneLine (decodeFrom d bs).text from
    oneLine_finish (hall .start sound_start (by simp [OneLine, Decoder.start]))
  induction bs with
  | nil => exact fun d _ ht => ht
  | cons b bs ih =>
    intro d hd ht
    have hb : b ≠ Bytes.newline := fun he => h (by simp [he])
    exact ih (fun hm => h (by simp [hm])) _ (sound_push hd b) (oneLine_pushByte hd ht hb)

end ToolRunner.Utf8
