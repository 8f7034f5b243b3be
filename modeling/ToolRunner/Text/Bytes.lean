/-!
# Byte strings

Arguments, environment values, paths and output are bytes, of which text is the part that is
valid UTF-8. A byte string is a list, so that the laws of lists are its laws.
-/

namespace ToolRunner

/-- A string of bytes, in no particular encoding. -/
abbrev Bytes := List UInt8

namespace Bytes

def ofString (s : String) : Bytes :=
  s.toList.flatMap String.utf8EncodeChar

def newline : UInt8 := 10

/-- The byte of an ASCII character; of any other the low byte of its number. -/
def ofAscii (c : Char) : UInt8 :=
  c.toNat.toUInt8

/-- Splits at every byte that is `sep`; there is always one part more than there are separators. -/
def splitOn (sep : UInt8) : Bytes → List Bytes
  | [] => [[]]
  | b :: bs =>
    if b = sep then [] :: splitOn sep bs
    else
      match splitOn sep bs with
      | [] => [[b]]
      | part :: parts => (b :: part) :: parts

/-- Parts written one after another with `sep` between them. -/
def joinWith (sep : Bytes) : List Bytes → Bytes
  | [] => []
  | [part] => part
  | part :: parts => part ++ sep ++ joinWith sep parts

@[simp] theorem ofString_empty : ofString "" = [] := by
  simp [ofString]

theorem ofString_append (s t : String) : ofString (s ++ t) = ofString s ++ ofString t := by
  simp [ofString]

/-- A text has no other bytes than its own. -/
theorem ofString_inj {s t : String} : ofString s = ofString t ↔ s = t := by
  refine ⟨fun h => ?_, congrArg ofString⟩
  have hbytes : s.toList.utf8Encode = t.toList.utf8Encode := congrArg List.toByteArray h
  rwa [String.utf8Encode_toList, String.utf8Encode_toList, String.toByteArray_inj] at hbytes

theorem splitOn_ne_nil (sep : UInt8) (bs : Bytes) : splitOn sep bs ≠ [] := by
  cases bs with
  | nil => simp [splitOn]
  | cons b bs =>
    simp only [splitOn]
    split
    · simp
    · split <;> simp

/-- Splitting loses nothing. -/
theorem joinWith_splitOn (sep : UInt8) (bs : Bytes) : joinWith [sep] (splitOn sep bs) = bs := by
  induction bs with
  | nil => simp [splitOn, joinWith]
  | cons b bs ih =>
    simp only [splitOn]
    split
    · rename_i hb
      subst hb
      cases h : splitOn b bs with
      | nil => exact absurd h (splitOn_ne_nil b bs)
      | cons part parts => rw [h] at ih; simp [joinWith, ih]
    · cases h : splitOn sep bs with
      | nil => exact absurd h (splitOn_ne_nil sep bs)
      | cons part parts =>
        rw [h] at ih
        cases parts with
        | nil => simpa [joinWith] using ih
        | cons q qs => simpa [joinWith] using ih

/-- A separator separates what is split before it from what is split after it. -/
theorem splitOn_append_sep (sep : UInt8) (as bs : Bytes) :
    splitOn sep (as ++ sep :: bs) = splitOn sep as ++ splitOn sep bs := by
  induction as with
  | nil => simp [splitOn]
  | cons b as ih =>
    simp only [List.cons_append, splitOn, ih]
    split
    · rfl
    · cases h : splitOn sep as with
      | nil => exact absurd h (splitOn_ne_nil sep as)
      | cons part parts => rfl

theorem splitOn_of_not_mem {sep : UInt8} {run : Bytes} (h : sep ∉ run) :
    splitOn sep run = [run] := by
  induction run with
  | nil => rfl
  | cons b run ih =>
    simp only [List.mem_cons, not_or] at h
    rw [splitOn, if_neg (Ne.symm h.1), ih h.2]

theorem splitOn_line {sep : UInt8} {run : Bytes} (h : sep ∉ run) (rest : Bytes) :
    splitOn sep (run ++ sep :: rest) = run :: splitOn sep rest := by
  rw [splitOn_append_sep, splitOn_of_not_mem h, List.singleton_append]

theorem not_mem_of_mem_splitOn {sep : UInt8} {part : Bytes} :
    ∀ {bs : Bytes}, part ∈ splitOn sep bs → sep ∉ part := by
  intro bs
  induction bs generalizing part with
  | nil =>
    intro h
    rw [List.mem_singleton.mp h]
    simp
  | cons b bs ih =>
    simp only [splitOn]
    split
    · intro h
      rcases List.mem_cons.mp h with rfl | h
      · simp
      · exact ih h
    · rename_i hb
      cases hs : splitOn sep bs with
      | nil => exact absurd hs (splitOn_ne_nil sep bs)
      | cons first rest =>
        intro h
        rcases List.mem_cons.mp h with rfl | h
        · have hfirst : sep ∉ first := ih (hs ▸ List.mem_cons_self)
          simp [hfirst, Ne.symm hb]
        · exact ih (hs ▸ List.mem_cons_of_mem _ h)

theorem joinWith_cons (sep part : Bytes) {parts : List Bytes} (h : parts ≠ []) :
    joinWith sep (part :: parts) = part ++ sep ++ joinWith sep parts := by
  cases parts with
  | nil => exact absurd rfl h
  | cons next parts => rfl

/-- Parts that hold no separator are found again. -/
theorem splitOn_joinWith {sep : UInt8} {parts : List Bytes} (hne : parts ≠ [])
    (h : ∀ part ∈ parts, sep ∉ part) : splitOn sep (joinWith [sep] parts) = parts := by
  induction parts with
  | nil => exact absurd rfl hne
  | cons part parts ih =>
    obtain ⟨hpart, hparts⟩ := List.forall_mem_cons.mp h
    cases parts with
    | nil => exact splitOn_of_not_mem hpart
    | cons next parts =>
      rw [joinWith_cons _ _ (by simp), List.append_assoc, List.singleton_append,
        splitOn_line hpart, ih (by simp) hparts]

/-- Fewer parts make a shorter byte string. -/
theorem length_joinWith_le {sep : UInt8} {parts more : List Bytes} (h : parts.Sublist more) :
    (joinWith [sep] parts).length ≤ (joinWith [sep] more).length := by
  induction h with
  | slnil => exact Nat.le_refl _
  | @cons parts more part _ ih =>
    cases more with
    | nil => simp_all [joinWith]
    | cons next more =>
      rw [joinWith_cons [sep] part (by simp)]
      simp only [List.length_append]
      omega
  | @cons_cons parts more part hsub ih =>
    cases more with
    | nil => simp [List.sublist_nil.mp hsub]
    | cons next more =>
      rw [joinWith_cons [sep] part (List.cons_ne_nil next more)]
      cases parts with
      | nil =>
        simp only [joinWith, List.length_append]
        omega
      | cons first parts =>
        rw [joinWith_cons [sep] part (by simp)]
        simp only [List.length_append]
        omega

theorem mem_joinWith {sep b : UInt8} {parts : List Bytes} :
    b ∈ joinWith [sep] parts ↔ (∃ part ∈ parts, b ∈ part) ∨ (b = sep ∧ 1 < parts.length) := by
  induction parts with
  | nil => simp [joinWith]
  | cons part parts ih =>
    cases parts with
    | nil => simp [joinWith]
    | cons next parts =>
      rw [joinWith_cons _ _ (by simp), List.mem_append, List.mem_append, ih]
      constructor
      · rintro ((h | h) | ⟨q, hq, h⟩ | h)
        · exact .inl ⟨part, List.mem_cons_self, h⟩
        · exact .inr ⟨List.mem_singleton.mp h, by simp⟩
        · exact .inl ⟨q, List.mem_cons_of_mem _ hq, h⟩
        · exact .inr ⟨h.1, by simp⟩
      · rintro (⟨q, hq, h⟩ | h)
        · rcases List.mem_cons.mp hq with rfl | hq
          · exact .inl (.inl h)
          · exact .inr (.inl ⟨q, hq, h⟩)
        · exact .inl (.inr (List.mem_singleton.mpr h.1))

end Bytes

end ToolRunner
