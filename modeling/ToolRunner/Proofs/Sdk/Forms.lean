import Mathlib.Data.List.Basic
import ToolRunner.Sdk.Flag

/-!
# Reading options back from their tokens

An option can be read from the front of the tokens that it has written, as long as what follows them
does not begin with a flag of its own. So options whose flags are all different are read one after
another in the order in which they were written, each with its own value, even a value that looks
like a flag (`Form.and`).
-/

namespace ToolRunner.Sdk.Flag

/-- The flag that a token gives, alone or with a value joined to it. -/
def flagOf (arg : String) : String := String.ofList (arg.toList.takeWhile (· ≠ '='))

/-- Some tokens begin with one of these flags. -/
def Begins (flags args : List String) : Prop := ∃ arg ∈ args.head?, flagOf arg ∈ flags

/-- How values are written as tokens and read again. -/
structure Form (α : Type) where
  /-- The flags with which the tokens of a value can begin. -/
  flags : List String
  write : α → List String
  /-- What the tokens tell of a value. -/
  told : α → α
  read : List String → α × List String
  write_told : ∀ a, write (told a) = write a
  begins : ∀ a rest, Begins flags (write a ++ rest) ∨ (write a ++ rest).head? = rest.head?
  /-- What is written is read again, and nothing of what follows. -/
  read_write : ∀ a rest, ¬ Begins flags rest → read (write a ++ rest) = (told a, rest)

variable {α β : Type} {flags more args rest : List String} {arg name : String}

theorem not_begins_nil (flags : List String) : ¬ Begins flags [] := by
  rintro ⟨arg, harg, -⟩
  contradiction

theorem begins_cons (h : flagOf arg ∈ flags) (args : List String) : Begins flags (arg :: args) :=
  ⟨arg, rfl, h⟩

theorem begins_append : Begins (flags ++ more) args ↔ Begins flags args ∨ Begins more args := by
  simp only [Begins, List.mem_append, and_or_left, exists_or]

theorem Begins.congr (h : Begins flags args) (same : args.head? = rest.head?) :
    Begins flags rest := by
  obtain ⟨arg, harg, hflag⟩ := h
  exact ⟨arg, same ▸ harg, hflag⟩

/-- Tokens that begin with a flag of one list do not begin with one of another. -/
theorem Begins.not_begins (h : Begins flags args) (disjoint : ∀ flag ∈ flags, flag ∉ more) :
    ¬ Begins more args := by
  obtain ⟨arg, harg, hflag⟩ := h
  rintro ⟨arg', harg', hmore⟩
  obtain rfl : arg = arg' := Option.some.inj (harg.symm.trans harg')
  exact disjoint _ hflag hmore

/-! ## Texts -/

/-- Reads the value of a text, if the tokens begin with its flag. -/
def readText (name : String) : List String → Option String × List String
  | flag :: value :: rest =>
    if flag = token name then (some value, rest) else (none, flag :: value :: rest)
  | args => (none, args)

theorem readText_of_not_begins (h : ¬ Begins [flagOf (token name)] args) :
    readText name args = (none, args) := by
  match args with
  | [] | [_] => rfl
  | flag :: value :: rest =>
    refine if_neg fun heq => h (begins_cons ?_ _)
    rw [heq]
    exact List.mem_singleton.mpr rfl

/-- A text under its flag; an empty one is not told from none. -/
def Form.text (name : String) : Form (Option String) where
  flags := [flagOf (token name)]
  write := Flag.text name
  told value := value.filter (· ≠ "")
  read := readText name
  write_told value := by
    cases value with
    | none => rfl
    | some v => by_cases hv : v = "" <;> simp [Flag.text, Option.filter, hv]
  begins value rest := by
    cases value with
    | none => exact .inr rfl
    | some v =>
      by_cases hv : v = ""
      · exact .inr (by rw [Flag.text, if_pos hv, List.nil_append])
      · rw [Flag.text, if_neg hv]
        exact .inl (begins_cons (List.mem_singleton.mpr rfl) _)
  read_write value rest h := by
    cases value with
    | none => exact readText_of_not_begins h
    | some v =>
      by_cases hv : v = ""
      · subst hv
        exact readText_of_not_begins h
      · simp [Flag.text, readText, Option.filter, hv]

/-- Writes any text under its flag, also an empty one. -/
def writeValue (name : String) : Option String → List String
  | some v => [token name, v]
  | none => []

def Form.value (name : String) : Form (Option String) where
  flags := [flagOf (token name)]
  write := writeValue name
  told := id
  read := readText name
  write_told _ := rfl
  begins value rest := by
    cases value with
    | none => exact .inr rfl
    | some _ => exact .inl (begins_cons (List.mem_singleton.mpr rfl) _)
  read_write value rest h := by
    cases value with
    | none => exact readText_of_not_begins h
    | some _ => exact if_pos rfl

/-- Reads the value that is joined to a flag, if the tokens begin with that flag. -/
def readJoined (name : String) : List String → Option String × List String
  | arg :: rest =>
    match arg.toList.dropPrefix? (token name ++ "=").toList with
    | some v => (some (String.ofList v), rest)
    | none => (none, arg :: rest)
  | [] => (none, [])

theorem flagOf_joined (name v : String) :
    flagOf (token name ++ "=" ++ v) = flagOf (token name) := by
  have hstop (cs rest : List Char) :
      (cs ++ '=' :: rest).takeWhile (· ≠ '=') = cs.takeWhile (· ≠ '=') := by
    induction cs with
    | nil => rfl
    | cons c cs ih => by_cases hc : c = '=' <;> simp_all
  simp only [flagOf, String.toList_append, List.append_assoc]
  rw [show "=".toList ++ v.toList = '=' :: v.toList from rfl, hstop]

theorem readJoined_of_not_begins (h : ¬ Begins [flagOf (token name)] args) :
    readJoined name args = (none, args) := by
  match args with
  | [] => rfl
  | arg :: rest =>
    rw [readJoined]
    split
    · rename_i v hv
      obtain ⟨start, harg, hstart⟩ := List.dropPrefix?_eq_some_iff.mp hv
      have heq : arg = token name ++ "=" ++ String.ofList v := by
        rw [← String.toList_inj, harg, eq_of_beq hstart]
        simp
      refine absurd (begins_cons ?_ _) h
      rw [heq, flagOf_joined]
      exact List.mem_singleton.mpr rfl
    · rfl

theorem readJoined_joined (name v : String) (rest : List String) :
    readJoined name ((token name ++ "=" ++ v) :: rest) = (some v, rest) := by
  have hdrop : (token name ++ "=" ++ v).toList.dropPrefix? (token name ++ "=").toList =
      some v.toList :=
    List.dropPrefix?_eq_some_iff.mpr ⟨_, String.toList_append, beq_self_eq_true _⟩
  simp only [readJoined, hdrop, String.ofList_toList]

/-- A text joined to its flag; an empty one is not told from none. -/
def Form.textJoined (name : String) : Form (Option String) where
  flags := [flagOf (token name)]
  write := Flag.textJoined name
  told value := value.filter (· ≠ "")
  read := readJoined name
  write_told value := by
    cases value with
    | none => rfl
    | some v => by_cases hv : v = "" <;> simp [Flag.textJoined, Option.filter, hv]
  begins value rest := by
    cases value with
    | none => exact .inr rfl
    | some v =>
      by_cases hv : v = ""
      · exact .inr (by rw [Flag.textJoined, if_pos hv, List.nil_append])
      · rw [Flag.textJoined, if_neg hv]
        exact .inl (begins_cons (List.mem_singleton.mpr (flagOf_joined name v)) _)
  read_write value rest h := by
    cases value with
    | none => exact readJoined_of_not_begins h
    | some v =>
      by_cases hv : v = ""
      · subst hv
        exact readJoined_of_not_begins h
      · rw [Flag.textJoined, if_neg hv, List.singleton_append, readJoined_joined]
        simp [Option.filter, hv]

/-- Reads as many texts as there are, each under the flag. -/
def readTexts (name : String) : List String → List String × List String
  | flag :: value :: rest =>
    if flag = token name then (value :: (readTexts name rest).1, (readTexts name rest).2)
    else ([], flag :: value :: rest)
  | args => ([], args)

theorem readTexts_of_not_begins (h : ¬ Begins [flagOf (token name)] args) :
    readTexts name args = ([], args) := by
  match args with
  | [] | [_] => rfl
  | flag :: value :: rest =>
    refine if_neg fun heq => h (begins_cons ?_ _)
    rw [heq]
    exact List.mem_singleton.mpr rfl

/-- Texts under the same flag. Each is read as what follows a flag, so it may look like one. -/
def Form.texts (name : String) : Form (List String) where
  flags := [flagOf (token name)]
  write := Flag.texts name
  told := id
  read := readTexts name
  write_told _ := rfl
  begins values rest := by
    cases values with
    | nil => exact .inr rfl
    | cons _ _ => exact .inl (begins_cons (List.mem_singleton.mpr rfl) _)
  read_write values rest h := by
    induction values with
    | nil => exact readTexts_of_not_begins h
    | cons v values ih =>
      have hcons : Flag.texts name (v :: values) = token name :: v :: Flag.texts name values := rfl
      simp only [hcons, List.cons_append, readTexts, if_pos, ih, id_eq]

/-! ## Choices -/

/-- Reads a switch, which is there or not. -/
def readSwitch (name : String) : List String → Option Bool × List String
  | flag :: rest => if flag = token name then (some true, rest) else (none, flag :: rest)
  | [] => (none, [])

theorem readSwitch_of_not_begins (h : ¬ Begins [flagOf (token name)] args) :
    readSwitch name args = (none, args) := by
  match args with
  | [] => rfl
  | flag :: rest =>
    refine if_neg fun heq => h (begins_cons ?_ _)
    rw [heq]
    exact List.mem_singleton.mpr rfl

/-- A switch; one that is off is not told from none. -/
def Form.switch (name : String) : Form (Option Bool) where
  flags := [flagOf (token name)]
  write := Flag.switch name
  told value := value.filter id
  read := readSwitch name
  write_told value := by
    match value with
    | none | some true | some false => rfl
  begins value rest := by
    match value with
    | none | some false => exact .inr rfl
    | some true => exact .inl (begins_cons (List.mem_singleton.mpr rfl) _)
  read_write value rest h := by
    match value with
    | none | some false => exact readSwitch_of_not_begins h
    | some true => exact if_pos rfl

/-- Reads a choice, if the tokens begin with its flag or the negation of it. -/
def readChoice (name : String) : List String → Option Bool × List String
  | flag :: rest =>
    if flag = token name then (some true, rest)
    else if flag = token ("no-" ++ name) then (some false, rest)
    else (none, flag :: rest)
  | [] => (none, [])

theorem token_no_ne (name : String) : token ("no-" ++ name) ≠ token name := by
  intro h
  have hlength := congrArg String.length h
  simp only [token, String.length_append] at hlength
  exact absurd hlength (by simp)

theorem readChoice_of_not_begins
    (h : ¬ Begins [flagOf (token name), flagOf (token ("no-" ++ name))] args) :
    readChoice name args = (none, args) := by
  match args with
  | [] => rfl
  | flag :: rest =>
    have hflag : flag ≠ token name := by
      rintro rfl
      exact h (begins_cons List.mem_cons_self _)
    have hno : flag ≠ token ("no-" ++ name) := by
      rintro rfl
      exact h (begins_cons (List.mem_cons_of_mem _ List.mem_cons_self) _)
    rw [readChoice, if_neg hflag, if_neg hno]

/-- A choice: its flag for true, and the negation of it for false. -/
def Form.choice (name : String) : Form (Option Bool) where
  flags := [flagOf (token name), flagOf (token ("no-" ++ name))]
  write := Flag.choice name
  told := id
  read := readChoice name
  write_told _ := rfl
  begins value rest := by
    match value with
    | none => exact .inr rfl
    | some true => exact .inl (begins_cons List.mem_cons_self _)
    | some false => exact .inl (begins_cons (List.mem_cons_of_mem _ List.mem_cons_self) _)
  read_write value rest h := by
    match value with
    | none => exact readChoice_of_not_begins h
    | some true => exact if_pos rfl
    | some false => exact (if_neg (token_no_ne name)).trans (if_pos rfl)

/-! ## Values written as others -/

/-- Values that are written as values of another type, from which they are got back. -/
def Form.through (f : Form β) (there : α → β) (back : β → α)
    (told_there : ∀ a, f.told (there a) = there a) (back_there : ∀ a, back (there a) = a) :
    Form α where
  flags := f.flags
  write a := f.write (there a)
  told := id
  read args := (back (f.read args).1, (f.read args).2)
  write_told _ := rfl
  begins a := f.begins (there a)
  read_write a rest h := by simp only [f.read_write _ _ h, told_there, back_there, id_eq]

/-! ## One after another -/

/-- Two values, of which the tokens of the first come first. -/
def Form.and (f : Form α) (g : Form β) (disjoint : ∀ flag ∈ f.flags, flag ∉ g.flags) :
    Form (α × β) where
  flags := f.flags ++ g.flags
  write values := f.write values.1 ++ g.write values.2
  told values := (f.told values.1, g.told values.2)
  read args :=
    let first := f.read args
    let second := g.read first.2
    ((first.1, second.1), second.2)
  write_told values := by rw [f.write_told, g.write_told]
  begins values rest := by
    rw [List.append_assoc, begins_append]
    rcases f.begins values.1 (g.write values.2 ++ rest) with hf | hf
    · exact .inl (.inl hf)
    · rcases g.begins values.2 rest with hg | hg
      · exact .inl (.inr (hg.congr hf.symm))
      · exact .inr (hf.trans hg)
  read_write values rest h := by
    rw [begins_append, not_or] at h
    -- The tokens of the second value, or what follows them, do not begin with a flag of the first.
    have hsecond : ¬ Begins f.flags (g.write values.2 ++ rest) := by
      rcases g.begins values.2 rest with hg | hg
      · exact hg.not_begins fun flag hflag hf => disjoint flag hf hflag
      · exact fun hf => h.1 (hf.congr hg)
    simp only [List.append_assoc, f.read_write _ _ hsecond, g.read_write _ _ h.2]

@[simp] theorem Form.write_and (f : Form α) (g : Form β) (disjoint) (a : α) (b : β) :
    (f.and g disjoint).write (a, b) = f.write a ++ g.write b := rfl

/-- The tokens of two values are the same where they tell the same. -/
theorem Form.write_eq_iff (f : Form α) {a b : α} : f.write a = f.write b ↔ f.told a = f.told b := by
  constructor
  · intro h
    have ha := f.read_write a [] (not_begins_nil _)
    rw [h, f.read_write b [] (not_begins_nil _)] at ha
    exact (congrArg Prod.fst ha).symm
  · intro h
    rw [← f.write_told a, h, f.write_told]

/-! ## Where options begin -/

def looksLikeFlag (arg : String) : Bool := "--".toList.isPrefixOf arg.toList

theorem looksLikeFlag_of_flagOf (h : looksLikeFlag (flagOf arg) = true) :
    looksLikeFlag arg = true := by
  rw [looksLikeFlag, List.isPrefixOf_iff_prefix] at h ⊢
  refine h.trans ?_
  rw [flagOf, String.toList_ofList]
  exact List.takeWhile_prefix _

/-- If its flags look like flags, a value's tokens begin with what looks like a flag. -/
theorem Form.looksLikeFlag_head (f : Form α) (hflags : ∀ flag ∈ f.flags, looksLikeFlag flag)
    (a : α) : ∀ arg ∈ (f.write a).head?, looksLikeFlag arg = true := by
  intro arg harg
  have hbegins := f.begins a []
  rw [List.append_nil] at hbegins
  rcases hbegins with ⟨arg', harg', hflag⟩ | hnone
  · obtain rfl : arg = arg' := Option.some.inj (harg.symm.trans harg')
    exact looksLikeFlag_of_flagOf (hflags _ hflag)
  · rw [hnone] at harg
    contradiction

/-- Options begin where a token looks like a flag: what stands before them can be told apart. -/
theorem Form.span_write (f : Form α) (hflags : ∀ flag ∈ f.flags, looksLikeFlag flag) (a : α)
    {plain : List String} (hplain : ∀ arg ∈ plain, looksLikeFlag arg = false) :
    (plain ++ f.write a).takeWhile (!looksLikeFlag ·) = plain ∧
      (plain ++ f.write a).dropWhile (!looksLikeFlag ·) = f.write a := by
  have hpos : ∀ arg ∈ plain, (!looksLikeFlag arg) = true := fun arg harg => by
    rw [hplain arg harg, Bool.not_false]
  rw [List.takeWhile_append_of_pos hpos, List.dropWhile_append_of_pos hpos]
  have hhead := f.looksLikeFlag_head hflags a
  match hwritten : f.write a with
  | [] => exact ⟨List.append_nil _, rfl⟩
  | arg :: rest =>
    have hflag : looksLikeFlag arg = true := hhead arg (by rw [hwritten]; rfl)
    simp [hflag]

theorem Form.read_write_self (f : Form α) (a : α) : (f.read (f.write a)).1 = f.told a := by
  have hread := f.read_write a [] (not_begins_nil _)
  rw [List.append_nil] at hread
  rw [hread]

end ToolRunner.Sdk.Flag
