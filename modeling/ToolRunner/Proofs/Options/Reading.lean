import ToolRunner.Options.Parser
import ToolRunner.Proofs.Text.Encoding

/-!
# Reading options and operands

An option that is given whole, as `--name` or as `--name=value`, is read at once and leaves nothing
waiting: its value is all that comes after the first equals sign, whatever is in it
(`step_attached`, `step_bare`). After a lone `--` every argument is an operand (`scan_operands`),
however much it looks like an option.
-/

namespace ToolRunner.Options

/-! ## How arguments look -/

def bare (name : String) : Bytes := Look.hyphen :: Look.hyphen :: Bytes.ofString name

def attached (name : String) (value : Bytes) : Bytes := bare name ++ Look.equals :: value

def dashes : Bytes := [Look.hyphen, Look.hyphen]

namespace Look

variable {name : String}

theorem of_long {rest : Bytes} (h : rest ≠ []) :
    of (hyphen :: hyphen :: rest) =
      match Bytes.splitOn equals rest with
      | [] => .dashes
      | [name] => long (Utf8.decode? name) none
      | name :: parts => long (Utf8.decode? name) (some (Bytes.joinWith [equals] parts)) := by
  cases rest with
  | nil => exact absurd rfl h
  | cons b rest => rfl

theorem equals_not_mem (h : '=' ∉ name.toList) : equals ∉ Bytes.ofString name :=
  mt (Utf8.mem_ofString (by decide)).mp h

theorem of_bare (hne : name ≠ "") (h : '=' ∉ name.toList) : of (bare name) = .long name none := by
  have hbytes : Bytes.ofString name ≠ [] := by
    rwa [ne_eq, ← Bytes.ofString_empty, Bytes.ofString_inj]
  rw [bare, of_long hbytes, Bytes.splitOn_of_not_mem (equals_not_mem h)]
  simp

theorem of_attached (h : '=' ∉ name.toList) (value : Bytes) :
    of (attached name value) = .long name (some value) := by
  rw [attached, bare, List.cons_append, List.cons_append, of_long (by simp),
    Bytes.splitOn_line (equals_not_mem h)]
  have hjoin := Bytes.joinWith_splitOn equals value
  cases hs : Bytes.splitOn equals value with
  | nil => exact absurd hs (Bytes.splitOn_ne_nil equals value)
  | cons part parts =>
    rw [hs] at hjoin
    simp [hjoin]

end Look

/-! ## Options -/

/-- What was read when nothing waits. -/
def Progress.ofFound (found : Found) : Progress := { found }

/-- What was read when only operands follow. -/
def Progress.ofTrailing (found : Found) : Progress := { found, trailing := true }

section

variable {g : Grammar} {f : Flag} {form : Form}

theorem commandName?_eq_none (hg : g.commands = []) (arg : Bytes) : commandName? g arg = none := by
  simp [commandName?, hg]

theorem step_ofFound (hg : g.commands = []) (found : Found) (arg : Bytes) :
    step g (.ofFound found) arg = optionOrValue g (.ofFound found) arg := by
  simp [step, Progress.ofFound, commandName?_eq_none hg]

theorem settle_ofFound (found : Found) :
    (Progress.ofFound found).settle = .ok (.ofFound found) := rfl

/-- A switch is read at once, and may not be given again. -/
theorem step_bare (hg : g.commands = []) (hf : g.flag? f.name = some f) (hne : f.name ≠ "")
    (hname : '=' ∉ f.name.toList) (hswitch : f.arity = .switch) (found : Found) :
    step g (.ofFound found) (bare f.name) =
      if found.has f.name then .error .conflict
      else .ok (.next (.ofFound (found ++ [(f.name, none)]))) := by
  have hform : (Target.flag f).form? = none := by simp [Target.form?, hswitch]
  have htake : (Progress.ofFound found).take (.flag f) [] =
      if found.has f.name then .error .conflict
      else .ok (.ofFound (found ++ [(f.name, none)])) := by
    rw [Progress.take, hform]
    rfl
  have hopen : (Progress.ofFound found).openFlag f =
      ((Progress.ofFound found).take (.flag f) []).map ({ · with openTarget := none }) := by
    rw [Progress.openFlag, settle_ofFound, hswitch]
    rfl
  rw [step_ofFound hg, optionOrValue, if_neg (by simp [Progress.ofFound]), Look.of_bare hne hname]
  simp only [long, hf, hopen, htake]
  cases found.has f.name <;> rfl

/-- An option with its value is read at once; some may not be given again. -/
theorem step_attached (hg : g.commands = []) (hf : g.flag? f.name = some f)
    (hname : '=' ∉ f.name.toList) (hform : (Target.flag f).form? = some form) (found : Found)
    (value : Bytes) :
    step g (.ofFound found) (attached f.name value) =
      if (Target.flag f).isUnique && found.has f.name then .error .conflict
      else (form.read value).map fun v => .next (.ofFound (found ++ [(f.name, some v)])) := by
  have htake : (Progress.ofFound found).take (.flag f) [value] =
      if (Target.flag f).isUnique && found.has f.name then .error .conflict
      else (form.read value).map fun v => .ofFound (found ++ [(f.name, some v)]) := by
    rw [Progress.take, hform]
    show (if (Target.flag f).isUnique && found.has f.name then _ else _) = _
    congr 1
    rw [List.mapM_cons, List.mapM_nil]
    cases form.read value <;> rfl
  have hclosed : (Progress.ofFound found).closedFlag f value =
      ((Progress.ofFound found).take (.flag f) [value]).map ({ · with openTarget := none }) := by
    unfold Progress.closedFlag
    split
    · rename_i hswitch
      simp [Target.form?, hswitch] at hform
    · rfl
  rw [step_ofFound hg, optionOrValue, if_neg (by simp [Progress.ofFound]), Look.of_attached hname]
  simp only [long, hf, hclosed, htake]
  cases (Target.flag f).isUnique && found.has f.name
  · cases form.read value <;> rfl
  · rfl

/-- After a lone `--` only operands follow. -/
theorem step_dashes (hg : g.commands = []) (found : Found) :
    step g (.ofFound found) dashes = .ok (.next (.ofTrailing found)) := by
  rw [step_ofFound hg]
  rfl

end

/-! ## Operands -/

section

variable {g : Grammar} {o : Operands}

/-- Operands that have been given in a row, and wait to be read. -/
def Progress.ofOperands (found : Found) (o : Operands) (values : List Bytes) : Progress where
  found := found
  pending := some ⟨.operands o, values.reverse⟩
  openTarget := some (.operands o)
  trailing := true

theorem step_first (ho : g.operandsAt true = some o) (found : Found) (arg : Bytes) :
    step g (.ofTrailing found) arg = .ok (.next (.ofOperands found o [arg])) := by
  show operand g _ arg = _
  rw [operand, show (Progress.ofTrailing found).trailing = true from rfl, ho]
  rfl

theorem step_further (ho : g.operandsAt true = some o) (found : Found) (values : List Bytes)
    (arg : Bytes) : step g (.ofOperands found o values) arg =
      .ok (.next (.ofOperands found o (values ++ [arg]))) := by
  show operand g _ arg = _
  rw [operand, show (Progress.ofOperands found o values).trailing = true from rfl, ho]
  simp [Progress.addOperand, Progress.ofOperands, Except.map]

theorem scan_further (ho : g.operandsAt true = some o) (found : Found) (values args : List Bytes) :
    scan g (.ofOperands found o values) args =
      .ok ⟨.ofOperands found o (values ++ args), none⟩ := by
  induction args generalizing values with
  | nil => rw [List.append_nil]; rfl
  | cons arg args ih =>
    rw [scan, step_further ho]
    show scan g (.ofOperands found o (values ++ [arg])) args = _
    rw [ih, List.append_assoc]
    rfl

/-- Whatever comes after a lone `--` is an operand. -/
theorem scan_operands (ho : g.operandsAt true = some o) (found : Found) (args : List Bytes) :
    scan g (.ofTrailing found) args =
      .ok ⟨if args = [] then .ofTrailing found else .ofOperands found o args, none⟩ := by
  cases args with
  | nil => rfl
  | cons arg args =>
    rw [scan, step_first ho]
    exact scan_further ho found [arg] args

theorem mapM_read {α : Type} {form : Form} {given : α → Bytes} {value : α → Value} {as : List α}
    (h : ∀ a ∈ as, form.read (given a) = .ok (value a)) :
    (as.map given).mapM form.read = .ok (as.map value) := by
  induction as with
  | nil => rfl
  | cons a as ih =>
    obtain ⟨hfirst, hrest⟩ := List.forall_mem_cons.mp h
    rw [List.map_cons, List.mapM_cons, hfirst, ih hrest]
    rfl

/-- Operands in a row are read together. -/
theorem settle_operands {p : Progress} {values : List Bytes} {read : List Value}
    (hp : p.pending = some ⟨.operands o, values.reverse⟩) (hne : values ≠ [])
    (hread : values.mapM o.form.read = .ok read) :
    p.settle =
      .ok { p with found := p.found ++ read.map fun v => (o.name, some v), pending := none } := by
  have hempty : values.isEmpty = false := by simpa using hne
  simp [Progress.settle, hp, Progress.take, Target.form?, hempty, Target.isUnique, hread, bind,
    Except.bind, Target.name]

def Operands.texts (o : Operands) (texts : List String) : Found :=
  texts.map fun s => (o.name, some (.text s))

@[simp] theorem Operands.texts_nil (o : Operands) : o.texts [] = [] := rfl

/-- Operands that are texts are read as they are. -/
theorem settle_texts (ho : o.form = .text) (found : Found) {texts : List String}
    (hne : texts ≠ []) :
    (Progress.ofOperands found o (texts.map Bytes.ofString)).settle =
      .ok ⟨found ++ o.texts texts, none, some (.operands o), true⟩ := by
  have hread : (texts.map Bytes.ofString).mapM o.form.read = .ok (texts.map .text) :=
    mapM_read fun s _ => by simp [ho, Form.read, Form.readText]
  rw [settle_operands rfl (by simpa using hne) hread, List.map_map]
  rfl

theorem finish_of_settle {p q : Progress} (h : p.settle = .ok q) :
    finish g p false = (check g q.found false).map fun _ => q.found := by
  rw [finish, h]
  show (check g q.found false >>= _) = _
  cases check g q.found false <;> rfl

/-- All words after a lone `--` are found as they were given. -/
theorem finish_scan_words (hg : g.commands = []) (ho : g.operandsAt true = some o)
    (htext : o.form = .text) (found : Found) (words : List String) :
    (scan g (.ofFound found) (dashes :: words.map Bytes.ofString) >>= fun parsed =>
        finish g parsed.progress false) =
      (check g (found ++ o.texts words) false).map fun _ => found ++ o.texts words := by
  rw [scan, step_dashes hg]
  show (scan g (.ofTrailing found) _ >>= _) = _
  rw [scan_operands ho]
  by_cases hwords : words = []
  · subst hwords
    rw [List.map_nil, Operands.texts_nil, List.append_nil]
    exact finish_of_settle (p := .ofTrailing found) rfl
  · rw [if_neg (by simpa using hwords)]
    exact finish_of_settle (settle_texts htext found hwords)

end

end ToolRunner.Options
