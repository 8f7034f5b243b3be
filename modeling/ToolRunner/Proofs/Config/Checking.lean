import ToolRunner.Program.Plan
import ToolRunner.Proofs.Text.Encoding

/-!
# What makes settings a config

Settings may be wrong in several places at once. `flaws` lists all of them, the root before the
variables, the variables in the order of their names, and for one variable its name before its
value; the check reports the first of the list (`check_eq`), so that it fails exactly where there is
one. A config therefore has variables that any program can be given: as bytes, no name is empty or
holds an equals sign, and there is no NUL among them.
-/

namespace ToolRunner

/-- What can be wrong with settings. -/
inductive Flaw where
  | emptyRoot
  | emptyName
  | badName (name : String)
  | badValue (name : String)
deriving DecidableEq, Repr

/-- How a flaw is reported. -/
def Flaw.message : Flaw → String
  | emptyRoot => "[sdk].root must not be empty"
  | emptyName => "[env] contains an empty variable name"
  | badName name =>
    "[env] variable name '" ++ Text.escape name ++ "' must not contain '=' or NUL"
  | badValue name => "[env] value of '" ++ name ++ "' must not contain NUL"

namespace Settings

/-- A variable that a program can be given. -/
structure Fit (name value : String) : Prop where
  named : name ≠ ""
  whole : '=' ∉ name.toList
  name : '\x00' ∉ name.toList
  value : '\x00' ∉ value.toList

/-- All that is wrong with a variable. -/
def variableFlaws (name value : String) : List Flaw :=
  (if name = "" then [.emptyName] else []) ++
    (if '=' ∈ name.toList ∨ '\x00' ∈ name.toList then [.badName name] else []) ++
    if '\x00' ∈ value.toList then [.badValue name] else []

/-- All that is wrong with settings. -/
def flaws (s : Settings) : List Flaw :=
  (if s.root = some [] then [.emptyRoot] else []) ++
    s.environment.toList.flatMap fun v => variableFlaws v.1 v.2

/-- The flaw that comes before all others: an empty root, or else the first flaw of the variable
with the least name that has any. -/
inductive FirstFlaw (s : Settings) : Flaw → Prop
  | root (empty : s.root = some []) : FirstFlaw s .emptyRoot
  | variable {name value : String} {f : Flaw} (root : s.root ≠ some [])
      (found : s.environment.find? name = some value)
      (first : (variableFlaws name value).head? = some f)
      (before : ∀ name' value', s.environment.find? name' = some value' → name' < name →
        Fit name' value') : FirstFlaw s f

variable {s : Settings} {name value : String} {f : Flaw}

theorem variableFlaws_eq_nil_iff : variableFlaws name value = [] ↔ Fit name value := by
  constructor
  · intro h
    simp only [variableFlaws, List.append_eq_nil_iff, ite_eq_right_iff, imp_false, not_or,
      List.cons_ne_nil] at h
    obtain ⟨⟨hnamed, hwhole, hname⟩, hvalue⟩ := h
    exact ⟨hnamed, hwhole, hname, hvalue⟩
  · rintro ⟨hnamed, hwhole, hname, hvalue⟩
    simp [variableFlaws, hnamed, hwhole, hname, hvalue]

/-! ## The check reports the first flaw -/

/-- The report of the first of some flaws. -/
def report : List Flaw → Result Unit
  | [] => .ok ()
  | f :: _ => .error (.config f.message)

theorem report_append (fs gs : List Flaw) :
    report (fs ++ gs) = report fs >>= fun _ => report gs := by
  cases fs <;> rfl

theorem checkVariable_eq (name value : String) :
    checkVariable name value = report (variableFlaws name value) := by
  unfold checkVariable variableFlaws
  by_cases hnamed : name = ""
  · rw [if_pos hnamed, if_pos hnamed]
    rfl
  rw [if_neg hnamed, if_neg hnamed]
  by_cases hname : '=' ∈ name.toList ∨ '\x00' ∈ name.toList
  · rw [if_pos hname, if_pos hname]
    rfl
  rw [if_neg hname, if_neg hname]
  by_cases hvalue : '\x00' ∈ value.toList
  · rw [if_pos hvalue, if_pos hvalue]
    rfl
  · rw [if_neg hvalue, if_neg hvalue]
    rfl

theorem checkVariables_eq (vars : List (String × String)) :
    checkVariables vars = report (vars.flatMap fun v => variableFlaws v.1 v.2) := by
  induction vars with
  | nil => rfl
  | cons v vars ih =>
    rw [List.flatMap_cons, report_append, ← checkVariable_eq, ← ih]
    rfl

theorem check_eq (s : Settings) : s.check = report s.flaws := by
  rw [flaws, report_append, ← checkVariables_eq, check, checkRoot]
  split <;> rfl

theorem validated_eq_ok_iff {c : Config} : s.validated = .ok c ↔ c.settings = s := by
  unfold validated
  split
  · rename_i hcheck
    constructor
    · intro h
      cases h
      rfl
    · rintro rfl
      rfl
  · rename_i e hcheck
    constructor
    · nofun
    · rintro rfl
      rw [c.valid] at hcheck
      cases hcheck

theorem validated_eq_error_iff {e : RunError} : s.validated = .error e ↔ s.check = .error e := by
  unfold validated
  split
  · rename_i hcheck
    constructor
    · nofun
    · intro h
      rw [hcheck] at h
      cases h
  · rename_i found hcheck
    constructor
    · intro h
      cases h
      exact hcheck
    · intro h
      rw [hcheck] at h
      cases h
      rfl

theorem report_eq_ok_iff {fs : List Flaw} : report fs = .ok () ↔ fs = [] := by
  cases fs <;> simp [report]

theorem report_eq_error_iff {fs : List Flaw} {e : RunError} :
    report fs = .error e ↔ ∃ f, fs.head? = some f ∧ e = .config f.message := by
  cases fs <;> simp [report, eq_comm]

/-! ## Which flaw is the first -/

theorem compare_eq_lt {a b : String} : compare a b = .lt ↔ a < b := compareOfLessAndEq_eq_lt

/-- What is found before an entry in the order of the names comes before it in the list. -/
theorem mem_before_iff {before after : List (String × String)}
    (list : s.environment.toList = before ++ (name, value) :: after) {v : String × String} :
    v ∈ before ↔ s.environment.find? v.1 = some v.2 ∧ v.1 < name := by
  have hsorted := s.environment.sorted
  rw [list, List.pairwise_append, List.pairwise_cons] at hsorted
  obtain ⟨-, ⟨hafter, -⟩, hbefore⟩ := hsorted
  rw [SortedMap.find?_eq_some_iff, list, ← compare_eq_lt]
  constructor
  · intro hv
    exact ⟨List.mem_append_left _ hv, hbefore v hv _ List.mem_cons_self⟩
  · rintro ⟨hmem, hlt⟩
    rcases List.mem_append.mp hmem with hv | hv
    · exact hv
    · rcases List.mem_cons.mp hv with heq | hv
      · rw [show v.1 = name from congrArg Prod.fst heq, Std.ReflOrd.compare_self] at hlt
        cases hlt
      · have hgt := hafter v hv
        rw [Std.OrientedCmp.gt_of_lt hlt] at hgt
        cases hgt

theorem firstFlaw_iff : s.FirstFlaw f ↔ s.flaws.head? = some f := by
  by_cases hroot : s.root = some []
  · have hhead : s.flaws.head? = some .emptyRoot := by
      rw [flaws, if_pos hroot]
      rfl
    rw [hhead, Option.some.injEq]
    constructor
    · rintro (_ | ⟨hnot, -, -, -⟩)
      · rfl
      · exact absurd hroot hnot
    · rintro rfl
      exact .root hroot
  · rw [flaws, if_neg hroot, List.nil_append, List.head?_flatMap, List.findSome?_eq_some_iff]
    constructor
    · rintro (hempty | ⟨-, found, first, before⟩)
      · exact absurd hempty hroot
      · rename_i name value
        obtain ⟨earlier, later, list⟩ :=
          List.append_of_mem (SortedMap.find?_eq_some_iff.mp found)
        refine ⟨earlier, (name, value), later, list, first, fun v hv => ?_⟩
        obtain ⟨hfound, hlt⟩ := (mem_before_iff list).mp hv
        rw [variableFlaws_eq_nil_iff.mpr (before _ _ hfound hlt)]
        rfl
    · rintro ⟨earlier, ⟨name, value⟩, later, list, first, hearlier⟩
      have hmem : (name, value) ∈ s.environment.toList := by
        rw [list]
        simp
      refine .variable hroot (SortedMap.find?_eq_some_iff.mpr hmem) first
        fun name' value' hfound hlt => ?_
      have hnone := hearlier (name', value') ((mem_before_iff list).mpr ⟨hfound, hlt⟩)
      exact variableFlaws_eq_nil_iff.mp (List.head?_eq_none_iff.mp hnone)

theorem flaws_eq_nil_iff : s.flaws = [] ↔
    s.root ≠ some [] ∧ ∀ name value, s.environment.find? name = some value → Fit name value := by
  simp only [flaws, List.append_eq_nil_iff, ite_eq_right_iff, List.cons_ne_nil, imp_false,
    List.flatMap_eq_nil_iff, variableFlaws_eq_nil_iff, SortedMap.find?_eq_some_iff, Prod.forall]

end Settings

/-! ## What programs are given -/

namespace Command

/-- A variable that a program can be given, as bytes. -/
structure Givable (name value : Bytes) : Prop where
  named : name ≠ []
  whole : Bytes.ofAscii '=' ∉ name
  name : 0 ∉ name
  value : 0 ∉ value

/-- Variables without a NUL bring none into a command. -/
theorem holdsNul_setAll {c : Command} {vars : List (Bytes × Bytes)} (hc : c.holdsNul = false)
    (hvars : ∀ v ∈ vars, 0 ∉ v.1 ∧ 0 ∉ v.2) : (c.setAll vars).holdsNul = false := by
  simp only [holdsNul, Bool.or_eq_false_iff, List.any_eq_false] at hc ⊢
  obtain ⟨hrest, hown⟩ := hc
  refine ⟨hrest, fun v hv => ?_⟩
  rcases SortedMap.mem_insertAll hv with h | h
  · exact hown v h
  · obtain ⟨hname, hvalue⟩ := hvars v h
    simp [hname, hvalue]

end Command

namespace Settings

variable {s : Settings} {name value : String}

theorem Fit.givable (h : Fit name value) :
    Command.Givable (Bytes.ofString name) (Bytes.ofString value) where
  named := by
    rw [ne_eq, ← Bytes.ofString_empty, Bytes.ofString_inj]
    exact h.named
  whole := mt (Utf8.mem_ofString (by decide)).mp h.whole
  name := mt (Utf8.mem_ofString (by decide)).mp h.name
  value := mt (Utf8.mem_ofString (by decide)).mp h.value

theorem fit_of_config (c : Config) (found : c.settings.environment.find? name = some value) :
    Fit name value :=
  (flaws_eq_nil_iff.mp (report_eq_ok_iff.mp ((check_eq _).symm.trans c.valid))).2 name value found

theorem givable_of_config (c : Config) :
    ∀ v ∈ c.settings.overrides, Command.Givable v.1 v.2 := by
  intro v hv
  obtain ⟨⟨name, value⟩, hmem, rfl⟩ := List.mem_map.mp hv
  exact (fit_of_config c (SortedMap.find?_eq_some_iff.mpr hmem)).givable

/-- Settings are a config exactly if they have a root that is not empty, or none, and variables that
programs can be given; nothing of them changes then. Else the first flaw is reported, though there
may be others. What a file is loaded as therefore has variables that any command can be given. -/
theorem validated_iff (s : Settings) :
    ((∃ c, s.validated = .ok c) ↔
        s.root ≠ some [] ∧
          ∀ name value, s.environment.find? name = some value →
            name ≠ "" ∧ '=' ∉ name.toList ∧ '\x00' ∉ name.toList ∧ '\x00' ∉ value.toList) ∧
      (∀ c, s.validated = .ok c → c.settings = s) ∧
      (∀ e, s.validated = .error e ↔ ∃ f, s.FirstFlaw f ∧ e = .config f.message) ∧
      ∀ h p c, Config.load h p = .ok c ∨ Config.loadOrStandard h p = .ok c →
        (∀ v ∈ c.settings.overrides, Command.Givable v.1 v.2) ∧
          ∀ command : Command, command.holdsNul = false →
            (command.setAll c.settings.overrides).holdsNul = false := by
  refine ⟨?_, fun c h => validated_eq_ok_iff.mp h, fun e => ?_, fun h p c _ => ?_⟩
  · have hok : (∃ c, s.validated = .ok c) ↔ s.check = .ok () := by
      constructor
      · rintro ⟨c, hc⟩
        rw [← validated_eq_ok_iff.mp hc]
        exact c.valid
      · exact fun hcheck => ⟨⟨s, hcheck⟩, validated_eq_ok_iff.mpr rfl⟩
    rw [hok, check_eq, report_eq_ok_iff, flaws_eq_nil_iff]
    refine and_congr_right fun _ => forall₂_congr fun name value => imp_congr_right fun _ => ?_
    exact ⟨fun h => ⟨h.named, h.whole, h.name, h.value⟩, fun ⟨h₁, h₂, h₃, h₄⟩ => ⟨h₁, h₂, h₃, h₄⟩⟩
  · rw [validated_eq_error_iff, check_eq, report_eq_error_iff]
    simp only [firstFlaw_iff]
  · have hgivable := givable_of_config c
    exact ⟨hgivable, fun command hcommand =>
      Command.holdsNul_setAll hcommand fun v hv => ⟨(hgivable v hv).name, (hgivable v hv).value⟩⟩

/-- Two variables are bad, and one of them in two ways. -/
def spoiled : Settings where
  environment := .ofList [("C", "c"), ("B=", "\x00"), ("A", "\x00")]

theorem validated_iff_spoiled :
    spoiled.flaws = [.badValue "A", .badName "B=", .badValue "B="] ∧
      spoiled.validated = .error (.config "[env] value of 'A' must not contain NUL") := by
  have hflaws : spoiled.flaws = [.badValue "A", .badName "B=", .badValue "B="] := by
    decide +kernel
  obtain ⟨-, -, herror, -⟩ := validated_iff spoiled
  refine ⟨hflaws, (herror _).mpr ⟨.badValue "A", firstFlaw_iff.mpr ?_, rfl⟩⟩
  rw [hflaws]
  rfl

end Settings

end ToolRunner
