import ToolRunner.Config.Load

/-!
# What a missing file is

The file at the default place may be missing, and then the standard settings hold. To load a file
is to look it up, to read it and to understand it, and only the first of these can find that there
is none. But the test by which a file is passed over asks whether the look-up succeeds at all, so
that it takes a path which leads nowhere for any other reason for a missing file as well.
-/

namespace ToolRunner

variable {h : Host} {p : Path} {e : OsError}

/-! ## What an error tells of the path -/

namespace FileTree

variable {t : FileTree} {cwd : Place}

theorem readText_error (hlook : t.look cwd p = .error e) : t.readText cwd p = .error e := by
  simp only [readText, read, hlook, bind, Except.bind]

/-- What a path leads to may be unfit to be read as text, but it is there. -/
theorem readText_ne_notFound {entry : Entry} (hlook : t.look cwd p = .ok entry) :
    t.readText cwd p ≠ .error .notFound := by
  intro hmissing
  simp only [readText, read, hlook, bind, Except.bind] at hmissing
  cases entry with
  | file content executable =>
    simp only at hmissing
    split at hmissing <;> cases hmissing
  | directory => cases hmissing
  | link target => cases hmissing
  | closed isDirectory => cases hmissing

end FileTree

namespace Settings

theorem checkVariable_ne_io {name value : String} : checkVariable name value ≠ .error (.io e) := by
  unfold checkVariable
  split
  · nofun
  · split
    · nofun
    · split <;> nofun

theorem checkVariables_ne_io (vars : List (String × String)) :
    checkVariables vars ≠ .error (.io e) := by
  induction vars with
  | nil => nofun
  | cons v vars ih =>
    intro h
    rcases Result.bind_eq_error.mp h with hv | ⟨_, -, hvars⟩
    · exact checkVariable_ne_io hv
    · exact ih hvars

theorem check_ne_io {s : Settings} : s.check ≠ .error (.io e) := by
  intro h
  rcases Result.bind_eq_error.mp h with hroot | ⟨_, -, hvars⟩
  · unfold checkRoot at hroot
    split at hroot <;> cases hroot
  · exact checkVariables_ne_io _ hvars

theorem validated_ne_io {s : Settings} : s.validated ≠ .error (.io e) := by
  unfold validated
  split
  · nofun
  · rename_i found hfound
    intro hio
    cases hio
    exact check_ne_io hfound

end Settings

namespace Config

theorem Decode.document_ne_io {text : String} : Decode.document text ≠ .error (.io e) := by
  unfold Decode.document
  split
  · nofun
  · split <;> nofun

/-- A path that leads nowhere is reported as it was found. -/
theorem load_of_look_error (hlook : h.files.look h.directory p = .error e) :
    load h p = .error (.io e) := by
  have htext := FileTree.readText_error hlook
  simp only [load, Settings.load, htext, bind, Except.bind]

/-- Nothing but the look-up reports that a file is missing. -/
theorem load_ne_notFound {entry : Entry} (hlook : h.files.look h.directory p = .ok entry) :
    load h p ≠ .error (.io .notFound) := by
  intro hload
  rcases Result.bind_eq_error.mp hload with hsettings | ⟨s, -, hvalid⟩
  · unfold Settings.load at hsettings
    split at hsettings
    · rename_i found htext
      cases hsettings
      exact FileTree.readText_ne_notFound hlook htext
    · exact Decode.document_ne_io hsettings
  · exact Settings.validated_ne_io hvalid

/-! ## The standard in its place -/

/-- The standard where there is no file; everything else is as it was loaded. -/
def orStandard : Result Config → Result Config
  | .error (.io .notFound) => .ok standard
  | loaded => loaded

theorem orStandard_eq_self {r : Result Config} (hr : r ≠ .error (.io .notFound)) :
    orStandard r = r := by
  unfold orStandard
  split
  · exact absurd rfl hr
  · rfl

theorem loadOrStandard_of_look_error (hlook : h.files.look h.directory p = .error e) :
    loadOrStandard h p = .ok standard := by
  simp [loadOrStandard, isMissing, FileTree.exists?, hlook, Except.isOk, Except.toBool]

theorem loadOrStandard_of_look {entry : Entry} (hlook : h.files.look h.directory p = .ok entry) :
    loadOrStandard h p = load h p := by
  simp [loadOrStandard, isMissing, FileTree.exists?, hlook, Except.isOk, Except.toBool]

/-- The standard stands in for a missing file and hides no other failure, if looking up the path
finds it or finds that it is missing. Where the look-up fails otherwise, what the load reports is
hidden; where it does not fail, nothing is. -/
theorem loadOrStandard_eq_iff (h : Host) (p : Path) :
    (loadOrStandard h p = orStandard (load h p) ↔
        ∀ e, h.files.look h.directory p = .error e → e = .notFound) ∧
      (∀ e, h.files.look h.directory p = .error e →
        load h p = .error (.io e) ∧ loadOrStandard h p = .ok standard) ∧
      ∀ entry, h.files.look h.directory p = .ok entry → loadOrStandard h p = load h p := by
  refine ⟨?_, fun e hlook => ⟨load_of_look_error hlook, loadOrStandard_of_look_error hlook⟩,
    fun entry hlook => loadOrStandard_of_look hlook⟩
  cases hlook : h.files.look h.directory p with
  | ok entry =>
    rw [loadOrStandard_of_look hlook, orStandard_eq_self (load_ne_notFound hlook)]
    simp
  | error found =>
    rw [load_of_look_error hlook, loadOrStandard_of_look_error hlook]
    constructor
    · intro hsame e he
      cases he
      apply Classical.byContradiction
      intro hne
      rw [orStandard_eq_self (by simpa using hne)] at hsame
      cases hsame
    · intro hmissing
      rw [hmissing found rfl]
      rfl

/-- A config file that is a link to itself. -/
def selfLinked : Host where
  files := FileTree.empty.put [defaultPath] (.link defaultPath)
  directory := []
  environment := ∅
  accountHome := none

theorem walk_selfLinked (links : Nat) :
    selfLinked.files.walk true links [] [defaultPath] = .error .tooManyLinks := by
  have hname : ¬ Path.isVoid defaultPath ∧ defaultPath ≠ Path.dotdot ∧
      ¬ FileTree.nameLimit < defaultPath.length := by decide
  have hroot : selfLinked.files.entry? [] = some .directory := by decide
  have hlink : selfLinked.files.entry? [defaultPath] = some (.link defaultPath) := by decide
  have hparts : Bytes.splitOn Path.slash defaultPath = [defaultPath] := by decide
  have hrelative : Path.isAbsolute defaultPath = false := by decide
  induction links with
  | zero => simp [FileTree.walk, hroot, hlink, hname]
  | succ links ih =>
    rw [FileTree.walk]
    simp [hroot, hlink, hname, hparts, hrelative, ih]

/-- The links of a config file lead round in a circle, and it is passed over. -/
theorem loadOrStandard_hides_loop :
    load selfLinked defaultPath = .error (.io .tooManyLinks) ∧
      loadOrStandard selfLinked defaultPath = .ok standard ∧
      loadOrStandard selfLinked defaultPath ≠ orStandard (load selfLinked defaultPath) := by
  have hresolve : selfLinked.files.resolve [] defaultPath = .error .tooManyLinks :=
    walk_selfLinked FileTree.linkLimit
  have hlook : selfLinked.files.look selfLinked.directory defaultPath = .error .tooManyLinks := by
    simp only [FileTree.look, show selfLinked.directory = [] from rfl, hresolve, bind, Except.bind]
  have hload := load_of_look_error hlook
  have hstandard := loadOrStandard_of_look_error hlook
  refine ⟨hload, hstandard, ?_⟩
  rw [hload, hstandard]
  nofun

end Config

end ToolRunner
