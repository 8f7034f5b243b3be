import ToolRunner.Machine.Spawn
import ToolRunner.Program
import ToolRunner.Proofs.FileTree.Walking

/-!
# Which script installs

The command of an installation names its script by the root and runs in the root. A command enters
its directory before it looks for its program, so a root that is not absolute is walked twice. What
is executed is the script below the root only if it does not matter from which of the two
directories that is seen.
-/

namespace ToolRunner

namespace Machine

open ToolRunner.Path (slash)

variable {h : Host} {c : Command} {pid : Nat} {child : Child} {place d : Place} {root : Path}

/-- Where the program of a command is looked for, if it is named by a path. -/
def programPlace (h : Host) (c : Command) : Except OsError Place := do
  h.files.resolve (← directory h c) c.program

/-- A command enters the directory that its path leads to. -/
theorem directory_eq_ok_iff (hdirectory : c.directory = some root) :
    directory h c = .ok d ↔
      h.files.resolve h.directory root = .ok d ∧ h.files.entry? d = some .directory := by
  simp only [directory, hdirectory]
  cases h.files.resolve h.directory root with
  | error e => simp
  | ok place =>
    simp only [Except.ok.injEq]
    constructor
    · intro hd
      split at hd <;> cases hd
      exact ⟨rfl, ‹_›⟩
    · rintro ⟨rfl, hd⟩
      simp [hd]

/-- What is executed is a file that may be. -/
theorem load_executable {t : FileTree} {cwd : Place} {depth : Nat} {p : Path} {argv : List Bytes}
    {found : String × List Bytes} (hload : load t cwd depth p argv = .ok found) :
    ∃ content, t.look cwd p = .ok (.file content true) := by
  cases depth with
  | zero => cases hload
  | succ depth =>
    rw [load] at hload
    split at hload
    · cases hload
    · rename_i content executable hlook
      cases executable with
      | false => cases hload
      | true => exact ⟨content, hlook⟩
    · cases hload

theorem spawn_programPlace (hslash : slash ∈ c.program) (hspawn : spawn h pid c = .ok child) :
    ∃ place content, programPlace h c = .ok place ∧
      h.files.entry? place = some (.file content true) := by
  simp only [spawn, throw, throwThe, MonadExceptOf.throw, bind, Except.bind] at hspawn
  split at hspawn
  · cases hspawn
  split at hspawn
  · cases hspawn
  rename_i cwd hcwd
  split at hspawn
  · cases hspawn
  rename_i found hfound
  rw [resolve, if_pos (List.contains_iff_mem.mpr hslash)] at hfound
  obtain ⟨content, hlook⟩ := load_executable hfound
  obtain ⟨place, hplace, hentry⟩ := FileTree.look_eq_ok_iff.mp hlook
  exact ⟨place, content, Result.bind_eq_ok.mpr ⟨cwd, hcwd, hplace⟩, hentry⟩

/-- A program that is not where it is looked for is not started. -/
theorem spawn_error {cwd : Place} {e : OsError} (hnul : c.holdsNul = false)
    (hcwd : directory h c = .ok cwd) (hslash : slash ∈ c.program)
    (hlook : h.files.look cwd c.program = .error e) (pid : Nat) : spawn h pid c = .error e := by
  have hfound : resolve h c cwd = .error e := by
    rw [resolve, if_pos (List.contains_iff_mem.mpr hslash)]
    simp only [load, scriptLimit, hlook]
  simp [spawn, hnul, hcwd, hfound, bind, Except.bind]

end Machine

namespace Sdk

open ToolRunner.Path (slash)

variable {h : Host} {c : Command} {place d : Place} {root : Path}

/-! ## The install script -/

def scriptName : Path := Path.ofString "install.sh"

theorem scriptName_relative : Path.isAbsolute scriptName = false := by decide

theorem slash_mem_script (hroot : root ≠ []) : slash ∈ root.child "install.sh" := by
  unfold Path.child Path.join
  rw [if_neg (by decide), if_neg hroot]
  split
  · rename_i hlast
    exact List.mem_append_left _ (List.mem_of_getLast? hlast)
  · simp

/-- The script is looked for below the root as it is seen from the root. -/
theorem programPlace_eq_ok_iff (hprogram : c.program = root.child "install.sh")
    (hdirectory : c.directory = some root) :
    Machine.programPlace h c = .ok place ↔
      ∃ d, h.files.resolve h.directory root = .ok d ∧ h.files.entry? d = some .directory ∧
        h.files.resolve d (root.child "install.sh") = .ok place := by
  simp only [Machine.programPlace, Result.bind_eq_ok, Machine.directory_eq_ok_iff hdirectory,
    hprogram, and_assoc]

/-- The script below a root is below the directory that the root leads to. -/
theorem resolve_script (hroot : root ≠ [])
    (hscript : h.files.resolve h.directory (root.child "install.sh") = .ok place) :
    ∃ d, h.files.resolve h.directory root = .ok d ∧ h.files.entry? d = some .directory := by
  obtain ⟨d, hd, hentry, -⟩ :=
    FileTree.resolve_join hroot (by decide) scriptName_relative hscript
  exact ⟨d, hd, hentry⟩

theorem isAbsolute_script (root : Path) :
    Path.isAbsolute (root.child "install.sh") = Path.isAbsolute root :=
  Path.isAbsolute_join scriptName_relative

/-- Both directories agree on the script if the root is absolute. If it is not, they have to lead to
the same script, since the root is not left out of the path that is walked from it. -/
theorem programPlace_agrees_iff (hroot : root ≠ []) (hprogram : c.program = root.child "install.sh")
    (hdirectory : c.directory = some root) :
    (∀ place, Machine.programPlace h c = .ok place ↔
        h.files.resolve h.directory (root.child "install.sh") = .ok place) ↔
      Path.isAbsolute root ∨
        ∀ d, h.files.resolve h.directory root = .ok d → h.files.entry? d = some .directory →
          ∀ place, h.files.resolve d (root.child "install.sh") = .ok place ↔
            h.files.resolve h.directory (root.child "install.sh") = .ok place := by
  simp only [programPlace_eq_ok_iff hprogram hdirectory]
  constructor
  · intro hsame
    cases habsolute : Path.isAbsolute root with
    | true => exact .inl rfl
    | false =>
      refine .inr fun d hd hentry place => ?_
      rw [← hsame]
      constructor
      · intro hfrom
        exact ⟨d, hd, hentry, hfrom⟩
      · rintro ⟨d', hd', -, hfrom⟩
        cases hd.symm.trans hd'
        exact hfrom
  · intro hseen place
    have hfrom : ∀ d, h.files.resolve h.directory root = .ok d →
        h.files.entry? d = some .directory →
        (h.files.resolve d (root.child "install.sh") = .ok place ↔
          h.files.resolve h.directory (root.child "install.sh") = .ok place) := by
      intro d hd hentry
      rcases hseen with habsolute | hseen
      · rw [FileTree.resolve_absolute (by rw [isAbsolute_script, habsolute]) h.directory]
      · exact hseen d hd hentry place
    constructor
    · rintro ⟨d, hd, hentry, hplace⟩
      exact (hfrom d hd hentry).mp hplace
    · intro hplace
      obtain ⟨d, hd, hentry⟩ := resolve_script hroot hplace
      exact ⟨d, hd, hentry, (hfrom d hd hentry).mpr hplace⟩

/-- A checked root is a path. -/
theorem root_ne_nil (config : Config) (hroot : config.settings.root = some root) : root ≠ [] := by
  rintro rfl
  have hvalid := config.valid
  simp [Settings.check, Settings.checkRoot, hroot, bind, Except.bind] at hvalid

theorem install_command {s : Settings} {usageReporting : Bool} {p : Plan}
    (hroot : s.root = some root) (hplan : (Action.install usageReporting).plan h s = .ok p)
    (hcommand : p.command = .ok c) :
    c.program = root.child "install.sh" ∧ c.directory = some root := by
  simp only [Action.plan, Settings.installation, hroot] at hplan
  cases hplan
  cases hcommand
  exact ⟨rfl, rfl⟩

/-- What an installation executes is the script below its root as the program itself sees it,
exactly if the root is absolute, or if the script is the same seen from the root. A root that is not
absolute is walked twice. -/
theorem install_executes_iff (h : Host) (config : Config) {usageReporting : Bool} {p : Plan}
    (hroot : config.settings.root = some root)
    (hplan : (Action.install usageReporting).plan h config.settings = .ok p)
    (hcommand : p.command = .ok c) :
    (∀ pid child, Machine.spawn h pid c = .ok child →
        ∃ place content, Machine.programPlace h c = .ok place ∧
          h.files.entry? place = some (.file content true)) ∧
      ((∀ place, Machine.programPlace h c = .ok place ↔
          h.files.resolve h.directory (root.child "install.sh") = .ok place) ↔
        Path.isAbsolute root ∨
          ∀ d, h.files.resolve h.directory root = .ok d → h.files.entry? d = some .directory →
            ∀ place, h.files.resolve d (root.child "install.sh") = .ok place ↔
              h.files.resolve h.directory (root.child "install.sh") = .ok place) ∧
      (Path.isAbsolute root = false →
        ∀ place, h.files.resolve h.directory (root.join (root.child "install.sh")) = .ok place →
          Machine.programPlace h c = .ok place) := by
  have hnonempty := root_ne_nil config hroot
  have hslash := slash_mem_script hnonempty
  obtain ⟨hprogram, hdirectory⟩ := install_command hroot hplan hcommand
  refine ⟨?_, programPlace_agrees_iff hnonempty hprogram hdirectory, ?_⟩
  · intro pid child
    exact Machine.spawn_programPlace (hprogram ▸ hslash)
  · intro hrelative place hdoubled
    rw [programPlace_eq_ok_iff hprogram hdirectory]
    have hscript : Path.isAbsolute (root.child "install.sh") = false :=
      (isAbsolute_script root).trans hrelative
    exact FileTree.resolve_join hnonempty (List.ne_nil_of_mem hslash) hscript hdoubled

/-- A machine with an install script in `/sdk`, at work in its root directory. -/
def scriptMachine : Host where
  files :=
    ((FileTree.empty.put [Bytes.ofString "sdk"] .directory).put
      [Bytes.ofString "sdk", scriptName] (.file (Machine.image "true") true))
  directory := []
  environment := ∅
  accountHome := none

def rootOnly (root : Path) (h : root ≠ []) : Config where
  settings := { root := some root }
  valid := by
    have hroot : Settings.checkRoot { root := some root } = .ok () := by
      simp [Settings.checkRoot, h]
    rw [Settings.check, hroot]
    rfl

theorem lead_scriptMachine :
    scriptMachine.files.lead [] (Bytes.ofString "sdk") = .ok (.place [Bytes.ofString "sdk"]) ∧
      scriptMachine.files.lead [Bytes.ofString "sdk"] scriptName =
        .ok (.place [Bytes.ofString "sdk", scriptName]) := by
  decide

theorem install_executes_iff_absolute : ∃ p c,
    (Action.install false).plan scriptMachine
        (rootOnly (Path.ofString "/sdk") (by decide)).settings = .ok p ∧
      p.command = .ok c ∧
      Machine.programPlace scriptMachine c = .ok [Bytes.ofString "sdk", scriptName] := by
  refine ⟨_, _, rfl, rfl, ?_⟩
  have hplan : (Action.install false).plan scriptMachine
      (rootOnly (Path.ofString "/sdk") (by decide)).settings = _ := rfl
  obtain ⟨-, hsame, -⟩ := install_executes_iff scriptMachine _ rfl hplan rfl
  refine (hsame.mpr (.inl (by decide)) _).mpr ?_
  have hparts : Bytes.splitOn slash ((Path.ofString "/sdk").child "install.sh") =
      [[], Bytes.ofString "sdk", scriptName] := by decide
  rw [FileTree.resolve_eq_walk (by decide) hparts]
  apply FileTree.walk_of_walks
  exact .step rfl (.step lead_scriptMachine.1 (.step lead_scriptMachine.2 (.done 40 _)))

/-- From the directory above it, the script below the root `sdk` is there and may be executed, but
what is started is the script below `sdk/sdk`, which is not there. -/
theorem install_misses_relative : ∃ p c,
    (Action.install false).plan scriptMachine
        (rootOnly (Path.ofString "sdk") (by decide)).settings = .ok p ∧
      p.command = .ok c ∧
      scriptMachine.files.look [] ((Path.ofString "sdk").child "install.sh") =
        .ok (.file (Machine.image "true") true) ∧
      ∀ pid, Machine.spawn scriptMachine pid c = .error .notFound := by
  refine ⟨_, _, rfl, rfl, ?_, ?_⟩
  · have hresolve : scriptMachine.files.resolve [] ((Path.ofString "sdk").child "install.sh") =
        .ok [Bytes.ofString "sdk", scriptName] := by
      have hparts : Bytes.splitOn slash ((Path.ofString "sdk").child "install.sh") =
          [Bytes.ofString "sdk", scriptName] := by decide
      rw [FileTree.resolve_eq_walk (by decide) hparts]
      apply FileTree.walk_of_walks
      exact .step lead_scriptMachine.1 (.step lead_scriptMachine.2 (.done 40 _))
    rw [FileTree.look, hresolve]
    rfl
  · intro pid
    have hparts : Bytes.splitOn slash (Path.ofString "sdk") = [Bytes.ofString "sdk"] := by decide
    have hroot : scriptMachine.files.resolve [] (Path.ofString "sdk") =
        .ok [Bytes.ofString "sdk"] := by
      rw [FileTree.resolve_eq_walk (by decide) hparts]
      exact FileTree.walk_of_walks (.step lead_scriptMachine.1 (.done 40 _))
    have hwalk : scriptMachine.files.walk true FileTree.linkLimit [Bytes.ofString "sdk"]
        [Bytes.ofString "sdk", scriptName] = .error .notFound := by
      have hlead : scriptMachine.files.lead [Bytes.ofString "sdk"] (Bytes.ofString "sdk") =
          .error .notFound := by decide
      rw [FileTree.walk_cons, hlead]
    have hscript : scriptMachine.files.resolve [Bytes.ofString "sdk"]
        ((Path.ofString "sdk").child "install.sh") = .error .notFound := hwalk
    have hlook : scriptMachine.files.look [Bytes.ofString "sdk"]
        ((Path.ofString "sdk").child "install.sh") = .error .notFound := by
      rw [FileTree.look, hscript]
      rfl
    refine Machine.spawn_error (by decide) ?_ (by decide) hlook pid
    exact (Machine.directory_eq_ok_iff rfl).mpr ⟨hroot, by decide⟩

end Sdk

end ToolRunner
