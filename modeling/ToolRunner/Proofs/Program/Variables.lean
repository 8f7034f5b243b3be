import Mathlib.Data.List.Nodup
import ToolRunner.Program
import ToolRunner.Proofs.Session.Starting

/-!
# The variables of commands

A configuration names variables, and an `exec` may set some of its own. What reaches the child is
what the command overrides, so it matters by which of the ways that lead to a command the variables
are handed on: the command of an `exec` takes them from the settings, and the tools of the SDK take
them from their toolkit, which has been given those of the settings. The way to the command of an
installation is a third one, and it passes the variables by.
-/

namespace ToolRunner

def Action.ownVariables : Action → List (Bytes × Bytes)
  | .exec r => r.overrides
  | _ => []

namespace Command

/-- The command overrides each of the variables by its value, unless its name is among those that
are set otherwise. -/
def Carries (c : Command) (environment : SortedMap String String) (own : List (Bytes × Bytes)) :
    Prop :=
  ∀ name value, environment.find? name = some value → Bytes.ofString name ∉ own.map (·.1) →
    c.overrides.find? (Bytes.ofString name) = some (Bytes.ofString value)

/-- The value of a variable is the last that the action sets, or else the configured one. -/
def Overrides (c : Command) (s : Settings) (own : List (Bytes × Bytes)) : Prop :=
  ∀ name, c.overrides.find? name =
    (SortedMap.lookup name own.reverse).or (SortedMap.lookup name s.overrides)

theorem resolved_overrides {c d : Command} {h : Host} (hres : c.resolved h = .ok d) :
    d.overrides = c.overrides := by
  unfold resolved at hres
  split at hres
  · cases hres; rfl
  · cases hres

end Command

namespace Settings

variable {s : Settings}

theorem nodup_overrides : (s.overrides.map (·.1)).Nodup := by
  have hnames : s.overrides.map (·.1) = (s.environment.toList.map (·.1)).map Bytes.ofString := by
    simp [overrides]
  rw [hnames]
  exact s.environment.nodup_keys.map fun _ _ h => Bytes.ofString_inj.mp h

theorem lookup_overrides {name value : String} (h : s.environment.find? name = some value) :
    SortedMap.lookup (Bytes.ofString name) s.overrides = some (Bytes.ofString value) := by
  rw [SortedMap.lookup_eq_some_iff nodup_overrides]
  exact List.mem_map.mpr ⟨_, SortedMap.find?_eq_some_iff.mp h, rfl⟩

/-- Each name is there once, so it does not matter from which end it is looked up. -/
theorem lookup_reverse_overrides (name : Bytes) :
    SortedMap.lookup name s.overrides.reverse = SortedMap.lookup name s.overrides := by
  have hreverse : (s.overrides.reverse.map (·.1)).Nodup := by
    rw [List.map_reverse]
    exact List.nodup_reverse.mpr nodup_overrides
  ext value
  rw [SortedMap.lookup_eq_some_iff hreverse, SortedMap.lookup_eq_some_iff nodup_overrides,
    List.mem_reverse]

end Settings

namespace Command

variable {c : Command} {s : Settings} {own : List (Bytes × Bytes)}

theorem Overrides.carries (h : c.Overrides s own) : c.Carries s.environment own := by
  intro name value hvalue hown
  have hnone : SortedMap.lookup (Bytes.ofString name) own.reverse = none := by
    apply SortedMap.lookup_eq_none
    simpa using hown
  rw [h, hnone, Option.none_or]
  exact Settings.lookup_overrides hvalue

/-- A command that overrides nothing carries the variables only if there are none. -/
theorem carries_nil_iff {environment : SortedMap String String} (h : c.overrides = ∅) :
    c.Carries environment [] ↔ environment = ∅ := by
  constructor
  · intro hc
    apply SortedMap.ext
    apply List.eq_nil_iff_forall_not_mem.mpr
    rintro ⟨name, value⟩ hmem
    have hcarried := hc name value (SortedMap.find?_eq_some_iff.mpr hmem) (by simp)
    rw [h] at hcarried
    cases hcarried
  · rintro rfl name value hvalue
    cases hvalue

end Command

/-! ## The three ways to a command -/

namespace ExecRequest

variable {r : ExecRequest} {s : Settings}

theorem command_overrides {c : Command} (hcommand : r.command s = .ok c) :
    c.overrides = ((∅ : Variables).insertAll s.overrides).insertAll r.overrides := by
  unfold command at hcommand
  split at hcommand
  · cases hcommand
  · obtain ⟨d, hargv, hc⟩ := Result.bind_eq_ok.mp hcommand
    cases hc
    have hd : d.overrides = ∅ := by
      unfold Command.ofArgv at hargv
      split at hargv <;> cases hargv
      rfl
    cases r.directory <;> simp [Command.setAll, Command.inDirectory, hd]

theorem command_overrides_settings {c : Command} (hcommand : r.command s = .ok c) :
    c.Overrides s r.overrides := by
  intro name
  rw [command_overrides hcommand, SortedMap.find?_insertAll, SortedMap.find?_insertAll,
    Settings.lookup_reverse_overrides]
  exact congrArg _ Option.or_none

theorem job_overrides {h : Host} {j : Job} (hjob : r.job h s = .ok j) :
    j.command.Overrides s r.overrides := by
  obtain ⟨c, hcommand, hjob⟩ := Result.bind_eq_ok.mp hjob
  obtain ⟨d, hres, hjob⟩ := Result.bind_eq_ok.mp hjob
  cases hjob
  intro name
  rw [Command.resolved_overrides hres]
  exact command_overrides_settings hcommand name

end ExecRequest

namespace Settings

variable {h : Host} {s : Settings} {t : Sdk.Toolkit}

theorem toolkit_environment (ht : s.toolkit h = .ok t) : t.environment = s.environment := by
  unfold toolkit at ht
  split at ht
  all_goals
    obtain ⟨_, -, ht⟩ := Result.bind_eq_ok.mp ht
    obtain ⟨_, -, ht⟩ := Result.bind_eq_ok.mp ht
    cases ht
    rfl

/-- A tool's command takes its variables from the toolkit, which has those of the settings. -/
theorem toolkit_overrides (ht : s.toolkit h = .ok t) {c : Command} (hc : c.overrides = ∅) :
    (c.setAll t.overrides).Overrides s [] := by
  intro name
  have hsame : t.overrides = s.overrides := by
    rw [Sdk.Toolkit.overrides, overrides, toolkit_environment ht]
  rw [Command.setAll, SortedMap.find?_insertAll, hc, hsame, lookup_reverse_overrides]
  exact Option.or_none

end Settings

namespace Action

variable {h : Host} {s : Settings} {p : Plan} {c : Command}

theorem ofTool_overrides {routing : Routing} {command : Sdk.Toolkit → Command}
    (hplan : Plan.ofTool h s routing command = .ok p) (hcommand : p.command = .ok c)
    (htool : ∀ t, s.toolkit h = .ok t → (command t).Overrides s []) : c.Overrides s [] := by
  obtain ⟨t, ht, hp⟩ := Result.bind_eq_ok.mp hplan
  cases hp
  cases hcommand
  exact htool t ht

/-- Every command but that of an installation takes the variables of the settings, and those that
the action sets win. -/
theorem plan_overrides {a : Action} (hplan : a.plan h s = .ok p) (hcommand : p.command = .ok c)
    (hway : ∀ usageReporting, a ≠ .install usageReporting) : c.Overrides s a.ownVariables := by
  cases a with
  | exec r =>
    obtain ⟨j, hjob, rfl⟩ := Result.map_eq_ok.mp hplan
    cases hcommand
    exact r.job_overrides hjob
  | app args =>
    exact ofTool_overrides hplan hcommand fun t ht => Settings.toolkit_overrides ht rfl
  | deploy d =>
    exact ofTool_overrides hplan hcommand fun t ht => Settings.toolkit_overrides ht rfl
  | devServer d extra =>
    exact ofTool_overrides hplan hcommand fun t ht => Settings.toolkit_overrides ht rfl
  | install usageReporting => exact absurd rfl (hway usageReporting)

theorem install_overrides {usageReporting : Bool}
    (hplan : (Action.install usageReporting).plan h s = .ok p) (hcommand : p.command = .ok c) :
    c.overrides = ∅ := by
  obtain ⟨i, -, rfl⟩ := Result.map_eq_ok.mp hplan
  obtain ⟨d, hargv, hc⟩ := Result.bind_eq_ok.mp hcommand
  cases hc
  unfold Command.ofArgv at hargv
  split at hargv <;> cases hargv
  rfl

end Action

namespace Program

/-- The command of a plan is all that is handed to the system. -/
theorem carryOut_congr {p : Plan} {c : Command} (hcommand : p.command = .ok c)
    {spawn spawn' : Session.Spawn} (hspawn : ∀ pid, spawn pid c = spawn' pid c) :
    carryOut spawn p = carryOut spawn' p := by
  have hfollow : ∀ (s : Session) (r : Runner), s.beginAndFollow tracker spawn r c =
      s.beginAndFollow tracker spawn' r c := by
    intro s r
    simp only [Session.beginAndFollow, Session.begin_eq, hspawn]
  cases p with
  | exec j =>
    cases hcommand
    simp only [carryOut, runJob, hfollow]
  | tool j =>
    cases hcommand
    simp only [carryOut, runJob, hfollow]
  | install i =>
    have hinstall : i.command = .ok c := hcommand
    simp only [carryOut, install, Sdk.Installation.install, hinstall, Executor.running, hfollow]

/-- The commands that carry the variables of their configuration are all but those of installations,
which do so only if there are none; and what is started for an invocation is the command of its plan
and nothing else. -/
theorem plan_carries_iff (h : Host) (config : Config) {a : Action} {p : Plan} {c : Command}
    (hplan : a.plan h config.settings = .ok p) (hcommand : p.command = .ok c) :
    (c.Carries config.settings.environment a.ownVariables ↔
        (∀ usageReporting, a ≠ .install usageReporting) ∨ config.settings.environment = ∅) ∧
      ∀ (i : Invocation) (spawn spawn' : Session.Spawn), i.action = a →
        configuration h i.config = .ok config → (∀ pid, spawn pid c = spawn' pid c) →
        perform h spawn i = perform h spawn' i := by
  constructor
  · cases a with
    | install usageReporting =>
      have hnone := Action.install_overrides hplan hcommand
      simpa [Action.ownVariables] using Command.carries_nil_iff hnone
    | exec _ | app _ | deploy _ | devServer _ _ =>
      have hcarries := (Action.plan_overrides hplan hcommand (by simp)).carries
      simp [hcarries]
  · intro i spawn spawn' hi hconfig hspawn
    subst hi
    simp only [perform, hconfig, hplan, carryOut_congr hcommand hspawn]

/-- A configuration that sets two variables. -/
def twoVariables : Config where
  settings :=
    { root := some (Path.ofString "/sdk")
      environment := .ofList [("P", "configured"), ("Q", "configured")] }
  valid := by decide +kernel

/-- A machine with an executable file in every place. -/
def fullMachine : Host where
  files := ⟨fun place => if place = [] then some .directory else some (.file [] true)⟩
  directory := []
  environment := ∅
  accountHome := none

def setsOne : ExecRequest := ⟨false, false, none, [("Q", "own")], none, ["/x"]⟩

def bothSet : Command where
  program := Bytes.ofString "/x"
  args := []
  directory := none
  overrides := .ofList
    [(Bytes.ofString "P", Bytes.ofString "configured"), (Bytes.ofString "Q", Bytes.ofString "own")]

theorem findProgram_fullMachine :
    fullMachine.findProgram (Bytes.ofString "/x") = .ok (Bytes.ofString "/x") := by
  have hwalk : fullMachine.files.walk true FileTree.linkLimit [] [[], [120]] = .ok [[120]] := by
    simp [FileTree.walk, fullMachine, Path.isVoid, Path.dotdot, FileTree.nameLimit]
    decide
  have hresolve : fullMachine.files.resolve [] (Bytes.ofString "/x") = .ok [[120]] := hwalk
  have hexecutable :
      fullMachine.files.isExecutable fullMachine.directory (Bytes.ofString "/x") = true := by
    rw [FileTree.isExecutable, FileTree.look, show fullMachine.directory = [] from rfl, hresolve]
    rfl
  have hcandidates :
      fullMachine.programCandidates (Bytes.ofString "/x") = .ok [Bytes.ofString "/x"] := by
    decide +kernel
  simp [Host.findProgram, hcandidates, hexecutable, bind, Except.bind]

theorem plan_setsOne : (Action.exec setsOne).plan fullMachine twoVariables.settings =
    .ok (.exec ⟨bothSet, .synchronous, .captured⟩) := by
  have hcommand : setsOne.command twoVariables.settings = .ok bothSet := by decide +kernel
  have hresolved : bothSet.resolved fullMachine = .ok bothSet := by
    rw [Command.resolved, show bothSet.program = Bytes.ofString "/x" from rfl,
      findProgram_fullMachine]
    rfl
  simp only [Action.plan, ExecRequest.job, hcommand, hresolved, bind, Except.bind]
  rfl

theorem plan_carries_iff_exec :
    (Action.exec setsOne).plan fullMachine twoVariables.settings =
        .ok (.exec ⟨bothSet, .synchronous, .captured⟩) ∧
      bothSet.Carries twoVariables.settings.environment setsOne.overrides ∧
      bothSet.overrides.find? (Bytes.ofString "Q") = some (Bytes.ofString "own") := by
  obtain ⟨hcarries, -⟩ := plan_carries_iff fullMachine twoVariables plan_setsOne rfl
  exact ⟨plan_setsOne, hcarries.mpr (.inl (by simp)), by decide +kernel⟩

/-- The command of an installation leaves out a variable that the configuration sets. -/
theorem install_drops_variable : ∃ p c,
    (Action.install false).plan fullMachine twoVariables.settings = .ok p ∧ p.command = .ok c ∧
      twoVariables.settings.environment.find? "P" = some "configured" ∧
      Bytes.ofString "P" ∉ (Action.install false).ownVariables.map (·.1) ∧
      c.overrides.find? (Bytes.ofString "P") = none :=
  ⟨_, _, rfl, rfl, by decide +kernel, by simp [Action.ownVariables], rfl⟩

end Program

end ToolRunner
