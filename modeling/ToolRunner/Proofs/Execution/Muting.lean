import ToolRunner.Proofs.Execution.Guise

/-!
# Failing callbacks make no difference

The muted form of an execution is that in which every callback does what it does and comes back
normally. It is a guise, so a run can be followed move by move with listeners that fail otherwise,
and differs from the first one in the reported failures only (`execution_muted`).
-/

namespace ToolRunner

namespace SecondaryFailure

def called : SecondaryFailure → Bool
  | listener .. => true
  | _ => false

def uncalled (failures : List SecondaryFailure) : List SecondaryFailure :=
  failures.filter (!·.called)

theorem uncalled_append (failures more : List SecondaryFailure) :
    uncalled (failures ++ more) = uncalled failures ++ uncalled more := List.filter_append ..

/-- What a failing callback is reported as is dropped. -/
theorem uncalled_failure (now : Reaction) (event : Event) (index : Nat) :
    uncalled (now.failure? event index).toList = [] := by
  rw [Reaction.failure?]
  cases now.outcome.failure? <;> rfl

end SecondaryFailure

/-- The same listener, but that all its calls come back normally. -/
def Registration.muted {α : Type} (l : Registration α) : Registration α :=
  { l with respond := fun calls a => { l.respond calls a with outcome := .done } }

/-- The guise in which all callbacks come back normally. -/
def Guise.muted : Guise where
  mode := id
  listener := Registration.muted
  failures := SecondaryFailure.uncalled
  call_eq _ _ := rfl
  destroys_eq _ _ := rfl
  failure_eq _ _ _ _ := (SecondaryFailure.uncalled_failure _ _ _).symm
  failures_nil := rfl
  failures_append := SecondaryFailure.uncalled_append
  failures_read _ _ := rfl
  failures_wait _ := rfl

/-- The same listeners, but that all their calls come back normally. -/
def Listeners.muted (l : Listeners) : Listeners where
  start := l.start.map (·.muted)
  stdout := l.stdout.map (·.muted)
  stderr := l.stderr.map (·.muted)
  exit := l.exit.map (·.muted)

theorem Listeners.onLine_muted (l : Listeners) (c : Channel) :
    l.muted.onLine c = (l.onLine c).map (·.muted) := by
  cases c <;> rfl

/-- Runners that differ in how the calls of their listeners come back, and in nothing else. -/
structure Runner.Alike (r' r : Runner) : Prop where
  mode : r'.mode = r.mode
  routing : r'.routing = r.routing
  tracker : r'.tracker = r.tracker
  listeners : r'.listeners.muted = r.listeners.muted

/-- Runners whose listeners differ in how they fail begin executions that differ in that only. -/
theorem execution_muted {r r' : Runner} (alike : r'.Alike r) (capacity : Capacity)
    (handle : Handle) (pid : Nat) (program : String) (child : Child) :
    Guise.muted.execution (r'.execution capacity handle pid program child) =
      Guise.muted.execution (r.execution capacity handle pid program child) := by
  have honLine (c : Channel) :
      (r'.listeners.onLine c).map Guise.muted.listener =
        (r.listeners.onLine c).map Guise.muted.listener := by
    have hmuted := congrArg (·.onLine c) alike.listeners
    simp only [Listeners.onLine_muted] at hmuted
    exact hmuted
  have houtlet : r'.outlet capacity = r.outlet capacity := by
    funext c
    have hempty := congrArg List.isEmpty (honLine c)
    rw [List.isEmpty_map, List.isEmpty_map] at hempty
    rw [Runner.outlet, Runner.outlet, alike.routing, hempty]
  have hstart : r'.listeners.start.map Guise.muted.listener =
      r.listeners.start.map Guise.muted.listener := congrArg Listeners.start alike.listeners
  have hexit : r'.listeners.exit.map Guise.muted.listener =
      r.listeners.exit.map Guise.muted.listener := congrArg Listeners.exit alike.listeners
  simp only [Guise.execution, Runner.execution, PerChannel.get_ofFn, honLine, houtlet, alike.mode,
    alike.tracker, hstart, hexit]

end ToolRunner
