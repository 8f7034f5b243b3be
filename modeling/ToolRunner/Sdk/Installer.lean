import ToolRunner.Executor.Basic
import ToolRunner.Sdk.Installation

/-!
# Installing

An installation is carried out by an executor.
-/

namespace ToolRunner.Sdk

/-- Runs the install script. Any exit code but zero is an error. -/
def Installation.install {σ : Type} (i : Installation) (execute : Executor σ) (s : σ)
    (w : Watchers) : Executed σ :=
  match i.command with
  | .error e => ⟨.error e, w, s⟩
  | .ok c => execute s c w

end ToolRunner.Sdk
