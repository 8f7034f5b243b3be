import ToolRunner.Failure
import ToolRunner.Path
import ToolRunner.SortedMap
import ToolRunner.Text.Escaped

/-!
# Configuration

`Settings` is what a config file says, with the defaults where it says nothing. A `Config` is
settings that have been checked: its root is not empty, and its variables are such that a program
can be given them.
-/

namespace ToolRunner

structure Settings where
  /-- Where the SDK is installed; it is searched for if this is absent. -/
  root : Option Path := none
  /-- Whether the installer may report usage. -/
  usageReporting : Bool := false
  mode : Mode := .synchronous
  routing : Routing := .captured
  /-- Variables that commands are given. -/
  environment : SortedMap String String := ∅
deriving DecidableEq

namespace Settings

/-- The root, if given, must not be empty. -/
def checkRoot (s : Settings) : Result Unit :=
  if s.root = some [] then .error (.config "[sdk].root must not be empty") else .ok ()

/-- A variable must have a name without `=`, and neither its name nor its value may hold a NUL. -/
def checkVariable (name value : String) : Result Unit :=
  if name = "" then .error (.config "[env] contains an empty variable name")
  else if '=' ∈ name.toList ∨ '\x00' ∈ name.toList then
    .error (.config
      ("[env] variable name '" ++ Text.escape name ++ "' must not contain '=' or NUL"))
  else if '\x00' ∈ value.toList then
    .error (.config ("[env] value of '" ++ name ++ "' must not contain NUL"))
  else .ok ()

/-- Checks variables in order, up to the first that is refused. -/
def checkVariables : List (String × String) → Result Unit
  | [] => .ok ()
  | v :: vs => do
    checkVariable v.1 v.2
    checkVariables vs

def check (s : Settings) : Result Unit := do
  s.checkRoot
  checkVariables s.environment.toList

end Settings

/-- Settings that have passed their check. -/
structure Config where
  settings : Settings
  valid : settings.check = .ok ()

namespace Config

/-- The settings of a file that says nothing. -/
def standard : Config := ⟨{}, rfl⟩

instance : Inhabited Config := ⟨standard⟩

end Config

def Settings.validated (s : Settings) : Result Config :=
  match h : s.check with
  | .ok () => .ok ⟨s, h⟩
  | .error e => .error e

end ToolRunner
