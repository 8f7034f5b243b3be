import ToolRunner.Command
import ToolRunner.Sdk.DevServer

/-!
# Installations

The command that runs the install script which comes with an SDK, without asking anything.
-/

namespace ToolRunner.Sdk

inductive InstallScript where
  | unix
  | windows
deriving DecidableEq, Repr

namespace InstallScript

/-- The program that runs the script below a root, and what it needs before all other arguments. -/
def commandLine (s : InstallScript) (root : Path) : List Bytes :=
  match s with
  | unix => [root.child "install.sh"]
  | windows => [Bytes.ofString "cmd.exe", Bytes.ofString "/c", root.child "install.bat"]

end InstallScript

structure Installation where
  root : Path
  script : InstallScript
  usageReporting : Bool
deriving DecidableEq, Repr

namespace Installation

/-- What the script is told so that it asks nothing. -/
def options (i : Installation) : List String :=
  ["--path-update=false", "--command-completion=false", "--quiet",
    "--usage-reporting=" ++ DevServer.truth i.usageReporting]

/-- The command of the installation, which runs in the root. -/
def command (i : Installation) : Result Command := do
  let command ← Command.ofArgv (i.script.commandLine i.root)
  return (command.addArgs (i.options.map Bytes.ofString)).inDirectory i.root

end Installation

end ToolRunner.Sdk
