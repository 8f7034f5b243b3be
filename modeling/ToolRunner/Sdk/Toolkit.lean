import ToolRunner.Host
import ToolRunner.Sdk.Deploy
import ToolRunner.Sdk.DevServer

/-!
# Toolkits

An installed Cloud SDK: where its tools stand, whether they are there, and the commands that run
them.
-/

namespace ToolRunner.Sdk

/-- An SDK below a root directory, and the variables that its commands are given. -/
structure Toolkit where
  root : Path
  environment : SortedMap String String

namespace Toolkit

def atRoot (root : Path) : Toolkit := ⟨root, ∅⟩

def gcloud (t : Toolkit) : Path := t.root.child "bin/gcloud"

def devAppserver (t : Toolkit) : Path := t.root.child "bin/dev_appserver.py"

/-- The root must be a directory that holds both tools. -/
def check (t : Toolkit) (h : Host) : Result Unit :=
  if !h.isDirectory t.root then
    .error (.sdk ("SDK directory '" ++ t.root.display ++ "' is not valid"))
  else if !h.isFile t.gcloud then
    .error (.sdk ("gcloud path '" ++ t.gcloud.display ++ "' is not valid"))
  else if !h.isFile t.devAppserver then
    .error (.sdk ("dev_appserver.py path '" ++ t.devAppserver.display ++ "' is not valid"))
  else .ok ()

/-- The toolkit's variables as overrides of a command. -/
def overrides (t : Toolkit) : List (Bytes × Bytes) :=
  t.environment.toList.map fun v => (Bytes.ofString v.1, Bytes.ofString v.2)

def appCommand (t : Toolkit) (args : List Bytes) : Command :=
  (((Command.new t.gcloud).addArg (Bytes.ofString "app")).addArgs args).setAll t.overrides

def devAppserverCommand (t : Toolkit) (args : List Bytes) : Command :=
  ((Command.new t.devAppserver).addArgs args).setAll t.overrides

def deployCommand (t : Toolkit) (d : Deployment) : Command :=
  t.appCommand (d.toArgs.map Bytes.ofString)

/-- The command of a development server, with further arguments after those of its options. -/
def devServerCommand (t : Toolkit) (d : DevServer) (extra : List String) : Command :=
  t.devAppserverCommand ((d.toArgs ++ extra).map Bytes.ofString)

end Toolkit

end ToolRunner.Sdk
