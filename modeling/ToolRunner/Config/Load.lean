import ToolRunner.Config.Decode
import ToolRunner.Host

/-!
# Loading a configuration

A file that was asked for has to be there. The file at the default place may be missing.
-/

namespace ToolRunner

/-- Reads a config file without checking what it says. -/
def Settings.load (h : Host) (p : Path) : Result Settings :=
  match h.files.readText h.directory p with
  | .error e => .error (.io e)
  | .ok text => Config.Decode.document text

namespace Config

def load (h : Host) (p : Path) : Result Config := do
  (← Settings.load h p).validated

def isMissing (h : Host) (p : Path) : Bool :=
  !h.files.exists? h.directory p

/-- Reads and checks a config file, or takes the standard where the path leads nowhere. -/
def loadOrStandard (h : Host) (p : Path) : Result Config :=
  if isMissing h p then .ok standard else load h p

def defaultPath : Path := Path.ofString "Sdkrun.toml"

end Config

end ToolRunner
