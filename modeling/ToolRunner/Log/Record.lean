import ToolRunner.Log.Level

/-!
# Log records

What the program logs. A record has a level, the part of the program that it comes from, a message,
and the names of the values that it carries.
-/

namespace ToolRunner.Log

/-- What is logged at one place of the program. -/
structure Record where
  level : Level
  target : String
  message : String
  fields : List String
deriving DecidableEq, Repr

namespace Record

def line (r : Record) : String :=
  r.level.name.toUpper ++ " " ++ r.target ++ ": " ++ r.message

def program : String := "sdkrun"

def ignoredFilter : Record :=
  ⟨.warn, "sdkrun::logging", "ignoring invalid log filter; using 'info'", ["var", "error"]⟩

def noConfigFile : Record :=
  ⟨.debug, "sdkrun::config::loader", "no config file; using defaults", ["path"]⟩

def interrupted : Record :=
  ⟨.warn, "sdkrun", "interrupted; destroyed running processes", ["destroyed"]⟩

def started : Record := ⟨.info, "sdkrun", "process started", ["program", "pid"]⟩

def ended : Record := ⟨.info, "sdkrun", "process exited", ["exit_code"]⟩

def inBackground : Record := ⟨.info, "sdkrun", "process running in the background", ["pid"]⟩

def discovered : Record := ⟨.info, "sdkrun::sdk", "discovered Cloud SDK", ["sdk_root"]⟩

def outsideSdk : Record :=
  ⟨.debug, "sdkrun::sdk", "gcloud on PATH is not inside an SDK bin directory", ["gcloud"]⟩

def submitting : Record := ⟨.info, "sdkrun::sdk", "submitting command", ["command"]⟩

def installing : Record := ⟨.info, "sdkrun::sdk::install", "installing Cloud SDK", ["sdk_root"]⟩

def installed : Record := ⟨.info, "sdkrun::sdk::install", "Cloud SDK installed", ["sdk_root"]⟩

def spawning : Record :=
  ⟨.info, "sdkrun::exec::runner", "spawning process", ["command", "cwd", "mode", "routing"]⟩

def waitingFailed : Record :=
  ⟨.warn, "sdkrun::exec::runner", "waiting for process failed", ["program", "error"]⟩

def exited : Record :=
  ⟨.info, "sdkrun::exec::runner", "process exited", ["program", "pid", "exit_code", "destroyed"]⟩

def complete : Record :=
  ⟨.debug, "sdkrun::exec::runner", "execution complete", ["program", "exit_code", "deferred"]⟩

def destroying : Record :=
  ⟨.info, "sdkrun::exec::handle", "destroying process", ["program", "pid"]⟩

def destroyedAll : Record :=
  ⟨.info, "sdkrun::exec::handle", "destroyed outstanding processes", ["count"]⟩

def untracked : Record :=
  ⟨.debug, "sdkrun::exec::handle", "process no longer tracked", ["program", "pid"]⟩

def split : Record :=
  ⟨.warn, "sdkrun::exec::line_reader", "output line exceeds the maximum length; splitting",
    ["channel", "max_line"]⟩

def outputLine : Record := ⟨.trace, "sdkrun::exec::line_reader", "output line", ["channel", "line"]⟩

def readingFailed : Record :=
  ⟨.warn, "sdkrun::exec::line_reader", "reading child output failed", ["channel", "error"]⟩

def readerFinished : Record :=
  ⟨.debug, "sdkrun::exec::line_reader", "line reader finished", ["channel", "lines", "cancelled"]⟩

def listenerFailed : Record :=
  ⟨.warn, "sdkrun::exec::listener", "listener failed", ["event", "index", "error"]⟩

def commandFinished : Record :=
  ⟨.debug, "sdkrun::exec::executor", "command finished", ["program", "exit_code"]⟩

def secondaryFailures : Record :=
  ⟨.warn, "sdkrun::exec::executor", "secondary failures while running a failed command", ["count"]⟩

end Record

end ToolRunner.Log
