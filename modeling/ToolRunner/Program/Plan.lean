import ToolRunner.Config.Load
import ToolRunner.Failure.Report
import ToolRunner.Invocation
import ToolRunner.Log.Record
import ToolRunner.Sdk.Discovery
import ToolRunner.Sdk.Installation
import ToolRunner.Tokens

/-!
# Plans

What the program is going to do for an action: a command, and who carries it out. A plan depends on
the configuration and on what is installed; nothing runs yet.
-/

namespace ToolRunner

/-- A command and how it is run. -/
structure Job where
  command : Command
  mode : Mode
  routing : Routing
deriving DecidableEq

inductive Plan where
  /-- A program that the user names. -/
  | exec (job : Job)
  /-- A tool of the SDK. -/
  | tool (job : Job)
  | install (installation : Sdk.Installation)
deriving DecidableEq

def Settings.overrides (s : Settings) : List (Bytes × Bytes) :=
  s.environment.toList.map fun v => (Bytes.ofString v.1, Bytes.ofString v.2)

namespace ExecRequest

/-- The program and its arguments, as one text or one by one. -/
def words (r : ExecRequest) : List String :=
  match r.line with
  | some line => Tokens.split line
  | none => r.argv

def overrides (r : ExecRequest) : List (Bytes × Bytes) :=
  r.environment.map fun v => (Bytes.ofString v.1, Bytes.ofString v.2)

/-- The command of a request, whose program is still to be found. The variables of the request win
over those of the configuration. -/
def command (r : ExecRequest) (s : Settings) : Result Command := do
  if r.words = [] then
    throw (.other ["nothing to run: pass a command after `--` or use --line"])
  let c ← Command.ofArgv (r.words.map Bytes.ofString)
  let c := (c.setAll s.overrides).setAll r.overrides
  return (r.directory.map c.inDirectory).getD c

/-- What is run for a request. -/
def job (r : ExecRequest) (h : Host) (s : Settings) : Result Job := do
  let c ← r.command s
  return {
    command := ← c.resolved h
    mode := if r.asynchronous then .asynchronous else s.mode
    routing := if r.inherit then .inherited else s.routing }

end ExecRequest

/-- The SDK that a configuration names, or else the one that is found. -/
def Settings.toolkit (s : Settings) (h : Host) : Result Sdk.Toolkit := do
  let t ←
    match s.root with
    | some root => .ok (.atRoot root)
    | none => Sdk.discover h
  t.check h
  return { t with environment := s.environment }

/-- The installation that a configuration asks for. -/
def Settings.installation (s : Settings) (usageReporting : Bool) : Result Sdk.Installation :=
  match s.root with
  | some root => .ok ⟨root, .unix, usageReporting || s.usageReporting⟩
  | none => .error (.other ["install needs [sdk] root in the config file"])

/-- A plan for a tool of the SDK. -/
def Plan.ofTool (h : Host) (s : Settings) (routing : Routing)
    (command : Sdk.Toolkit → Command) : Result Plan := do
  let t ← s.toolkit h
  return .tool ⟨command t, s.mode, routing⟩

/-- The plan for an action. The output of the development server is always inherited. -/
def Action.plan (h : Host) (s : Settings) : Action → Result Plan
  | exec r => (r.job h s).map .exec
  | app args => Plan.ofTool h s s.routing (·.appCommand (args.map Bytes.ofString))
  | deploy d => Plan.ofTool h s s.routing (·.deployCommand d)
  | devServer d extra => Plan.ofTool h s .inherited (·.devServerCommand d extra)
  | install usageReporting => (s.installation usageReporting).map .install

namespace Plan

def command : Plan → Result Command
  | exec job => .ok job.command
  | tool job => .ok job.command
  | install i => i.command

end Plan

/-! ## What is logged meanwhile -/

open Log

/-- What is logged of the search for an SDK. -/
def Sdk.discoveryRecords (h : Host) : List Record :=
  let outside := do
    let program ← gcloudOnPath h
    let name ← Path.fileName? (← Path.parent? program)
    if name = Bytes.ofString "bin" then none else some Record.outsideSdk
  outside.toList ++
    match discover h with
    | .ok _ => [.discovered]
    | .error _ => []

def Action.planRecords (h : Host) (s : Settings) (a : Action) : List Record :=
  match a, s.root with
  | exec _, _ => []
  | install _, _ => []
  | _, some _ => []
  | _, none => Sdk.discoveryRecords h

end ToolRunner
