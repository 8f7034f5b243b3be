import ToolRunner.Execution.Records
import ToolRunner.Executor.Supervised
import ToolRunner.Log.Filter
import ToolRunner.Program.Plan
import ToolRunner.Sdk.Installer
import ToolRunner.Session.Signals

/-!
# The program

From the arguments of the command line to the exit code: reads them, loads the configuration, makes
a plan and carries it out. An error is reported on the error stream and gives the exit code 1.
-/

namespace ToolRunner.Program

open Log

structure Outcome where
  /-- The exit code; nothing if a signal ended the program. -/
  code : Option Nat
  output : PerChannel Bytes
  /-- What was shown of the log. -/
  records : List Record

/-- What carrying out a plan leaves behind. -/
structure Course where
  result : Result Int
  output : PerChannel Bytes
  records : List Record
  /-- Whether a signal ended the program. -/
  killed : Bool

namespace Course

def failed (e : RunError) (records : List Record) : Course := ⟨.error e, .both [], records, false⟩

def after (c : Course) (records : List Record) : Course :=
  { c with records := records ++ c.records }

end Course

def tracker : String := "main"

/-! ## Running a job -/

/-- A listener that is called and does nothing else. What it prints is what it has received. -/
def printer {α : Type} : Registration α := .ofReaction fun _ => .quiet

/-- The listeners of a job: captured lines are printed, and starts and ends are logged. -/
def listeners : Routing → Listeners
  | .captured => ⟨[printer], [printer], [printer], [printer]⟩
  | .inherited => ⟨[printer], [], [], [printer]⟩

theorem suits_listeners (r : Routing) : r.suits (listeners r) = true := by
  cases r <;> rfl

/-- The runner of a job. -/
def runner (j : Job) : Runner :=
  ⟨j.mode, j.routing, listeners j.routing, suits_listeners j.routing, some tracker⟩

def printed (lines : List String) : Bytes :=
  lines.flatMap fun line => Bytes.ofString line ++ [10]

def shown (e : Execution) (channel : Channel) : Bytes :=
  match e.outlets.get channel with
  | .passed bytes => bytes
  | _ => (e.onLine channel).flatMap fun r => printed r.received

def runJob (spawn : Session.Spawn) (j : Job) : Course :=
  match Session.empty.beginAndFollow tracker spawn (runner j) j.command with
  | (.error e, _) => .failed e [.spawning]
  | (.ok h, s) =>
    match s.execution? h with
    | none => .failed (.other []) []
    | some e => ⟨e.completion.result, .ofFn (shown e), e.records, s.killed⟩

def backgroundRecords (j : Job) : List Record :=
  if j.mode = .asynchronous then [.inBackground] else []

/-! ## Installing -/

/-- What is logged of the command that the executor has run. -/
def executorRecords (e : Execution) : List Record :=
  e.records ++
    if e.done then
      .commandFinished ::
        if e.completion.success || e.completion.deferred.isEmpty then [] else [.secondaryFailures]
    else []

/-- Runs the install script and prints its lines. -/
def install (spawn : Session.Spawn) (i : Sdk.Installation) : Course :=
  let execute := Executor.running (Session.beginAndFollow tracker spawn) (some tracker)
  let done := i.install execute .empty ⟨printer, printer⟩
  let ofExecution :=
    match done.state.executions.head? with
    | some e => executorRecords e
    | none => [.spawning]
  let ending :=
    match done.result with
    | .ok () => [.installed]
    | .error _ => []
  { result := done.result.map fun _ => 0
    output := ⟨printed done.watchers.stdout.received, printed done.watchers.stderr.received⟩
    records := .installing :: ofExecution ++ ending
    killed := done.state.killed }

/-! ## From the arguments to the exit code -/

def carryOut (spawn : Session.Spawn) : Plan → Course
  | .exec j => (runJob spawn j).after (backgroundRecords j)
  | .tool j => (runJob spawn j).after [.submitting]
  | .install i => install spawn i

/-- The configuration of an invocation: the file that it names, or the one of the working directory
if there is one. -/
def configuration (h : Host) : Option Path → Result Config
  | some p => (Config.load h p).mapError (·.within ("loading config '" ++ Path.display p ++ "'"))
  | none => Config.loadOrStandard h Config.defaultPath

/-- What is logged while the configuration is loaded. -/
def configurationRecords (h : Host) : Option Path → List Record
  | some _ => []
  | none => if Config.isMissing h Config.defaultPath then [.noConfigFile] else []

/-- Does what an invocation asks for. -/
def perform (h : Host) (spawn : Session.Spawn) (i : Invocation) : Course :=
  let loading := configurationRecords h i.config
  match configuration h i.config with
  | .error e => .failed e loading
  | .ok config =>
    let before := loading ++ i.action.planRecords h config.settings
    match i.action.plan h config.settings with
    | .error e => .failed e before
    | .ok plan => (carryOut spawn plan).after before

def filterVariable : String := "SDKRUN_LOG"

/-- The filter of an invocation, and whether the text of the environment had to be ignored. -/
def filter (h : Host) (level : Option Level) : Filter × Bool :=
  Filter.choose level ((h.value? filterVariable).bind Utf8.decode?)

/-- An exit code as the system keeps it: its lowest eight bits. -/
def exitByte (code : Int) : Nat := (code % 256).toNat

def errorPart : Result Int → Bytes
  | .ok _ => []
  | .error e => Bytes.ofString ("sdkrun error: " ++ e.report ++ "\n")

def codeOf : Result Int → Nat
  | .ok code => exitByte code
  | .error _ => 1

def Course.outcome (c : Course) (f : Filter × Bool) : Outcome :=
  let records := (if f.2 then [.ignoredFilter] else []) ++ c.records
  let output :=
    if c.killed then c.output
    else ⟨c.output.stdout, c.output.stderr ++ errorPart c.result⟩
  ⟨if c.killed then none else some (codeOf c.result), output, records.filter f.1.shows⟩

def version : String := "sdkrun 0.1.0"

/-- What a command line that asks for no run leaves behind. The texts of the help and of usage
errors are no part of this. -/
def ofUsage : Options.Usage → Outcome
  | .help => ⟨some 0, .both [], []⟩
  | .version => ⟨some 0, ⟨Bytes.ofString (version ++ "\n"), []⟩, []⟩
  | _ => ⟨some 2, .both [], []⟩

def run (h : Host) (spawn : Session.Spawn) (args : List Bytes) : Outcome :=
  match Invocation.read args with
  | .error usage => ofUsage usage
  | .ok i => (perform h spawn i).outcome (filter h i.logLevel)

end ToolRunner.Program
