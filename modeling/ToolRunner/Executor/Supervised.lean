import ToolRunner.Executor.Basic
import ToolRunner.Session

/-!
# Executing children

The executor that starts the command and supervises it: synchronously, with both outputs captured,
and one listener more that gathers the error stream.
-/

namespace ToolRunner.Executor

/-- A listener that does nothing; its calls are what it has gathered. -/
def gatherer : Registration String := .ofReaction fun _ => .quiet

/-- The listeners of a run: those of the caller, and one that gathers the error stream. -/
def listeners (w : Watchers) : Listeners where
  stdout := [w.stdout]
  stderr := [w.stderr, gatherer]

/-- The outcome of a run that has ended, where `stderr` is what was written to the error stream. -/
def outcome (program stderr : String) (c : Completion) : Result Unit :=
  if c.success then c.result.map fun _ => ()
  else .error (.nonZeroExit program c.exitCode stderr c.deferred)

/-- The outcome of an execution that has ended, and its listeners. -/
def ofExecution (program : String) (w : Watchers) (s : Session) (e : Execution) :
    Executed Session :=
  match e.onLine .stdout, e.onLine .stderr with
  | [stdout], [stderr, all] =>
    ⟨outcome program (gathered all.received) e.completion, ⟨stdout, stderr⟩, s⟩
  | _, _ => ⟨outcome program "" e.completion, w, s⟩

/-- The runner of a command. -/
def runner (tracker : Option String) (w : Watchers) : Runner :=
  ⟨.synchronous, .captured, listeners w, rfl, tracker⟩

/-- How a command is brought to its end in a session. -/
abbrev Running := Session → Runner → Command → Result Handle × Session

/-- Runs a command in the given way. -/
def running (run : Running) (tracker : Option String) : Executor Session := fun s c w =>
  match run s (runner tracker w) c with
  | (.error e, s) => ⟨.error e, w, s⟩
  | (.ok h, s) =>
    match s.execution? h with
    | some e => ofExecution c.programText w s e
    | none => ⟨.ok (), w, s⟩

def supervised (tracker : Option String) (spawn : Session.Spawn) : Executor Session :=
  running (fun s r c => s.run spawn r c) tracker

end ToolRunner.Executor
