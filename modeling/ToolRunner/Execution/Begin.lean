import ToolRunner.Execution.Basic
import ToolRunner.Runner

/-!
# Beginning a run

A runner starts a command and hands over the execution that follows it. If the command names no
program, or the program cannot be started, there is no execution and nobody is called.
-/

namespace ToolRunner

namespace Runner

/-- Where an output goes: an output that is captured and that nobody listens to is discarded. -/
def outlet (r : Runner) (capacity : Capacity) (channel : Channel) : Outlet :=
  match r.routing with
  | .inherited => .passed []
  | .captured =>
    if (r.listeners.onLine channel).isEmpty then .discarded else .pipe (.new capacity)

/-- The execution of a child that has been started. -/
def execution (r : Runner) (capacity : Capacity) (handle : Handle) (pid : Nat) (program : String)
    (child : Child) : Execution where
  handle := handle
  program := program
  pid := pid
  mode := r.mode
  tracker := r.tracker
  child := child
  outlets := .ofFn (r.outlet capacity)
  lines := .ofFn r.listeners.onLine
  start := r.listeners.start
  exit := r.listeners.exit

/-- Starts a command by means of `spawn`. -/
def begin (r : Runner) (capacity : Capacity) (spawn : Command → Except OsError Child)
    (handle : Handle) (pid : Nat) (command : Command) : Result Execution := do
  command.check
  match spawn command with
  | .ok child => .ok (r.execution capacity handle pid command.programText child)
  | .error cause => .error (.spawn command.programText cause)

end Runner

end ToolRunner
