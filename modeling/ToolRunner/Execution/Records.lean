import ToolRunner.Execution.Basic
import ToolRunner.Log.Record

/-!
# What is logged of an execution

The records of a run, from what has happened in it.
-/

namespace ToolRunner.Execution

open Log

/-- What is logged of an incident. A start and an end are logged by the listeners that the program
itself registers. -/
def incidentRecords : Incident → List Record
  | .started .. => [.started]
  | .read .. => []
  | .split _ => [.split]
  | .line .. => [.outputLine]
  | .exited .. => [.ended]

/-- What is logged of a failure. -/
def failureRecords : SecondaryFailure → List Record
  | .listener .. => [.listenerFailed]
  | .read .. => [.readingFailed]
  | .wait _ => [.waitingFailed]
  | .join .. => []

/-- What is logged once a run has ended. -/
def endRecords (e : Execution) : List Record :=
  if e.done then
    [.exited, .complete] ++ (if e.tracker.isSome then [.untracked] else []) ++
      [Channel.stdout, .stderr].flatMap fun c =>
        if (e.readers.get c).isSome then [.readerFinished] else []
  else []

def records (e : Execution) : List Record :=
  .spawning :: e.history.reverse.flatMap incidentRecords ++
    (e.startFailures ++ e.failures).flatMap failureRecords ++
    (if e.destroyed then [.destroying] else []) ++
    (if e.signals.contains .interrupt then [.interrupted, .destroyedAll] else []) ++ e.endRecords

end ToolRunner.Execution
