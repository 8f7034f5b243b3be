import ToolRunner.Line.Drain

/-!
# Completions

How a run ended: the exit code, what the readers saw and what failed around it.
-/

namespace ToolRunner

/-- The end of a run. -/
structure Completion where
  exitCode : Int
  /-- The child was killed through its handle. -/
  destroyed : Bool
  /-- Nothing where the channel was not captured. -/
  stdout : Option Report
  stderr : Option Report
  /-- What failed around the run, in the order in which it was collected. -/
  deferred : List SecondaryFailure
deriving DecidableEq, Repr

namespace Completion

/-- The exit code of a child that a signal ended, or whose end could not be waited for. -/
def unknownExitCode : Int := -1

def success (c : Completion) : Bool :=
  c.exitCode == 0

/-- The exit code, unless something failed around the run. -/
def result (c : Completion) : Result Int :=
  if c.deferred = [] then .ok c.exitCode else .error (.deferred c.deferred)

end Completion

end ToolRunner
