import ToolRunner.Command
import ToolRunner.Listener

/-!
# Executors

An executor runs a command to its end for somebody who only wants to know whether it went well: the
lines of its outputs go to two listeners, and any exit code but zero is an error, which carries what
the command wrote to its error stream.
-/

namespace ToolRunner

/-- The two listeners of an executor. -/
structure Watchers where
  stdout : Registration String
  stderr : Registration String

/-- What an executor leaves behind: how it went, the listeners with the calls that they have had,
and the state that the executor works in. -/
structure Executed (σ : Type) where
  result : Result Unit
  watchers : Watchers
  state : σ

abbrev Executor (σ : Type) := σ → Command → Watchers → Executed σ

end ToolRunner
