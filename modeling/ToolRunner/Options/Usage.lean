/-!
# Usage errors

Why a command line was not accepted, or what it asks for instead of a run.
-/

namespace ToolRunner.Options

inductive Usage where
  /-- Help was asked for. -/
  | help
  /-- Nothing was given where something is due. -/
  | helpInstead
  /-- The version was asked for. -/
  | version
  | unknownArgument
  | unknownCommand
  | missingCommand
  | missingArgument
  /-- A value is missing, empty, or not among those offered. -/
  | invalidValue
  /-- A value was given to a switch. -/
  | tooManyValues
  /-- Two arguments exclude each other, or one was given twice. -/
  | conflict
  | invalidUtf8
  /-- A value could not be read. -/
  | unreadable (message : String)
deriving DecidableEq, Repr

end ToolRunner.Options
