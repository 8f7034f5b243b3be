import ToolRunner.Mode
import ToolRunner.OsError

/-!
# Failures

A `RunError` is why an operation gave no result. A `SecondaryFailure` is something that went wrong
around a run that did end: it stops nothing, and is handed over once the exit code is known.
-/

namespace ToolRunner

/-- The occasions on which listeners are called. -/
inductive Event where
  | start
  | line (channel : Channel)
  | exit
deriving DecidableEq, Repr

namespace Event

def name : Event → String
  | start => "start"
  | line channel => channel.name
  | exit => "exit"

end Event

/-- A failure around a run, which does not end it. -/
inductive SecondaryFailure where
  | listener (event : Event) (index : Nat) (message : String)
  | read (channel : Channel) (message : String)
  | wait (message : String)
  | join (task : String) (message : String)
deriving DecidableEq, Repr

namespace SecondaryFailure

def message : SecondaryFailure → String
  | listener event index text =>
    event.name ++ " listener #" ++ toString index ++ " failed: " ++ text
  | read channel text => "reading " ++ channel.name ++ " failed: " ++ text
  | wait text => "waiting for process exit failed: " ++ text
  | join task text => task ++ " did not complete: " ++ text

def summary (failures : List SecondaryFailure) : String :=
  "; ".intercalate (failures.map message)

end SecondaryFailure

/-- Why an operation gave no result. -/
inductive RunError where
  | config (message : String)
  | invalidCommand (message : String)
  | invalidSetup (message : String)
  | spawn (program : String) (cause : OsError)
  | nonZeroExit (program : String) (code : Int) (stderr : String) (failures : List SecondaryFailure)
  | deferred (failures : List SecondaryFailure)
  | sdk (message : String)
  | io (cause : OsError)
  | toml (report : String)
  | other (chain : List String)
deriving DecidableEq, Repr

namespace RunError

/-- The part of a message that quotes what the program wrote to its error stream, if not blank. -/
def stderrPart (stderr : String) : String :=
  if Text.trimStart stderr.toList = [] then ""
  else "\nstderr:\n" ++ String.ofList (Text.trimEnd stderr.toList)

/-- The part of a message that names secondary failures, if there are any. -/
def failuresPart (failures : List SecondaryFailure) : String :=
  if failures = [] then "" else "\nalso: " ++ SecondaryFailure.summary failures

def message : RunError → String
  | config text => "Configuration error: " ++ text
  | invalidCommand text => "Invalid command: " ++ text
  | invalidSetup text => "Invalid runner setup: " ++ text
  | spawn program cause => "Failed to spawn '" ++ program ++ "': " ++ cause.message
  | nonZeroExit program code stderr failures =>
    program ++ " exited with non-zero exit code: " ++ toString code ++ stderrPart stderr ++
      failuresPart failures
  | deferred failures =>
    toString failures.length ++ " failure(s) after execution: " ++ SecondaryFailure.summary failures
  | sdk text => "Cloud SDK error: " ++ text
  | io cause => "IO error: " ++ cause.message
  | toml report => "TOML parsing error: " ++ report
  | other chain => chain.headD ""

/-- The message and below it the messages of its causes, outermost first. -/
def chain : RunError → List String
  | spawn program cause => [message (spawn program cause), cause.message]
  | io cause => [message (io cause), cause.message]
  | toml report => [message (toml report), report]
  | other texts => texts
  | e => [e.message]

end RunError

abbrev Result (α : Type) := Except RunError α

namespace Result

variable {ε α β : Type} {x : Except ε α} {b : β}

theorem bind_eq_ok {f : α → Except ε β} : x >>= f = .ok b ↔ ∃ a, x = .ok a ∧ f a = .ok b := by
  cases x <;> simp [bind, Except.bind]

theorem bind_eq_error {f : α → Except ε β} {e : ε} :
    x >>= f = .error e ↔ x = .error e ∨ ∃ a, x = .ok a ∧ f a = .error e := by
  cases x <;> simp [bind, Except.bind]

theorem map_eq_ok {f : α → β} : x.map f = .ok b ↔ ∃ a, x = .ok a ∧ f a = b := by
  cases x <;> simp [Except.map]

end Result

end ToolRunner
