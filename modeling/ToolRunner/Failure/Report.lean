import ToolRunner.Failure

/-!
# Reports of errors

An error as it is shown to the user: its message, and below it the messages of its causes, which are
numbered if there are several.
-/

namespace ToolRunner

/-- A number from the left filled up with blanks to a width. -/
def rightAligned (width n : Nat) : String :=
  let digits := toString n
  String.ofList (List.replicate (width - digits.length) ' ') ++ digits

namespace RunError

def causePart (number : Option Nat) (message : String) : String :=
  let (first, more) :=
    match number with
    | some n => (rightAligned 5 n ++ ": ", "       ")
    | none => ("    ", "    ")
  "\n" ++ first ++ ("\n" ++ more).intercalate (message.splitOn "\n")

/-- What is shown of the causes, the nearest first. -/
def causesPart : List String → String
  | [] => ""
  | [cause] => "\n\nCaused by:" ++ causePart none cause
  | causes =>
    "\n\nCaused by:" ++ "".intercalate (causes.mapIdx fun n cause => causePart (some n) cause)

/-- The message of an error and of all its causes. -/
def report (e : RunError) : String :=
  match e.chain with
  | [] => ""
  | message :: causes => message ++ causesPart causes

/-- The same error with a message around it. -/
def within (e : RunError) (context : String) : RunError := .other (context :: e.chain)

end RunError

end ToolRunner
