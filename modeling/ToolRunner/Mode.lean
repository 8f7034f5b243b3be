import ToolRunner.Text.Blank
import ToolRunner.Text.Case

/-!
# Modes, routings and channels

The two choices that a run is made with, and the two output streams of a child.
-/

namespace ToolRunner

/-- Whether a run returns only when the child has ended, or right after it was started. -/
inductive Mode where
  | synchronous
  | asynchronous
deriving DecidableEq, Repr, Inhabited

/-- Where the output of a child goes: to listeners, line by line, or straight to our own streams. -/
inductive Routing where
  | captured
  | inherited
deriving DecidableEq, Repr, Inhabited

/-- One of the two output streams of a child. -/
inductive Channel where
  | stdout
  | stderr
deriving DecidableEq, Repr

namespace Channel

def name : Channel → String
  | stdout => "stdout"
  | stderr => "stderr"

end Channel

/-- A choice that is not among those offered. `given` is the text as it was compared. -/
structure UnknownChoice where
  what : String
  given : String
  short : String
  long : String
deriving DecidableEq, Repr

namespace UnknownChoice

def message (e : UnknownChoice) : String :=
  "invalid " ++ e.what ++ ": " ++ e.given ++ " (expected \"" ++ e.short ++ "\" or \"" ++ e.long ++
    "\")"

end UnknownChoice

/-- The form in which choices are compared: without outer blanks, in lower case. -/
def normalChoice (s : String) : String :=
  Text.toLower (Text.trim s)

namespace Mode

def name : Mode → String
  | synchronous => "sync"
  | asynchronous => "async"

def parse (s : String) : Except UnknownChoice Mode :=
  match normalChoice s with
  | "sync" | "synchronous" => .ok synchronous
  | "async" | "asynchronous" => .ok asynchronous
  | other => .error ⟨"execution mode", other, "sync", "async"⟩

def description : Mode → String
  | synchronous => "Synchronous"
  | asynchronous => "Asynchronous"

end Mode

namespace Routing

def name : Routing → String
  | captured => "captured"
  | inherited => "inherited"

def parse (s : String) : Except UnknownChoice Routing :=
  match normalChoice s with
  | "captured" => .ok captured
  | "inherited" => .ok inherited
  | other => .error ⟨"output routing", other, "captured", "inherited"⟩

def description : Routing → String
  | captured => "Captured"
  | inherited => "Inherited"

end Routing

end ToolRunner
