import ToolRunner.Options.Integer
import ToolRunner.Options.Usage
import ToolRunner.Path

/-!
# Values of options

What the value of an option may look like, and how it is read.
-/

namespace ToolRunner.Options

/-- The kind of value that an option takes. -/
inductive Form where
  /-- Any bytes but none at all. -/
  | path
  | text
  | integer
  /-- A name and a value with `=` between them. -/
  | pair
  /-- One of some words. -/
  | word (offered : List String)
deriving DecidableEq, Repr

inductive Value where
  | path (p : Path)
  | text (s : String)
  | integer (i : Int)
  | pair (name value : String)
deriving DecidableEq, Repr

/-- A name and a value, divided at the first `=`. The name must not be empty. -/
def pair? (s : String) : Option (String × String) :=
  match s.toList.span (· != '=') with
  | (c :: name, _ :: value) => some (String.ofList (c :: name), String.ofList value)
  | _ => none

namespace Form

/-- Reads a text. -/
def readText (f : Form) (s : String) : Except Usage Value :=
  match f with
  | path => .ok (.path (Path.ofString s))
  | text => .ok (.text s)
  | integer =>
    match Integer.parse s with
    | .ok i => .ok (.integer i)
    | .error flaw => .error (.unreadable flaw.message)
  | pair =>
    match pair? s with
    | some (name, value) => .ok (.pair name value)
    | none => .error (.unreadable ("expected KEY=VALUE, got '" ++ s ++ "'"))
  | word offered => if s ∈ offered then .ok (.text s) else .error .invalidValue

/-- Reads what was given. Only paths may be something other than text. -/
def read (f : Form) (given : Bytes) : Except Usage Value :=
  match f with
  | path => if given = [] then .error .invalidValue else .ok (.path given)
  | word _ =>
    match Utf8.decode? given with
    | some s => f.readText s
    | none => .error .invalidValue
  | _ =>
    match Utf8.decode? given with
    | some s => f.readText s
    | none => .error .invalidUtf8

end Form

end ToolRunner.Options
