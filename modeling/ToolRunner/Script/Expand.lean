import ToolRunner.Script.Pattern
import ToolRunner.Script.Shell
import ToolRunner.Script.Arithmetic

/-!
# Fields

What the words of a command become once their expansions are known: text that stays together, text
that is divided at blanks, and places where a new field begins.
-/

namespace ToolRunner.Script

/-- A part of a word after expansion. -/
inductive Piece where
  | fixed (cs : Chars) (quoted : Bool)
  /-- Divided at blanks. -/
  | loose (cs : Chars)
  /-- Between two parameters. -/
  | next
deriving DecidableEq, Repr

namespace Piece

/-- Text that stays together where it is quoted and is divided where not. -/
def ofValue (quoted : Bool) (cs : Chars) : Piece := if quoted then fixed cs true else loose cs

end Piece

/-- Fields under way: the one that has begun, and the finished ones, last one first. -/
structure Fields where
  current : Option Chars
  done : List Chars

namespace Fields

def finish (f : Fields) : Fields := ⟨none, f.current.toList ++ f.done⟩

def add (f : Fields) (cs : Chars) : Fields := { f with current := some (f.current.getD [] ++ cs) }

/-- Adds text that is divided at the characters of a set. -/
def addLoose (dividers : Chars) (f : Fields) (cs : Chars) : Fields :=
  cs.foldl (fun f c => if dividers.contains c then f.finish else f.add [c]) f

def addPiece (dividers : Chars) (f : Fields) : Piece → Fields
  | .fixed cs quoted => if quoted || !cs.isEmpty then f.add cs else f
  | .loose cs => f.addLoose dividers cs
  | .next => f.finish

end Fields

/-- The fields that pieces form. -/
def fieldsOf (dividers : Chars) (pieces : List Piece) : List Chars :=
  ((pieces.foldl (Fields.addPiece dividers) ⟨none, []⟩).finish).done.reverse

def joined (pieces : List Piece) : Chars :=
  pieces.flatMap fun
    | .fixed cs _ => cs
    | .loose cs => cs
    | .next => [' ']

def patternOf (pieces : List Piece) : List PatternChar :=
  pieces.flatMap fun
    | .fixed cs quoted => cs.map (·, quoted)
    | .loose cs => cs.map (·, false)
    | .next => [(' ', true)]

/-- The parts of a text in which blanks and operators are ordinary characters. -/
def looseParts : Nat → List Part → Chars → Except String (List Part)
  | 0, parts, _ => .ok parts
  | fuel + 1, parts, cs =>
    match wordParts (cs.length + 1) parts cs with
    | .error e => .error e
    | .ok (parts, []) => .ok parts
    | .ok (parts, c :: rest) => looseParts fuel (addChar false c parts) rest

/-- The word that stands inside an expansion. -/
def innerWord (quoted : Bool) (cs : Chars) : Word :=
  let parts :=
    if quoted then (doubleQuoted (cs.length + 2) [] (cs ++ ['"'])).map (·.1)
    else looseParts (cs.length + 1) [] cs
  (parts.toOption.getD [.text cs quoted]).reverse

/-- The value of a parameter that the script has. -/
def parameter (s : Shell) (name : Chars) : Option Chars :=
  match name with
  | ['#'] => some (toString s.params.length).toList
  | ['?'] => some (toString s.status).toList
  | ['$'] => some (toString s.pid).toList
  | ['!'] => s.jobs.head?.map fun j => (toString j.pid).toList
  | ['-'] => some (if s.stopsOnFailure then ['e'] else [])
  | ['@'] => if s.params.isEmpty then none else some ([' '].intercalate s.params)
  | ['*'] => if s.params.isEmpty then none else some ([' '].intercalate s.params)
  | ['0'] => some s.name
  | c :: _ =>
    if c.isDigit then s.params[((String.ofList name).toNat?.getD 1) - 1]? else s.value? name
  | [] => none

def numericValue (s : Shell) (name : Chars) : Int :=
  (Arithmetic.value (fun _ => 0) ((parameter s name).getD [])).toOption.getD 0

end ToolRunner.Script
