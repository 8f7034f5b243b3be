import ToolRunner.Text.Bytes

/-!
# Shell scripts

The commands that a script is made of. A script is bytes; each byte is held as the character of the
same number, so that the characters with a meaning can be written as what they are.
-/

namespace ToolRunner.Script

/-- Text of a script or a value in it, one character for each byte. -/
abbrev Chars := List Char

def ofBytes (bs : Bytes) : Chars := bs.map fun b => Char.ofNat b.toNat

def toBytes (cs : Chars) : Bytes := cs.map Bytes.ofAscii

def chars (s : String) : Chars := s.toList

/-- What is asked of a parameter. Where a word is given for another case, `colon` counts an empty
value as none. -/
inductive ParamUse where
  | value
  | length
  | instead (colon : Bool) (word : Chars)
  | assign (colon : Bool) (word : Chars)
  | alternative (colon : Bool) (word : Chars)
  | required (colon : Bool) (word : Chars)
  /-- Without the start that matches a pattern. -/
  | dropStart (longest : Bool) (pattern : Chars)
  /-- Without the end that matches a pattern. -/
  | dropEnd (longest : Bool) (pattern : Chars)
  /-- Nothing that is known. -/
  | wrong
deriving DecidableEq, Repr

inductive Part where
  | text (cs : Chars) (quoted : Bool)
  | param (name : Chars) (use : ParamUse) (quoted : Bool)
  | arithmetic (expr : Chars) (quoted : Bool)
  /-- The output of a script. -/
  | output (script : Chars) (quoted : Bool)
deriving DecidableEq, Repr

/-- A word as written. -/
abbrev Word := List Part

/-- The text of a word without quotes and expansions. -/
def plain? : Word → Option Chars
  | [.text cs false] => some cs
  | _ => none

/-- What a redirection does with a descriptor. -/
inductive Redirection where
  | input
  | output
  | append
  /-- To where another descriptor leads, or closed. -/
  | duplicate
  /-- Input from a text in the script. -/
  | here
deriving DecidableEq, Repr

/-- A descriptor and where it is to lead. -/
structure Redirect where
  descriptor : Nat
  kind : Redirection
  target : Word
deriving DecidableEq, Repr

inductive Code where
  | skip
  | simple (line : Nat) (assignments : List (Chars × Word)) (words : List Word)
      (redirects : List Redirect)
  | redirected (body : Code) (redirects : List Redirect)
  | sequence (first second : Code)
  | both (first second : Code)
  | either (first second : Code)
  | negated (body : Code)
  | background (body : Code)
  | pipeline (first second : Code)
  | subshell (body : Code)
  | conditional (test yes no : Code)
  /-- Repeats the body as long as the test has the given outcome. -/
  | loop (outcome : Bool) (test body : Code)
  /-- Repeats the body for each word; for each parameter where no words are given. -/
  | each (name : Chars) (words : Option (List Word)) (body : Code)
  /-- The body if the word matches a pattern, else another command. -/
  | matching (subject : Word) (patterns : List Word) (body otherwise : Code)
  | define (name : Chars) (body : Code)

/-- A script as far as it could be read: its commands by lines, and what was wrong after them. -/
structure Program where
  lines : List Code
  error : Option (Nat × String)

end ToolRunner.Script
