import ToolRunner.Script.Lexer

/-!
# Arithmetic in scripts

The value of an expression over the integers of 64 bits, in which a name stands for the number that
is its value. Operators bind as in most languages; truth is one and falsehood zero.
-/

namespace ToolRunner.Script.Arithmetic

/-- An integer of 64 bits. -/
def word (i : Int) : Int := (Int64.ofInt i).toInt

def ofBool (b : Bool) : Int := if b then 1 else 0

/-- The binary operators by how strongly they bind, weakest first. Longer names come first. -/
def levels : List (List String) :=
  [["||"], ["&&"], ["|"], ["^"], ["&"], ["==", "!="], ["<=", ">=", "<", ">"], ["<<", ">>"],
    ["+", "-"], ["*", "/", "%"]]

/-- What a binary operator makes of two numbers; nothing for a division by zero. -/
def apply (name : String) (a b : Int) : Option Int :=
  match name with
  | "||" => some (ofBool (a != 0 || b != 0))
  | "&&" => some (ofBool (a != 0 && b != 0))
  | "|" => some (Int64.ofInt a ||| Int64.ofInt b).toInt
  | "^" => some (Int64.ofInt a ^^^ Int64.ofInt b).toInt
  | "&" => some (Int64.ofInt a &&& Int64.ofInt b).toInt
  | "==" => some (ofBool (a == b))
  | "!=" => some (ofBool (a != b))
  | "<=" => some (ofBool (a ≤ b))
  | ">=" => some (ofBool (a ≥ b))
  | "<" => some (ofBool (a < b))
  | ">" => some (ofBool (a > b))
  | "<<" => some (Int64.ofInt a <<< Int64.ofInt b).toInt
  | ">>" => some (Int64.ofInt a >>> Int64.ofInt b).toInt
  | "+" => some (word (a + b))
  | "-" => some (word (a - b))
  | "*" => some (word (a * b))
  | "/" => if b = 0 then none else some (word (a.tdiv b))
  | _ => if b = 0 then none else some (a.tmod b)

def skipBlanks (cs : Chars) : Chars := cs.dropWhile fun c => c == ' ' || c == '\t' || c == '\n'

def operator? (names : List String) (cs : Chars) : Option (String × Chars) :=
  names.findSome? fun name =>
    let n := name.toList
    if n.isPrefixOf cs then
      let rest := cs.drop n.length
      let doubled := ["|", "&", "<", ">"].contains name && rest.head? == n.head?
      if doubled || (["<", ">"].contains name && rest.head? == some '=') then none
      else some (name, rest)
    else none

/-- The number that digits stand for: octal after a zero, hexadecimal after `0x`. -/
def number (digits : Chars) : Option Int :=
  let value (base : Nat) (cs : Chars) : Option Int :=
    cs.foldlM
      (fun (n : Int) c =>
        let d := if c.isDigit then c.toNat - 48 else c.toLower.toNat - 87
        if c.isAlphanum && d < base then some (n * base + d) else none)
      0
  match digits with
  | '0' :: x :: rest => if x == 'x' || x == 'X' then value 16 rest else value 8 (x :: rest)
  | _ => value 10 digits

inductive Flaw where
  | divisionByZero
  | malformed
deriving DecidableEq, Repr

namespace Flaw

def message : Flaw → String
  | divisionByZero => "division by zero"
  | malformed => "expecting primary"

end Flaw

/-- A value and the text after its expression. -/
abbrev Reading := Except Flaw (Int × Chars)

mutual

/-- A choice, or a weaker expression. -/
def expression (look : Chars → Int) : Nat → Chars → Reading
  | 0, _ => .error .malformed
  | fuel + 1, cs => do
    let (test, rest) ← binary look fuel 0 cs
    match skipBlanks rest with
    | '?' :: rest =>
      let (yes, rest) ← expression look fuel rest
      match skipBlanks rest with
      | ':' :: rest =>
        let (no, rest) ← expression look fuel rest
        return (if test != 0 then yes else no, rest)
      | _ => throw .malformed
    | rest => return (test, rest)

/-- An expression whose operators bind at least as strongly as those of a level. -/
def binary (look : Chars → Int) : Nat → Nat → Chars → Reading
  | 0, _, _ => .error .malformed
  | fuel + 1, level, cs =>
    if level < levels.length then do
      let (a, rest) ← binary look fuel (level + 1) cs
      binaryRest look fuel level a rest
    else unary look fuel (skipBlanks cs)

def binaryRest (look : Chars → Int) : Nat → Nat → Int → Chars → Reading
  | 0, _, _, _ => .error .malformed
  | fuel + 1, level, a, cs =>
    match operator? (levels[level]?.getD []) (skipBlanks cs) with
    | none => .ok (a, cs)
    | some (name, rest) => do
      let (b, rest) ← binary look fuel (level + 1) rest
      match apply name a b with
      | none => throw .divisionByZero
      | some c => binaryRest look fuel level c rest

/-- A number, a name, or an expression in brackets, with signs before it. -/
def unary (look : Chars → Int) : Nat → Chars → Reading
  | 0, _ => .error .malformed
  | fuel + 1, '-' :: cs => (unary look fuel (skipBlanks cs)).map fun (a, rest) => (word (-a), rest)
  | fuel + 1, '+' :: cs => unary look fuel (skipBlanks cs)
  | fuel + 1, '!' :: cs =>
    (unary look fuel (skipBlanks cs)).map fun (a, rest) => (ofBool (a == 0), rest)
  | fuel + 1, '~' :: cs => (unary look fuel (skipBlanks cs)).map fun (a, rest) => (-a - 1, rest)
  | fuel + 1, '(' :: cs => do
    let (a, rest) ← expression look fuel cs
    match skipBlanks rest with
    | ')' :: rest => return (a, rest)
    | _ => throw .malformed
  | _ + 1, c :: cs =>
    let (text, rest) := (c :: cs).span isNameChar
    if c.isDigit then
      match number text with
      | some n => .ok (word n, rest)
      | none => .error .malformed
    else if isNameStart c then .ok (look text, rest)
    else .error .malformed
  | _, [] => .error .malformed

end

/-- The value of an expression. -/
def value (look : Chars → Int) (cs : Chars) : Except Flaw Int := do
  let (a, rest) ← expression look (16 * cs.length + 32) cs
  if (skipBlanks rest).isEmpty then return a else throw .malformed

end ToolRunner.Script.Arithmetic
