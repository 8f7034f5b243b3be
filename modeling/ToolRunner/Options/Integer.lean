/-!
# Integers in arguments

Decimal integers of 64 bits with an optional sign. The characters are looked at from left to right,
and the first one at which the number cannot go on decides what is wrong with it.
-/

namespace ToolRunner.Options.Integer

/-- What is wrong with the text of an integer. -/
inductive Flaw where
  | empty
  | invalidDigit
  | tooLarge
  | tooSmall
deriving DecidableEq, Repr

namespace Flaw

def message : Flaw → String
  | empty => "cannot parse integer from empty string"
  | invalidDigit => "invalid digit found in string"
  | tooLarge => "number too large to fit in target type"
  | tooSmall => "number too small to fit in target type"

end Flaw

def least : Int := -9223372036854775808

def greatest : Int := 9223372036854775807

/-- Reads the digits of a number that begins with `start`; `negative` tells its sign. -/
def digits (negative : Bool) (start : Int) : List Char → Except Flaw Int
  | [] => .ok start
  | c :: cs =>
    if c.isDigit then
      let digit : Int := c.toNat - '0'.toNat
      let next := if negative then start * 10 - digit else start * 10 + digit
      if next < least then .error .tooSmall
      else if greatest < next then .error .tooLarge
      else digits negative next cs
    else .error .invalidDigit

def parse (s : String) : Except Flaw Int :=
  match s.toList with
  | [] => .error .empty
  | ['+'] => .error .invalidDigit
  | ['-'] => .error .invalidDigit
  | '+' :: cs => digits false 0 cs
  | '-' :: cs => digits true 0 cs
  | cs => digits false 0 cs

end ToolRunner.Options.Integer
