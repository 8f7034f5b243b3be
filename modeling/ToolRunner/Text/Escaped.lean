import ToolRunner.Text.Printable

/-!
# Escaped text

How a message shows a text that may hold anything: quotes and backslashes are escaped, and what
would not be seen is written by its number.
-/

namespace ToolRunner.Text

def hexDigits (n : Nat) : List Char :=
  Nat.toDigits 16 n

/-- The written form of one character. `alone` says that nothing stands before it to attach to. -/
def escapeChar (alone : Bool) (c : Char) : List Char :=
  if c = '\x00' then ['\\', '0']
  else if c = '\t' then ['\\', 't']
  else if c = '\r' then ['\\', 'r']
  else if c = '\n' then ['\\', 'n']
  else if c = '"' ∨ c = '\'' ∨ c = '\\' then ['\\', c]
  else if alone && isExtending c || !isPrintable c then
    ['\\', 'u', '\x7b'] ++ hexDigits c.toNat ++ ['\x7d']
  else [c]

def escape (s : String) : String :=
  match s.toList with
  | [] => ""
  | c :: cs => String.ofList (escapeChar true c ++ cs.flatMap (escapeChar false))

end ToolRunner.Text
