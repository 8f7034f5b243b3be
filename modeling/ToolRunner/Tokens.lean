import ToolRunner.Text.Blank

/-!
# Tokens of a command line

A command line given as one text is divided at blanks that no quote encloses. Quotes only group:
they stay in the token, and nothing is unescaped or interpreted.
-/

namespace ToolRunner.Tokens

/-- The quote that is open after a character. -/
def quoteAfter (quote : Option Char) (c : Char) : Option Char :=
  match quote with
  | none => if c = '"' ∨ c = '\'' then some c else none
  | some q => if c = q then none else some q

/-- Whether a character divides tokens. -/
def divides (quote : Option Char) (c : Char) : Bool :=
  Text.isBlank c && quote.isNone

/--
The tokens of `cs`, where `token` holds the characters of the token that has begun, last one first,
and `quote` is the quote that is open.
-/
def splitFrom (token : Option (List Char)) (quote : Option Char) : List Char → List (List Char)
  | [] => (token.map List.reverse).toList
  | c :: cs =>
    if divides quote c then (token.map List.reverse).toList ++ splitFrom none quote cs
    else splitFrom (some (c :: token.getD [])) (quoteAfter quote c) cs

def split (line : String) : List String :=
  (splitFrom none none line.toList).map String.ofList

end ToolRunner.Tokens
