import ToolRunner.Script.Code

/-!
# Patterns

Whether a text matches a pattern, in which `*` stands for any text, `?` for any character, and
brackets for one character of a set. Quoted characters stand for themselves.
-/

namespace ToolRunner.Script

/-- A character of a pattern, and whether it is quoted. -/
abbrev PatternChar := Char × Bool

/-- Whether a character belongs to the set that ends at the bracket; gives the pattern after it. -/
def inSet (c : Char) (first : Bool) (found : Bool) :
    List PatternChar → Option (Bool × List PatternChar)
  | [] => none
  | (']', false) :: rest =>
    if first then inSet c false (found || c == ']') rest else some (found, rest)
  | (a, _) :: ('-', false) :: (b, q) :: rest =>
    if b == ']' && !q then inSet c false (found || c == a) (('-', true) :: (b, q) :: rest)
    else inSet c false (found || (a ≤ c && c ≤ b)) rest
  | (a, _) :: rest => inSet c false (found || c == a) rest
termination_by p => p.length
decreasing_by all_goals simp only [List.length_cons]; omega

/-- Whether a text matches a pattern. -/
def matchesFor : Nat → List PatternChar → Chars → Bool
  | 0, _, _ => false
  | _ + 1, [], cs => cs.isEmpty
  | fuel + 1, ('*', false) :: p, cs =>
    matchesFor fuel p cs ||
      match cs with
      | [] => false
      | _ :: cs => matchesFor fuel (('*', false) :: p) cs
  | fuel + 1, ('?', false) :: p, _ :: cs => matchesFor fuel p cs
  | fuel + 1, ('[', false) :: p, c :: cs =>
    let negated := p.head? == some ('!', false)
    match inSet c true false (if negated then p.drop 1 else p) with
    | some (found, rest) => found != negated && matchesFor fuel rest cs
    | none => c == '[' && matchesFor fuel p cs
  | fuel + 1, (a, _) :: p, c :: cs => a == c && matchesFor fuel p cs
  | _, _ :: _, [] => false

def matchesPattern (p : List PatternChar) (cs : Chars) : Bool :=
  matchesFor (2 * (p.length + cs.length) + 2) p cs

/-- A text without its shortest or longest start that matches. -/
def dropMatchingStart (longest : Bool) (p : List PatternChar) (cs : Chars) : Chars :=
  let lengths := List.range (cs.length + 1)
  let tried := if longest then lengths.reverse else lengths
  match tried.find? fun n => matchesPattern p (cs.take n) with
  | some n => cs.drop n
  | none => cs

/-- A text without its shortest or longest end that matches. -/
def dropMatchingEnd (longest : Bool) (p : List PatternChar) (cs : Chars) : Chars :=
  let lengths := List.range (cs.length + 1)
  let tried := if longest then lengths else lengths.reverse
  match tried.find? fun n => matchesPattern p (cs.drop n) with
  | some n => cs.take n
  | none => cs

end ToolRunner.Script
