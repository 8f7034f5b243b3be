import ToolRunner.Text.Blank
import ToolRunner.Text.Case.Table

/-!
# Lower case

The full lower-case mapping of text. All characters map one by one, except that a capital sigma at
the end of a word takes its final form, which depends on what stands around it.
-/

namespace ToolRunner.Text

/-- A letter that has a case and is not passed over when the neighbours of a sigma are looked at. -/
def isCased (c : Char) : Bool :=
  inRanges casedRanges c.toNat

/-- A character that is passed over when the neighbours of a sigma are looked at. -/
def isCaseIgnorable (c : Char) : Bool :=
  inRanges caseIgnorableRanges c.toNat

/-- The run that a number belongs to. -/
def CaseRun.holds (r : CaseRun) (n : Nat) : Bool :=
  decide (r.first ≤ n) && decide (n ≤ r.last) && (n - r.first) % r.step == 0

/-- The lower-case form of a character by itself. -/
def lowerChar (c : Char) : List Char :=
  if c = '\u0130' then ['i', '\u0307']
  else
    match lowerRuns.find? (·.holds c.toNat) with
    | some r => [Char.ofNat (c.toNat + r.shift).toNat]
    | none => [c]

/-- Whether the first character that is not passed over is cased. -/
def facesCased (cs : List Char) : Bool :=
  match cs.dropWhile isCaseIgnorable with
  | [] => false
  | c :: _ => isCased c

/-- Maps the characters that follow `before`, which is given in reverse. -/
def lowerAfter (before : List Char) : List Char → List Char
  | [] => []
  | c :: cs =>
    let form :=
      if c = 'Σ' then
        if facesCased before && !facesCased cs then ['ς'] else ['σ']
      else lowerChar c
    form ++ lowerAfter (c :: before) cs

def toLower (s : String) : String :=
  String.ofList (lowerAfter [] s.toList)

end ToolRunner.Text
