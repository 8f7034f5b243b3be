import ToolRunner.Path
import ToolRunner.SortedMap

/-!
# Flags

How a typed option value is written as tokens of a command. An absent value is written as nothing,
so the tokens of several options are put together by concatenation.
-/

namespace ToolRunner.Sdk.Flag

def token (name : String) : String := "--" ++ name

/-- The flag and its value; nothing for an empty text. -/
def text (name : String) : Option String → List String
  | some v => if v = "" then [] else [token name, v]
  | none => []

/-- The flag and its value in one token; nothing for an empty text. -/
def textJoined (name : String) : Option String → List String
  | some v => if v = "" then [] else [token name ++ "=" ++ v]
  | none => []

def texts (name : String) (values : List String) : List String :=
  values.flatMap fun v => [token name, v]

def integer (name : String) : Option Int → List String
  | some v => [token name, toString v]
  | none => []

def choice (name : String) : Option Bool → List String
  | some true => [token name]
  | some false => [token ("no-" ++ name)]
  | none => []

def switch (name : String) : Option Bool → List String
  | some true => [token name]
  | _ => []

def path (name : String) : Option Path → List String
  | some p => [token name, p.display]
  | none => []

def pairs (vars : SortedMap String String) : List String :=
  vars.toList.map fun v => v.1 ++ "=" ++ v.2

end ToolRunner.Sdk.Flag
