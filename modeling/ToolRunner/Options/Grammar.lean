import ToolRunner.Options.Value

/-!
# Grammars of command lines

Which options and operands a command takes. An option has a long name; what is neither an option
nor its value is an operand. After a lone `--` everything is an operand.
-/

namespace ToolRunner.Options

inductive Arity where
  /-- Without a value, at most once. -/
  | switch
  /-- With a value, at most once. -/
  | single (form : Form)
  /-- With a value, any number of times. -/
  | repeated (form : Form)
deriving DecidableEq, Repr

structure Flag where
  name : String
  arity : Arity
  /-- Whether its value may begin with a hyphen. -/
  hyphens : Bool := false
deriving DecidableEq, Repr

/-- Operands, of which there may be any number. -/
structure Operands where
  name : String
  form : Form
  required : Bool := false
  /-- From the first operand on nothing is an option, and even the first may look like one. -/
  verbatim : Bool := false
deriving DecidableEq, Repr

/-- What a command takes. -/
structure Grammar where
  flags : List Flag
  /-- The operands before a lone `--`, and after it unless others are meant for there. -/
  operands : Option Operands := none
  /-- The operands after a lone `--`. -/
  trailing : Option Operands := none
  /-- Pairs of names that exclude each other. -/
  conflicts : List (String × String) := []
  /-- Commands of its own; if there are any, one must be given. -/
  commands : List String := []
  /-- Whether its version may be asked for. -/
  versioned : Bool := false
deriving DecidableEq, Repr

namespace Grammar

def flag? (g : Grammar) (name : String) : Option Flag :=
  g.flags.find? (·.name == name)

def letter? (g : Grammar) (c : Char) : Option Usage :=
  if c = 'h' then some .help
  else if c = 'V' ∧ g.versioned then some .version
  else none

/-- The long options that ask for something else than a run. -/
def request? (g : Grammar) (name : String) : Option Usage :=
  if name = "help" then some .help
  else if name = "version" ∧ g.versioned then some .version
  else none

def isVerbatim (g : Grammar) : Bool :=
  g.operands.any (·.verbatim)

def operandsAt (g : Grammar) (trailing : Bool) : Option Operands :=
  if trailing then g.trailing <|> g.operands else g.operands

end Grammar

end ToolRunner.Options
