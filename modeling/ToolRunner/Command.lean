import ToolRunner.Failure
import ToolRunner.Path
import ToolRunner.SortedMap

/-!
# Commands

What is to be run: a program and its arguments, each a token of its own that no shell looks at, a
working directory, and environment variables that override inherited ones.
-/

namespace ToolRunner

abbrev Variables := SortedMap Bytes Bytes

structure Command where
  program : Bytes
  args : List Bytes
  directory : Option Path
  overrides : Variables
deriving DecidableEq

namespace Command

def new (program : Bytes) : Command := ⟨program, [], none, ∅⟩

def addArgs (c : Command) (args : List Bytes) : Command :=
  { c with args := c.args ++ args }

def addArg (c : Command) (arg : Bytes) : Command :=
  c.addArgs [arg]

/-- The command for a program followed by its arguments. -/
def ofArgv : List Bytes → Result Command
  | [] => .error (.invalidCommand "argv must not be empty")
  | program :: args => .ok ((new program).addArgs args)

def inDirectory (c : Command) (directory : Path) : Command :=
  { c with directory := some directory }

/-- Overrides environment variables, of which later ones win. -/
def setAll (c : Command) (vars : List (Bytes × Bytes)) : Command :=
  { c with overrides := c.overrides.insertAll vars }

def set (c : Command) (name value : Bytes) : Command :=
  { c with overrides := c.overrides.insert name value }

def argv (c : Command) : List Bytes := c.program :: c.args

def programText (c : Command) : String := Utf8.decode c.program

/-- The whole command as logs show it; it is not meant to be read back. -/
def line (c : Command) : String := " ".intercalate (c.argv.map Utf8.decode)

/-- A command must name a program. -/
def check (c : Command) : Result Unit :=
  if c.program = [] then .error (.invalidCommand "program (argv[0]) must not be empty") else .ok ()

/-- Whether some part of the command holds a NUL, which no program can be given. -/
def holdsNul (c : Command) : Bool :=
  c.argv.any (·.contains 0) || (c.directory.getD []).contains 0 ||
    c.overrides.toList.any fun v => v.1.contains 0 || v.2.contains 0

end Command

end ToolRunner
