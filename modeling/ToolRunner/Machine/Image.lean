import ToolRunner.FileTree

/-!
# Programs in files

What a file that may be executed stands for: one of the machine's tools, or a script whose first
line names the program that reads it.
-/

namespace ToolRunner.Machine

/-- The first bytes of a file with machine code, which are no text. -/
def magic : Bytes := [0x7F, 0x45, 0x4C, 0x46, 0xFF]

def image (tool : String) : Bytes := magic ++ Bytes.ofString tool

/-- The tool that a file holds. -/
def tool? (content : Bytes) : Option String :=
  if magic.isPrefixOf content then some (Utf8.decode (content.drop magic.length)) else none

def isBlank (b : UInt8) : Bool := b == 32 || b == 9

def trim (bs : Bytes) : Bytes :=
  ((bs.dropWhile isBlank).reverse.dropWhile isBlank).reverse

/-- The program that the first line of a script names, and the argument that it may give. -/
def interpreter? (content : Bytes) : Option (Path × List Bytes) :=
  match content with
  | 35 :: 33 :: rest =>
    let line := trim (rest.takeWhile (· != Bytes.newline))
    let program := line.takeWhile (! isBlank ·)
    let argument := trim (line.drop program.length)
    if program.isEmpty then none
    else some (program, if argument.isEmpty then [] else [argument])
  | _ => none

/-- How many scripts may be read by scripts. -/
def scriptLimit : Nat := 5

/-- The tool that runs when a file is executed, and its arguments, of which the first is the name
under which it runs. -/
def load (t : FileTree) (cwd : Place) :
    Nat → Path → List Bytes → Except OsError (String × List Bytes)
  | 0, _, _ => .error .tooManyLinks
  | depth + 1, path, argv =>
    match t.look cwd path with
    | .error e => .error e
    | .ok (.file content executable) =>
      if !executable then .error .permissionDenied
      else
        match tool? content, interpreter? content with
        | some tool, _ => .ok (tool, argv)
        | none, some (program, arguments) =>
          load t cwd depth program (program :: arguments ++ path :: argv.drop 1)
        | none, none => .error .notExecutableFormat
    | .ok _ => .error .permissionDenied

end ToolRunner.Machine
