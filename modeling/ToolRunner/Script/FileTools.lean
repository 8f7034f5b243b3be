import ToolRunner.Script.Tools

/-!
# Tools for files

Tools that make, change or remove files, and that take paths apart.
-/

namespace ToolRunner.Script

/-- The place that a path names, whether anything stands there or not. -/
def placeOf (s : Shell) (p : Chars) : Place :=
  (Path.components (Path.join (FileTree.pathOf s.directory) (toBytes p))).filterMap fun
    | .name n => some n
    | _ => none

def operands (args : List Chars) : List Chars := args.filter fun (a : Chars) => a.head? != some '-'

def makeTool (entry : Entry) (args : List Chars) : Run Nat := do
  let s ← get
  let add (t : FileTree) (p : Chars) : FileTree :=
    if t.exists? s.directory (toBytes p) then t else t.add (placeOf s p) entry
  set { s with files := (operands args).foldl add s.files }
  return 0

/-- Removes files. -/
def rmTool (args : List Chars) : Run Nat := do
  let forced := args.any fun a => a.head? == some '-' && a.contains 'f'
  let mut status := 0
  for p in operands args do
    let s ← get
    match s.look p with
    | .ok _ => set { s with files := s.files.remove (placeOf s p) }
    | .error e =>
      if !forced then
        complain ("rm: cannot remove '" ++ shown p ++ "': " ++ e.text)
        status := 1
  return status

def modeExecutes (mode : Chars) : Bool :=
  if mode.all Char.isDigit then (natOf mode) % 2 = 1 else mode.contains '+' && mode.contains 'x'

/-- Sets whether files may be executed. -/
def chmodTool (args : List Chars) : Run Nat := do
  let mut status := 0
  for p in args.drop 1 do
    let s ← get
    match s.look p, s.files.resolve s.directory (toBytes p) with
    | .ok (.file content _), .ok place =>
      set { s with files := s.files.put place (.file content (modeExecutes (args.headD []))) }
    | .ok _, _ => pure ()
    | .error e, _ =>
      complain ("chmod: cannot access '" ++ shown p ++ "': " ++ e.text)
      status := 1
  return status

/-- Names files. -/
def lsTool (args : List Chars) : Run Nat := do
  let mut status := 0
  for p in operands args do
    match (← get).look p with
    | .ok (.file ..) => let _ ← put "ls" (toBytes p ++ [10])
    | .ok _ => pure ()
    | .error e =>
      complain ("ls: cannot access '" ++ shown p ++ "': " ++ e.text)
      status := 2
  return status

def basenameTool (args : List Chars) : Run Nat := do
  let name := ofBytes ((Path.fileName? (toBytes (args.headD []))).getD [Path.slash])
  let ending := (args[1]?).getD []
  let cut := name != ending && ending.reverse.isPrefixOf name.reverse
  put "basename" (toBytes (if cut then name.take (name.length - ending.length) else name) ++ [10])

def dirnameTool (args : List Chars) : Run Nat := do
  let parent := (Path.parent? (toBytes (args.headD []))).getD [Path.slash]
  put "dirname" ((if parent.isEmpty then Path.dot else parent) ++ [10])

end ToolRunner.Script
