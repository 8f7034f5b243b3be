import ToolRunner.Command
import ToolRunner.FileTree

/-!
# Hosts

The surroundings of a program: the files it can reach, the directory it works in, and its
environment variables. Bare program names are looked for in the directories of `PATH`.
-/

namespace ToolRunner

structure Host where
  files : FileTree
  directory : Place
  environment : Variables
  /-- The home directory that the user's account names. -/
  accountHome : Option Path

namespace Host

def value? (h : Host) (name : String) : Option Bytes :=
  h.environment.find? (Bytes.ofString name)

def withVariable (h : Host) (name : String) (value : Option Bytes) : Host :=
  match value with
  | some v => { h with environment := h.environment.insert (Bytes.ofString name) v }
  | none =>
    { h with
      environment :=
        .ofList (h.environment.toList.filter fun v => v.1 != Bytes.ofString name) }

def searchList (path : Bytes) : List Path :=
  Bytes.splitOn 58 path

def homeVariable (h : Host) : Option Path :=
  (h.value? "HOME").filter (· != [])

def home (h : Host) : Option Path :=
  h.homeVariable <|> h.accountHome

def isDirectory (h : Host) (p : Path) : Bool := h.files.isDirectory h.directory p

def isFile (h : Host) (p : Path) : Bool := h.files.isFile h.directory p

/-- The components of a path seen from the working directory, leading ones of which are no `.`. -/
def absolute (h : Host) (p : Path) : Path :=
  if Path.isAbsolute p then p
  else
    Path.join (FileTree.pathOf h.directory)
      (Path.ofComponents ((Path.components p).dropWhile (· == .here)))

/-- A search directory, where a leading `~` is the home directory that `HOME` names. -/
def expandHome (h : Host) (dir : Path) : Path :=
  match Path.components dir, h.homeVariable with
  | .name n :: rest, some home =>
    if n = Bytes.ofString "~" then
      if rest.isEmpty then home else Path.join home (Path.ofComponents rest)
    else dir
  | _, _ => dir

/-- Why no program was found. -/
inductive SearchError where
  | noSearchList
  | notFound
deriving DecidableEq, Repr

namespace SearchError

def message : SearchError → String
  | noSearchList => "no path to search and provided name is not an absolute path"
  | notFound => "cannot find binary path"

end SearchError

/-- The paths at which a program may be found, in the order in which they are tried. A name of more
than one component is seen from the working directory. -/
def programCandidates (h : Host) (name : Bytes) : Except SearchError (List Path) :=
  if 1 < (Path.components name).length then .ok [h.absolute name]
  else
    match h.value? "PATH" with
    | none => .error .noSearchList
    | some path => .ok ((searchList path).map fun dir => Path.join (h.expandHome dir) name)

/-- The first executable file that a program name stands for. The lookup is the one that `which`
documents: a bare name is looked for in the directories of `PATH` in their order and any other name
from the working directory, what is found has to be an executable file, and the path given back is
the one at which it was found, with no link followed. -/
def findProgram (h : Host) (name : Bytes) : Except SearchError Path := do
  let candidates ← h.programCandidates name
  match candidates.find? (h.files.isExecutable h.directory) with
  | some p => .ok p
  | none => .error .notFound

end Host

/-- The command with its program replaced by the path at which it is found. -/
def Command.resolved (c : Command) (h : Host) : Result Command :=
  match h.findProgram c.program with
  | .ok p => .ok { c with program := p }
  | .error e =>
    .error (.invalidCommand
      ("cannot resolve executable '" ++ c.programText ++ "': " ++ e.message))

end ToolRunner
