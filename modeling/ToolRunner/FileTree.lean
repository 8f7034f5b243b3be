import ToolRunner.Path
import ToolRunner.OsError

/-!
# File trees

Files, directories and symbolic links, found by walking a path from a directory. `resolve` is the
walk: it follows links, at most forty in one path, and says where the path leads or why it leads
nowhere. What a program has no permission for is `closed` to it: it can be found, but not looked
into.
-/

namespace ToolRunner

/-- The names from the root down to a place in the tree. -/
abbrev Place := List Bytes

/-- What stands at a place. -/
inductive Entry where
  | directory
  | file (content : Bytes) (executable : Bool)
  | link (target : Path)
  /-- A directory that may be neither listed nor searched, or a file that may not be read. -/
  | closed (isDirectory : Bool)
deriving DecidableEq, Repr

/-- A tree of files below a root directory. -/
structure FileTree where
  entry? : Place → Option Entry

namespace FileTree

def empty : FileTree := ⟨fun place => if place = [] then some .directory else none⟩

def put (t : FileTree) (place : Place) (e : Entry) : FileTree :=
  ⟨fun p => if p = place then some e else t.entry? p⟩

def remove (t : FileTree) (place : Place) : FileTree :=
  ⟨fun p => if place.isPrefixOf p then none else t.entry? p⟩

/-- Makes the directories on the way to a place, where nothing stands yet. -/
def makeParents (t : FileTree) (place : Place) : FileTree :=
  (List.range place.length).foldl
    (fun t n => if (t.entry? (place.take n)).isSome then t else t.put (place.take n) .directory) t

def add (t : FileTree) (place : Place) (e : Entry) : FileTree :=
  (t.makeParents place).put place e

def linkLimit : Nat := 40

def nameLimit : Nat := 255

/-- The length from which a path is too long. -/
def pathLimit : Nat := 4096

/--
Walks from the directory `place` along `parts`. With `follow`, a link that the walk ends at is
followed too; `links` is how many may still be.
-/
def walk (t : FileTree) (follow : Bool) (links : Nat) (place : Place) (parts : List Bytes) :
    Except OsError Place :=
  match parts with
  | [] => .ok place
  | part :: rest =>
    match t.entry? place with
    | none => .error .notFound
    | some (.file _ _) => .error .notADirectory
    | some (.link _) => .error .notADirectory
    | some (.closed false) => .error .notADirectory
    | some (.closed true) =>
      -- A slash at the end asks for a directory and looks nothing up in it.
      if part = [] then t.walk follow links place rest else .error .permissionDenied
    | some .directory =>
      if Path.isVoid part then t.walk follow links place rest
      else if part = Path.dotdot then t.walk follow links place.dropLast rest
      else if nameLimit < part.length then .error .nameTooLong
      else
        match t.entry? (place ++ [part]) with
        | none => .error .notFound
        | some (.link target) =>
          if rest.isEmpty && !follow then .ok (place ++ [part])
          else
            match links with
            | 0 => .error .tooManyLinks
            | links + 1 =>
              t.walk follow links (if Path.isAbsolute target then [] else place)
                (Bytes.splitOn Path.slash target ++ rest)
        | some _ => t.walk follow links (place ++ [part]) rest
termination_by (links, parts.length)

/-- Where a path leads from the directory `cwd`. -/
def resolve (t : FileTree) (cwd : Place) (p : Path) : Except OsError Place :=
  if p.contains 0 then .error .nulInPath
  else if p = [] then .error .notFound
  else if pathLimit ≤ p.length then .error .nameTooLong
  else t.walk true linkLimit (if Path.isAbsolute p then [] else cwd) (Bytes.splitOn Path.slash p)

def look (t : FileTree) (cwd : Place) (p : Path) : Except OsError Entry := do
  match t.entry? (← t.resolve cwd p) with
  | some e => .ok e
  | none => .error .notFound

def exists? (t : FileTree) (cwd : Place) (p : Path) : Bool :=
  (t.look cwd p).isOk

def isDirectory (t : FileTree) (cwd : Place) (p : Path) : Bool :=
  match t.look cwd p with
  | .ok .directory => true
  | .ok (.closed isDirectory) => isDirectory
  | _ => false

def isFile (t : FileTree) (cwd : Place) (p : Path) : Bool :=
  match t.look cwd p with
  | .ok (.file _ _) => true
  | .ok (.closed isDirectory) => !isDirectory
  | _ => false

def isExecutable (t : FileTree) (cwd : Place) (p : Path) : Bool :=
  match t.look cwd p with
  | .ok (.file _ executable) => executable
  | _ => false

def read (t : FileTree) (cwd : Place) (p : Path) : Except OsError Bytes := do
  match ← t.look cwd p with
  | .file content _ => .ok content
  | .closed _ => .error .permissionDenied
  | _ => .error .isADirectory

def readText (t : FileTree) (cwd : Place) (p : Path) : Except OsError String := do
  match Utf8.decode? (← t.read cwd p) with
  | some s => .ok s
  | none => .error .notUtf8

def pathOf (place : Place) : Path :=
  Path.ofComponents (.root :: place.map .name)

/-- The absolute path, free of links, of the place where a path leads. There is none if the place
cannot be reached by it, be it too long or closed on its way from the root. -/
def canonical (t : FileTree) (cwd : Place) (p : Path) : Except OsError Path := do
  let place ← t.resolve cwd p
  if (← t.resolve cwd (pathOf place)) = place then .ok (pathOf place) else .error .notFound

end FileTree

end ToolRunner
