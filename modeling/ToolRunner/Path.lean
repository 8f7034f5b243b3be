import ToolRunner.Text.Utf8

/-!
# Paths

A path is a byte string whose parts are separated by slashes. Paths are compared and taken apart by
their components: repeated and trailing slashes and a `.` inside a path make no difference, while
`..` is a component of its own, since what it means depends on links.
-/

namespace ToolRunner

/-- The name of a file, as written. -/
abbrev Path := Bytes

namespace Path

def slash : UInt8 := 47

def dot : Bytes := [46]

def dotdot : Bytes := [46, 46]

/-- What a path is made of. -/
inductive Component where
  | root
  /-- A `.` that begins the path. -/
  | here
  | up
  | name (name : Bytes)
deriving DecidableEq, Repr

def display (p : Path) : String := Utf8.decode p

def isAbsolute (p : Path) : Bool :=
  p.head? == some slash

/-- Whether a part is no component where it stands after another part. -/
def isVoid (part : Bytes) : Bool :=
  part == [] || part == dot

/-- The component that a part is where it stands after another part. -/
def component? (part : Bytes) : Option Component :=
  if isVoid part then none
  else if part = dotdot then some .up
  else some (.name part)

/-- The components of the part that begins a path. -/
def firstComponent? (p : Path) (part : Bytes) : Option Component :=
  if isAbsolute p then some .root
  else if part = dot then some .here
  else component? part

def components (p : Path) : List Component :=
  match Bytes.splitOn slash p with
  | [] => []
  | first :: rest => (firstComponent? p first).toList ++ rest.filterMap component?

/-- The path of the components. -/
def ofComponents : List Component → Path
  | [] => []
  | .root :: rest => slash :: ofComponents rest
  | .here :: rest => dot ++ separated rest
  | .up :: rest => dotdot ++ separated rest
  | .name n :: rest => n ++ separated rest
where
  /-- What follows a component that is not the root. -/
  separated : List Component → Path
    | [] => []
    | .root :: rest => separated rest
    | .here :: rest => separated rest
    | .up :: rest => slash :: dotdot ++ separated rest
    | .name n :: rest => slash :: n ++ separated rest

/-- The path `q` as seen from `p`; an absolute path is the same from everywhere. -/
def join (p q : Path) : Path :=
  if isAbsolute q then q
  else if p = [] then q
  else if p.getLast? = some slash then p ++ q
  else p ++ slash :: q

/-- Parts without the void ones at their end. -/
def dropVoidEnd (parts : List Bytes) : List Bytes :=
  (parts.reverse.dropWhile isVoid).reverse

/-- The path without its last component; the root and the empty path have none. -/
def parent? (p : Path) : Option Path :=
  match Bytes.splitOn slash p with
  | [] => none
  | first :: rest =>
    match dropVoidEnd rest with
    | [] => if first = [] then none else some []
    | parts =>
      match dropVoidEnd parts.dropLast with
      | [] => some (if isAbsolute p then [slash] else first)
      | kept => some (Bytes.joinWith [slash] (first :: kept))

def fileName? (p : Path) : Option Bytes :=
  match (components p).getLast? with
  | some (.name n) => some n
  | _ => none

def endsWith (p : Path) (last : List Component) : Bool :=
  last.isSuffixOf (components p)

def ofString (s : String) : Path := Bytes.ofString s

def child (p : Path) (name : String) : Path := join p (ofString name)

end Path

end ToolRunner
