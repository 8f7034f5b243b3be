/-!
# TOML values

What a TOML document says. A table remembers how it came to be, since that decides whether later
lines may add to it.
-/

namespace ToolRunner.Toml

/-- How a table came to be. -/
inductive Origin where
  /-- By a header of its own, or as the document itself. -/
  | header
  /-- On the way to a header below it. -/
  | implied
  /-- On the way of a dotted key. -/
  | dotted
  /-- In braces, all at once. -/
  | inline
deriving DecidableEq, Repr

/-- A value. Numbers are kept as written, and dates and times in their normal form. -/
inductive Value where
  | text (content : String)
  | truth (b : Bool)
  | number (written : String)
  | moment (written : String)
  /-- An array, either in brackets or of tables that each have a header. -/
  | array (ofTables : Bool) (items : List Value)
  | table (origin : Origin) (entries : List (String × Value))

/-- The keys of a table and their values, in the order in which they were written. -/
abbrev Entries := List (String × Value)

namespace Entries

def find? (entries : Entries) (key : String) : Option Value :=
  entries.lookup key

/-- Gives a key the value that `change` makes of its present one, unless it makes none. -/
def alter (key : String) (change : Option Value → Option Value) : Entries → Option Entries
  | [] => (change none).map fun v => [(key, v)]
  | e :: es =>
    if e.1 = key then (change (some e.2)).map fun v => (key, v) :: es
    else (alter key change es).map (e :: ·)

/-- Gives a key a value that it does not have yet. -/
def addNew (key : String) (value : Value) (entries : Entries) : Option Entries :=
  entries.alter key fun old => if old.isSome then none else some value

/-- Changes the last of the items, if it is a table. -/
def alterLast (change : Origin → Entries → Option Entries) : List Value → Option (List Value)
  | [] => none
  | [.table origin entries] => (change origin entries).map fun es => [.table origin es]
  | [_] => none
  | v :: w :: vs => (alterLast change (w :: vs)).map (v :: ·)

/--
Changes the table that `path` leads to, and makes the tables on the way that are missing. The way of
a dotted key may not lead through a table that has a header, and no way leads through a table in
braces. The way through an array of tables is through its last one.
-/
def alterBelow (isDotted : Bool) (path : List String) (change : Origin → Entries → Option Entries)
    (origin : Origin) (entries : Entries) : Option Entries :=
  match path with
  | [] => change origin entries
  | key :: path =>
    entries.alter key fun
      | none =>
        let made := if isDotted then Origin.dotted else .implied
        (alterBelow isDotted path change made []).map (.table made)
      | some (.table o es) =>
        if o = .inline ∨ (isDotted = true ∧ o = .header) then none
        else (alterBelow isDotted path change o es).map (.table o)
      | some (.array true items) =>
        (alterLast (alterBelow isDotted path change) items).map (.array true)
      | some _ => none

/-- Adds a dotted key below a table. A table that such keys made takes no plain ones, and a table
made otherwise takes no dotted ones. -/
def addKey (path : List String) (key : String) (value : Value) (origin : Origin)
    (entries : Entries) : Option Entries :=
  entries.alterBelow true path
    (fun o es => if (o == .dotted) == path.isEmpty then none else es.addNew key value) origin

/-- Opens the table of a header, which must be new or only implied so far. -/
def openTable (path : List String) (key : String) (entries : Entries) : Option Entries :=
  entries.alterBelow false path
    (fun _ es => es.alter key fun
      | none => some (.table .header [])
      | some (.table .implied inner) => some (.table .header inner)
      | some _ => none) .header

/-- Adds a table to an array of tables, which may be new. -/
def openItem (path : List String) (key : String) (entries : Entries) : Option Entries :=
  entries.alterBelow false path
    (fun _ es => es.alter key fun
      | none => some (.array true [.table .header []])
      | some (.array true items) => some (.array true (items ++ [.table .header []]))
      | some _ => none) .header

end Entries

end ToolRunner.Toml
