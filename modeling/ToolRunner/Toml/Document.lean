import ToolRunner.Toml.Quoted
import ToolRunner.Toml.Scalar

/-!
# TOML documents

`Document.parse` reads a document of TOML 1.1 into the entries of its outermost table. There is no
result where the document is not well formed, says something twice, or nests too deeply. Except for
the limit on nesting, which is that of the `toml` reader, it follows the TOML specification, which
that reader documents as what it accepts: its grammar, and its rules that a table is defined once,
that dotted keys extend only tables they have made, and that nothing extends a table in braces.

The readers below take what is left of the document and give what they read and what is then left.
`fuel` bounds the number of steps; the wrapper gives as many as the length of the document allows.
-/

namespace ToolRunner.Toml.Document

/-- How deeply arrays and tables in braces may nest. -/
def depthLimit : Nat := 80

def skipSpaces (cs : List Char) : List Char := cs.dropWhile isSpace

/-- Skips spaces, line ends and comments. -/
def skipVoid (comment : Bool) : List Char → Option (List Char)
  | [] => some []
  | '\n' :: cs => skipVoid false cs
  | '\r' :: '\n' :: cs => skipVoid false cs
  | c :: cs =>
    if comment then if isControl c then none else skipVoid true cs
    else if isSpace c then skipVoid false cs
    else if c = '#' then skipVoid true cs
    else some (c :: cs)

/-- A character of a key without quotes. -/
def isBare (c : Char) : Bool := c.isAlphanum || c == '_' || c == '-'

def simpleKey : List Char → Option (String × List Char)
  | '"' :: cs => Quoted.read ⟨'"', false⟩ cs
  | '\'' :: cs => Quoted.read ⟨'\'', false⟩ cs
  | cs =>
    match cs.takeWhile isBare with
    | [] => none
    | key => some (String.ofList key, cs.dropWhile isBare)

/-- Reads the parts of a key that follow `path`, which is given in reverse; the last part comes
apart from those before it. -/
def dottedKey (fuel : Nat) (path : List String) (cs : List Char) :
    Option ((List String × String) × List Char) :=
  match fuel with
  | 0 => none
  | fuel + 1 => do
    let (key, rest) ← simpleKey cs
    match skipSpaces rest with
    | '.' :: rest => dottedKey fuel (key :: path) (skipSpaces rest)
    | rest => some ((path.reverse, key), rest)

def key (cs : List Char) : Option ((List String × String) × List Char) :=
  dottedKey (cs.length + 1) [] cs

/-- Ends a value without quotes. -/
def endsScalar (c : Char) : Bool :=
  isSpace c || c ∈ ['\r', '\n', '#', ',', '=', '"', '\'', '[', ']', '\x7b', '\x7d']

/-- The characters of a value without quotes. A date and the time after it may be divided by a
space. -/
def scalarSpan (cs : List Char) : List Char × List Char :=
  let span := cs.span (!endsScalar ·)
  match span with
  | (date, ' ' :: c :: rest) =>
    if c.isDigit && ((Scalar.date? date).map (·.2)) == some [] then
      let time := (c :: rest).span (!endsScalar ·)
      (date ++ ' ' :: time.1, time.2)
    else span
  | _ => span

/-- Reads a value that is neither an array nor a table. -/
def simpleValue : List Char → Option (Value × List Char)
  | '"' :: '"' :: '"' :: cs => (Quoted.read ⟨'"', true⟩ cs).map (Prod.map .text id)
  | '"' :: cs => (Quoted.read ⟨'"', false⟩ cs).map (Prod.map .text id)
  | '\'' :: '\'' :: '\'' :: cs => (Quoted.read ⟨'\'', true⟩ cs).map (Prod.map .text id)
  | '\'' :: cs => (Quoted.read ⟨'\'', false⟩ cs).map (Prod.map .text id)
  | cs =>
    let (span, rest) := scalarSpan cs
    (Scalar.value? span).map (·, rest)

mutual

/-- Reads a value. `depth` is how much deeper it may nest. -/
def value (fuel depth : Nat) (cs : List Char) : Option (Value × List Char) :=
  match fuel with
  | 0 => none
  | fuel + 1 =>
    match cs, depth with
    | '[' :: cs, depth + 1 => items fuel depth [] cs
    | '\x7b' :: cs, depth + 1 => pairs fuel depth [] cs
    | cs, _ => simpleValue cs

/-- Reads the items of an array after those before it, which are given in reverse. -/
def items (fuel depth : Nat) (before : List Value) (cs : List Char) : Option (Value × List Char) :=
  match fuel with
  | 0 => none
  | fuel + 1 => do
    match ← skipVoid false cs with
    | ']' :: rest => some (.array false before.reverse, rest)
    | cs =>
      let (v, rest) ← value fuel depth cs
      match ← skipVoid false rest with
      | ',' :: rest => items fuel depth (v :: before) rest
      | ']' :: rest => some (.array false (v :: before).reverse, rest)
      | _ => none

/-- Reads the pairs of a table in braces after those before them. -/
def pairs (fuel depth : Nat) (before : Entries) (cs : List Char) : Option (Value × List Char) :=
  match fuel with
  | 0 => none
  | fuel + 1 => do
    match ← skipVoid false cs with
    | '\x7d' :: rest => some (.table .inline before, rest)
    | cs =>
      let ((path, name), rest) ← key cs
      match ← skipVoid false rest with
      | '=' :: rest =>
        let (v, rest) ← value fuel depth (← skipVoid false rest)
        let entries ← before.addKey path name v .inline
        match ← skipVoid false rest with
        | ',' :: rest => pairs fuel depth entries rest
        | '\x7d' :: rest => some (.table .inline entries, rest)
        | _ => none
      | _ => none

end

/-- A document that has been read in part: its entries, and the path of the table that the next
lines add to. -/
structure Progress where
  entries : Entries
  current : List String

namespace Progress

def start : Progress := ⟨[], []⟩

def add (p : Progress) (path : List String) (name : String) (v : Value) : Option Progress := do
  let entries ← p.entries.alterBelow false p.current (fun o es => es.addKey path name v o) .header
  some { p with entries := entries }

end Progress

def pairLine (p : Progress) (cs : List Char) : Option (Progress × List Char) := do
  let ((path, name), rest) ← key cs
  match rest with
  | '=' :: rest =>
    let (v, rest) ← value (4 * rest.length + 4) depthLimit (skipSpaces rest)
    some (← p.add path name v, rest)
  | _ => none

/-- Reads a header or a pair. -/
def line (p : Progress) : List Char → Option (Progress × List Char)
  | '[' :: '[' :: cs => do
    let ((path, name), rest) ← key (skipSpaces cs)
    match rest with
    | ']' :: ']' :: rest =>
      some (⟨← p.entries.openItem path name, path ++ [name]⟩, rest)
    | _ => none
  | '[' :: cs => do
    let ((path, name), rest) ← key (skipSpaces cs)
    match rest with
    | ']' :: rest => some (⟨← p.entries.openTable path name, path ++ [name]⟩, rest)
    | _ => none
  | cs => pairLine p cs

/-- Whether nothing more stands on a line. -/
def atLineEnd (cs : List Char) : Bool :=
  match skipSpaces cs with
  | [] => true
  | '\n' :: _ => true
  | '\r' :: '\n' :: _ => true
  | '#' :: _ => true
  | _ => false

/-- Reads all lines that are left. -/
def lines (fuel : Nat) (p : Progress) (cs : List Char) : Option Entries :=
  match fuel with
  | 0 => none
  | fuel + 1 => do
    match ← skipVoid false cs with
    | [] => some p.entries
    | cs =>
      let (p, rest) ← line p cs
      if atLineEnd rest then lines fuel p rest else none

def dropMark : List Char → List Char
  | '\uFEFF' :: cs => cs
  | cs => cs

def parse (s : String) : Option Entries :=
  let cs := dropMark s.toList
  lines (cs.length + 1) .start cs

end ToolRunner.Toml.Document
