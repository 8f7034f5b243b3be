import ToolRunner.Log.Record
import ToolRunner.Text.Blank

/-!
# Log filters

Which records are shown. A filter is a list of directives, each of which sets the level for the
targets that begin in a certain way; of those that apply to a record the most specific one decides.
A directive may also name values that a record has to carry, or a span, inside which alone it holds;
there are no spans here, so such a directive shows nothing.
-/

namespace ToolRunner.Log

structure Directive where
  target : Option String
  /-- The level that is shown, with all graver ones; nothing where all is hidden. -/
  level : Option Level
  /-- Names of values that a record must carry, and whether their content is restricted too. -/
  fields : List (String × Bool)
  inSpan : Bool
deriving DecidableEq, Repr

namespace Directive

def rank : Option Level → Nat
  | some level => level.rank
  | none => 0

/-- The level of a name or a number. -/
def level? (text : String) : Option (Option Level) :=
  let digits := if text.toList.head? == some '+' then text.toList.drop 1 else text.toList
  let number :=
    if !digits.isEmpty && digits.all Char.isDigit then (String.ofList digits).toNat? else none
  let numbered : Option (Option Level) :=
    match number with
    | some 0 => some none
    | some n => (Level.all.find? fun l => l.rank == n).map some
    | none => none
  let name := text.map Char.toLower
  let named : Option (Option Level) :=
    if name == "off" then some none else (Level.all.find? fun l => l.name == name).map some
  numbered <|> named

def begins (c : Char) : Bool :=
  c.isAlphanum || c == '-' || c == ':' || c == '_' || (c.toNat > 127 && !Text.isBlank c)

/-- Reads what follows an equals sign: a level, or nothing for all levels. -/
def withLevel (d : Directive) (text : String) : Option Directive :=
  if text == "" then some d else (level? text).map fun level => { d with level }

/-- Reads what follows the name of a span or a list of values. -/
def afterSpan (d : Directive) : List Char → Option Directive
  | [] => some d
  | '=' :: rest => d.withLevel (String.ofList rest)
  | _ => none

/-- A value that is named: its name, and whether something is said of its content. -/
def field? (text : List Char) : Option (String × Bool) :=
  if text.isEmpty then none
  else
    let (name, rest) := text.span (· != '=')
    some (String.ofList name, !rest.isEmpty)

/-- Reads what follows an opening bracket. -/
def span (d : Directive) (text : List Char) : Option Directive :=
  let (name, rest) := text.span fun c => c != ']' && c != '\x7b'
  match rest with
  | ']' :: rest => afterSpan { d with inSpan := true } rest
  | _ :: rest =>
    let (inside, rest) := rest.span (· != '\x7d')
    match field? inside, rest with
    | some f, _ :: ']' :: rest => afterSpan { d with inSpan := !name.isEmpty, fields := [f] } rest
    | _, _ => none
  | [] => none

/-- The directive for all levels of everything. -/
def all : Directive := ⟨none, some .trace, [], false⟩

/-- Reads a directive. Blanks before it shift what is read, and blanks after it belong to it. -/
def parse (text : String) : Option Directive :=
  let trimmed := (Text.trim text).toList
  match trimmed with
  | [] => none
  | '[' :: rest => all.span rest
  | c :: _ =>
    if !begins c then none
    else
      let whole := text.toList
      let name := trimmed.takeWhile fun c => c != '=' && c != '['
      let target := some (String.ofList (whole.take name.length))
      match trimmed.drop name.length with
      | [] =>
        match level? text with
        | some level => some { all with level }
        | none => some { all with target := some text }
      | '=' :: _ => { all with target }.withLevel (String.ofList (whole.drop (name.length + 1)))
      | _ :: rest => { all with target }.span rest

def isStatic (d : Directive) : Bool := !d.inSpan && d.fields.all (!·.2)

def appliesTo (d : Directive) (r : Record) : Bool :=
  d.isStatic && (d.target.getD "").toList.isPrefixOf r.target.toList &&
    d.fields.all fun f => f.1 == "message" || r.fields.contains f.1

/-- Whether a directive is at least as specific as another that applies to the same record. -/
def atLeast (d e : Directive) : Bool :=
  let size (d : Directive) : Nat := (d.target.map (·.length + 1)).getD 0
  if size d != size e then size d > size e
  else d.fields.length ≥ e.fields.length

end Directive

/-- Directives in the order in which they were given. -/
abbrev Filter := List Directive

namespace Filter

def parse (text : String) : Option Filter :=
  ((text.splitOn ",").filter (· != "")).mapM Directive.parse

def ofLevel (level : Level) : Filter := [{ Directive.all with level := some level }]

/-- The directive that decides on a record. -/
def deciding? (f : Filter) (r : Record) : Option Directive :=
  (f.filter (·.appliesTo r)).foldl
    (fun best d =>
      match best with
      | none => some d
      | some b => if d.atLeast b then some d else some b)
    none

def shows (f : Filter) (r : Record) : Bool :=
  match f.deciding? r with
  | some d => r.level.rank ≤ Directive.rank d.level
  | none => false

/-- The filter for the level of the command line and the text of the environment, and whether that
text had to be ignored. -/
def choose (level : Option Level) (text : Option String) : Filter × Bool :=
  match level with
  | some level => (ofLevel level, false)
  | none =>
    let given := Text.trim (text.getD "")
    if given == "" then (ofLevel .info, false)
    else
      match parse given with
      | some f => (f, false)
      | none => (ofLevel .info, true)

end Filter

end ToolRunner.Log
