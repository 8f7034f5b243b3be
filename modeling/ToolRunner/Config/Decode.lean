import ToolRunner.Config
import ToolRunner.Toml.Document

/-!
# Settings in a document

What a TOML document has to look like to be a config file. Nothing is passed over: a key that is not
known, or a value of the wrong kind, makes the whole document unfit.

A section may also be written as an array of its fields in their order, and a choice also as a table
whose one key is the choice and whose value is empty.

These are the decoders that `serde` documents for derived structures and choices. With
`deny_unknown_fields` a key that names no field is an error; a field that is optional or has a
`default` may be missing. A derived structure is also read from a sequence of its fields. A choice
without data is read from its name, as `rename` or `rename_all` spell it, or from a map of the name
to a unit.
-/

namespace ToolRunner.Config.Decode

open Toml (Value Entries)

/--
The fields of a section by their names. An array must hold the first `required` fields, and what it
holds beyond the last field does not count.
-/
def fields? (names : List String) (required : Nat) : Value → Option Entries
  | .table _ entries => if entries.all (names.contains ·.1) then some entries else none
  | .array _ items => if required ≤ items.length then some (names.zip items) else none
  | _ => none

def field {α : Type} (entries : Entries) (name : String) (read : Value → Option α) (default : α) :
    Option α :=
  match entries.find? name with
  | some v => read v
  | none => some default

def text? : Value → Option String
  | .text s => some s
  | _ => none

def truth? : Value → Option Bool
  | .truth b => some b
  | _ => none

/-- One of the choices offered. -/
def choice? {α : Type} (offered : List (String × α)) : Value → Option α
  | .text name => offered.lookup name
  | .table _ [(name, .table _ [])] => offered.lookup name
  | .table _ [(name, .array _ [])] => offered.lookup name
  | _ => none

def mode? : Value → Option Mode :=
  choice? ([Mode.synchronous, .asynchronous].map fun m => (m.name, m))

def routing? : Value → Option Routing :=
  choice? ([Routing.captured, .inherited].map fun r => (r.name, r))

/-- The name under which a date or time appears where a table is due. -/
def momentKey : String := "$__toml_private_datetime"

/-- Names and their texts. -/
def texts? : Value → Option (List (String × String))
  | .table _ entries => entries.mapM fun e => (text? e.2).map (e.1, ·)
  | .moment written => some [(momentKey, written)]
  | _ => none

def sdk? (v : Value) (s : Settings) : Option Settings := do
  let entries ← fields? ["root", "usage_reporting"] 1 v
  let root ← field entries "root" (fun v => (text? v).map (some ∘ Path.ofString)) s.root
  let usageReporting ← field entries "usage_reporting" truth? s.usageReporting
  some { s with root, usageReporting }

def run? (v : Value) (s : Settings) : Option Settings := do
  let entries ← fields? ["mode", "routing"] 0 v
  let mode ← field entries "mode" mode? s.mode
  let routing ← field entries "routing" routing? s.routing
  some { s with mode, routing }

/-- The settings of a section of variables. -/
def env? (v : Value) (s : Settings) : Option Settings := do
  some { s with environment := .ofList (← texts? v) }

/-- Reads a section, or leaves the settings as they are where it is absent. -/
def part (entries : Entries) (name : String) (read : Value → Settings → Option Settings)
    (s : Settings) : Option Settings :=
  match entries.find? name with
  | some v => read v s
  | none => some s

def settings? (entries : Entries) : Option Settings := do
  if entries.all (["sdk", "run", "env"].contains ·.1) then
    let s ← part entries "sdk" sdk? {}
    let s ← part entries "run" run? s
    part entries "env" env? s
  else none

/-- The settings that a document states. -/
def document (text : String) : Result Settings :=
  match Toml.Document.parse text with
  | none => .error (.toml "the document is not well formed")
  | some entries =>
    match settings? entries with
    | none => .error (.toml "the document is no configuration")
    | some s => .ok s

end ToolRunner.Config.Decode
