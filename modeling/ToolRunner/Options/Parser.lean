import ToolRunner.Options.Grammar

/-!
# Reading command lines

Arguments are read from left to right. Values wait until the option or the operands they belong to
are complete (`Pending`) and are read only then; until that time an argument that is unknown is
reported before them.

This is what the `clap` parser documents of the declarations that a `Grammar` holds, and of nothing
else:
* `last`: those operands are accessible only after a lone `--` (`Grammar.trailing`);
* `trailing_var_arg`: from the first of those operands on the rest of the line is taken as it is,
  as if a `--` stood before it, and `allow_hyphen_values` lets that first one begin with a hyphen
  (`Operands.verbatim`, `Flag.hyphens`);
* `subcommand`: an argument that names a command gives it all that follows; one must be given;
* `conflicts_with` and `required`: checked when the whole line was read (`check`);
* the type of a field: a `bool` is a switch, which has no value; any other option has one, after `=`
  or as the next argument, and only one that is a list may be given twice;
* `--help` and `--version` end the reading where they stand.
-/

namespace ToolRunner.Options

/-- What values belong to. -/
inductive Target where
  | flag (f : Flag)
  | operands (o : Operands)
deriving DecidableEq, Repr

namespace Target

def name : Target → String
  | flag f => f.name
  | operands o => o.name

def form? : Target → Option Form
  | flag f =>
    match f.arity with
    | .switch => none
    | .single form => some form
    | .repeated form => some form
  | operands o => some o.form

def isUnique : Target → Bool
  | flag f =>
    match f.arity with
    | .repeated _ => false
    | _ => true
  | operands _ => false

def hyphens : Target → Bool
  | flag f => f.hyphens
  | operands o => o.verbatim

end Target

/-- Values that wait to be read, the last one first. -/
structure Pending where
  target : Target
  values : List Bytes

/-- A command line that has been read in part. -/
structure Progress where
  /-- What was read: names and their values. A switch has no value. -/
  found : List (String × Option Value) := []
  pending : Option Pending := none
  /-- What the argument before was, if further values may follow it. -/
  openTarget : Option Target := none
  /-- Only operands follow. -/
  trailing : Bool := false

namespace Progress

def has (p : Progress) (name : String) : Bool :=
  p.found.any (·.1 == name)

/-- Reads the values of an option or of operands. -/
def take (p : Progress) (target : Target) (values : List Bytes) : Except Usage Progress := do
  match target.form? with
  | none =>
    if p.has target.name then .error .conflict
    else .ok { p with found := p.found ++ [(target.name, none)] }
  | some form =>
    if values.isEmpty then .error .invalidValue
    else if target.isUnique && p.has target.name then .error .conflict
    else
      let read ← values.mapM form.read
      .ok { p with found := p.found ++ read.map fun v => (target.name, some v) }

def settle (p : Progress) : Except Usage Progress :=
  match p.pending with
  | none => .ok p
  | some pending => { p with pending := none }.take pending.target pending.values.reverse

/-- An option without a value attached. -/
def openFlag (p : Progress) (f : Flag) : Except Usage Progress := do
  let p ← p.settle
  match f.arity with
  | .switch => (p.take (.flag f) []).map ({ · with openTarget := none })
  | _ => .ok { p with pending := some ⟨.flag f, []⟩, openTarget := some (.flag f) }

/-- An option with a value attached. -/
def closedFlag (p : Progress) (f : Flag) (value : Bytes) : Except Usage Progress := do
  match f.arity with
  | .switch => .error .tooManyValues
  | _ =>
    let p ← p.settle
    (p.take (.flag f) [value]).map ({ · with openTarget := none })

/-- The value of the option before, which takes no further one. -/
def addValue (p : Progress) (f : Flag) (value : Bytes) : Progress :=
  { p with pending := some ⟨.flag f, [value]⟩, openTarget := none }

/-- An operand; operands in a row wait together. -/
def addOperand (p : Progress) (o : Operands) (value : Bytes) : Except Usage Progress := do
  let target := Target.operands o
  let p := { p with trailing := p.trailing || o.verbatim, openTarget := some target }
  match p.pending with
  | some pending =>
    if pending.target = target then
      .ok { p with pending := some ⟨target, value :: pending.values⟩ }
    else
      let p ← p.settle
      .ok { p with pending := some ⟨target, [value]⟩ }
  | none => .ok { p with pending := some ⟨target, [value]⟩ }

end Progress

inductive Look where
  /-- A lone `--`. -/
  | dashes
  /-- A long option; the name is nothing if it is not text. -/
  | long (name : Option String) (value : Option Bytes)
  /-- One-letter options: those that are text, and whether something follows that is not. -/
  | letters (cs : List Char) (more : Bool)
  | plain
deriving DecidableEq, Repr

/-- The characters at the start of bytes that are UTF-8, and whether anything follows them. -/
def leadingText (bs : Bytes) : List Char × Bool :=
  let fits (n : Nat) : Option (List Char) := (Utf8.decode? (bs.take n)).map String.toList
  match (List.range (bs.length + 1)).reverse.findSome? fun n => (fits n).map (n, ·) with
  | some (n, cs) => (cs, n < bs.length)
  | none => ([], true)

namespace Look

def hyphen : UInt8 := 45

def equals : UInt8 := 61

/-- The look of an argument. -/
def of (arg : Bytes) : Look :=
  match arg with
  | [] => plain
  | a :: rest =>
    if a ≠ hyphen then plain
    else
      match rest with
      | [] => plain
      | b :: name =>
        if b ≠ hyphen then
          let (cs, more) := leadingText rest
          letters cs more
        else if name = [] then dashes
        else
          match Bytes.splitOn equals name with
          | [] => dashes
          | [name] => long (Utf8.decode? name) none
          | name :: parts => long (Utf8.decode? name) (some (Bytes.joinWith [equals] parts))

end Look

/-- What reading an argument leads to. -/
inductive Step where
  | next (p : Progress)
  /-- A command of its own, to which the further arguments belong. -/
  | command (name : String)

def commandName? (g : Grammar) (arg : Bytes) : Option String :=
  (Utf8.decode? arg).filter fun name =>
    g.commands.contains name || (name == "help" && !g.commands.isEmpty)

/-- An argument that is neither an option nor a value of one. -/
def operand (g : Grammar) (p : Progress) (arg : Bytes) : Except Usage Step :=
  match g.operandsAt p.trailing with
  | some o => (p.addOperand o arg).map .next
  | none =>
    if g.commands.isEmpty || (p.trailing && (commandName? g arg).isSome) then
      .error .unknownArgument
    else .error .unknownCommand

/-- One-letter options. The first that is asked for decides. -/
def letters (g : Grammar) (p : Progress) : List Char → Except Usage Progress
  | [] => .error .unknownArgument
  | c :: _ =>
    match g.letter? c with
    | none => .error .unknownArgument
    | some request => do
      let _ ← p.settle
      .error request

/-- An argument that may be the value of the option before, and else an operand. -/
def valueOrOperand (g : Grammar) (p : Progress) (arg : Bytes) : Except Usage Step :=
  match p.openTarget with
  | some (.flag f) => .ok (.next (p.addValue f arg))
  | _ => operand g p arg

/-- A long option. -/
def long (g : Grammar) (p : Progress) (arg : Bytes) (name : Option String) (value : Option Bytes) :
    Except Usage Step :=
  match name with
  | none => .error .unknownArgument
  | some name =>
    match g.flag? name, g.request? name, value with
    | some f, _, some v => (p.closedFlag f v).map .next
    | some f, _, none => (p.openFlag f).map .next
    | none, some _, some _ => .error .tooManyValues
    | none, some request, none => do
      let _ ← p.settle
      .error request
    | none, none, _ => if g.isVerbatim then operand g p arg else .error .unknownArgument

/-- Reads an argument that may be an option. -/
def optionOrValue (g : Grammar) (p : Progress) (arg : Bytes) : Except Usage Step :=
  if p.openTarget.any (·.hyphens) then valueOrOperand g p arg
  else
    match Look.of arg with
    | .plain => valueOrOperand g p arg
    | .dashes => .ok (.next { p with trailing := true })
    | .long name value => long g p arg name value
    | .letters cs more =>
      if g.isVerbatim && (more || cs.any fun c => (g.letter? c).isNone) then valueOrOperand g p arg
      else (letters g p cs).map .next

def step (g : Grammar) (p : Progress) (arg : Bytes) : Except Usage Step :=
  if p.trailing then operand g p arg
  else
    match if p.openTarget.isNone then commandName? g arg else none with
    | some name => .ok (.command name)
    | none => optionOrValue g p arg

/-- What a whole command line was read as. -/
structure Parsed where
  progress : Progress
  /-- The command that was named, and its arguments. -/
  command : Option (String × List Bytes)

/-- Reads arguments up to the end or to a command. -/
def scan (g : Grammar) (p : Progress) : List Bytes → Except Usage Parsed
  | [] => .ok ⟨p, none⟩
  | arg :: args => do
    match ← step g p arg with
    | .next p => scan g p args
    | .command name => .ok ⟨p, some (name, args)⟩

/-- The values that were read, in the order in which they were given. -/
abbrev Found := List (String × Option Value)

/-- Checks what was read as a whole: a command must not be missing, no two arguments may exclude
each other, and required operands must have been given. -/
def check (g : Grammar) (found : Found) (hasCommand : Bool) : Except Usage Unit :=
  let has (name : String) : Bool := found.any (·.1 == name)
  if !hasCommand && !g.commands.isEmpty then
    .error (if found.isEmpty then .helpInstead else .missingCommand)
  else if g.conflicts.any fun c => has c.1 && has c.2 then .error .conflict
  else if (g.operands.toList ++ g.trailing.toList).any fun o => o.required && !has o.name then
    .error .missingArgument
  else .ok ()

def finish (g : Grammar) (p : Progress) (hasCommand : Bool) : Except Usage Found := do
  let p ← p.settle
  check g p.found hasCommand
  .ok p.found

/-- Reads the command line of a command that has none of its own. -/
def parse (g : Grammar) (args : List Bytes) : Except Usage Found := do
  let parsed ← scan g {} args
  finish g parsed.progress false

namespace Found

def has (found : Found) (name : String) : Bool :=
  found.any (·.1 == name)

def values (found : Found) (name : String) : List Value :=
  found.filterMap fun f => if f.1 = name then f.2 else none

def paths (found : Found) (name : String) : List Path :=
  (found.values name).filterMap fun
    | .path p => some p
    | _ => none

def texts (found : Found) (name : String) : List String :=
  (found.values name).filterMap fun
    | .text s => some s
    | _ => none

def integers (found : Found) (name : String) : List Int :=
  (found.values name).filterMap fun
    | .integer i => some i
    | _ => none

def pairs (found : Found) (name : String) : List (String × String) :=
  (found.values name).filterMap fun
    | .pair name value => some (name, value)
    | _ => none

end Found

end ToolRunner.Options
