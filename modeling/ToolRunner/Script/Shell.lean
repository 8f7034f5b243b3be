import ToolRunner.Child
import ToolRunner.FileTree
import ToolRunner.Script.Lexer

/-!
# A running script

What a script has while it runs: its directory, variables, parameters and open descriptors; and what
it has done so far, which becomes a `Child`. Time passes only where a command waits.
-/

namespace ToolRunner.Script

inductive Stream where
  | channel (c : Channel)
  /-- To the command that asked for the output. -/
  | gathered
  | void
  | file (place : Place)
deriving DecidableEq, Repr

structure Variable where
  name : Chars
  value : Chars
  exported : Bool
deriving DecidableEq, Repr

/-- What stops the run of commands. -/
inductive Halt where
  | exit (status : Nat)
  | killed (signal : Nat)
  | broken (loops : Nat)
  | continued (loops : Nat)
  | returned (status : Nat)
deriving DecidableEq, Repr

/-- A command that was started in the background. -/
structure Job where
  pid : Nat
  status : Nat
  /-- When it ends; nothing if it never does. -/
  ends : Option Nat
  task : Task
deriving DecidableEq, Repr

/-- A script at work. -/
structure Shell where
  files : FileTree
  directory : Place
  bindings : List Variable
  /-- The name under which the script was started. -/
  name : Chars
  params : List Chars
  functions : List (Chars × Code)
  /-- The open descriptors. -/
  streams : List (Nat × Stream)
  /-- What is left to be read. -/
  input : Bytes
  status : Nat
  /-- The line of the command that runs. -/
  line : Nat
  /-- What is done on signals and at the end. -/
  traps : List (Chars × Chars)
  stopsOnFailure : Bool
  /-- Whether the use of a variable that is not set ends the script. -/
  stopsOnUnset : Bool := false
  /-- Whether commands are shown before they run. -/
  traces : Bool := false
  /-- The variables that may not be changed any more. -/
  constants : List Chars := []
  /-- How many loops the command stands in. -/
  loops : Nat := 0
  /-- What the local variables of a function were before, last one first; nothing outside of all
  functions. -/
  outer : Option (List (Chars × Option Variable)) := none
  pid : Nat
  parent : Nat
  /-- The number of the next process. -/
  nextPid : Nat
  /-- What was done so far, last act first. -/
  acts : List Act
  time : Nat
  gathered : List Bytes
  /-- What was started in the background, last one first. -/
  jobs : List Job

/-- Commands change the script at work and may stop it. -/
abbrev Run (α : Type) := ExceptT Halt (StateM Shell) α

namespace Shell

def value? (s : Shell) (name : Chars) : Option Chars :=
  (s.bindings.find? (·.name == name)).map (·.value)

/-- Sets a variable, which stays exported if it was. -/
def setVariable (s : Shell) (name value : Chars) (exported : Bool) : Shell :=
  let before := (s.bindings.find? (·.name == name)).map (·.exported)
  { s with
    bindings :=
      ⟨name, value, exported || before.getD false⟩ :: s.bindings.filter (·.name != name) }

def unsetVariable (s : Shell) (name : Chars) : Shell :=
  { s with bindings := s.bindings.filter (·.name != name) }

def restoreVariable (s : Shell) (name : Chars) (before : Option Variable) : Shell :=
  { s with bindings := before.toList ++ s.bindings.filter (·.name != name) }

def restoreVariables (s : Shell) (before : List (Chars × Option Variable)) : Shell :=
  before.foldl (fun s v => s.restoreVariable v.1 v.2) s

def variablesNamed (s : Shell) (names : List Chars) : List (Chars × Option Variable) :=
  names.map fun n => (n, s.bindings.find? (·.name == n))

def stream? (s : Shell) (descriptor : Nat) : Option Stream :=
  (s.streams.find? (·.1 == descriptor)).map (·.2)

def setStream (s : Shell) (descriptor : Nat) (stream : Option Stream) : Shell :=
  { s with
    streams :=
      (stream.map fun t => (descriptor, t)).toList ++ s.streams.filter (·.1 != descriptor) }

def holds (s : Shell) (c : Channel) : Bool := s.streams.any (·.2 == .channel c)

def look (s : Shell) (path : Chars) : Except OsError Entry :=
  s.files.look s.directory (toBytes path)

end Shell

def perform (a : Act) : Run Unit := modify fun s => { s with acts := a :: s.acts }

def closeUnheld (before : Shell) : Run Unit := do
  for c in [Channel.stdout, .stderr] do
    if before.holds c && !(← get).holds c then perform (.close c)

def pause (time : Nat) : Run Unit := do
  perform (.pause time)
  modify fun s => { s with time := s.time + time }

def appendFile (t : FileTree) (place : Place) (bs : Bytes) : FileTree :=
  match t.entry? place with
  | some (.file content executable) => t.put place (.file (content ++ bs) executable)
  | _ => t.put place (.file bs false)

/-- Writes to a descriptor; fails where it is closed. -/
def emit (descriptor : Nat) (bs : Bytes) : Run Bool := do
  match (← get).stream? descriptor with
  | none => return bs.isEmpty
  | some .void => return true
  | some (.channel c) =>
    if !bs.isEmpty then perform (.write c bs)
    return true
  | some .gathered =>
    modify fun s => { s with gathered := bs :: s.gathered }
    return true
  | some (.file place) =>
    modify fun s => { s with files := appendFile s.files place bs }
    return true

def complain (text : String) : Run Unit := do
  let _ ← emit 2 (Bytes.ofString (text ++ "\n"))

def shown (cs : Chars) : String := Utf8.decode (toBytes cs)

/-- A message of the script itself. -/
def warn (text : String) : Run Unit := do
  let s ← get
  complain (shown s.name ++ ": " ++ toString s.line ++ ": " ++ text)

def takeInput : Run Bytes := do
  let s ← get
  set { s with input := [] }
  return s.input

end ToolRunner.Script
