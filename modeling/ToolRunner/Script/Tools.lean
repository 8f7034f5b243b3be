import ToolRunner.Script.Printf
import ToolRunner.Script.Shell

/-!
# Small tools

Programs that every machine has: those that write what they are told, and those that wait. A tool
gets its arguments, reads the input, writes to the open descriptors, and gives its exit status.
-/

namespace ToolRunner.Script

/-- The number that digits stand for; zero for anything else. -/
def natOf (cs : Chars) : Nat := ((String.ofList cs).toNat?).getD 0

def put (name : String) (bs : Bytes) : Run Nat := do
  if ← emit 1 bs then return 0
  complain (name ++ ": write error: Bad file descriptor")
  return 1

def spaced (args : List Chars) : Chars := [' '].intercalate args

def echoTool (args : List Chars) : Run Nat :=
  match args with
  | ['-', 'n'] :: rest => put "echo" (toBytes (spaced rest))
  | ['-', 'e'] :: rest =>
    let text := spaced rest
    let (bs, ended) := unescaped (text.length + 1) text
    put "echo" (if ended then bs else bs ++ [10])
  | _ => put "echo" (toBytes (spaced args) ++ [10])

/-- Writes its arguments with escapes replaced, as the echo of a script does. -/
def echoBuiltin (args : List Chars) : Run Nat := do
  let (newline, args) :=
    match args with
    | ['-', 'n'] :: rest => (false, rest)
    | _ => (true, args)
  let text := spaced args
  let (bs, ended) := unescaped (text.length + 1) text
  if ← emit 1 (if newline && !ended then bs ++ [10] else bs) then return 0
  warn "echo: echo: I/O error"
  return 1

/-- Writes its arguments as its first one says; `tell` is how it complains. -/
def printfTool (tell : String → Run Unit) (args : List Chars) : Run Nat := do
  let args := if args.head? == some ['-', '-'] then args.drop 1 else args
  match args with
  | [] =>
    tell "printf: usage: printf format [arg ...]"
    return 2
  | text :: rest =>
    let (bs, wrong) := format (rest.length + 1) text rest
    let written ← emit 1 bs
    if !written then tell "printf: I/O error"
    for w in wrong do tell ("printf: " ++ shown w ++ ": expected numeric value")
    return if written && wrong.isEmpty then 0 else 1

def seeHelp (name : String) : Run Unit :=
  complain ("Try '" ++ name ++ " --help' for more information.")

/-- The number of millionths of a second that a duration stands for; nothing for one that never
ends. -/
def duration? (cs : Chars) : Option (Option Nat) :=
  if cs == chars "infinity" || cs == chars "inf" then some none
  else
    let (whole, rest) := cs.span Char.isDigit
    let (fraction, rest) :=
      match rest with
      | '.' :: rest => rest.span Char.isDigit
      | rest => ([], rest)
    if whole.isEmpty && fraction.isEmpty then none
    else
      let digits := (fraction ++ List.replicate 6 '0').take 6
      let micros := natOf whole * 1000000 + natOf digits
      match rest with
      | [] => some (some micros)
      | ['s'] => some (some micros)
      | ['m'] => some (some (60 * micros))
      | ['h'] => some (some (3600 * micros))
      | ['d'] => some (some (86400 * micros))
      | _ => none

/-- Waits for a time. -/
def sleepTool (args : List Chars) : Run Nat := do
  match args.find? fun a => (duration? a).isNone with
  | some wrong =>
    complain ("sleep: invalid time interval '" ++ shown wrong ++ "'")
    seeHelp "sleep"
    return 1
  | none =>
    if args.isEmpty then
      complain "sleep: missing operand"
      seeHelp "sleep"
      return 1
    for a in args do
      match duration? a with
      | some (some time) => pause time
      | _ => perform .hang
    return 0

/-- Counts from a number to another. -/
def seqTool (args : List Chars) : Run Nat := do
  let numbers := args.map fun a => (numericArgument a).1
  let (first, step, last) :=
    match numbers with
    | [a] => (1, 1, a)
    | [a, b] => (a, 1, b)
    | [a, s, b] => (a, s, b)
    | _ => (1, 1, 0)
  let span := if step > 0 then last - first else first - last
  let count := if step = 0 || span < 0 then 0 else (span / step.natAbs).toNat + 1
  put "seq" ((List.range count).flatMap fun (i : Nat) =>
    Bytes.ofString (toString (first + i * step) ++ "\n"))

def exportedLines (s : Shell) : Bytes :=
  s.bindings.reverse.flatMap fun v =>
    if v.exported then toBytes (v.name ++ '=' :: v.value) ++ [10] else []

def printenvTool (args : List Chars) : Run Nat := do
  let s ← get
  match args with
  | [] => put "printenv" (exportedLines s)
  | _ =>
    let found := args.filterMap fun a => (s.bindings.find? fun v => v.name == a && v.exported)
    let status ← put "printenv" (found.flatMap fun v => toBytes v.value ++ [10])
    return if found.length < args.length then 1 else status

/-- How much of an endless output is written at most. -/
def endless : Nat := 2097152

/-- Writes a line again and again. Somebody who waits for its end waits forever. -/
def yesTool (args : List Chars) : Run Nat := do
  let line := toBytes (if args.isEmpty then ['y'] else spaced args) ++ [10]
  let status ← put "yes" (List.replicate (endless / line.length) line).flatten
  match (← get).stream? 1 with
  | some .gathered => return status
  | _ =>
    perform .hang
    return status

end ToolRunner.Script
