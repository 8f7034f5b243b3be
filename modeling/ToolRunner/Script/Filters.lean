import ToolRunner.Script.Pattern
import ToolRunner.Script.Tools

/-!
# Filters

Tools that write a part of their input, or something that is made of it.
-/

namespace ToolRunner.Script

def zeros : Place := [Bytes.ofString "dev", Bytes.ofString "zero"]

/-- The first bytes of a file, as many as there are or are asked for. -/
def fileBytes (path : Chars) (most : Option Nat) : Run (Except OsError Bytes) := do
  let s ← get
  if (s.files.resolve s.directory (toBytes path)).toOption == some zeros then
    return .ok (List.replicate (most.getD 0) 0)
  match s.files.read s.directory (toBytes path) with
  | .ok content => return .ok (match most with | some n => content.take n | none => content)
  | .error e => return .error e

/-- Writes the input, or the files that are named. -/
def catTool (args : List Chars) : Run Nat := do
  if args.isEmpty then return ← put "cat" (← takeInput)
  let mut status := 0
  for path in args do
    match ← if path == ['-'] then .ok <$> takeInput else fileBytes path none with
    | .ok bs => status := max status (← put "cat" bs)
    | .error e =>
      complain ("cat: " ++ shown path ++ ": " ++ e.text)
      status := 1
  return status

def firstLines : Nat → Bytes → Bytes
  | 0, _ => []
  | _, [] => []
  | n + 1, b :: bs => b :: firstLines (if b = 10 then n else n + 1) bs

def lastLines (n : Nat) (bs : Bytes) : Bytes :=
  let ends := bs.count 10 + (if bs.getLast?.getD 10 == 10 then 0 else 1)
  bs.drop (firstLines (ends - n) bs).length

/-- How much of its input a tool is to show, and the files. -/
structure Extent where
  bytes : Option Nat := none
  lines : Nat := 10
  files : List Chars := []

/-- Reads the options of `head` and `tail`. -/
def extent : Extent → List Chars → Extent
  | e, [] => e
  | e, ['-', 'c'] :: n :: rest => extent { e with bytes := some (natOf n) } rest
  | e, ['-', 'n'] :: n :: rest => extent { e with lines := natOf n, bytes := none } rest
  | e, ('-' :: 'c' :: n) :: rest => extent { e with bytes := some (natOf n) } rest
  | e, ('-' :: 'n' :: n) :: rest => extent { e with lines := natOf n, bytes := none } rest
  | e, ('-' :: c :: n) :: rest =>
    if c.isDigit then extent { e with lines := natOf (c :: n), bytes := none } rest
    else extent { e with files := e.files ++ ['-' :: c :: n] } rest
  | e, path :: rest => extent { e with files := e.files ++ [path] } rest

/-- Shows the start or the end of its input. -/
def partTool (name : String) (start : Bool) (args : List Chars) : Run Nat := do
  let e := extent {} args
  let part (bs : Bytes) : Bytes :=
    match e.bytes, start with
    | some n, true => bs.take n
    | some n, false => bs.drop (bs.length - n)
    | none, true => firstLines e.lines bs
    | none, false => lastLines e.lines bs
  match e.files with
  | [] => put name (part (← takeInput))
  | path :: _ =>
    match ← fileBytes path (if start then e.bytes else none) with
    | .ok bs => put name (part bs)
    | .error err =>
      complain (name ++ ": cannot open '" ++ shown path ++ "' for reading: " ++ err.text)
      return 1

def wordCount (bs : Bytes) : Nat :=
  (bs.foldl
    (fun (state : Nat × Bool) b =>
      let blank := b == 32 || (9 ≤ b && b ≤ 13)
      (if !blank && state.2 then state.1 + 1 else state.1, blank))
    (0, true)).1

/-- Counts the lines, words or bytes of its input. -/
def wcTool (args : List Chars) : Run Nat := do
  let bs ← takeInput
  let counts := [(chars "-l", bs.count 10), (chars "-w", wordCount bs), (chars "-c", bs.length)]
  let wanted := counts.filter fun c => args.isEmpty || args.contains c.1
  match wanted with
  | [one] => put "wc" (Bytes.ofString (toString one.2 ++ "\n"))
  | _ =>
    let column (n : Nat) : Chars :=
      let digits := (toString n).toList
      List.replicate (7 - digits.length) ' ' ++ digits
    put "wc" (toBytes (spaced (wanted.map fun c => column c.2)) ++ [10])

/-- The characters that a set of `tr` stands for. -/
def setOf : Nat → Chars → Bytes
  | 0, _ => []
  | _, [] => []
  | fuel + 1, '\\' :: cs =>
    let (b, rest) := escape cs
    b :: setOf fuel rest
  | fuel + 1, a :: '-' :: b :: cs =>
    (List.range (b.toNat + 1 - a.toNat)).map (fun i => (a.toNat + i).toUInt8) ++ setOf fuel cs
  | fuel + 1, c :: cs => Bytes.ofAscii c :: setOf fuel cs

/-- Replaces or deletes characters of its input. -/
def trTool (args : List Chars) : Run Nat := do
  let bs ← takeInput
  match args with
  | [['-', 'd'], set] => put "tr" (bs.filter fun b => !(setOf (set.length + 1) set).contains b)
  | [a, b] =>
    let source := setOf (a.length + 1) a
    let target := setOf (b.length + 1) b
    put "tr" (bs.map fun c =>
      if source.contains c then
        (target[source.idxOf c]?).getD (target.getLast?.getD c)
      else c)
  | _ => return 1

def textLines (bs : Bytes) : List Bytes :=
  let parts := Bytes.splitOn Bytes.newline bs
  if parts.getLast? == some [] then parts.dropLast else parts

def ofLines (lines : List Bytes) : Bytes := lines.flatMap (· ++ [Bytes.newline])

def sortTool (args : List Chars) : Run Nat := do
  let flags := (args.filter fun a => a.head? == some '-').flatten
  let key (line : Bytes) : Int := (numericArgument (ofBytes line)).1
  let before (a b : Bytes) : Bool :=
    if flags.contains 'n' && key a != key b then key a < key b else decide (a ≤ b)
  let sorted := (textLines (← takeInput)).mergeSort before
  let sorted := if flags.contains 'u' then sorted.eraseDups else sorted
  put "sort" (ofLines (if flags.contains 'r' then sorted.reverse else sorted))

/-- Whether a line holds a text, at its start or end if the text says so. -/
def lineMatches (pattern : Chars) (line : Chars) : Bool :=
  let (atStart, pattern) :=
    if pattern.head? == some '^' then (true, pattern.drop 1) else (false, pattern)
  let (atEnd, pattern) :=
    if pattern.getLast? == some '$' then (true, pattern.dropLast) else (false, pattern)
  let any : PatternChar := ('*', false)
  let text : List PatternChar := pattern.map (·, true)
  matchesPattern ((if atStart then [] else [any]) ++ text ++ if atEnd then [] else [any]) line

/-- Writes the lines of its input that hold a text. -/
def grepTool (args : List Chars) : Run Nat := do
  let (options, rest) := args.span fun (a : Chars) => a.head? == some '-'
  let flags := options.flatten
  let lines := (textLines (← takeInput)).filter fun line =>
    lineMatches (rest.headD []) (ofBytes line) != flags.contains 'v'
  let status := if lines.isEmpty then 1 else 0
  if flags.contains 'q' then return status
  let _ ← put "grep" (if flags.contains 'c' then Bytes.ofString (toString lines.length ++ "\n")
    else ofLines lines)
  return status

/-- A number of bytes, which may be given in kibibytes or mebibytes. -/
def byteCount (cs : Chars) : Nat :=
  let (digits, unit) := cs.span Char.isDigit
  natOf digits *
    match unit.head?.map Char.toLower with
    | some 'k' => 1024
    | some 'm' => 1048576
    | _ => 1

/-- Copies blocks from a file or its input. -/
def ddTool (args : List Chars) : Run Nat := do
  let operand? (name : String) : Option Chars :=
    (args.find? (chars (name ++ "=")).isPrefixOf).map (·.drop (name.length + 1))
  let size := ((operand? "bs").map byteCount).getD 512
  let limit := (operand? "count").map (byteCount · * size)
  let read ← match operand? "if" with
    | some path => fileBytes path limit
    | none => .ok <$> takeInput
  match read with
  | .error e =>
    complain ("dd: failed to open '" ++ shown ((operand? "if").getD []) ++ "': " ++ e.text)
    return 1
  | .ok bs =>
    let bs := match limit with
      | some n => bs.take n
      | none => bs
    let status ← put "dd" bs
    let blocks := toString (bs.length / size) ++ "+" ++ (if bs.length % size = 0 then "0" else "1")
    complain (blocks ++ " records in")
    complain (blocks ++ " records out")
    return status

end ToolRunner.Script
