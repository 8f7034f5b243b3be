import ToolRunner.Script.Lexer

/-!
# Reading a script

Commands from tokens. A script is read line by line, as it is run: what is wrong in a later line
does not keep the earlier ones from being run.
-/

namespace ToolRunner.Script

/-- Reads something from tokens and gives those that are left. -/
abbrev Reading (α : Type) := List Token → Except SyntaxError (α × List Token)

def lineOf : List Token → Nat
  | .word _ line :: _ => line
  | .operator _ line :: _ => line
  | .redirect _ _ line :: _ => line
  | [] => 1

def plainWord? : List Token → Option Chars
  | .word w _ :: _ => plain? w
  | _ => none

def atOperator (name : String) : List Token → Bool
  | .operator n _ :: _ => n == name
  | _ => false

def atReserved (name : String) (ts : List Token) : Bool := plainWord? ts == some (chars name)

def tokenText : List Token → String
  | .word w _ :: _ => "\"" ++ String.ofList ((plain? w).getD (chars "word")) ++ "\" unexpected"
  | .operator "newline" _ :: _ => "newline unexpected"
  | .operator n _ :: _ => "\"" ++ n ++ "\" unexpected"
  | .redirect .. :: _ => "redirection unexpected"
  | [] => "end of file unexpected"

def unexpected {α : Type} (ts : List Token) : Except SyntaxError α :=
  .error (lineOf ts, tokenText ts)

def missing {α : Type} (name : String) (ts : List Token) : Except SyntaxError α :=
  .error (lineOf ts, tokenText ts ++ " (expecting \"" ++ name ++ "\")")

def skipNewlines : List Token → List Token
  | .operator "newline" _ :: ts => skipNewlines ts
  | ts => ts

def reserved (name : String) (ts : List Token) : Except SyntaxError (List Token) :=
  if atReserved name ts then .ok (ts.drop 1) else missing name ts

def closers : List String := ["then", "else", "elif", "fi", "do", "done", "esac", "\x7d"]

def atEnd (ts : List Token) : Bool :=
  ts.isEmpty || atOperator ")" ts || atOperator ";;" ts || closers.any (atReserved · ts)

/-- The redirections that come next. -/
def redirects : Nat → Reading (List Redirect)
  | 0, ts => .ok ([], ts)
  | fuel + 1, .redirect descriptor kind line :: ts =>
    match ts with
    | .word w _ :: ts => do
      let (more, ts) ← redirects fuel ts
      return (⟨descriptor, kind, w⟩ :: more, ts)
    | _ => unexpected (if ts.isEmpty then [.operator "newline" line] else ts)
  | _, ts => .ok ([], ts)

/-- The name and the value of a word that assigns. -/
def assignment? : Word → Option (Chars × Word)
  | .text cs false :: parts =>
    let (name, rest) := cs.span isNameChar
    match name.head?, rest with
    | some c, '=' :: value =>
      if isNameStart c then
        some (name, if value.isEmpty then parts else .text value false :: parts)
      else none
    | _, _ => none
  | _ => none

/-- What a simple command is made of, so far in reverse. -/
structure SimpleParts where
  assignments : List (Chars × Word) := []
  words : List Word := []
  redirects : List Redirect := []

/-- The parts of a simple command. -/
def simpleParts : Nat → SimpleParts → Reading SimpleParts
  | 0, parts, ts => .ok (parts, ts)
  | fuel + 1, parts, ts =>
    match ts with
    | .word w _ :: rest =>
      match assignment? w, parts.words with
      | some a, [] => simpleParts fuel { parts with assignments := a :: parts.assignments } rest
      | _, _ => simpleParts fuel { parts with words := w :: parts.words } rest
    | .redirect descriptor kind line :: rest =>
      match rest with
      | .word w _ :: rest =>
        simpleParts fuel { parts with redirects := ⟨descriptor, kind, w⟩ :: parts.redirects } rest
      | _ => unexpected (if rest.isEmpty then [.operator "newline" line] else rest)
    | _ => .ok (parts, ts)

def simple (fuel : Nat) : Reading Code := fun ts => do
  let (parts, rest) ← simpleParts fuel {} ts
  return (.simple (lineOf ts) parts.assignments.reverse parts.words.reverse parts.redirects.reverse,
    rest)

def wordList : Nat → Reading (List Word)
  | fuel + 1, .word w _ :: ts => do
    let (more, ts) ← wordList fuel ts
    return (w :: more, ts)
  | _, ts => .ok ([], ts)

def patterns : Nat → Reading (List Word)
  | 0, ts => unexpected ts
  | fuel + 1, .word w _ :: .operator "|" _ :: ts => do
    let (more, ts) ← patterns fuel ts
    return (w :: more, ts)
  | _ + 1, .word w _ :: .operator ")" _ :: ts => .ok ([w], ts)
  | _, ts => unexpected ts

mutual

/-- A list of commands up to where none begins; with `oneLine`, up to the end of the line. -/
def commandList (oneLine : Bool) : Nat → Reading Code
  | 0, ts => unexpected ts
  | fuel + 1, ts => do
    let ts := if oneLine then ts else skipNewlines ts
    if atEnd ts then return (.skip, ts)
    let (first, ts) ← andOr fuel ts
    match ts with
    | .operator ";" _ :: ts => commandRest oneLine fuel first ts
    | .operator "&" _ :: ts => commandRest oneLine fuel (.background first) ts
    | .operator "newline" _ :: _ =>
      if oneLine then return (first, ts) else commandRest oneLine fuel first ts
    | _ => return (first, ts)

def commandRest (oneLine : Bool) (fuel : Nat) (first : Code) : Reading Code := fun ts =>
  match fuel with
  | 0 => unexpected ts
  | fuel + 1 => do
    if oneLine && atOperator "newline" ts then return (first, ts)
    let (rest, ts) ← commandList oneLine fuel ts
    return (.sequence first rest, ts)

/-- Commands joined by `&&` and `||`, from the left. -/
def andOr : Nat → Reading Code
  | 0, ts => unexpected ts
  | fuel + 1, ts => do
    let (first, ts) ← pipeline fuel ts
    andOrRest fuel first ts

def andOrRest : Nat → Code → Reading Code
  | 0, _, ts => unexpected ts
  | fuel + 1, first, ts =>
    match ts with
    | .operator "&&" _ :: ts => do
      let (second, ts) ← pipeline fuel (skipNewlines ts)
      andOrRest fuel (.both first second) ts
    | .operator "||" _ :: ts => do
      let (second, ts) ← pipeline fuel (skipNewlines ts)
      andOrRest fuel (.either first second) ts
    | _ => .ok (first, ts)

/-- Commands joined by pipes. -/
def pipeline : Nat → Reading Code
  | 0, ts => unexpected ts
  | fuel + 1, ts => do
    if atReserved "!" ts then
      let (body, ts) ← pipeline fuel (ts.drop 1)
      return (.negated body, ts)
    let (first, ts) ← command fuel ts
    match ts with
    | .operator "|" _ :: ts =>
      let (second, ts) ← pipeline fuel (skipNewlines ts)
      return (.pipeline first second, ts)
    | _ => return (first, ts)

/-- A command with the redirections after it. -/
def command : Nat → Reading Code
  | 0, ts => unexpected ts
  | fuel + 1, ts => do
    match ts with
    | .operator "(" _ :: ts =>
      let (body, ts) ← commandList false fuel ts
      if atOperator ")" ts then redirected fuel (.subshell body) (ts.drop 1) else missing ")" ts
    | .word w _ :: .operator "(" _ :: .operator ")" _ :: rest =>
      let (body, ts) ← command fuel (skipNewlines rest)
      return (.define ((plain? w).getD []) body, ts)
    | .word w _ :: rest =>
      match (plain? w).map String.ofList with
      | some "\x7b" =>
        let (body, ts) ← commandList false fuel rest
        redirected fuel body (← reserved "\x7d" ts)
      | some "if" =>
        let (body, ts) ← conditional fuel rest
        redirected fuel body ts
      | some "while" =>
        let (body, ts) ← loop true fuel rest
        redirected fuel body ts
      | some "until" =>
        let (body, ts) ← loop false fuel rest
        redirected fuel body ts
      | some "for" =>
        let (body, ts) ← each fuel rest
        redirected fuel body ts
      | some "case" =>
        let (body, ts) ← choice fuel rest
        redirected fuel body ts
      | _ => if atEnd ts then unexpected ts else simple fuel ts
    | .redirect .. :: _ => simple fuel ts
    | _ => unexpected ts

def redirected : Nat → Code → Reading Code
  | 0, _, ts => unexpected ts
  | fuel + 1, body, ts => do
    let (found, ts) ← redirects fuel ts
    return (if found.isEmpty then body else .redirected body found, ts)

/-- A conditional, after its first word. -/
def conditional : Nat → Reading Code
  | 0, ts => unexpected ts
  | fuel + 1, ts => do
    let (test, ts) ← commandList false fuel ts
    let (yes, ts) ← commandList false fuel (← reserved "then" ts)
    if atReserved "elif" ts then
      let (no, ts) ← conditional fuel (ts.drop 1)
      return (.conditional test yes no, ts)
    if atReserved "else" ts then
      let (no, ts) ← commandList false fuel (ts.drop 1)
      return (.conditional test yes no, ← reserved "fi" ts)
    return (.conditional test yes .skip, ← reserved "fi" ts)

def loop (outcome : Bool) : Nat → Reading Code
  | 0, ts => unexpected ts
  | fuel + 1, ts => do
    let (test, ts) ← commandList false fuel ts
    let (body, ts) ← doGroup fuel ts
    return (.loop outcome test body, ts)

def doGroup : Nat → Reading Code
  | 0, ts => unexpected ts
  | fuel + 1, ts => do
    let (body, ts) ← commandList false fuel (← reserved "do" ts)
    return (body, ← reserved "done" ts)

/-- A loop over words, after its first word. -/
def each : Nat → Reading Code
  | 0, ts => unexpected ts
  | fuel + 1, ts => do
    match plainWord? ts with
    | none => unexpected ts
    | some name =>
      let ts := skipNewlines (ts.drop 1)
      if atReserved "in" ts then
        let (words, ts) ← wordList fuel (ts.drop 1)
        let ts := skipNewlines (if atOperator ";" ts then ts.drop 1 else ts)
        let (body, ts) ← doGroup fuel ts
        return (.each name (some words) body, ts)
      else
        let ts := skipNewlines (if atOperator ";" ts then ts.drop 1 else ts)
        let (body, ts) ← doGroup fuel ts
        return (.each name none body, ts)

def choice : Nat → Reading Code
  | 0, ts => unexpected ts
  | fuel + 1, ts => do
    match ts with
    | .word subject _ :: ts => cases subject fuel (skipNewlines (← reserved "in" (skipNewlines ts)))
    | _ => unexpected ts

/-- The cases of a choice. -/
def cases (subject : Word) : Nat → Reading Code
  | 0, ts => unexpected ts
  | fuel + 1, ts => do
    let ts := skipNewlines ts
    if atReserved "esac" ts then return (.skip, ts.drop 1)
    let (found, ts) ← patterns fuel (if atOperator "(" ts then ts.drop 1 else ts)
    let (body, ts) ← commandList false fuel ts
    if atOperator ";;" ts then
      let (otherwise, ts) ← cases subject fuel (ts.drop 1)
      return (.matching subject found body otherwise, ts)
    return (.matching subject found body .skip, ← reserved "esac" ts)

end

/-- The commands of a script by lines. -/
def programLines : Nat → List Token → List Code × Option SyntaxError
  | 0, _ => ([], none)
  | fuel + 1, ts =>
    match skipNewlines ts with
    | [] => ([], none)
    | ts =>
      match commandList true (8 * ts.length + 8) ts with
      | .error e => ([], some e)
      | .ok (code, rest) =>
        if rest.isEmpty || atOperator "newline" rest then
          let (more, error) := programLines fuel rest
          (code :: more, error)
        else ([], some (lineOf rest, tokenText rest))

/-- The tokens without those after the last end of a line. -/
def wholeLines (ts : List Token) : List Token :=
  (ts.reverse.dropWhile fun
    | .operator "newline" _ => false
    | _ => true).reverse

def read (cs : Chars) : Program :=
  match tokens cs with
  | (ts, none) =>
    let (lines, error) := programLines (ts.length + 1) ts
    ⟨lines, error⟩
  | (ts, some e) => ⟨(programLines (ts.length + 1) (wholeLines ts)).1, some e⟩

end ToolRunner.Script
