import ToolRunner.Script.Code

/-!
# Tokens of a script

Words, with their quotes and expansions taken apart, operators and redirections. Every function
takes the text from where it stands and gives what is left; `fuel` is the length of the text, which
no step can exceed.
-/

namespace ToolRunner.Script

/-- A token and the line that it begins on. -/
inductive Token where
  | word (w : Word) (line : Nat)
  | operator (name : String) (line : Nat)
  | redirect (descriptor : Nat) (kind : Redirection) (line : Nat)
deriving DecidableEq, Repr

/-- What is wrong with a script, and the line where it shows. -/
abbrev SyntaxError := Nat × String

/-- The backquote, which encloses a script whose output is meant. -/
def backquote : Char := Char.ofNat 96

def isNameStart (c : Char) : Bool := c.isAlpha || c == '_'

def isNameChar (c : Char) : Bool := c.isAlphanum || c == '_'

def endsWord (c : Char) : Bool :=
  [' ', '\t', '\n', ';', '&', '|', '<', '>', '(', ')'].contains c

/-- Whether a character names a parameter by itself. -/
def isSpecial (c : Char) : Bool := ['@', '*', '#', '?', '-', '$', '!'].contains c

/-- The text up to a closing character, which may be nested, quoted or escaped. -/
def enclosed (opening closing : Char) : Nat → Nat → Chars → Chars → Option (Chars × Chars)
  | 0, _, _, _ => none
  | _, _, _, [] => none
  | fuel + 1, depth, done, '\\' :: c :: cs =>
    enclosed opening closing fuel depth (c :: '\\' :: done) cs
  | fuel + 1, depth, done, '\'' :: cs =>
    if (cs.span (· != '\'')).2.isEmpty then enclosed opening closing fuel depth ('\'' :: done) cs
    else
      let (quoted, rest) := cs.span (· != '\'')
      enclosed opening closing fuel depth ('\'' :: quoted.reverse ++ '\'' :: done) (rest.drop 1)
  | fuel + 1, depth, done, c :: cs =>
    if c == closing then
      match depth with
      | 0 => some (done.reverse, cs)
      | depth + 1 => enclosed opening closing fuel depth (c :: done) cs
    else
      enclosed opening closing fuel (if c == opening then depth + 1 else depth) (c :: done) cs

/-- What is asked of a parameter, from the text after its name. -/
def paramUse : Chars → Option ParamUse
  | [] => some .value
  | ':' :: '-' :: w => some (.instead true w)
  | '-' :: w => some (.instead false w)
  | ':' :: '=' :: w => some (.assign true w)
  | '=' :: w => some (.assign false w)
  | ':' :: '+' :: w => some (.alternative true w)
  | '+' :: w => some (.alternative false w)
  | ':' :: '?' :: w => some (.required true w)
  | '?' :: w => some (.required false w)
  | '#' :: '#' :: w => some (.dropStart true w)
  | '#' :: w => some (.dropStart false w)
  | '%' :: '%' :: w => some (.dropEnd true w)
  | '%' :: w => some (.dropEnd false w)
  | _ => none

/-- The name that begins a text: a word, a number or a special character. -/
def paramName : Chars → Option (Chars × Chars)
  | [] => none
  | c :: cs =>
    if isNameStart c then some ((c :: cs).span isNameChar)
    else if c.isDigit then some ((c :: cs).span Char.isDigit)
    else if isSpecial c then some ([c], cs)
    else none

/-- The parameter between braces. -/
def bracedParam (inside : Chars) (quoted : Bool) : Option Part :=
  match inside with
  | ['#'] => some (.param ['#'] .value quoted)
  | '#' :: name =>
    match paramName name with
    | some (n, []) => some (.param n .length quoted)
    | _ => none
  | _ => do
    let (name, rest) ← paramName inside
    return .param name (← paramUse rest) quoted

/-- What a dollar sign begins, and the text after it. -/
def dollar (fuel : Nat) (quoted : Bool) : Chars → Except String (Part × Chars)
  | '(' :: '(' :: cs =>
    match enclosed '(' ')' fuel 0 [] cs with
    | some (expr, ')' :: rest) => .ok (.arithmetic expr quoted, rest)
    | _ => .error "Missing '))'"
  | '(' :: cs =>
    match enclosed '(' ')' fuel 0 [] cs with
    | some (script, rest) => .ok (.output script quoted, rest)
    | none => .error "end of file unexpected (expecting \")\")"
  | '{' :: cs =>
    match enclosed '{' '}' fuel 0 [] cs with
    | none => .error "Missing '\x7d'"
    | some (inside, rest) =>
      .ok ((bracedParam inside quoted).getD (.param [] .wrong quoted), rest)
  | c :: cs =>
    if isNameStart c then
      let (name, rest) := (c :: cs).span isNameChar
      .ok (.param name .value quoted, rest)
    else if c.isDigit || isSpecial c then .ok (.param [c] .value quoted, cs)
    else .ok (.text ['$'] quoted, c :: cs)
  | [] => .ok (.text ['$'] quoted, [])

/-- Adds a character to the last part, which comes first. -/
def addChar (quoted : Bool) (c : Char) : List Part → List Part
  | .text cs q :: parts =>
    if q == quoted then .text (cs ++ [c]) q :: parts else .text [c] quoted :: .text cs q :: parts
  | parts => .text [c] quoted :: parts

/-- The parts inside double quotes, last one first, and the text after the closing quote. -/
def doubleQuoted : Nat → List Part → Chars → Except String (List Part × Chars)
  | 0, _, _ => .error "Unterminated quoted string"
  | _, _, [] => .error "Unterminated quoted string"
  | _ + 1, parts, '"' :: cs => .ok (parts, cs)
  | fuel + 1, parts, '\\' :: c :: cs =>
    if c == '\n' then doubleQuoted fuel parts cs
    else if ['$', backquote, '"', '\\'].contains c then doubleQuoted fuel (addChar true c parts) cs
    else doubleQuoted fuel (addChar true c (addChar true '\\' parts)) cs
  | fuel + 1, parts, '$' :: cs => do
    let (part, rest) ← dollar fuel true cs
    doubleQuoted fuel (part :: parts) rest
  | fuel + 1, parts, c :: cs =>
    if c == backquote then
      let (script, rest) := cs.span (· != backquote)
      doubleQuoted fuel (.output script true :: parts) (rest.drop 1)
    else doubleQuoted fuel (addChar true c parts) cs

/-- The parts of a word, last one first, and the text after it. -/
def wordParts : Nat → List Part → Chars → Except String (List Part × Chars)
  | 0, parts, cs => .ok (parts, cs)
  | _, parts, [] => .ok (parts, [])
  | fuel + 1, parts, '\'' :: cs =>
    let (quoted, rest) := cs.span (· != '\'')
    if rest.isEmpty then .error "Unterminated quoted string"
    else wordParts fuel (.text quoted true :: parts) (rest.drop 1)
  | fuel + 1, parts, '"' :: cs => do
    let (parts, rest) ← doubleQuoted fuel (.text [] true :: parts) cs
    wordParts fuel parts rest
  | fuel + 1, parts, '\\' :: c :: cs =>
    if c == '\n' then wordParts fuel parts cs else wordParts fuel (.text [c] true :: parts) cs
  | fuel + 1, parts, '$' :: cs => do
    let (part, rest) ← dollar fuel false cs
    wordParts fuel (part :: parts) rest
  | fuel + 1, parts, c :: cs =>
    if c == backquote then
      let (script, rest) := cs.span (· != backquote)
      wordParts fuel (.output script false :: parts) (rest.drop 1)
    else if endsWord c then .ok (parts, c :: cs)
    else wordParts fuel (addChar false c parts) cs

def readWord (cs : Chars) : Except String (Word × Chars) :=
  (wordParts (cs.length + 1) [] cs).map fun (parts, rest) => (parts.reverse, rest)

/-- The operator that begins a text, and the text after it. -/
def operator? : Chars → Option (String × Chars)
  | '\n' :: cs => some ("newline", cs)
  | '&' :: '&' :: cs => some ("&&", cs)
  | '&' :: cs => some ("&", cs)
  | '|' :: '|' :: cs => some ("||", cs)
  | '|' :: cs => some ("|", cs)
  | ';' :: ';' :: cs => some (";;", cs)
  | ';' :: cs => some (";", cs)
  | '(' :: cs => some ("(", cs)
  | ')' :: cs => some (")", cs)
  | _ => none

/-- The redirection that begins a text: its kind, the descriptor that it is for unless one is named,
and the text after it. -/
def redirection? : Chars → Option (Redirection × Nat × Chars)
  | '<' :: '&' :: cs => some (.duplicate, 0, cs)
  | '<' :: '<' :: cs => some (.here, 0, cs)
  | '<' :: cs => some (.input, 0, cs)
  | '>' :: '>' :: cs => some (.append, 1, cs)
  | '>' :: '&' :: cs => some (.duplicate, 1, cs)
  | '>' :: '|' :: cs => some (.output, 1, cs)
  | '>' :: cs => some (.output, 1, cs)
  | _ => none

/-- The redirection that begins a text, with the descriptor that it names. -/
def redirect? (cs : Chars) : Option (Redirection × Nat × Chars) :=
  let (digits, rest) := cs.span Char.isDigit
  (redirection? rest).map fun (kind, standard, after) =>
    (kind, (String.ofList digits).toNat?.getD standard, after)

/-! ## Texts in a script -/

/-- The lines up to the one that consists of a word, and the text after that one. With `tabs`, tabs
at the start of lines are left out. -/
def hereLines (tabs : Bool) (ending : Chars) : Nat → Chars → Chars × Chars
  | 0, cs => ([], cs)
  | _, [] => ([], [])
  | fuel + 1, cs =>
    let (line, rest) := cs.span (· != '\n')
    let line := if tabs then line.dropWhile (· == '\t') else line
    if line == ending then ([], rest.drop 1)
    else
      let (more, after) := hereLines tabs ending fuel (rest.drop 1)
      (line ++ rest.take 1 ++ more, after)

/-- The parts of a text in a script, last one first. -/
def hereParts : Nat → List Part → Chars → Except String (List Part)
  | 0, parts, _ => .ok parts
  | _, parts, [] => .ok parts
  | fuel + 1, parts, '\\' :: c :: cs =>
    if c == '\n' then hereParts fuel parts cs
    else if ['$', backquote, '\\'].contains c then hereParts fuel (addChar true c parts) cs
    else hereParts fuel (addChar true c (addChar true '\\' parts)) cs
  | fuel + 1, parts, '$' :: cs => do
    let (part, rest) ← dollar fuel true cs
    hereParts fuel (part :: parts) rest
  | fuel + 1, parts, c :: cs =>
    if c == backquote then
      let (script, rest) := cs.span (· != backquote)
      hereParts fuel (.output script true :: parts) (rest.drop 1)
    else hereParts fuel (addChar true c parts) cs

def bareText (w : Word) : Chars :=
  w.flatMap fun
    | .text cs _ => cs
    | _ => []

def isBare (w : Word) : Bool :=
  w.all fun
    | .text _ quoted => !quoted
    | _ => true

/-- What follows the sign of a text in the script: the text, the rest of the line with all that
follows the text, and how many lines the text takes. -/
def hereText (cs : Chars) : Except String (Word × Chars × Nat) := do
  let tabs := cs.head? == some '-'
  let cs := (if tabs then cs.drop 1 else cs).dropWhile fun c => c == ' ' || c == '\t'
  let (ending, rest) ← readWord cs
  let (line, below) := rest.span (· != '\n')
  let (text, after) := hereLines tabs (bareText ending) (below.length + 1) (below.drop 1)
  let lines := (below.drop 1).count '\n' - after.count '\n'
  let word : Word ←
    if isBare ending then (hereParts (text.length + 1) [] text).map List.reverse
    else pure [.text text true]
  return (word, line ++ '\n' :: after, lines)

def linesBetween (before after : Chars) : Nat :=
  (before.take (before.length - after.length)).count '\n'

/-- The tokens of a text, up to its end or to what is wrong with it. The line has `taken` further
lines, which texts in the script take. -/
def tokensFrom : Nat → Nat → Nat → Chars → List Token × Option SyntaxError
  | 0, _, _, _ => ([], none)
  | _, _, _, [] => ([], none)
  | fuel + 1, line, taken, c :: cs =>
    if c == ' ' || c == '\t' then tokensFrom fuel line taken cs
    else if c == '\\' && cs.head? == some '\n' then tokensFrom fuel (line + 1) taken (cs.drop 1)
    else if c == '#' then tokensFrom fuel line taken (cs.dropWhile (· != '\n'))
    else
      match redirect? (c :: cs) with
      | some (.here, descriptor, rest) =>
        match hereText rest with
        | .error e => ([], some (line, e))
        | .ok (word, rest, lines) =>
          let (tokens, error) := tokensFrom fuel line (taken + lines) rest
          (.redirect descriptor .here line :: .word word line :: tokens, error)
      | some (kind, descriptor, rest) =>
        let (tokens, error) := tokensFrom fuel line taken rest
        (.redirect descriptor kind line :: tokens, error)
      | none =>
        match operator? (c :: cs) with
        | some (name, rest) =>
          let (tokens, error) :=
            if c == '\n' then tokensFrom fuel (line + 1 + taken) 0 rest
            else tokensFrom fuel line taken rest
          (.operator name line :: tokens, error)
        | none =>
          match readWord (c :: cs) with
          | .error e => ([], some (line, e))
          | .ok (word, rest) =>
            let (tokens, error) := tokensFrom fuel (line + linesBetween (c :: cs) rest) taken rest
            (.word word line :: tokens, error)

def tokens (cs : Chars) : List Token × Option SyntaxError :=
  tokensFrom (2 * cs.length + 1) 1 0 cs

end ToolRunner.Script
