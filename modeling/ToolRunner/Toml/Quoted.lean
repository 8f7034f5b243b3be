/-!
# Quoted text in TOML

The four kinds of quoted text: with or without escapes, on one line or on several. `Quoted.read`
takes one character after another and keeps track of what has begun (`Phase`).
-/

namespace ToolRunner.Toml

/-- A character that stands for itself nowhere: the control characters except the tab. -/
def isControl (c : Char) : Bool :=
  (c.toNat < 0x20 && c != '\t') || c.toNat == 0x7F

def isSpace (c : Char) : Bool := c == ' ' || c == '\t'

def hexDigit? (c : Char) : Option Nat :=
  if '0' ≤ c ∧ c ≤ '9' then some (c.toNat - '0'.toNat)
  else if 'a' ≤ c ∧ c ≤ 'f' then some (c.toNat - 'a'.toNat + 10)
  else if 'A' ≤ c ∧ c ≤ 'F' then some (c.toNat - 'A'.toNat + 10)
  else none

structure Quoted where
  quote : Char
  multiline : Bool
deriving DecidableEq, Repr

namespace Quoted

/-- Escapes stand in double quotes only. -/
def escapes (q : Quoted) : Bool := q.quote == '"'

/-- What has begun inside a quoted text. -/
inductive Phase where
  | plain
  /-- So many quotes in a row, on several lines. -/
  | quotes (count : Nat)
  | escape
  /-- The number of a character, of which `due` digits are due. -/
  | digits (due value : Nat)
  /-- The blanks after a backslash that ends a line. -/
  | folding (sawEnd : Bool)
  /-- A carriage return, which a line feed must follow. -/
  | carriage (folding : Bool)

/-- What a character does. `text` is what has been read, last character first. -/
inductive Move where
  | go (phase : Phase) (text : List Char)
  | close (text : List Char)
  /-- The text has ended before this character. -/
  | closeBefore (text : List Char)
  | invalid

/-- The characters that single letters stand for after a backslash. -/
def namedEscapes : List (Char × Char) :=
  [('b', '\x08'), ('t', '\t'), ('n', '\n'), ('f', '\x0c'), ('r', '\r'), ('e', '\x1b'), ('"', '"'),
    ('\\', '\\')]

/-- The letters that digits follow after a backslash, and how many. -/
def numberedEscapes : List (Char × Nat) := [('x', 2), ('u', 4), ('U', 8)]

/-- A character after a backslash. -/
def escaped (q : Quoted) (text : List Char) (c : Char) : Move :=
  match namedEscapes.lookup c, numberedEscapes.lookup c with
  | some meant, _ => .go .plain (meant :: text)
  | none, some count => .go (.digits count 0) text
  | none, none =>
    if !q.multiline then .invalid
    else if isSpace c then .go (.folding false) text
    else if c = '\n' then .go (.folding true) text
    else if c = '\r' then .go (.carriage true) text
    else .invalid

/-- A character where nothing has begun. -/
def plain (q : Quoted) (text : List Char) (c : Char) : Move :=
  if c = q.quote then if q.multiline then .go (.quotes 1) text else .close text
  else if c = '\\' ∧ q.escapes then .go .escape text
  else if c = '\n' ∧ q.multiline then .go .plain (c :: text)
  else if c = '\r' ∧ q.multiline then .go (.carriage false) (c :: text)
  else if isControl c then .invalid
  else .go .plain (c :: text)

/-- A digit of the number of a character. -/
def numbered (due value : Nat) (text : List Char) (c : Char) : Move :=
  match hexDigit? c with
  | none => .invalid
  | some d =>
    let value := value * 16 + d
    if 1 < due then .go (.digits (due - 1) value) text
    else if value.isValidChar then .go .plain (Char.ofNat value :: text)
    else .invalid

/-- What the character `c` does. Three quotes end a text on several lines, and up to two more right
before them belong to it. -/
def move (q : Quoted) (phase : Phase) (text : List Char) (c : Char) : Move :=
  match phase with
  | .plain => q.plain text c
  | .quotes n =>
    if c = q.quote then
      if n < 4 then .go (.quotes (n + 1)) text else .close (q.quote :: q.quote :: text)
    else if 3 ≤ n then .closeBefore (List.replicate (n - 3) q.quote ++ text)
    else q.plain (List.replicate n q.quote ++ text) c
  | .escape => q.escaped text c
  | .digits due value => numbered due value text c
  | .folding sawEnd =>
    if isSpace c then .go (.folding sawEnd) text
    else if c = '\n' then .go (.folding true) text
    else if c = '\r' then .go (.carriage true) text
    else if sawEnd then q.plain text c
    else .invalid
  | .carriage folding =>
    if c ≠ '\n' then .invalid
    else if folding then .go (.folding true) text
    else .go .plain (c :: text)

/-- Reads on; the result is the text and what follows its end. -/
def readFrom (q : Quoted) (phase : Phase) (text : List Char) :
    List Char → Option (String × List Char)
  | [] =>
    match phase with
    | .quotes n =>
      if 3 ≤ n then some (String.ofList (List.replicate (n - 3) q.quote ++ text).reverse, [])
      else none
    | _ => none
  | c :: cs =>
    match q.move phase text c with
    | .go phase text => q.readFrom phase text cs
    | .close text => some (String.ofList text.reverse, cs)
    | .closeBefore text => some (String.ofList text.reverse, c :: cs)
    | .invalid => none

/-- A line end right after the opening quotes is no part of the text. -/
def dropLineEnd : List Char → List Char
  | '\n' :: cs => cs
  | '\r' :: '\n' :: cs => cs
  | cs => cs

/-- Reads what follows the opening quotes. -/
def read (q : Quoted) (cs : List Char) : Option (String × List Char) :=
  q.readFrom .plain [] (if q.multiline then dropLineEnd cs else cs)

end Quoted

end ToolRunner.Toml
