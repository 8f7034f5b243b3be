import ToolRunner.Script.Arithmetic

/-!
# Formatted output

Backslash escapes, and formats as `printf` takes them: text with escapes and conversions, which is
used again as long as arguments are left.
-/

namespace ToolRunner.Script

def isOctal (c : Char) : Bool := '0' ≤ c && c ≤ '7'

def octalValue (cs : Chars) : Nat := cs.foldl (fun n c => n * 8 + (c.toNat - 48)) 0

/-- The leading octal digits of a text, at most so many, and the rest. -/
def octalDigits (most : Nat) (cs : Chars) : Chars × Chars :=
  let digits := (cs.take most).takeWhile isOctal
  (digits, cs.drop digits.length)

/-- What the text after a backslash stands for, and the text after that. A backslash that begins no
escape stands for itself. -/
def escape : Chars → UInt8 × Chars
  | [] => (92, [])
  | c :: cs =>
    match c with
    | 'a' => (7, cs)
    | 'b' => (8, cs)
    | 'f' => (12, cs)
    | 'n' => (10, cs)
    | 'r' => (13, cs)
    | 't' => (9, cs)
    | 'v' => (11, cs)
    | '\\' => (92, cs)
    | _ =>
      if isOctal c then
        let (digits, rest) := octalDigits 3 (c :: cs)
        ((octalValue digits).toUInt8, rest)
      else (92, c :: cs)

/-- A text in which escapes are replaced, where octal ones begin with a zero; and whether `\c` ended
it. -/
def unescaped : Nat → Chars → Bytes × Bool
  | 0, _ => ([], false)
  | _, [] => ([], false)
  | _, '\\' :: 'c' :: _ => ([], true)
  | fuel + 1, '\\' :: '0' :: cs =>
    let (digits, rest) := octalDigits 3 cs
    let (more, ended) := unescaped fuel rest
    ((octalValue digits).toUInt8 :: more, ended)
  | fuel + 1, '\\' :: cs =>
    let (b, rest) := escape cs
    let (more, ended) := unescaped fuel rest
    (b :: more, ended)
  | fuel + 1, c :: cs =>
    let (more, ended) := unescaped fuel cs
    (Bytes.ofAscii c :: more, ended)

structure Conversion where
  left : Bool
  zeros : Bool
  plus : Bool
  width : Nat
  precision : Option Nat
  kind : Char

/-- The number that begins a text, and the rest. -/
def leadingNat (cs : Chars) : Option Nat × Chars :=
  let (digits, rest) := cs.span Char.isDigit
  ((String.ofList digits).toNat?, rest)

/-- The conversion that begins a text after its percent sign, and the rest. -/
def conversion? (cs : Chars) : Option (Conversion × Chars) :=
  let (flags, rest) := cs.span fun c => ['-', '0', '+', ' ', '#'].contains c
  let (width, rest) := leadingNat rest
  let (precision, rest) :=
    match rest with
    | '.' :: rest =>
      let (n, rest) := leadingNat rest
      (some (n.getD 0), rest)
    | rest => (none, rest)
  match rest with
  | [] => none
  | kind :: rest =>
    some
      (⟨flags.contains '-', flags.contains '0', flags.contains '+', width.getD 0, precision, kind⟩,
        rest)

/-- Fills up to the width of a conversion. -/
def padded (c : Conversion) (filler : UInt8) (bs : Bytes) : Bytes :=
  let gap := List.replicate (c.width - bs.length) filler
  if c.left then bs ++ List.replicate (c.width - bs.length) 32 else gap ++ bs

/-- The value of a numeric argument, and whether it is one. -/
def numericArgument (arg : Chars) : Int × Bool :=
  match Arithmetic.skipBlanks arg with
  | '\'' :: c :: _ => (c.toNat, true)
  | '"' :: c :: _ => (c.toNat, true)
  | '-' :: cs => ((Arithmetic.number cs).elim (0, cs.isEmpty) fun n => (-n, true))
  | '+' :: cs => ((Arithmetic.number cs).elim (0, cs.isEmpty) fun n => (n, true))
  | [] => (0, true)
  | cs => (Arithmetic.number cs).elim (0, false) fun n => (n, true)

def digitsOf (base : Nat) (upper : Bool) (n : Nat) : Bytes :=
  (Nat.toDigits base n).map fun c => Bytes.ofAscii (if upper then c.toUpper else c)

/-- A number as a conversion writes it. -/
def formatNumber (c : Conversion) (i : Int) : Bytes :=
  let unsigned := (Int64.ofInt i).toUInt64.toNat
  let (sign, digits) : Bytes × Bytes :=
    match c.kind with
    | 'u' => ([], digitsOf 10 false unsigned)
    | 'o' => ([], digitsOf 8 false unsigned)
    | 'x' => ([], digitsOf 16 false unsigned)
    | 'X' => ([], digitsOf 16 true unsigned)
    | _ => (if i < 0 then [45] else if c.plus then [43] else [], digitsOf 10 false i.natAbs)
  let zeros (n : Nat) : Bytes := List.replicate n 48
  let digits := zeros (c.precision.getD 0 - digits.length) ++ digits
  if c.zeros && !c.left && c.precision.isNone then
    sign ++ zeros (c.width - sign.length - digits.length) ++ digits
  else padded c 32 (sign ++ digits)

/-- What one use of a format gives. -/
structure Formatted where
  output : Bytes
  rest : List Chars
  /-- Arguments that should be numbers and are not. -/
  wrong : List Chars
  /-- Whether an argument was taken. -/
  took : Bool
  /-- Whether `\c` ended the output. -/
  ended : Bool

/-- Uses a format once. -/
def formatOnce : Nat → Chars → List Chars → Formatted
  | 0, _, args => ⟨[], args, [], false, false⟩
  | _, [], args => ⟨[], args, [], false, false⟩
  | fuel + 1, '\\' :: cs, args =>
    let (b, rest) := escape cs
    let more := formatOnce fuel rest args
    { more with output := b :: more.output }
  | fuel + 1, '%' :: '%' :: cs, args =>
    let more := formatOnce fuel cs args
    { more with output := 37 :: more.output }
  | fuel + 1, '%' :: cs, args =>
    match conversion? cs with
    | none => ⟨[], args, [], false, false⟩
    | some (c, rest) =>
      let arg := args.headD []
      let later := formatOnce fuel rest (args.drop 1)
      match c.kind with
      | 's' =>
        let text := toBytes (match c.precision with | some n => arg.take n | none => arg)
        { later with output := padded c 32 text ++ later.output, took := true }
      | 'c' =>
        let text := toBytes (arg.take 1)
        { later with output := padded c 32 text ++ later.output, took := true }
      | 'b' =>
        let (text, ended) := unescaped (arg.length + 1) arg
        if ended then ⟨padded c 32 text, args.drop 1, [], true, true⟩
        else { later with output := padded c 32 text ++ later.output, took := true }
      | _ =>
        let (i, fine) := numericArgument arg
        { later with
          output := formatNumber c i ++ later.output
          wrong := if fine then later.wrong else arg :: later.wrong
          took := true }
  | fuel + 1, ch :: cs, args =>
    let more := formatOnce fuel cs args
    { more with output := Bytes.ofAscii ch :: more.output }

/-- Uses a format until no arguments are left; gives the output and the arguments that should be
numbers and are not. -/
def format : Nat → Chars → List Chars → Bytes × List Chars
  | 0, _, _ => ([], [])
  | fuel + 1, cs, args =>
    let once := formatOnce (cs.length + 1) cs args
    if once.ended || once.rest.isEmpty || !once.took then (once.output, once.wrong)
    else
      let (more, wrong) := format fuel cs once.rest
      (once.output ++ more, once.wrong ++ wrong)

end ToolRunner.Script
