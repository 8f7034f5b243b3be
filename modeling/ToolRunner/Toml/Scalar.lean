import ToolRunner.Toml.Value

/-!
# Unquoted values in TOML

Truth values, numbers, and dates and times. Numbers are only checked for their form.
-/

namespace ToolRunner.Toml.Scalar

def splitOn (sep : Char) (cs : List Char) : List (List Char) :=
  cs.foldr (fun c parts =>
    if c = sep then [] :: parts
    else
      match parts with
      | [] => [[c]]
      | part :: parts => (c :: part) :: parts) [[]]

/-- One or more digits, where single underscores may stand between two of them. -/
def areDigits (isDigit : Char → Bool) (cs : List Char) : Bool :=
  (splitOn '_' cs).all fun part => !part.isEmpty && part.all isDigit

/-- Digits that do not begin with a needless zero. -/
def areProperDigits (cs : List Char) : Bool :=
  areDigits Char.isDigit cs && (cs.head? != some '0' || cs.length == 1)

def dropSign : List Char → List Char
  | '+' :: cs => cs
  | '-' :: cs => cs
  | cs => cs

/-- The letters after a zero that begin a number in another base, and its digits. -/
def bases : List (Char × (Char → Bool)) :=
  [('x', fun c => c.isDigit || ('a' ≤ c.toLower && c.toLower ≤ 'f')),
    ('o', fun c => '0' ≤ c && c ≤ '7'), ('b', fun c => c == '0' || c == '1')]

def isBased : List Char → Bool
  | '0' :: base :: digits =>
    match bases.lookup base with
    | some isDigit => areDigits isDigit digits
    | none => false
  | _ => false

/-- Digits before a point and digits after it. -/
def isFraction (cs : List Char) : Bool :=
  match splitOn '.' cs with
  | [whole, part] => areProperDigits whole && areDigits Char.isDigit part
  | _ => false

/-- A number without its sign: digits, a fraction, or one of these with an exponent. -/
def isDecimal (cs : List Char) : Bool :=
  match splitOn 'e' (cs.map fun c => if c = 'E' then 'e' else c) with
  | [number] => areProperDigits number || isFraction number
  | [number, exponent] =>
    (areProperDigits number || isFraction number) && areDigits Char.isDigit (dropSign exponent)
  | _ => false

def isNumber (cs : List Char) : Bool :=
  isBased cs || isDecimal (dropSign cs) || dropSign cs == ['i', 'n', 'f'] ||
    dropSign cs == ['n', 'a', 'n']

/-- The value of exactly `count` digits at the start, and the rest. -/
def digits? (count : Nat) (cs : List Char) : Option (Nat × List Char) :=
  let digits := cs.take count
  if digits.length = count ∧ digits.all Char.isDigit then
    some (digits.foldl (fun n c => n * 10 + (c.toNat - '0'.toNat)) 0, cs.drop count)
  else none

def daysIn (year month : Nat) : Nat :=
  if month = 2 then
    if year % 4 = 0 ∧ (year % 100 ≠ 0 ∨ year % 400 = 0) then 29 else 28
  else if month ∈ [4, 6, 9, 11] then 30
  else 31

/-- A date at the start, and the rest. -/
def date? (cs : List Char) : Option (String × List Char) := do
  let (year, rest) ← digits? 4 cs
  let rest ← if rest.head? = some '-' then some rest.tail else none
  let (month, rest) ← digits? 2 rest
  let rest ← if rest.head? = some '-' then some rest.tail else none
  let (day, rest) ← digits? 2 rest
  if 1 ≤ month ∧ month ≤ 12 ∧ 1 ≤ day ∧ day ≤ daysIn year month then
    some (String.ofList (cs.take 10), rest)
  else none

/-- The fraction of a second, to at most nine places and without zeros at its end. -/
def fractionText (places : List Char) : String :=
  match ((places.take 9).reverse.dropWhile (· == '0')).reverse with
  | [] => ".0"
  | kept => "." ++ String.ofList kept

/-- What follows the minutes of a time: seconds and a fraction of one, if given. -/
def seconds? : List Char → Option (String × List Char)
  | ':' :: cs => do
    let (second, rest) ← digits? 2 cs
    if 60 < second then none
    else
      let written := ":" ++ String.ofList (cs.take 2)
      match rest with
      | '.' :: rest =>
        match rest.takeWhile Char.isDigit with
        | [] => none
        | places => some (written ++ fractionText places, rest.dropWhile Char.isDigit)
      | _ => some (written, rest)
  | cs => some ("", cs)

def hourMinute? (cs : List Char) : Option (String × List Char) := do
  let (hour, rest) ← digits? 2 cs
  let rest ← if rest.head? = some ':' then some rest.tail else none
  let (minute, rest) ← digits? 2 rest
  if hour < 24 ∧ minute < 60 then some (String.ofList (cs.take 5), rest) else none

def time? (cs : List Char) : Option (String × List Char) := do
  let (start, rest) ← hourMinute? cs
  let (more, rest) ← seconds? rest
  some (start ++ more, rest)

/-- The distance from universal time, up to the end. -/
def offset? : List Char → Option String
  | [] => some ""
  | ['Z'] => some "Z"
  | ['z'] => some "Z"
  | sign :: cs => do
    let (distance, rest) ← hourMinute? cs
    if rest.isEmpty ∧ (sign = '+' ∨ sign = '-') then
      some ((if distance = "00:00" then "+" else String.singleton sign) ++ distance)
    else none

/-- A date, a time, or both. -/
def moment? (cs : List Char) : Option String :=
  match date? cs with
  | some (date, []) => some date
  | some (date, mark :: rest) => do
    let (time, rest) ← time? rest
    let offset ← offset? rest
    if mark ∈ ['T', 't', ' '] then some (date ++ "T" ++ time ++ offset) else none
  | none =>
    match time? cs with
    | some (time, []) => some time
    | _ => none

/-- The value that unquoted characters stand for. -/
def value? (cs : List Char) : Option Value :=
  if cs = ['t', 'r', 'u', 'e'] then some (.truth true)
  else if cs = ['f', 'a', 'l', 's', 'e'] then some (.truth false)
  else if isNumber cs then some (.number (String.ofList cs))
  else (moment? cs).map .moment

end ToolRunner.Toml.Scalar
