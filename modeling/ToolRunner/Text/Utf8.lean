import ToolRunner.Text.Bytes

/-!
# UTF-8, decoded with replacement

`Utf8.decode` turns any byte string into text. What is valid is decoded; each maximal part that
begins like a character and is not one, and each byte that begins none, becomes one U+FFFD.

The decoder is an automaton that takes one byte at a time (`Decoder.push`), so that where a stream
is cut into reads makes no difference (`decodeFrom_append`).
-/

namespace ToolRunner.Utf8

/-- U+FFFD, which stands for what cannot be decoded. -/
def replacement : Char := '\uFFFD'

/--
A character that has begun: the value of the bits read so far, how many more bytes are due, and
the bounds of the next one. The bounds are narrower than 0x80 to 0xBF after a first byte that could
otherwise begin an overlong form, a surrogate or a number beyond U+10FFFF.
-/
structure Due where
  value : Nat
  count : Nat
  low : UInt8
  high : UInt8
deriving DecidableEq, Repr

/-- What a byte does where a character may begin. -/
inductive Opening where
  | char (c : Char)
  | due (d : Due)
  | invalid
deriving DecidableEq, Repr

/-- The well-formed first bytes and the second byte that each of them allows. -/
def opening (b : UInt8) : Opening :=
  if b < 0x80 then .char (Char.ofNat b.toNat)
  else if b < 0xC2 then .invalid
  else if b < 0xE0 then .due ⟨b.toNat - 0xC0, 1, 0x80, 0xBF⟩
  else if b < 0xF0 then
    .due ⟨b.toNat - 0xE0, 2, if b = 0xE0 then 0xA0 else 0x80, if b = 0xED then 0x9F else 0xBF⟩
  else if b < 0xF5 then
    .due ⟨b.toNat - 0xF0, 3, if b = 0xF0 then 0x90 else 0x80, if b = 0xF4 then 0x8F else 0xBF⟩
  else .invalid

/-- The text decoded so far and the character that has begun, if one has. -/
structure Decoder where
  text : String
  due : Option Due

namespace Decoder

def start : Decoder := ⟨"", none⟩

/-- Takes a byte where a character may begin. -/
def begin (text : String) (b : UInt8) : Decoder :=
  match opening b with
  | .char c => ⟨text.push c, none⟩
  | .due d => ⟨text, some d⟩
  | .invalid => ⟨text.push replacement, none⟩

/-- Takes one byte. A byte that cannot continue the character begins the next one. -/
def push (d : Decoder) (b : UInt8) : Decoder :=
  match d.due with
  | none => begin d.text b
  | some due =>
    if due.low ≤ b ∧ b ≤ due.high then
      let value := due.value * 64 + (b.toNat - 0x80)
      match due.count with
      | 0 | 1 => ⟨d.text.push (Char.ofNat value), none⟩
      | more + 1 => ⟨d.text, some ⟨value, more, 0x80, 0xBF⟩⟩
    else begin (d.text.push replacement) b

/-- The text at the end of input: a character that has begun and not ended is replaced. -/
def finish (d : Decoder) : String :=
  match d.due with
  | none => d.text
  | some _ => d.text.push replacement

end Decoder

def decodeFrom (d : Decoder) (bs : Bytes) : Decoder :=
  bs.foldl Decoder.push d

/-- The text of a byte string, with each maximal invalid part replaced by one U+FFFD. -/
def decode (bs : Bytes) : String :=
  (decodeFrom .start bs).finish

/-- Where a byte string is cut makes no difference to its decoding. -/
theorem decodeFrom_append (d : Decoder) (as bs : Bytes) :
    decodeFrom d (as ++ bs) = decodeFrom (decodeFrom d as) bs := by
  simp [decodeFrom]

/-- The text of a byte string that is valid UTF-8, and nothing for any other. -/
def decode? (bs : Bytes) : Option String :=
  let s := decode bs
  if Bytes.ofString s = bs then some s else none

end ToolRunner.Utf8
