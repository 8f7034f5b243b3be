import ToolRunner.Text.Bytes

/-!
# Pieces of a stream

A stream of bytes is delivered line by line. A line ends at a line feed, which is dropped, or at the
cap: a longer run without a line feed is cut into pieces of that size. `take` says what the bytes at
hand do to the line that has begun.

The line feed right after a full line still ends that line, if it is among the bytes at hand.
-/

namespace ToolRunner.Line

/-- The most bytes that are delivered as one piece: a positive number, and so small that one byte
more can be counted in a 64-bit word. -/
structure Cap where
  size : Nat
  pos : 0 < size
  fits : size + 1 < UInt64.size

def largest : UInt64 := 18446744073709551615

namespace Cap

/-- The cap for a word; zero counts as one. At the largest word it does not matter, since a reader
panics before its first line begins (`Drain.readUpTo`). -/
def ofWord (w : UInt64) : Cap where
  size := max 1 (min w.toNat (largest.toNat - 1))
  pos := by omega
  fits := by
    have hlargest : largest.toNat = 18446744073709551615 := rfl
    simp only [UInt64.size]
    omega

def standard : Cap := ⟨1048576, by decide, by decide⟩

end Cap

/-- The bytes of a line that has begun; there is room for at least one more. -/
structure Partial (cap : Cap) where
  bytes : Array UInt8
  room : bytes.size < cap.size

namespace Partial

variable {cap : Cap}

def empty : Partial cap := ⟨#[], cap.pos⟩

end Partial

/-- What bytes at hand do to a line that has begun. -/
inductive Taken (cap : Cap) where
  /-- All are used up and the line goes on. -/
  | more (line : Partial cap)
  /-- A line feed ended the line. -/
  | line (bytes : Array UInt8) (rest : Bytes)
  /-- The line is full. -/
  | split (bytes : Array UInt8) (rest : Bytes)

variable {cap : Cap}

/-- What is left after a line that has just been filled: the line feed after it belongs to it. -/
def takeFull (bytes : Array UInt8) : Bytes → Taken cap
  | [] => .split bytes []
  | b :: bs => if b = Bytes.newline then .line bytes bs else .split bytes (b :: bs)

/-- Uses the bytes at hand for the line that has begun, until a line feed ends it, it is full, or
there are no more. -/
def take (line : Partial cap) : Bytes → Taken cap
  | [] => .more line
  | b :: bs =>
    if b = Bytes.newline then .line line.bytes bs
    else if h : line.bytes.size + 1 < cap.size then
      take ⟨line.bytes.push b, by simpa using h⟩ bs
    else takeFull (line.bytes.push b) bs

/-- The bytes that a piece leaves over; none are left where the line goes on. -/
def Taken.rest : Taken cap → Bytes
  | more _ => []
  | line _ rest => rest
  | split _ rest => rest

theorem takeFull_rest_le (bytes : Array UInt8) (bs : Bytes) :
    (takeFull bytes bs : Taken cap).rest.length ≤ bs.length := by
  cases bs with
  | nil => simp [takeFull, Taken.rest]
  | cons b bs => simp only [takeFull]; split <;> simp [Taken.rest]

theorem take_rest_le (line : Partial cap) (bs : Bytes) :
    (take line bs).rest.length ≤ bs.length - 1 := by
  induction bs generalizing line with
  | nil => simp [take, Taken.rest]
  | cons b bs ih =>
    simp only [take]
    split
    · simp [Taken.rest]
    · split
      · rename_i h
        have := ih ⟨line.bytes.push b, by simpa using h⟩
        simp only [List.length_cons]
        omega
      · have := @takeFull_rest_le cap (line.bytes.push b) bs
        simp only [List.length_cons]
        omega

/-- A piece uses up at least one byte. -/
theorem take_rest_lt {line : Partial cap} {bs : Bytes} (h : ∀ l, take line bs ≠ .more l) :
    (take line bs).rest.length < bs.length := by
  cases bs with
  | nil => exact absurd rfl (h line)
  | cons b bs =>
    have := take_rest_le line (b :: bs)
    simp only [List.length_cons] at this ⊢
    omega

theorem rest_lt_of_take_line {line : Partial cap} {bs rest : Bytes} {bytes : Array UInt8}
    (h : take line bs = .line bytes rest) : rest.length < bs.length := by
  have := @take_rest_lt cap line bs (by simp [h])
  simpa [h, Taken.rest] using this

theorem rest_lt_of_take_split {line : Partial cap} {bs rest : Bytes} {bytes : Array UInt8}
    (h : take line bs = .split bytes rest) : rest.length < bs.length := by
  have := @take_rest_lt cap line bs (by simp [h])
  simpa [h, Taken.rest] using this

end ToolRunner.Line
