import ToolRunner.Text.Bytes

/-!
# Where output goes

A captured output goes through a pipe of limited capacity, an inherited one straight on to our own
stream, and an output that nobody wants is discarded.
-/

namespace ToolRunner

/-- How many bytes a pipe holds: at least one. -/
structure Capacity where
  size : Nat
  pos : 0 < size
deriving DecidableEq

/-- The capacity of pipes unless somebody asks for another. -/
def Capacity.standard : Capacity := ⟨65536, by decide⟩

/-- A pipe between a child and its reader. -/
structure Pipe where
  capacity : Capacity
  /-- What was written and not yet read. -/
  content : Bytes
  fits : content.length ≤ capacity.size
  /-- Whether somebody still reads from it. -/
  readable : Bool
deriving DecidableEq

namespace Pipe

def new (capacity : Capacity) : Pipe := ⟨capacity, [], by simp, true⟩

def room (p : Pipe) : Nat := p.capacity.size - p.content.length

def write (p : Pipe) (bytes : Bytes) : Pipe :=
  { p with
    content := p.content ++ bytes.take p.room
    fits := by
      have := p.fits
      simp only [room, List.length_append, List.length_take]
      omega }

def drop (p : Pipe) (n : Nat) : Pipe :=
  { p with
    content := p.content.drop n
    fits := by
      have := p.fits
      simp only [List.length_drop]
      omega }

def abandon (p : Pipe) : Pipe := { p with readable := false }

@[simp] theorem content_write (p : Pipe) (bytes : Bytes) :
    (p.write bytes).content = p.content ++ bytes.take p.room := rfl

end Pipe

inductive Outlet where
  | pipe (p : Pipe)
  /-- To our own stream, which has got these bytes so far. -/
  | passed (bytes : Bytes)
  | discarded
deriving DecidableEq

namespace Outlet

def pipe? : Outlet → Option Pipe
  | pipe p => some p
  | _ => none

end Outlet

end ToolRunner
