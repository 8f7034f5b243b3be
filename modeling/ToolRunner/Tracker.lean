/-!
# Trackers

A tracker knows the children that are running, by their handles. Each registration has a number of
its own, so that the same handle can be registered more than once and every registration is ended
by itself alone.
-/

namespace ToolRunner

/-- The number of a handle. Handles of different children have different numbers. -/
abbrev Handle := Nat

/-- The registrations that are in force. -/
structure Tracker where
  /-- The number of the next registration; it wraps around after the last word. -/
  nextId : UInt64
  active : List (UInt64 × Handle)
deriving DecidableEq, Repr

namespace Tracker

def new : Tracker := ⟨0, []⟩

instance : Inhabited Tracker := ⟨new⟩

/-- Ends a registration. One that is not in force is ended already. -/
def untrack (t : Tracker) (id : UInt64) : Tracker :=
  { t with active := t.active.filter fun entry => entry.1 != id }

/-- Registers a handle and gives the number of the registration, which takes the place of one with
the same number. -/
def track (t : Tracker) (handle : Handle) : UInt64 × Tracker :=
  (t.nextId,
    { nextId := t.nextId + 1, active := (t.nextId, handle) :: (t.untrack t.nextId).active })

def count (t : Tracker) : Nat := t.active.length

def handles (t : Tracker) : List Handle := t.active.map (·.2)

end Tracker

end ToolRunner
