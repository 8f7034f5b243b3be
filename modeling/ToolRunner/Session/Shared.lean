import ToolRunner.Session

/-!
# Sessions with shared listeners

A runner and its clones have their listeners in common. Whichever of their executions is under way,
it is the same listeners that are called, and when one of them answers it has the calls of all
executions behind it. So a move is made with the listeners as they are, and leaves them with the
calls of the move.
-/

namespace ToolRunner

def Reader.hearing (r : Reader) (listeners : List (Registration String)) : Reader :=
  { r with drain := { r.drain with listeners := listeners } }

def Execution.hearing (e : Execution) (l : Listeners) : Execution :=
  { e with
    lines := .ofFn l.onLine
    start := l.start
    exit := l.exit
    readers := .ofFn fun c => (e.readers.get c).map (·.hearing (l.onLine c)) }

/-- A session, and the listeners that its executions have in common. -/
structure Shared where
  session : Session
  listeners : Listeners

namespace Shared

def new (r : Runner) : Shared := ⟨.empty, r.listeners⟩

def execution? (s : Shared) (h : Handle) : Option Execution := s.session.execution? h

/-- Starts a command; nobody is called yet. -/
def begin (s : Shared) (spawn : Session.Spawn) (r : Runner) (c : Command) :
    Result Handle × Shared :=
  let (h, session) := s.session.begin spawn r c
  (h, { s with session })

/-- One move of one execution. -/
def move (s : Shared) (h : Handle) (m : Move) : Option Shared :=
  match s.execution? h with
  | none => none
  | some e =>
    let name := Session.trackerName e
    ((e.hearing s.listeners).step m (s.session.trackers name)).map fun after =>
      { session :=
          { s.session.setTracker name after.1 with
            executions := s.session.executions.set h after.2 }
        listeners := after.2.listeners }

/-- Makes moves one after another, of which each must be possible. -/
def moves : List (Handle × Move) → Shared → Option Shared
  | [], s => some s
  | m :: ms, s =>
    match s.move m.1 m.2 with
    | some s => moves ms s
    | none => none

def destroy (s : Shared) (h : Handle) : Shared :=
  { s with session := s.session.destroy h }

def destroyAll (s : Shared) (tracker : String) : Nat × Shared :=
  let (count, session) := s.session.destroyAll tracker
  (count, { s with session })

end Shared

end ToolRunner
