import ToolRunner.Failure

/-!
# Listeners

A listener is called on every occasion of its kind, in the order of registration. What it does is
data: from the calls it has had and the present one follows how it returns and whether it destroys
the process it is called for. A listener that fails or panics harms nobody else: the others are
called all the same, and the failure is reported (`dispatch`).
-/

namespace ToolRunner

/-- How a callback comes back. -/
inductive Outcome where
  | done
  /-- An error with its context, outermost first. -/
  | failed (chain : List String)
  /-- A panic, with its payload if that is text. -/
  | panicked (payload : Option String)
deriving DecidableEq, Repr

namespace Outcome

/-- The message of a failure. -/
def failure? : Outcome → Option String
  | done => none
  | failed chain => some (": ".intercalate chain)
  | panicked (some text) => some ("panicked: " ++ text)
  | panicked none => some "panicked: unknown panic payload"

end Outcome

/-- What a callback does. -/
structure Reaction where
  outcome : Outcome
  destroys : Bool
deriving DecidableEq, Repr

namespace Reaction

def quiet : Reaction := ⟨.done, false⟩

end Reaction

/-- A registered listener and the calls that it has had, last one first. What it does follows from
its own calls and the present one (`respond`): it shares no memory with another registration, so one
callback that is registered on both channels is outside of this model. -/
structure Registration (α : Type) where
  respond : List α → α → Reaction
  calls : List α

namespace Registration

variable {α : Type}

def ofResponse (respond : List α → α → Reaction) : Registration α :=
  ⟨respond, []⟩

/-- A listener whose reaction depends on the present call alone. -/
def ofReaction (react : α → Reaction) : Registration α :=
  ⟨fun _ a => react a, []⟩

def call (r : Registration α) (a : α) : Registration α :=
  { r with calls := a :: r.calls }

/-- What the listener does when it is called with `a` now. -/
def reaction (r : Registration α) (a : α) : Reaction :=
  r.respond r.calls a

/-- The calls in the order in which they came. -/
def received (r : Registration α) : List α :=
  r.calls.reverse

@[simp] theorem received_call (r : Registration α) (a : α) :
    (r.call a).received = r.received ++ [a] := by
  simp [received, call]

end Registration

def Reaction.failure? (r : Reaction) (event : Event) (index : Nat) : Option SecondaryFailure :=
  r.outcome.failure?.map (.listener event index ·)

/-- What the calls of one occasion left behind. -/
structure Dispatched (α : Type) where
  listeners : List (Registration α)
  failures : List SecondaryFailure
  destroyed : Bool

/-- Calls all listeners with `a`, of which the first is number `index`. -/
def dispatchFrom {α : Type} (event : Event) (a : α) (index : Nat) :
    List (Registration α) → Dispatched α
  | [] => ⟨[], [], false⟩
  | r :: rs =>
    let now := r.reaction a
    let later := dispatchFrom event a (index + 1) rs
    ⟨r.call a :: later.listeners, (now.failure? event index).toList ++ later.failures,
      now.destroys || later.destroyed⟩

def dispatch {α : Type} (event : Event) (listeners : List (Registration α)) (a : α) :
    Dispatched α :=
  dispatchFrom event a 0 listeners

theorem dispatchFrom_listeners {α : Type} (event : Event) (a : α) (index : Nat)
    (rs : List (Registration α)) :
    (dispatchFrom event a index rs).listeners = rs.map (·.call a) := by
  induction rs generalizing index with
  | nil => rfl
  | cons r rs ih => simp [dispatchFrom, ih]

/-- Every listener gets the call, whatever the others do. -/
@[simp] theorem dispatch_listeners {α : Type} (event : Event) (listeners : List (Registration α))
    (a : α) : (dispatch event listeners a).listeners = listeners.map (·.call a) :=
  dispatchFrom_listeners event a 0 listeners

/-- What a start listener sees of the process. -/
structure Started where
  program : String
  pid : Option Nat
  destroyed : Bool
deriving DecidableEq, Repr

structure Listeners where
  start : List (Registration Started) := []
  stdout : List (Registration String) := []
  stderr : List (Registration String) := []
  exit : List (Registration Int) := []

namespace Listeners

def onLine (l : Listeners) : Channel → List (Registration String)
  | .stdout => l.stdout
  | .stderr => l.stderr

def wantsOutput (l : Listeners) : Bool :=
  !l.stdout.isEmpty || !l.stderr.isEmpty

/-- How many listeners there are of each kind, in words. -/
def description (l : Listeners) : String :=
  "Listeners \x7b start: " ++ toString l.start.length ++ ", stdout: " ++ toString l.stdout.length ++
    ", stderr: " ++ toString l.stderr.length ++ ", exit: " ++ toString l.exit.length ++ " \x7d"

end Listeners

/-- The text that a listener gathers from the lines it gets, each ended by a line feed. -/
def gathered (lines : List String) : String :=
  lines.foldl (fun text line => (text ++ line).push '\n') ""

end ToolRunner
