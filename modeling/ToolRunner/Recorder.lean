import ToolRunner.Listener

/-!
# Recorders

Listeners that only note what they hear, and may fail each time. One notes the output, one the error
stream, and one watches the start and the end of a run.
-/

namespace ToolRunner.Recorder

/-- What a recorder that watches a run has noted. -/
inductive Recorded where
  | started (pid : Option Nat)
  | line (text : String)
  | exited (code : Int)
deriving DecidableEq, Repr

/-- What a recorder does once it has noted a call. -/
def reaction (failure : Option String) : Reaction :=
  match failure with
  | none => .quiet
  | some message => ⟨.failed [message], false⟩

/-- The listeners of three recorders. -/
def listeners (failure : Option String) : Listeners where
  start := [.ofReaction fun _ => reaction failure]
  stdout := [.ofReaction fun _ => reaction failure]
  stderr := [.ofReaction fun _ => reaction failure]
  exit := [.ofReaction fun _ => reaction failure]

def lines (l : Listeners) (channel : Channel) : List Recorded :=
  (l.onLine channel).flatMap fun r => r.received.map .line

/-- What the recorder of the start and the end has noted; the start comes first. -/
def lifecycle (l : Listeners) : List Recorded :=
  (l.start.flatMap fun r => r.received.map fun seen => .started seen.pid) ++
    l.exit.flatMap fun r => r.received.map .exited

def exitCodes (noted : List Recorded) : List Int :=
  noted.filterMap fun
    | .exited code => some code
    | _ => none

def starts (noted : List Recorded) : Nat :=
  noted.countP fun
    | .started _ => true
    | _ => false

end ToolRunner.Recorder
