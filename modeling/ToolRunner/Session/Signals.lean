import ToolRunner.Session

/-!
# Signals to the program

A child may send signals to the program that runs it. The first interrupt destroys everything that
is registered with a tracker, further ones change nothing, and any other signal ends the program at
once, whatever is still under way.
-/

namespace ToolRunner.Session

def signalled (s : Session) (signal : Signal) : Bool :=
  s.executions.any (·.signals.contains signal)

def killed (s : Session) : Bool := s.signalled .deadly

def interrupted (s : Session) : Bool := s.signalled .interrupt

/-- Follows an execution to its end, and heeds the signals that come meanwhile. -/
def follow (s : Session) (tracker : String) (h : Handle) : Session :=
  let s := s.advance fun s => holds h Execution.done s || s.killed || s.interrupted
  if s.killed || !s.interrupted then s
  else (s.destroyAll tracker).2.advance fun s => holds h Execution.done s || s.killed

/-- Starts a command and follows it to its end. -/
def beginAndFollow (tracker : String) (spawn : Spawn) (s : Session) (r : Runner) (c : Command) :
    Result Handle × Session :=
  match s.begin spawn r c with
  | (.error cause, s) => (.error cause, s)
  | (.ok h, s) =>
    let s := s.follow tracker h
    match s.refusal? h with
    | some cause => (.error cause, s)
    | none => (.ok h, s)

end ToolRunner.Session
