import ToolRunner.Execution.Pipe
import ToolRunner.Line.Drain

/-!
# Readers at work

The reader of one captured channel while the child runs. It does what `Line.Drain` does, step by
step: it looks at the token before each line, takes what the pipe holds, and falls asleep where the
pipe is empty; when it is woken it looks at the token first. A line is given to all listeners in one
step, which takes no freedom from the others: nobody can see what happens between two listeners.
-/

namespace ToolRunner

/-- What happened in a run. -/
inductive Incident where
  /-- The start listener of this number was called. -/
  | started (index : Nat) (seen : Started)
  /-- Bytes came out of a pipe. -/
  | read (channel : Channel) (bytes : Bytes)
  /-- A line was too long and is delivered in pieces. -/
  | split (channel : Channel)
  /-- A line was given to all listeners of its channel. -/
  | line (channel : Channel) (text : String)
  /-- The exit listener of this number was called. -/
  | exited (index : Nat) (code : Int)
deriving DecidableEq, Repr

/-- Where a reader stands between two steps. -/
inductive ReaderPhase where
  /-- Before a line, the token not looked at. -/
  | fresh
  | reading
  /-- Waiting for the pipe or the token. -/
  | asleep
deriving DecidableEq, Repr

/-- The reader of a channel. -/
structure Reader where
  drain : Line.Drain .standard
  /-- Bytes that came out of the pipe and are not part of a line yet. -/
  unread : Bytes
  phase : ReaderPhase

/-- What a step of a reader leaves behind. -/
structure ReaderStep where
  reader : Reader
  pipe : Pipe
  incidents : List Incident

namespace Reader

/-- A reader before its first line; it needs a listener. -/
def new (channel : Channel) (listeners : List (Registration String)) : Result Reader :=
  if listeners.isEmpty then .error (Line.noListeners channel)
  else .ok ⟨.start .standard channel listeners false, [], .fresh⟩

def finished (r : Reader) : Bool := r.drain.stop.isSome

/-- The step after which the reader has stopped: nobody reads from the pipe any more. -/
def stopped (r : Reader) (drain : Line.Drain .standard) (p : Pipe) : ReaderStep :=
  ⟨{ r with drain := drain, unread := [] }, p.abandon, []⟩

/-- Stops at the token. -/
def cancel (r : Reader) (p : Pipe) : ReaderStep :=
  r.stopped { r.drain with cancelled := true }.checkToken p

/-- Gives a line to all listeners; the next one begins with what is left. -/
def deliver (r : Reader) (p : Pipe) (bytes : Array UInt8) (rest : Bytes) : ReaderStep :=
  ⟨{ drain := r.drain.deliver bytes, unread := rest, phase := .fresh }, p,
    [.line r.drain.channel (Utf8.decode bytes.toList)]⟩

/-- Uses up what came out of the pipe. -/
def consume (r : Reader) (p : Pipe) : ReaderStep :=
  match Line.take r.drain.line r.unread with
  | .more line => ⟨{ r with drain := { r.drain with line := line }, unread := [] }, p, []⟩
  | .line bytes rest => r.deliver p bytes rest
  | .split bytes rest =>
    let done := r.deliver p bytes rest
    { done with incidents := .split r.drain.channel :: done.incidents }

/-- Takes what the pipe holds, up to the size of one read. -/
def fill (r : Reader) (p : Pipe) : ReaderStep :=
  let bytes := p.content.take Line.readSize
  ⟨{ r with unread := bytes }, p.drop Line.readSize, [.read r.drain.channel bytes]⟩

/-- The input has ended: what has been read of a line is a line. -/
def endInput (r : Reader) (p : Pipe) : ReaderStep :=
  if r.drain.line.bytes.isEmpty then r.stopped r.drain.endInput p
  else r.deliver p r.drain.line.bytes []

/-- A step of the reader, where `token` says whether the token is cancelled and `closed` whether
nobody can write to the pipe any more. A reader that sleeps and is not woken has none. -/
def step (r : Reader) (token closed : Bool) (p : Pipe) : Option ReaderStep :=
  if r.finished then none
  else
    match r.phase with
    | .fresh => some (if token then r.cancel p else ⟨{ r with phase := .reading }, p, []⟩)
    | .asleep =>
      if token then some (r.cancel p)
      else if closed || !p.content.isEmpty then some ⟨{ r with phase := .reading }, p, []⟩
      else none
    | .reading =>
      if !r.unread.isEmpty then some (r.consume p)
      else if !p.content.isEmpty then some (r.fill p)
      else if closed then some (r.endInput p)
      else some ⟨{ r with phase := .asleep }, p, []⟩

/-- Whether the next thing the reader does is to read from the pipe. -/
def reads (r : Reader) (token : Bool) : Bool :=
  match r.phase with
  | .fresh => false
  | .reading => r.unread.isEmpty
  | .asleep => !token

/-- The step in which a read fails. -/
def fail (r : Reader) (token : Bool) (message : String) (p : Pipe) : Option ReaderStep :=
  if !r.finished && r.reads token then some (r.stopped (r.drain.fail message) p) else none

end Reader

end ToolRunner
