import ToolRunner.Listener
import ToolRunner.Line.Piece
import ToolRunner.Text.Utf8

/-!
# Draining a stream

`Drain` reads a stream to its end, to an error or to its cancellation, and gives every line to every
listener of the channel. The cancellation token is looked at before each line and whenever a reader
that had to wait is woken, never otherwise; what was read of an unfinished line is then dropped.

A stream is given as a script of what its reads bring (`Read`).
-/

namespace ToolRunner

/-- What the reader of one channel saw. -/
structure Report where
  channel : Channel
  lines : Nat
  cancelled : Bool
  failures : List SecondaryFailure
deriving DecidableEq, Repr

namespace Line

inductive Stop where
  | ended
  | cancelled
  | failed (message : String)
deriving DecidableEq, Repr

/-- The most bytes that one read brings. -/
def readSize : Nat := 8192

/-- What the next read of a stream brings. -/
inductive Read where
  /-- Bytes; the rest of what one read cannot hold comes with the following ones. None end the input
  for this read. -/
  | bytes (bs : Bytes)
  | failure (message : String)
  /-- The reader has to wait, and is woken at once. -/
  | pending
  /-- The token is cancelled while the reader reads, and the read goes on. -/
  | cancel
deriving DecidableEq, Repr

def Read.brings : Read → Bool
  | .bytes bs => !bs.isEmpty
  | _ => false

/-- Why a stream is not drained. -/
inductive Fault where
  /-- There is no reader for it. -/
  | refused (cause : RunError)
  /-- A number is too large for a word, and the reader panics. -/
  | overflow
deriving DecidableEq, Repr

/-- A reader at work. -/
structure Drain (cap : Cap) where
  channel : Channel
  listeners : List (Registration String)
  cancelled : Bool
  line : Partial cap
  lines : Nat
  failures : Array SecondaryFailure
  stop : Option Stop

namespace Drain

variable {cap : Cap}

/-- Before the first line. -/
def start (cap : Cap) (channel : Channel) (listeners : List (Registration String))
    (cancelled : Bool) : Drain cap where
  channel := channel
  listeners := listeners
  cancelled := cancelled
  line := .empty
  lines := 0
  failures := #[]
  stop := none

/-- Looks at the token: a cancelled reader stops and drops the line that has begun. -/
def checkToken (d : Drain cap) : Drain cap :=
  if d.stop.isNone && d.cancelled then { d with stop := some .cancelled, line := .empty } else d

/-- Gives a piece to all listeners and begins the next line. -/
def deliver (d : Drain cap) (bytes : Array UInt8) : Drain cap :=
  let done := dispatch (.line d.channel) d.listeners (Utf8.decode bytes.toList)
  { d with
    listeners := done.listeners
    cancelled := d.cancelled || done.destroyed
    line := .empty
    lines := d.lines + 1
    failures := d.failures ++ done.failures }

/-- Uses up bytes that were read, delivering every piece that they complete. -/
def consume (d : Drain cap) (unread : Bytes) : Drain cap :=
  if d.stop.isSome then d
  else
    match h : take d.line unread with
    | .more line => { d with line := line }
    | .line bytes rest =>
      have := rest_lt_of_take_line h
      ((d.deliver bytes).checkToken).consume rest
    | .split bytes rest =>
      have := rest_lt_of_take_split h
      ((d.deliver bytes).checkToken).consume rest
termination_by unread.length

/-- The input ends for this read: what has been read of a line is a line, and where no line has
begun the reader is done. -/
def endInput (d : Drain cap) : Drain cap :=
  if d.stop.isSome then d
  else if d.line.bytes.isEmpty then { d with stop := some .ended }
  else (d.deliver d.line.bytes).checkToken

/-- A read fails: the reader stops, reports it, and drops the line that has begun. -/
def fail (d : Drain cap) (message : String) : Drain cap :=
  if d.stop.isSome then d
  else
    { d with
      stop := some (.failed message)
      line := .empty
      failures := d.failures.push (.read d.channel message) }

/-- The reads that bring a run of bytes. -/
def reads (bs : Bytes) : List Bytes :=
  match h : bs.drop readSize with
  | [] => [bs]
  | b :: rest =>
    have : rest.length + 1 < bs.length := by
      have := congrArg List.length h
      simp only [List.length_drop, List.length_cons, readSize] at this
      omega
    bs.take readSize :: reads (b :: rest)
termination_by bs.length

/-- What a read brings. -/
def read (d : Drain cap) : Read → Drain cap
  | .bytes [] => d.endInput
  | .bytes bs => (reads bs).foldl consume d
  | .failure message => d.fail message
  | .pending => d.checkToken
  | .cancel => { d with cancelled := true }

/-- Reads a scripted stream, after which the input has ended. -/
def run (d : Drain cap) (script : List Read) : Drain cap :=
  ((script.foldl read d.checkToken).endInput).endInput

/-- What a read brings, where the cap is a word. The bytes that are searched for a line feed are one
more than there is room for: at the largest word that number overflows while the line is empty, and
no line begins before bytes are at hand. -/
def readUpTo {w : UInt64} (d : Drain (.ofWord w)) (r : Read) : Except Fault (Drain (.ofWord w)) :=
  if d.stop.isNone && r.brings && w == largest then .error .overflow else .ok (d.read r)

/-- Reads a scripted stream, after which the input has ended, where the cap is a word. -/
def runUpTo {w : UInt64} (d : Drain (.ofWord w)) (script : List Read) :
    Except Fault (Drain (.ofWord w)) := do
  let d ← script.foldlM readUpTo d.checkToken
  return d.endInput.endInput

def report (d : Drain cap) : Report where
  channel := d.channel
  lines := d.lines
  cancelled := d.stop == some .cancelled
  failures := d.failures.toList

end Drain

def noListeners (channel : Channel) : RunError :=
  .invalidSetup ("line reader for " ++ channel.name ++ " needs at least one listener")

/-- Drains a scripted stream into listeners; there must be at least one. -/
def drain (cap : Cap) (channel : Channel) (listeners : List (Registration String))
    (cancelled : Bool) (script : List Read) : Result (Drain cap) :=
  if listeners.isEmpty then .error (noListeners channel)
  else .ok ((Drain.start cap channel listeners cancelled).run script)

/-- The same where the cap is any word. -/
def drainUpTo (w : UInt64) (channel : Channel) (listeners : List (Registration String))
    (cancelled : Bool) (script : List Read) : Except Fault (Drain (.ofWord w)) :=
  if listeners.isEmpty then .error (.refused (noListeners channel))
  else (Drain.start (.ofWord w) channel listeners cancelled).runUpTo script

end Line

end ToolRunner
