import ToolRunner.Child
import ToolRunner.Completion
import ToolRunner.Execution.Reader
import ToolRunner.Tracker

/-!
# Executions

One run of one child, from the moment at which it has been started. Four parties take part: the
child, the two readers of its outputs, and the supervisor, which registers the child, wires the
readers, calls the start listeners, waits for the child or for its handle to be destroyed, joins the
readers, ends the registration and calls the exit listeners. `step` is one move of one party; the
order in which the parties move is not fixed, and where a party cannot move, `step` gives nothing.

A destroyed handle is a cancelled token: the supervisor kills the child when it sees it, and the
readers stop when they look at it.
-/

namespace ToolRunner

/-- How far the supervisor has come. -/
inductive Phase where
  /-- The child runs and nobody else knows of it. -/
  | spawned
  /-- The child is registered. -/
  | wiring
  /-- The start listeners before this number have been called. -/
  | starting (next : Nat)
  /-- Waiting for the child to end or the handle to be destroyed, whichever is seen first. -/
  | waiting
  /-- The child was killed and is waited for. -/
  | reaping
  /-- Waiting for the reader of a channel. -/
  | joining (channel : Channel)
  | releasing
  /-- The exit listeners before this number have been called. -/
  | notifying (next : Nat)
  | finished
  /-- No reader could be wired. -/
  | refused (cause : RunError)
deriving DecidableEq, Repr

/-- A run under way. -/
structure Execution where
  handle : Handle
  program : String
  pid : Nat
  mode : Mode
  /-- The tracker that the child is registered with while it runs. -/
  tracker : Option String
  child : Child
  outlets : PerChannel Outlet
  /-- The line listeners, as they were before the readers had them. -/
  lines : PerChannel (List (Registration String))
  start : List (Registration Started)
  exit : List (Registration Int)
  phase : Phase := .spawned
  readers : PerChannel (Option Reader) := .both none
  registration : Option UInt64 := none
  /-- Whether the handle was destroyed. -/
  destroyed : Bool := false
  /-- Whether the supervisor killed the child. -/
  killed : Bool := false
  /-- The exit code, once the child was waited for. -/
  code : Int := Completion.unknownExitCode
  startFailures : List SecondaryFailure := []
  /-- Failures of waiting, of the readers and of the exit listeners, in the order in which they were
  collected. -/
  failures : List SecondaryFailure := []
  reports : PerChannel (Option Report) := .both none
  /-- The signals that the child has sent to the program that runs it, last one first. -/
  signals : List Signal := []
  /-- What has happened, last one first. -/
  history : List Incident := []

/-- A move of one of the parties. -/
inductive Move where
  | supervisor
  /-- The waiting supervisor sees that the handle was destroyed. -/
  | cancellation
  /-- A task of the child; the main one has no number. -/
  | child (task : Option Nat)
  | reader (channel : Channel)
  /-- Somebody destroys the handle. -/
  | destroy
  | readFailure (channel : Channel) (message : String)
  /-- The child has ended, and how it did cannot be learned. -/
  | waitFailure (message : String)
deriving DecidableEq, Repr

namespace Execution

/-! ## The supervisor -/

def register (e : Execution) (t : Tracker) : Tracker × Execution :=
  match e.tracker with
  | none => (t, { e with phase := .wiring })
  | some _ =>
    let (id, t) := t.track e.handle
    (t, { e with phase := .wiring, registration := some id })

def unregister (e : Execution) (t : Tracker) : Tracker :=
  match e.registration with
  | none => t
  | some id => t.untrack id

/-- The reader of a channel, where the channel is captured. -/
def newReader (e : Execution) (channel : Channel) : Result (Option Reader) :=
  match e.outlets.get channel with
  | .pipe _ => (Reader.new channel (e.lines.get channel)).map some
  | _ => .ok none

/-- The readers of both channels. -/
def newReaders (e : Execution) : Result (PerChannel (Option Reader)) := do
  let stdout ← e.newReader .stdout
  let stderr ← e.newReader .stderr
  return ⟨stdout, stderr⟩

/-- Wires the readers. Where that fails the child is killed and no longer registered. -/
def wire (e : Execution) (t : Tracker) : Tracker × Execution :=
  match e.newReaders with
  | .ok readers => (t, { e with readers := readers, phase := .starting 0 })
  | .error cause => (e.unregister t, { e with child := e.child.kill, phase := .refused cause })

/-- Calls the start listener of a number. -/
def callStart (e : Execution) (index : Nat) (r : Registration Started) : Execution :=
  let seen : Started := ⟨e.program, some e.pid, e.destroyed⟩
  let now := r.reaction seen
  { e with
    start := e.start.set index (r.call seen)
    startFailures := e.startFailures ++ (now.failure? .start index).toList
    destroyed := e.destroyed || now.destroys
    history := .started index seen :: e.history
    phase := .starting (index + 1) }

def callExit (e : Execution) (index : Nat) (r : Registration Int) : Execution :=
  let now := r.reaction e.code
  { e with
    exit := e.exit.set index (r.call e.code)
    failures := e.failures ++ (now.failure? .exit index).toList
    destroyed := e.destroyed || now.destroys
    history := .exited index e.code :: e.history
    phase := .notifying (index + 1) }

def reap (e : Execution) : Option Execution :=
  e.child.status.map fun ending =>
    { e with code := ending.code?.getD Completion.unknownExitCode, phase := .joining .stdout }

def afterJoining : Channel → Phase
  | .stdout => .joining .stderr
  | .stderr => .releasing

/-- Joins a reader that has stopped, and collects its failures. -/
def join (e : Execution) (channel : Channel) : Option Execution :=
  match e.readers.get channel with
  | none => some { e with phase := afterJoining channel }
  | some r =>
    if r.finished then
      some
        { e with
          failures := e.failures ++ r.drain.report.failures
          reports := e.reports.set channel (some { r.drain.report with failures := [] })
          phase := afterJoining channel }
    else none

/-- What the supervisor does next. -/
def supervise (e : Execution) (t : Tracker) : Option (Tracker × Execution) :=
  match e.phase with
  | .spawned => some (e.register t)
  | .wiring => some (e.wire t)
  | .starting next =>
    match e.start[next]? with
    | some r => some (t, e.callStart next r)
    | none => some (t, { e with phase := .waiting })
  | .waiting => e.reap.map (t, ·)
  | .reaping => e.reap.map (t, ·)
  | .joining channel => (e.join channel).map (t, ·)
  | .releasing => some (e.unregister t, { e with phase := .notifying 0 })
  | .notifying next =>
    match e.exit[next]? with
    | some r => some (t, e.callExit next r)
    | none => some (t, { e with phase := .finished })
  | .finished => none
  | .refused _ => none

/-- The waiting supervisor sees a destroyed handle and kills the child. A kill that failed would be
logged and the child waited for, who then ends by itself; there is no such move, because the kill of
a child of one's own that has not been waited for does not fail (`Child.kill`). -/
def seeCancellation (e : Execution) : Option Execution :=
  if e.phase == .waiting && e.destroyed then
    some { e with child := e.child.kill, killed := true, phase := .reaping }
  else none

/-- The supervisor cannot learn how the child has ended. Waiting fails only for a child that has
ended: it blocks as long as the child goes on, and then gives its status, or an error where somebody
else has taken that already. -/
def failWaiting (e : Execution) (message : String) : Option Execution :=
  if (e.phase == .waiting || e.phase == .reaping) && e.child.status.isSome then
    some
      { e with
        failures := e.failures ++ [.wait message]
        code := Completion.unknownExitCode
        phase := .joining .stdout }
  else none

/-! ## The readers -/

def closed (e : Execution) (channel : Channel) : Bool := !e.child.keeps channel

/-- Puts the outcome of a reader's step in its place. A listener may have destroyed the handle. -/
def afterReader (e : Execution) (channel : Channel) (s : ReaderStep) : Execution :=
  { e with
    readers := e.readers.set channel (some s.reader)
    outlets := e.outlets.set channel (.pipe s.pipe)
    destroyed := e.destroyed || s.reader.drain.cancelled
    history := s.incidents.reverse ++ e.history }

/-- What a reader does next, given its own next step. -/
def read (e : Execution) (channel : Channel) (next : Reader → Pipe → Option ReaderStep) :
    Option Execution :=
  match e.readers.get channel, e.outlets.get channel with
  | some r, .pipe p => (next r p).map (e.afterReader channel)
  | _, _ => none

/-! ## The child -/

def proceed (e : Execution) (which : Option Nat) (t : Task) (acts : List Act) : Execution :=
  { e with child := e.child.setTask which { t with acts := acts } }

/-- What is left of a task's acts after some bytes of a write. -/
def writeRest (channel : Channel) (bytes : Bytes) (acts : List Act) : List Act :=
  if bytes.isEmpty then acts else .write channel bytes :: acts

/-- A task writes: as much as a pipe can hold at the moment, and nothing where it is full. A pipe
that nobody reads from is the end of the task. -/
def write (e : Execution) (which : Option Nat) (t : Task) (channel : Channel) (bytes : Bytes)
    (acts : List Act) : Option Execution :=
  if !t.holds.get channel || bytes.isEmpty then some (e.proceed which t acts)
  else
    match e.outlets.get channel with
    | .discarded => some (e.proceed which t acts)
    | .passed before =>
      some
        { e.proceed which t acts with
          outlets := e.outlets.set channel (.passed (before ++ bytes)) }
    | .pipe p =>
      if !p.readable then some { e with child := e.child.endTask which .killed }
      else if p.room = 0 then none
      else
        some
          { e.proceed which t (writeRest channel (bytes.drop p.room) acts) with
            outlets := e.outlets.set channel (.pipe (p.write bytes)) }

/-- A task of the child does what it does next. -/
def act (e : Execution) (which : Option Nat) : Option Execution :=
  match e.child.task? which with
  | none => none
  | some t =>
    if t.ended then none
    else
      match t.acts with
      | [] => some { e with child := e.child.endTask which e.child.ending }
      | .write channel bytes :: acts => e.write which t channel bytes acts
      | .close channel :: acts =>
        some (e.proceed which { t with holds := t.holds.set channel false } acts)
      | .pause time :: acts => some (e.proceed which { t with time := t.time + time } acts)
      | .hang :: _ => none
      | .signal s :: acts => some { e.proceed which t acts with signals := s :: e.signals }

/-! ## All parties -/

def destroy (e : Execution) : Execution := { e with destroyed := true }

/-- One move, given the tracker that the child is registered with. -/
def step (m : Move) (t : Tracker) (e : Execution) : Option (Tracker × Execution) :=
  match m with
  | .supervisor => e.supervise t
  | .cancellation => e.seeCancellation.map (t, ·)
  | .child which => (e.act which).map (t, ·)
  | .reader channel =>
    (e.read channel fun r p => r.step e.destroyed (e.closed channel) p).map (t, ·)
  | .destroy => some (t, e.destroy)
  | .readFailure channel message =>
    (e.read channel fun r p => r.fail e.destroyed message p).map (t, ·)
  | .waitFailure message => (e.failWaiting message).map (t, ·)

/-- Makes moves one after another, of which each must be possible. -/
def steps : List Move → Tracker → Execution → Option (Tracker × Execution)
  | [], t, e => some (t, e)
  | m :: ms, t, e =>
    match e.step m t with
    | some (t, e) => e.steps ms t
    | none => none

/-! ## What is known of a run -/

def done (e : Execution) : Bool := e.phase == .finished

/-- Whether the call that started the run has returned: a synchronous one does so at the end, an
asynchronous one when the start listeners have been called. -/
def returned (e : Execution) : Bool :=
  match e.mode, e.phase with
  | _, .spawned => false
  | _, .wiring => false
  | _, .starting _ => false
  | _, .refused _ => true
  | _, .finished => true
  | .asynchronous, _ => true
  | .synchronous, _ => false

/-- The exit code, as far as the caller has it before waiting. -/
def exitCode? (e : Execution) : Option Int :=
  match e.mode, e.phase with
  | .synchronous, .finished => some e.code
  | _, _ => none

def completion (e : Execution) : Completion where
  exitCode := e.code
  destroyed := e.killed
  stdout := e.reports.stdout
  stderr := e.reports.stderr
  deferred := e.startFailures ++ e.failures

/-- The line listeners of a channel and the calls that they have had. -/
def onLine (e : Execution) (channel : Channel) : List (Registration String) :=
  match e.readers.get channel with
  | some r => r.drain.listeners
  | none => e.lines.get channel

/-- The listeners and the calls that they have had. -/
def listeners (e : Execution) : Listeners where
  start := e.start
  stdout := e.onLine .stdout
  stderr := e.onLine .stderr
  exit := e.exit

/-- What was passed on to our own stream. -/
def passed (e : Execution) (channel : Channel) : Bytes :=
  match e.outlets.get channel with
  | .passed bytes => bytes
  | _ => []

end Execution

end ToolRunner
