import ToolRunner.Execution.Begin

/-!
# Sessions

Executions that are under way side by side, and the trackers that they are registered with.
Everything that can happen is a `move` of one execution or an act of the program that holds the
handles; `advance` picks moves in a fixed order, in which the supervisors and readers are prompt and
the children take their time, but end as soon as they have done everything, and are not late with a
signal that they send first.
-/

namespace ToolRunner

/-- Executions and trackers. The handle of an execution is its number. -/
structure Session where
  executions : List Execution
  trackers : String → Tracker
  /-- When the last act of a child was done, in millionths of a second. -/
  time : Nat

/-- A registration that was made by hand. -/
structure Guard where
  tracker : String
  id : UInt64
deriving DecidableEq, Repr

namespace Session

def empty : Session := ⟨[], fun _ => .new, 0⟩

def setTracker (s : Session) (name : String) (t : Tracker) : Session :=
  { s with trackers := fun n => if n = name then t else s.trackers n }

def execution? (s : Session) (h : Handle) : Option Execution := s.executions[h]?

/-- The tracker of an execution; one that is not tracked leaves any tracker alone. -/
def trackerName (e : Execution) : String := e.tracker.getD ""

/-- One move of one execution. -/
def move (s : Session) (h : Handle) (m : Move) : Option Session :=
  match s.execution? h with
  | none => none
  | some e =>
    (e.step m (s.trackers (trackerName e))).map fun after =>
      { s.setTracker (trackerName e) after.1 with executions := s.executions.set h after.2 }

/-! ## What the holder of the handles does -/

def destroy (s : Session) (h : Handle) : Session :=
  { s with executions := s.executions.modify h Execution.destroy }

def isDestroyed (s : Session) (h : Handle) : Bool :=
  ((s.execution? h).map (·.destroyed)).getD false

def active (s : Session) (tracker : String) : Nat := (s.trackers tracker).count

/-- Destroys every handle that is registered with a tracker; the count is that of the
registrations. -/
def destroyAll (s : Session) (tracker : String) : Nat × Session :=
  let handles := (s.trackers tracker).handles
  (handles.length,
    { s with
      executions := s.executions.mapIdx fun h e => if handles.contains h then e.destroy else e })

/-- Registers a handle by hand. -/
def track (s : Session) (tracker : String) (h : Handle) : Guard × Session :=
  let (id, t) := (s.trackers tracker).track h
  (⟨tracker, id⟩, s.setTracker tracker t)

/-- Ends a registration that was made by hand. -/
def release (s : Session) (g : Guard) : Session :=
  s.setTracker g.tracker ((s.trackers g.tracker).untrack g.id)

/-! ## The order of moves -/

/-- How long it takes until a started program does something. -/
def startTime : Nat := 1000

def pidOf (h : Handle) : Nat := 100 + h

/-- How programs are started: given the number of the process, a command becomes a child. -/
abbrev Spawn := Nat → Command → Except OsError Child

/-- Starts a command, whose child acts from now on. -/
def begin (s : Session) (spawn : Spawn) (r : Runner) (c : Command) : Result Handle × Session :=
  let handle := s.executions.length
  let delayed := fun c => (spawn (pidOf handle) c).map (·.delay (s.time + startTime))
  match r.begin .standard delayed handle (pidOf handle) c with
  | .error cause => (.error cause, s)
  | .ok e => (.ok handle, { s with executions := s.executions ++ [e] })

/-- The moves that are made as soon as they are possible. What a child has written is seen before
its end is. -/
def promptMoves : List Move := [.cancellation, .reader .stdout, .reader .stderr, .supervisor]

/-- The first prompt move that is possible. -/
def prompt (s : Session) : Option Session :=
  (List.range s.executions.length).findSome? fun h => promptMoves.findSome? (s.move h)

/-- The tasks of an execution, with the times of their next acts. -/
def tasks (e : Execution) : List (Option Nat × Nat) :=
  (none, e.child.main.time) :: e.child.background.mapIdx fun i t => (some i, t.time)

def ready (s : Session) : List (Handle × Option Nat × Nat) :=
  (s.executions.mapIdx fun h e =>
    (tasks e).filterMap fun t => if (e.act t.1).isSome then some (h, t) else none).flatten

/-- The one that acts first. -/
def earliest (tasks : List (Handle × Option Nat × Nat)) : Option (Handle × Option Nat × Nat) :=
  tasks.foldl
    (fun best t =>
      match best with
      | none => some t
      | some b => if t.2.2 < b.2.2 then some t else some b)
    none

/-- Whether a task has done everything that it had to do. -/
def isSpent (s : Session) (h : Handle) (which : Option Nat) : Bool :=
  ((s.execution? h).bind (·.child.task? which)).any (·.acts.isEmpty)

/-- The end of a task that has done everything by now. Nobody is quick enough to come before it. -/
def expire (s : Session) : Option Session :=
  (s.ready.find? fun t => t.2.2 ≤ s.time && s.isSpent t.1 t.2.1).bind fun t =>
    s.move t.1 (.child t.2.1)

/-- Whether a child sends a signal before it does anything else, and nobody has registered it
yet. -/
def isHasty (s : Session) (h : Handle) : Bool :=
  (s.execution? h).any fun e =>
    match e.phase, e.child.main.acts with
    | .spawned, .signal _ :: _ => true
    | _, _ => false

/-- The signal of a hasty child. It may well come before the call that started the child is over,
and here it always does. -/
def forestall (s : Session) : Option Session :=
  (s.ready.find? fun t => t.2.1 == none && s.isHasty t.1).bind fun t =>
    (s.move t.1 (.child t.2.1)).map fun after => { after with time := max s.time t.2.2 }

/-- The next move: the end of a task that has done everything if there is one, else the signal of a
hasty child, else a prompt move if there is any, else the act of the child whose time has come. -/
def next (s : Session) : Option Session :=
  match (s.expire.or s.forestall).or s.prompt with
  | some s => some s
  | none =>
    match earliest s.ready with
    | none => none
    | some (h, which, time) =>
      (s.move h (.child which)).map fun after => { after with time := max s.time time }

/-- Makes moves until `stop` holds or nothing moves any more, at most `fuel` of them. -/
def advanceFor (stop : Session → Bool) : Nat → Session → Session
  | 0, s => s
  | fuel + 1, s =>
    if stop s then s
    else
      match s.next with
      | none => s
      | some s => advanceFor stop fuel s

/-- A bound of the moves that an act leads to: a byte is written, read, used and delivered. -/
def actWork : Act → Nat
  | .write _ bytes => 8 * bytes.length + 8
  | _ => 8

def taskWork (t : Task) : Nat := t.acts.foldl (fun n a => n + actWork a) 8

/-- A bound of the moves for what a reader has before it. -/
def channelWork (e : Execution) (channel : Channel) : Nat :=
  let inPipe := ((e.outlets.get channel).pipe?.map (·.content.length)).getD 0
  let unread := ((e.readers.get channel).map (·.unread.length)).getD 0
  8 * (inPipe + unread) + 16

/-- A bound of the moves of an execution. -/
def executionWork (e : Execution) : Nat :=
  e.child.background.foldl (fun n t => n + taskWork t) (taskWork e.child.main) +
    channelWork e .stdout + channelWork e .stderr + e.start.length + e.exit.length + 16

/-- A bound of the moves that are left. -/
def work (s : Session) : Nat := s.executions.foldl (fun n e => n + executionWork e) 0

def advance (s : Session) (stop : Session → Bool) : Session := advanceFor stop s.work s

/-- Whether something holds of an execution. -/
def holds (h : Handle) (p : Execution → Bool) (s : Session) : Bool :=
  ((s.execution? h).map p).getD true

/-- Why an execution was refused, if it was. -/
def refusal? (s : Session) (h : Handle) : Option RunError :=
  match (s.execution? h).map Execution.phase with
  | some (.refused cause) => some cause
  | _ => none

/-- Runs a command up to the moment at which the caller has the execution. -/
def run (s : Session) (spawn : Spawn) (r : Runner) (c : Command) : Result Handle × Session :=
  match s.begin spawn r c with
  | (.error cause, s) => (.error cause, s)
  | (.ok h, s) =>
    let s := s.advance (holds h Execution.returned)
    match s.refusal? h with
    | some cause => (.error cause, s)
    | none => (.ok h, s)

def wait (s : Session) (h : Handle) : Session := s.advance (holds h Execution.done)

end Session

end ToolRunner
