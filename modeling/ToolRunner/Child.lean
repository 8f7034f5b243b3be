import ToolRunner.PerChannel
import ToolRunner.Text.Bytes

/-!
# Children

What a started program does, as far as the one that started it can see: it writes, closes its
outputs, lets time pass, and ends. Programs that it leaves in the background are tasks of their own,
which may hold its outputs open after it has ended.
-/

namespace ToolRunner

/-- A signal that a child sends to the program that started it. -/
inductive Signal where
  | interrupt
  /-- Any signal that ends the program. -/
  | deadly
deriving DecidableEq, Repr

/-- What a task does next. -/
inductive Act where
  | write (channel : Channel) (bytes : Bytes)
  | close (channel : Channel)
  /-- Lets a time pass, in millionths of a second. -/
  | pause (time : Nat)
  /-- Goes on forever without doing anything. -/
  | hang
  | signal (s : Signal)
deriving DecidableEq, Repr

/-- How a child ends. -/
inductive Ending where
  | exited (code : Int)
  /-- A signal ended it. -/
  | killed
deriving DecidableEq, Repr

namespace Ending

def code? : Ending → Option Int
  | exited code => some code
  | killed => none

end Ending

/-- One thread of acts. -/
structure Task where
  /-- What it still does. -/
  acts : List Act
  /-- When it does that, in millionths of a second. -/
  time : Nat
  /-- The outputs that it has not closed. -/
  holds : PerChannel Bool
  ended : Bool
deriving DecidableEq, Repr

namespace Task

/-- A task that starts at a time and holds both outputs. -/
def starting (acts : List Act) (time : Nat) : Task := ⟨acts, time, .both true, false⟩

def keeps (t : Task) (channel : Channel) : Bool := t.holds.get channel && !t.ended

def delay (t : Task) (time : Nat) : Task := { t with time := t.time + time }

end Task

/-- A started program: the task that it is, the tasks that it leaves in the background, and how it
ends once it has done everything. -/
structure Child where
  main : Task
  background : List Task
  ending : Ending
  /-- How it has ended. -/
  status : Option Ending
deriving DecidableEq, Repr

namespace Child

/-- A child that does some acts and ends by itself. -/
def ofActs (acts : List Act) (ending : Ending) : Child := ⟨.starting acts 0, [], ending, none⟩

def keeps (c : Child) (channel : Channel) : Bool :=
  c.main.keeps channel || c.background.any (·.keeps channel)

/-- Ends the child, which keeps the way in which it has ended already. -/
def finish (c : Child) (ending : Ending) : Child :=
  { c with main := { c.main with ended := true }, status := c.status <|> some ending }

/-- Kills the child. Its background tasks go on. A kill does not fail: the child belongs to
its caller, who has not waited for it yet, so there is a process to kill and the right to do so. -/
def kill (c : Child) : Child := c.finish .killed

def delay (c : Child) (time : Nat) : Child :=
  { c with main := c.main.delay time, background := c.background.map (·.delay time) }

/-- The tasks of a child: the main one has no number. -/
def task? (c : Child) : Option Nat → Option Task
  | none => some c.main
  | some i => c.background[i]?

def setTask (c : Child) (which : Option Nat) (t : Task) : Child :=
  match which with
  | none => { c with main := t }
  | some i => { c with background := c.background.set i t }

/-- Ends a task: the main one in the given way. -/
def endTask (c : Child) (which : Option Nat) (ending : Ending) : Child :=
  match which with
  | none => c.finish ending
  | some i => { c with background := c.background.modify i ({ · with ended := true }) }

end Child

end ToolRunner
