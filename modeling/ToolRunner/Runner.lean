import ToolRunner.Command
import ToolRunner.Listener

/-!
# Runners

A runner holds what every run made with it has in common: the mode, where output goes, and the
listeners. Output cannot go to listeners and straight to our own streams at once, and capturing it
for nobody is refused too.
-/

namespace ToolRunner

/-- Whether a routing suits the listeners: output is captured exactly when somebody wants it. -/
def Routing.suits (r : Routing) (l : Listeners) : Bool :=
  match r with
  | .captured => l.wantsOutput
  | .inherited => !l.wantsOutput

structure Runner where
  mode : Mode
  routing : Routing
  listeners : Listeners
  suits : routing.suits listeners = true
  /-- The name of the tracker that children are registered with while they run. -/
  tracker : Option String

namespace Runner

def new (mode : Mode) (routing : Routing) (listeners : Listeners) : Result Runner :=
  if h : routing.suits listeners = true then .ok ⟨mode, routing, listeners, h, none⟩
  else
    match routing with
    | .inherited =>
      .error (.invalidSetup "inherited output routing does not accept output listeners")
    | .captured =>
      .error (.invalidSetup "captured output routing needs at least one stdout or stderr listener")

def withTracker (r : Runner) (name : String) : Runner :=
  { r with tracker := some name }

/-- The same runner with listeners that have had more calls. -/
def withCalls (r : Runner) (l : Listeners) : Runner :=
  if h : r.routing.suits l = true then { r with listeners := l, suits := h } else r

def description (r : Runner) : String :=
  "ProcessRunner \x7b mode: " ++ r.mode.description ++ ", routing: " ++ r.routing.description ++
    ", start_listeners: " ++ toString r.listeners.start.length ++
    ", stdout_listeners: " ++ toString r.listeners.stdout.length ++
    ", stderr_listeners: " ++ toString r.listeners.stderr.length ++
    ", exit_listeners: " ++ toString r.listeners.exit.length ++
    ", tracked: " ++ toString r.tracker.isSome ++ " \x7d"

end Runner

end ToolRunner
