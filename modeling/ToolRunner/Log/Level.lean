/-!
# Log levels

How grave a message is. A filter lets through a level and all graver ones.
-/

namespace ToolRunner.Log

/-- The gravity of a message. -/
inductive Level where
  | error
  | warn
  | info
  | debug
  | trace
deriving DecidableEq, Repr

namespace Level

def name : Level → String
  | error => "error"
  | warn => "warn"
  | info => "info"
  | debug => "debug"
  | trace => "trace"

def all : List Level := [error, warn, info, debug, trace]

/-- How many levels a filter of this level lets through. -/
def rank : Level → Nat
  | error => 1
  | warn => 2
  | info => 3
  | debug => 4
  | trace => 5

end Level

end ToolRunner.Log
