import ToolRunner.Script.Code

/-!
# Names of signals

Signals are given by name or by number.
-/

namespace ToolRunner.Script

def signalNames : List (String × Nat) :=
  [("EXIT", 0), ("HUP", 1), ("INT", 2), ("QUIT", 3), ("ILL", 4), ("TRAP", 5), ("ABRT", 6),
    ("BUS", 7), ("FPE", 8), ("KILL", 9), ("USR1", 10), ("SEGV", 11), ("USR2", 12), ("PIPE", 13),
    ("ALRM", 14), ("TERM", 15), ("CHLD", 17), ("CONT", 18), ("STOP", 19), ("TSTP", 20),
    ("URG", 23), ("WINCH", 28)]

def signal? (cs : Chars) : Option Nat :=
  match (String.ofList cs).toNat? with
  | some n => some n
  | none =>
    let name := String.ofList (cs.map Char.toUpper)
    (signalNames.find? fun s => s.1 == name || "SIG" ++ s.1 == name).map (·.2)

def harmless (signal : Nat) : Bool := [0, 17, 18, 23, 28].contains signal

def trapName (signal : Nat) : Chars := (toString signal).toList

end ToolRunner.Script
