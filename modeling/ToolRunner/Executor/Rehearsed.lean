import ToolRunner.Executor.Basic

/-!
# Rehearsals

The executor that starts nothing. It notes the command, gives prepared lines to the listeners, and
ends with a prepared exit code. A listener that fails ends the rehearsal at once.
-/

namespace ToolRunner

/-- The lines and the exit code that a rehearsal plays. -/
structure Rehearsal where
  stdout : List String
  stderr : List String
  exitCode : Int
deriving DecidableEq, Repr

/-- The error of a callback that did not return normally, outermost message first. -/
def Outcome.error? : Outcome → Option (List String)
  | done => none
  | failed chain => some chain
  | panicked payload => some [payload.getD "unknown panic payload"]

namespace Rehearsal

/-- Gives lines to a listener, up to the first failure. -/
def play : List String → Registration String → Option (List String) × Registration String
  | [], r => (none, r)
  | line :: lines, r =>
    match (r.reaction line).outcome.error? with
    | some chain => (some chain, r.call line)
    | none => play lines (r.call line)

/-- The outcome when all lines were given. -/
def outcome (p : Rehearsal) (program : String) : Result Unit :=
  if p.exitCode = 0 then .ok ()
  else .error (.nonZeroExit program p.exitCode ("\n".intercalate p.stderr) [])

/-- Plays the lines of the output, then those of the error stream. -/
def execute (p : Rehearsal) : Executor (List Command) := fun noted c w =>
  let noted := noted ++ [c]
  match play p.stdout w.stdout with
  | (some chain, stdout) => ⟨.error (.other chain), { w with stdout }, noted⟩
  | (none, stdout) =>
    match play p.stderr w.stderr with
    | (some chain, stderr) => ⟨.error (.other chain), ⟨stdout, stderr⟩, noted⟩
    | (none, stderr) => ⟨p.outcome c.programText, ⟨stdout, stderr⟩, noted⟩

end Rehearsal

end ToolRunner
