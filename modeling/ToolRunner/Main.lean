import ToolRunner.Machine.Spawn
import ToolRunner.Program

/-!
# The command line

Runs the program on the standard machine, with the environment variables and the config file that
are really there. The log goes to the error stream before anything else.
-/

namespace ToolRunner

/-- The variables that the program looks at. -/
def knownVariables : List String :=
  ["PATH", "HOME", "GOOGLE_CLOUD_SDK_HOME", Program.filterVariable]

def workPlace : Place := Machine.place ["work"]

/-- Puts a file that is really there in the working directory. -/
def withFile (h : Host) (name : String) : IO Host := do
  try
    let content ← IO.FS.readBinFile name
    let path := Path.ofString name
    let place := (Path.components path).filterMap fun
      | .name n => some n
      | _ => none
    let place := if Path.isAbsolute path then place else workPlace ++ place
    return { h with files := h.files.add place (.file content.toList false) }
  catch _ => return h

def workHost (args : List String) : IO Host := do
  let files := Machine.standardFiles.add workPlace .directory
  let mut h : Host := ⟨files, workPlace, ∅, none⟩
  for name in knownVariables do
    h := h.withVariable name ((← IO.getEnv name).map Bytes.ofString)
  let named := (Invocation.read (args.map Bytes.ofString)).toOption.bind (·.config)
  withFile h (Path.display (named.getD Config.defaultPath))

end ToolRunner

open ToolRunner in
def main (args : List String) : IO UInt32 := do
  let h ← workHost args
  let o := Program.run h (Machine.spawn h) (args.map Bytes.ofString)
  let stdout ← IO.getStdout
  let stderr ← IO.getStderr
  for r in o.records do
    stderr.putStrLn r.line
  stdout.write ⟨o.output.stdout.toArray⟩
  stderr.write ⟨o.output.stderr.toArray⟩
  return (o.code.getD 130).toUInt32
