import ToolRunner.Script.FileTools
import ToolRunner.Script.Filters
import ToolRunner.Script.Test

/-!
# All small tools

Tools by their names.
-/

namespace ToolRunner.Script

/-- The tools that need nothing but their arguments and their input. -/
def tool? (name : String) : Option (List Chars → Run Nat) :=
  match name with
  | "echo" => some echoTool
  | "printf" => some (printfTool fun text => complain text)
  | "true" => some fun _ => return 0
  | "false" => some fun _ => return 1
  | "cat" => some catTool
  | "head" => some (partTool "head" true)
  | "tail" => some (partTool "tail" false)
  | "sleep" => some sleepTool
  | "seq" => some seqTool
  | "printenv" => some printenvTool
  | "wc" => some wcTool
  | "tr" => some trTool
  | "test" => some (testTool false)
  | "[" => some (testTool true)
  | "sort" => some sortTool
  | "grep" => some grepTool
  | "dd" => some ddTool
  | "yes" => some yesTool
  | "rm" => some rmTool
  | "chmod" => some chmodTool
  | "ls" => some lsTool
  | "basename" => some basenameTool
  | "dirname" => some dirnameTool
  | "uname" => some fun _ => put "uname" (Bytes.ofString "Linux\n")
  | "mkdir" => some (makeTool .directory)
  | "touch" => some (makeTool (.file [] false))
  | "pwd" => some fun _ => do put "pwd" (FileTree.pathOf (← get).directory ++ [10])
  | _ => none

end ToolRunner.Script
