import ToolRunner.Script.Tools

/-!
# Tests

The outcomes of `test` and `[`.
-/

namespace ToolRunner.Script

/-- The outcome of a test with one argument. -/
def unaryTest (s : Shell) (op : String) (a : Chars) : Option Bool :=
  let entry := s.look a
  match op with
  | "-n" => some !a.isEmpty
  | "-z" => some a.isEmpty
  | "-e" => some entry.isOk
  | "-r" => some (match entry with | .ok (.closed _) => false | found => found.isOk)
  | "-w" => some (match entry with | .ok (.closed _) => false | found => found.isOk)
  | "-f" => some (s.files.isFile s.directory (toBytes a))
  | "-d" => some (s.files.isDirectory s.directory (toBytes a))
  | "-s" => some (match entry with | .ok (.file c _) => !c.isEmpty | .ok _ => true | _ => false)
  | "-x" =>
    some (match entry with
      | .ok (.file _ x) => x
      | .ok (.closed _) => false
      | found => found.isOk)
  | "-L" => some false
  | "-h" => some false
  | "-t" => some false
  | _ => none

/-- The outcome of a test with two arguments. -/
def binaryTest (a : Chars) (op : String) (b : Chars) : Option Bool :=
  let x := (numericArgument a).1
  let y := (numericArgument b).1
  match op with
  | "=" => some (a == b)
  | "==" => none
  | "!=" => some (a != b)
  | "-eq" => some (x == y)
  | "-ne" => some (x != y)
  | "-lt" => some (x < y)
  | "-le" => some (x ≤ y)
  | "-gt" => some (x > y)
  | "-ge" => some (x ≥ y)
  | _ => none

/-- The outcome of a test; nothing where the arguments form none. -/
def testValue (s : Shell) : Nat → List Chars → Option Bool
  | 0, _ => none
  | _, [] => some false
  | fuel + 1, ['!'] :: a :: rest => (testValue s fuel (a :: rest)).map not
  | _, [a] => some !a.isEmpty
  | _, [op, a] => unaryTest s (String.ofList op) a
  | fuel + 1, args =>
    let split (op : String) : Option (List Chars × List Chars) :=
      let (before, rest) := args.span (· != chars op)
      if rest.isEmpty || before.isEmpty then none else some (before, rest.drop 1)
    match split "-o", split "-a", args with
    | some (a, b), _, _ =>
      (testValue s fuel a).bind fun x => (testValue s fuel b).map (x || ·)
    | _, some (a, b), _ =>
      (testValue s fuel a).bind fun x => (testValue s fuel b).map (x && ·)
    | _, _, [a, op, b] => binaryTest a (String.ofList op) b
    | _, _, _ => none

/-- Tests its arguments; as `[` it wants a closing bracket. -/
def testTool (bracket : Bool) (args : List Chars) : Run Nat := do
  let closed := !bracket || args.getLast? == some [']']
  if !closed then
    warn "[: missing ]"
    return 2
  match testValue (← get) (args.length + 1) (if bracket then args.dropLast else args) with
  | some true => return 0
  | some false => return 1
  | none =>
    let unknown := shown ((args[1]?).getD (args.headD []))
    warn ((if bracket then "[: " else "test: ") ++ unknown ++ ": unexpected operator")
    return 2

end ToolRunner.Script
