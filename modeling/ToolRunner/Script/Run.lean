import ToolRunner.Machine.Image
import ToolRunner.Script.Expand
import ToolRunner.Script.Parser
import ToolRunner.Script.Signals
import ToolRunner.Script.Toolbox

/-!
# Running scripts

What the commands of a script do. Nothing here waits or goes on by itself: running a script gives
the acts that it will do, with the times at which it does them. A script sees neither the outside
nor what becomes of its output, so its acts do not depend on who watches it.

`fuel` bounds how deep commands are nested and how often loops turn.
-/

namespace ToolRunner.Script

/-- The depth to which commands are run. -/
def depthLimit : Nat := 40000

/-- The process of the program that starts scripts. -/
def starterPid : Nat := 2

/-- Runs something and keeps what only this process has as it was; leaves the status behind. -/
def isolated (action : Run Unit) : Run Unit := do
  let before ← get
  let halt ← tryCatch (do action; return none) fun h => return some h
  let after ← get
  set
    { after with
      directory := before.directory
      bindings := before.bindings
      name := before.name
      params := before.params
      functions := before.functions
      streams := before.streams
      line := before.line
      traps := before.traps
      stopsOnFailure := before.stopsOnFailure
      stopsOnUnset := before.stopsOnUnset
      traces := before.traces
      constants := before.constants
      loops := before.loops
      outer := before.outer
      pid := before.pid
      parent := before.parent
      jobs := after.jobs }
  match halt with
  | some (.exit status) => modify fun s => { s with status }
  | some (.returned status) => modify fun s => { s with status }
  | some h => throw h
  | none => return

/-- Runs something and gives what it writes to its output. -/
def gathering (action : Run Unit) : Run Bytes := do
  let outer := (← get).gathered
  modify fun s => { s with gathered := [] }
  isolated do
    modify fun s => s.setStream 1 (some .gathered)
    action
  let bytes := (← get).gathered.reverse.flatten
  modify fun s => { s with gathered := outer }
  return bytes

/-- The acts of a task up to a time. -/
def actsUntil (time : Nat) : Nat → List Act → List Act
  | _, [] => []
  | _, .hang :: _ => [.hang]
  | now, .pause d :: acts =>
    if now + d ≤ time then .pause d :: actsUntil time (now + d) acts else [.pause (time - now)]
  | now, a :: acts => a :: actsUntil time now acts

/-- Ends a background command at a time. -/
def Job.cut (j : Job) (time status : Nat) : Job :=
  if j.ends.isSome && j.ends.getD 0 ≤ time then j
  else
    let acts := (actsUntil time j.task.time j.task.acts).filter (· != .hang)
    { j with status, ends := some time, task := { j.task with acts } }

/-- Runs something in the background, with descriptors as `prepare` leaves them. -/
def inBackground (prepare : Run Bool) (action : Run Unit) : Run Unit := do
  let before ← get
  let pid := before.nextPid
  set { before with acts := [], input := [], nextPid := pid + 1 }
  isolated do
    if ← prepare then action else throw (.exit 2)
    closeUnheld before
  let after ← get
  let hangs := after.acts.contains .hang
  let task : Task := ⟨after.acts.reverse, before.time, .ofFn before.holds, false⟩
  set
    { after with
      acts := before.acts
      time := before.time
      input := before.input
      status := 0
      jobs := ⟨pid, after.status, if hangs then none else some after.time, task⟩ :: after.jobs }

/-- What the shell says of a command that a signal ended. -/
def signalText : Nat → Option String
  | 9 => some "Killed"
  | 15 => some "Terminated"
  | 1 => some "Hangup"
  | 3 => some "Quit"
  | 6 => some "Aborted"
  | 11 => some "Segmentation fault"
  | _ => none

def awaitJobs (jobs : List Job) : Run Nat := do
  if jobs.any (·.ends.isNone) then
    perform .hang
    throw (.exit 0)
  let last := jobs.foldl (fun t j => max t (j.ends.getD 0)) 0
  let now := (← get).time
  if now < last then pause (last - now)
  return (jobs.head?.map (·.status)).getD 0

/-- A whole number that a builtin needs. -/
def wholeNumber (builtin : String) (cs : Chars) : Run Nat := do
  match (String.ofList cs).toNat? with
  | some n => if cs.contains '_' then illegal else return n
  | none => illegal
where
  illegal : Run Nat := do
    warn (builtin ++ ": Illegal number: " ++ shown cs)
    throw (.exit 2)

/-- Changes the directory. -/
def changeDirectory (args : List Chars) : Run Nat := do
  let s ← get
  let target := (args.filter (· != ['-', '-'])).headD ((s.value? (chars "HOME")).getD [])
  let path := if target == ['-'] then (s.value? (chars "OLDPWD")).getD [] else target
  match s.files.resolve s.directory (toBytes path) with
  | .ok place =>
    if s.files.entry? place == some .directory then
      let old := ofBytes (FileTree.pathOf s.directory)
      set (({ s with directory := place }.setVariable (chars "OLDPWD") old false).setVariable
        (chars "PWD") (ofBytes (FileTree.pathOf place)) false)
      return 0
    else refuse path
  | .error _ => refuse path
where
  refuse (path : Chars) : Run Nat := do
    warn ("cd: can't cd to " ++ shown path)
    return 2

/-- Divides a line among variables; the last one gets the rest. -/
def assignFields (dividers : Chars) : List Chars → Chars → Shell → Shell
  | [], _, s => s
  | [name], rest, s =>
    let text := rest.dropWhile dividers.contains
    s.setVariable name ((text.reverse.dropWhile dividers.contains).reverse) false
  | name :: names, rest, s =>
    let text := rest.dropWhile dividers.contains
    let (field, rest) := text.span fun c => !dividers.contains c
    assignFields dividers names rest (s.setVariable name field false)

def dividers (s : Shell) : Chars := (s.value? (chars "IFS")).getD [' ', '\t', '\n']

def readLine (args : List Chars) : Run Nat := do
  let names := args.filter fun a => a != ['-', 'r']
  let s ← get
  let line := s.input.takeWhile (· != Bytes.newline)
  let rest := s.input.drop line.length
  let s := { s with input := rest.drop 1 }
  set (assignFields (dividers s) names (ofBytes line) s)
  return if rest.isEmpty then 1 else 0

/-- Sends a signal to a process. -/
def sendSignal (runTrap : Chars → Run Unit) (signal : Nat) (pid : Nat) : Run Nat := do
  let s ← get
  if pid == s.pid then
    match s.traps.find? fun t => t.1 == trapName signal && signal != 9 with
    | some (_, action) =>
      runTrap action
      return 0
    | none =>
      if harmless signal then return 0
      if signal == 19 || signal == 20 then
        perform .hang
        throw (.exit 0)
      throw (.killed signal)
  else if pid == starterPid then
    if signal == 2 then perform (.signal .interrupt)
    else if !harmless signal then perform (.signal .deadly)
    return 0
  else if s.jobs.any fun j => j.pid == pid then
    if !harmless signal then
      set
        { s with
          jobs := s.jobs.map fun (j : Job) =>
            if j.pid == pid then j.cut s.time (128 + signal) else j }
    return 0
  else
    warn "kill: No such process\n"
    return 1

/-- The signal that `kill` is asked to send, and to whom. -/
def killTarget : List Chars → Option (Nat × List Chars)
  | ['-', 's'] :: name :: rest => (signal? name).map (·, rest)
  | ('-' :: name) :: rest => (signal? name).map (·, rest)
  | rest => some (15, rest)

def killBuiltin (runTrap : Chars → Run Unit) (args : List Chars) : Run Nat := do
  match killTarget args with
  | none =>
    warn ("kill: invalid signal number or name: " ++ shown ((args.headD []).drop 1))
    return 2
  | some (signal, pids) =>
    if pids.isEmpty then
      warn "kill: Usage: kill [-s sigspec | -signum | -sigspec] [pid | job]... or"
      complain "kill -l [exitstatus]"
      return 2
    let mut status := 0
    for pid in pids do
      match (String.ofList pid).toNat? with
      | some n => status := max status (← sendSignal runTrap signal n)
      | none =>
        warn ("kill: Illegal number: " ++ shown pid)
        throw (.exit 2)
    return status

/-- Sets what is done on signals. -/
def trapBuiltin (args : List Chars) : Run Nat := do
  match args with
  | action :: names@(_ :: _) =>
    let keys := names.filterMap fun n => (signal? n).map trapName
    modify fun s =>
      let kept := s.traps.filter fun t => !keys.contains t.1
      { s with traps := if action == ['-'] then kept else keys.map (·, action) ++ kept }
    return 0
  | _ => return 0

def exportBuiltin (args : List Chars) : Run Nat := do
  for a in args do
    let (name, rest) := a.span (· != '=')
    modify fun s =>
      let value := if rest.isEmpty then (s.value? name).getD [] else rest.drop 1
      s.setVariable name value true
  return 0

def readonlyBuiltin (args : List Chars) : Run Nat := do
  for a in args do
    let (name, rest) := a.span (· != '=')
    modify fun s =>
      let s := if rest.isEmpty then s else s.setVariable name (rest.drop 1) false
      { s with constants := name :: s.constants }
  return 0

/-- Makes variables of a function local, and sets them. -/
def localBuiltin (args : List Chars) : Run Nat := do
  match (← get).outer with
  | none =>
    warn "local: not in a function"
    throw (.exit 2)
  | some outer =>
    let names := args.map fun a => a.takeWhile (· != '=')
    modify fun s => { s with outer := some ((s.variablesNamed names).reverse ++ outer) }
    for a in args do
      let (name, rest) := a.span (· != '=')
      if !rest.isEmpty then modify fun s => s.setVariable name (rest.drop 1) false
    return 0

def setOptions (flags : Chars) (value : Bool) (s : Shell) : Shell :=
  { s with
    stopsOnFailure := if flags.contains 'e' then value else s.stopsOnFailure
    stopsOnUnset := if flags.contains 'u' then value else s.stopsOnUnset
    traces := if flags.contains 'x' then value else s.traces }

/-- Sets options and parameters. -/
def setBuiltin : List Chars → Run Nat
  | [] => return 0
  | ['-', '-'] :: rest => do
    modify fun s => { s with params := rest }
    return 0
  | ('-' :: flags) :: rest => do
    modify (setOptions flags true)
    setBuiltin rest
  | ('+' :: flags) :: rest => do
    modify (setOptions flags false)
    setBuiltin rest
  | rest => do
    modify fun s => { s with params := rest }
    return 0

/-- What a command name stands for in the directories that are searched. -/
inductive Found where
  | program (path : Path)
  | notExecutable
  | absent
deriving DecidableEq, Repr

def searchPath (s : Shell) : List Path :=
  Bytes.splitOn 58 (toBytes ((s.value? (chars "PATH")).getD (chars "/usr/local/bin:/usr/bin:/bin")))

def findCommand (s : Shell) (name : Chars) : Found :=
  let candidates :=
    if name.contains '/' then [toBytes name]
    else (searchPath s).map fun d => Path.join d (toBytes name)
  match candidates.find? (s.files.isExecutable s.directory) with
  | some p => .program p
  | none => if candidates.any (s.files.exists? s.directory) then .notExecutable else .absent

/-- Opens the target of a redirection to write to. -/
def openOutput (append : Bool) (path : Chars) : Run (Except String Stream) := do
  let s ← get
  let standard := [(chars "/dev/stdout", 1), (chars "/dev/stderr", 2)]
  if let some stream := (standard.lookup path).bind s.stream? then return .ok stream
  match s.files.resolve s.directory (toBytes path) with
  | .ok place =>
    if place == [Bytes.ofString "dev", Bytes.ofString "null"] then return .ok .void
    match s.files.entry? place with
    | some (.file _ executable) =>
      if !append then set { s with files := s.files.put place (.file [] executable) }
      return .ok (.file place)
    | some (.closed false) =>
      return .error ("cannot create " ++ shown path ++ ": Permission denied")
    | _ => return .error ("cannot create " ++ shown path ++ ": Is a directory")
  | .error _ =>
    let parent := (Path.parent? (toBytes path)).getD []
    let directory := s.files.resolve s.directory (if parent.isEmpty then Path.dot else parent)
    match directory.toOption, Path.fileName? (toBytes path) with
    | some d, some name =>
      set { s with files := s.files.put (d ++ [name]) (.file [] false) }
      return .ok (.file (d ++ [name]))
    | _, _ => return .error ("cannot create " ++ shown path ++ ": Directory nonexistent")

/-- Lets a descriptor lead to its target. -/
def redirect (r : Redirect) (target : Chars) : Run Bool := do
  match r.kind with
  | .duplicate =>
    if target == ['-'] then
      modify fun s =>
        if r.descriptor == 0 then { s with input := [] } else s.setStream r.descriptor none
      return true
    match (← get).stream? (natOf target) with
    | some stream =>
      modify fun s => s.setStream r.descriptor (some stream)
      return true
    | none =>
      if natOf target == 0 then return true
      warn (shown target ++ ": Bad file descriptor")
      return false
  | .here =>
    modify fun s => { s with input := toBytes target }
    return true
  | .input =>
    let s ← get
    match s.files.read s.directory (toBytes target) with
    | .ok content =>
      modify fun s => { s with input := content }
      return true
    | .error .isADirectory =>
      modify fun s => { s with input := [] }
      return true
    | .error e =>
      let why := if e == .notFound then "No such file" else e.text
      warn ("cannot open " ++ shown target ++ ": " ++ why)
      return false
  | kind =>
    match ← openOutput (kind == .append) target with
    | .ok stream =>
      modify fun s => s.setStream r.descriptor (some stream)
      return true
    | .error e =>
      warn e
      return false

/-- Builtins whose assignments stay. -/
def specialBuiltins : List String :=
  [":", ".", "break", "continue", "eval", "exec", "exit", "export", "readonly", "return", "set",
    "shift", "times", "trap", "unset"]

/-- The commands that the shell runs by itself. -/
def builtinNames : List String :=
  specialBuiltins ++
    ["true", "false", "echo", "printf", "cd", "pwd", "read", "test", "[", "kill", "wait", "command",
      "local", "umask", "type", "jobs", "alias"]

/-- Says what names of commands stand for. -/
def typeBuiltin (args : List Chars) : Run Nat := do
  let mut status := 0
  for a in args do
    if specialBuiltins.contains (String.ofList a) then
      let _ ← put "type" (toBytes a ++ Bytes.ofString " is a special shell builtin\n")
    else if builtinNames.contains (String.ofList a) then
      let _ ← put "type" (toBytes a ++ Bytes.ofString " is a shell builtin\n")
    else
      match findCommand (← get) a with
      | .program p => let _ ← put "type" (toBytes a ++ Bytes.ofString " is " ++ p ++ [10])
      | _ =>
        let _ ← put "type" (toBytes a ++ Bytes.ofString ": not found\n")
        status := 127
  return status

/-- Takes parameters away from the front. -/
def shiftBuiltin (args : List Chars) : Run Nat := do
  let n ← match args with
    | [] => pure 1
    | a :: _ => wholeNumber "shift" a
  if (← get).params.length < n then
    warn "shift: can't shift that many"
    throw (.exit 2)
  modify fun s => { s with params := s.params.drop n }
  return 0

/-- The variables of a new shell besides those of its environment. -/
def standardVariables (s : Shell) : Shell :=
  let set (s : Shell) (name : String) (value : Chars) : Shell :=
    s.setVariable (chars name) value false
  set (set (set s "PPID" (toString s.parent).toList) "IFS" [' ', '\t', '\n']) "PWD"
    (ofBytes (FileTree.pathOf s.directory))

/-- What a shell is asked to run. -/
inductive Source where
  | text (script : Chars) (name : Chars) (params : List Chars)
  | file (path : Chars) (params : List Chars)
  | input

/-- Reads the arguments of a shell: the letters of its options, and what it is to run; nothing where
the script is missing. -/
def shellSource (name flags : Chars) : List Chars → Chars × Option Source
  | ('-' :: c :: more) :: rest => shellSource name (flags ++ c :: more) rest
  | [] => (flags, if flags.contains 'c' then none else some .input)
  | a :: rest =>
    (flags,
      some (if flags.contains 'c' then .text a (rest.headD name) (rest.drop 1) else .file a rest))

/-- Reads the arguments of `env`: the variables to set, and the command. -/
def envArguments : List Chars → List Chars × List Chars
  | [] => ([], [])
  | a :: rest =>
    if a.contains '=' then
      let (more, command) := envArguments rest
      (a :: more, command)
    else ([], a :: rest)

mutual

/-- The pieces of a word. -/
def pieces : Nat → Word → Run (List Piece)
  | 0, _ => return []
  | _, [] => return []
  | fuel + 1, part :: parts => do
    let first ← match part with
      | .text cs quoted => pure [Piece.fixed cs quoted]
      | .param name use quoted => paramPieces fuel name use quoted
      | .arithmetic expr quoted => do
        let text := joined (← pieces fuel (innerWord true expr))
        match Arithmetic.value (numericValue (← get)) text with
        | .ok n => pure [Piece.ofValue quoted (toString n).toList]
        | .error flaw =>
          warn ("arithmetic expression: " ++ flaw.message ++ ": \"" ++ shown text ++ "\"")
          throw (.exit 2)
      | .output script quoted => do
        let bytes ← gathering (program fuel (read script))
        let text := (bytes.reverse.dropWhile (· == Bytes.newline)).reverse
        pure [Piece.ofValue quoted (ofBytes (text.filter (· != 0)))]
    return first ++ (← pieces fuel parts)

/-- The pieces of a parameter. -/
def paramPieces : Nat → Chars → ParamUse → Bool → Run (List Piece)
  | 0, _, _, _ => return []
  | fuel + 1, name, use, quoted => do
    let s ← get
    let value := parameter s name
    let present (colon : Bool) : Bool :=
      match value with
      | none => false
      | some v => !(colon && v.isEmpty)
    let current : List Piece :=
      if name == ['@'] || (name == ['*'] && !quoted) then
        (s.params.map (Piece.ofValue quoted)).intersperse .next
      else [.ofValue quoted (value.getD [])]
    let inner (word : Chars) : Run (List Piece) := do
      let found ← pieces fuel (innerWord quoted word)
      return found.map fun
        | .fixed cs false => .loose cs
        | p => p
    let needed (result : List Piece) : Run (List Piece) := do
      if value.isNone && s.stopsOnUnset && name != ['@'] && name != ['*'] then
        warn (shown name ++ ": parameter not set")
        throw (.exit 2)
      return result
    match use with
    | .wrong =>
      warn "Bad substitution"
      throw (.exit 2)
    | .value => needed current
    | .length => needed [.ofValue quoted (toString (value.getD []).length).toList]
    | .instead colon word => if present colon then return current else inner word
    | .alternative colon word => if present colon then inner word else return []
    | .assign colon word =>
      if present colon then return current
      let text := joined (← inner word)
      modify fun s => s.setVariable name text false
      return [.ofValue quoted text]
    | .required colon word =>
      if present colon then return current
      let text := joined (← inner word)
      let standard := if colon then "parameter not set or null" else "parameter not set"
      warn (shown name ++ ": " ++ (if text.isEmpty then standard else shown text))
      throw (.exit 2)
    | .dropStart longest word =>
      let p := patternOf (← pieces fuel (innerWord false word))
      return [.ofValue quoted (dropMatchingStart longest p (value.getD []))]
    | .dropEnd longest word =>
      let p := patternOf (← pieces fuel (innerWord false word))
      return [.ofValue quoted (dropMatchingEnd longest p (value.getD []))]

def fields : Nat → List Word → Run (List Chars)
  | 0, _ => return []
  | _, [] => return []
  | fuel + 1, w :: ws => do
    let found ← pieces fuel w
    let these := fieldsOf (dividers (← get)) found
    return these ++ (← fields fuel ws)

/-- Lets descriptors lead to their targets, as far as that goes well. -/
def redirectAll : Nat → List Redirect → Run Bool
  | 0, _ => return false
  | _, [] => return true
  | fuel + 1, r :: rs => do
    let target := joined (← pieces fuel r.target)
    if ← redirect r target then redirectAll fuel rs else return false

/-- Runs something with redirections that hold for it alone. -/
def withRedirects : Nat → List Redirect → Run Unit → Run Unit
  | 0, _, _ => return
  | fuel + 1, rs, action => do
    if rs.isEmpty then return ← action
    let before ← get
    let restore : Run Unit := modify fun s =>
      { s with
        streams := before.streams
        input := if rs.any (·.descriptor == 0) then before.input else s.input }
    let halt ← tryCatch
      (do
        if ← redirectAll fuel rs then action else modify fun s => { s with status := 2 }
        return none)
      fun h => return some h
    restore
    match halt with
    | some h => throw h
    | none => return

/-- Runs the lines of a script up to the one that cannot be read. -/
def program : Nat → Program → Run Unit
  | 0, _ => return
  | fuel + 1, p => do
    lines fuel p.lines
    match p.error with
    | none => return
    | some (line, text) =>
      modify fun s => { s with line }
      warn ("Syntax error: " ++ text)
      throw (.exit 2)

def lines : Nat → List Code → Run Unit
  | 0, _ => return
  | _, [] => return
  | fuel + 1, c :: cs => do
    run fuel false c
    lines fuel cs

/-- Runs a command. Where it is `tested`, its failure does not end the script. -/
def run : Nat → Bool → Code → Run Unit
  | 0, _, _ => throw (.exit 2)
  | fuel + 1, tested, code => do
    match code with
    | .skip => return
    | .simple line assignments words redirects =>
      modify fun s => { s with line }
      simpleCommand fuel assignments words redirects
      failed tested
    | .redirected body redirects => withRedirects fuel redirects (run fuel tested body)
    | .sequence first second =>
      run fuel tested first
      run fuel tested second
    | .both first second =>
      run fuel true first
      if (← get).status == 0 then run fuel tested second
    | .either first second =>
      run fuel true first
      if (← get).status != 0 then run fuel tested second
    | .negated body =>
      run fuel true body
      modify fun s => { s with status := if s.status == 0 then 1 else 0 }
    | .background body =>
      match body with
      | .simple line assignments words redirects =>
        inBackground (redirectAll fuel redirects)
          (run fuel false (.simple line assignments words []))
      | .redirected inner redirects =>
        inBackground (redirectAll fuel redirects) (run fuel false inner)
      | _ => inBackground (return true) (run fuel false body)
    | .pipeline first second =>
      let bytes ← gathering (run fuel false first)
      let before := (← get).input
      modify fun s => { s with input := bytes }
      isolated (run fuel false second)
      modify fun s => { s with input := before }
      failed tested
    | .subshell body =>
      isolated (run fuel tested body)
      failed tested
    | .conditional test yes no =>
      run fuel true test
      if (← get).status == 0 then run fuel tested yes
      else
        modify fun s => { s with status := 0 }
        run fuel tested no
    | .loop outcome test body => rounds fuel outcome test body 0
    | .each name words body =>
      let items ← match words with
        | some ws => fields fuel ws
        | none => do pure (← get).params
      modify fun s => { s with status := 0 }
      overItems fuel name body items
    | .matching subject patterns body otherwise =>
      let text := joined (← pieces fuel subject)
      if ← anyMatch fuel patterns text then
        modify fun s => { s with status := 0 }
        run fuel tested body
      else
        modify fun s => { s with status := 0 }
        run fuel tested otherwise
    | .define name body =>
      modify fun s => { s with functions := (name, body) :: s.functions, status := 0 }

/-- Ends the script after a failure, where it is to end then. -/
def failed (tested : Bool) : Run Unit := do
  let s ← get
  if s.stopsOnFailure && !tested && s.status != 0 then throw (.exit s.status)

def anyMatch : Nat → List Word → Chars → Run Bool
  | 0, _, _ => return false
  | _, [], _ => return false
  | fuel + 1, w :: ws, text => do
    let p := patternOf (← pieces fuel w)
    if matchesPattern p text then return true else anyMatch fuel ws text

/-- Runs the body of a loop; says whether the loop goes on. -/
def turn : Nat → Code → Run Bool
  | 0, _ => throw (.exit 2)
  | fuel + 1, body => do
    let outside := (← get).loops
    modify fun s => { s with loops := outside + 1 }
    let halt ← tryCatch
      (do
        run fuel false body
        return none)
      fun h => return some h
    modify fun s => { s with loops := outside }
    match halt with
    | none => return true
    | some (.broken 0) => return false
    | some (.broken (n + 1)) => if outside = 0 then return false else throw (.broken n)
    | some (.continued 0) => return true
    | some (.continued (n + 1)) => if outside = 0 then return true else throw (.continued n)
    | some h => throw h

/-- The turns of a loop; `last` is the status of the last one. -/
def rounds : Nat → Bool → Code → Code → Nat → Run Unit
  | 0, _, _, _, _ => throw (.exit 2)
  | fuel + 1, outcome, test, body, last => do
    run fuel true test
    if ((← get).status == 0) == outcome then
      if ← turn fuel body then rounds fuel outcome test body (← get).status
    else modify fun s => { s with status := last }

/-- The turns of a loop over items. -/
def overItems : Nat → Chars → Code → List Chars → Run Unit
  | 0, _, _, _ => throw (.exit 2)
  | _, _, _, [] => return
  | fuel + 1, name, body, item :: items => do
    modify fun s => s.setVariable name item false
    if ← turn fuel body then overItems fuel name body items

/-- Sets variables. -/
def assignAll : Nat → Bool → List (Chars × Word) → Run Unit
  | 0, _, _ => return
  | _, _, [] => return
  | fuel + 1, exported, (name, word) :: rest => do
    let value := joined (← pieces fuel word)
    if (← get).constants.contains name then
      warn (shown name ++ ": is read only")
      throw (.exit 2)
    modify fun s => s.setVariable name value exported
    assignAll fuel exported rest

/-- Shows a command before it runs, where that is asked for. -/
def trace (assignments : List (Chars × Word)) (args : List Chars) : Run Unit := do
  let s ← get
  if s.traces then
    let set := assignments.map fun a => a.1 ++ '=' :: (s.value? a.1).getD []
    complain ("+ " ++ shown (spaced (set ++ args)))

/-- Runs a command of words, assignments and redirections. -/
def simpleCommand : Nat → List (Chars × Word) → List Word → List Redirect → Run Unit
  | 0, _, _, _ => throw (.exit 2)
  | fuel + 1, assignments, words, redirects => do
    let args ← fields fuel words
    match args with
    | [] =>
      modify fun s => { s with status := 0 }
      withRedirects fuel redirects (return)
      assignAll fuel false assignments
      trace assignments args
    | name :: rest =>
      if name == chars "exec" then replace fuel assignments rest redirects
      else
        let before := (← get).variablesNamed (assignments.map (·.1))
        assignAll fuel true assignments
        trace assignments args
        withRedirects fuel redirects (invoke fuel true name rest)
        if !specialBuiltins.contains (String.ofList name) then
          modify fun s => s.restoreVariables before

/-- Replaces the shell by a command; without one only the redirections hold from then on. -/
def replace : Nat → List (Chars × Word) → List Chars → List Redirect → Run Unit
  | 0, _, _, _ => throw (.exit 2)
  | fuel + 1, assignments, args, redirects => do
    let before ← get
    if !(← redirectAll fuel redirects) then throw (.exit 2)
    closeUnheld before
    assignAll fuel (!args.isEmpty) assignments
    match args with
    | [] => modify fun s => { s with status := 0 }
    | name :: rest =>
      modify fun s => { s with traps := s.traps.filter (·.2.isEmpty) }
      external fuel false name rest
      throw (.exit (← get).status)

/-- Runs a function, a builtin or a program. -/
def invoke : Nat → Bool → Chars → List Chars → Run Unit
  | 0, _, _, _ => throw (.exit 2)
  | fuel + 1, functions, name, args => do
    let s ← get
    match (if functions then s.functions.find? (·.1 == name) else none) with
    | some (_, body) =>
      set { s with params := args, outer := some [] }
      let halt ← tryCatch (do run fuel false body; return none) fun h => return some h
      modify fun after =>
        { after.restoreVariables (after.outer.getD []) with params := s.params, outer := s.outer }
      match halt with
      | some (.returned status) => modify fun s => { s with status }
      | some h => throw h
      | none => return
    | none =>
      if builtinNames.contains (String.ofList name) then
        let status ← builtin fuel (String.ofList name) args
        modify fun s => { s with status }
      else external fuel true name args

/-- Runs a builtin and gives its status. -/
def builtin : Nat → String → List Chars → Run Nat
  | 0, _, _ => return 2
  | fuel + 1, name, args => do
    let runText (text : Chars) : Run Unit := program fuel (read text)
    match name with
    | ":" => return 0
    | "true" => return 0
    | "false" => return 1
    | "echo" => echoBuiltin args
    | "printf" => printfTool warn args
    | "test" => testTool false args
    | "[" => testTool true args
    | "cd" => changeDirectory args
    | "pwd" => do
      let s ← get
      put "pwd" (toBytes ((s.value? (chars "PWD")).getD []) ++ [10])
    | "read" => readLine args
    | "kill" => killBuiltin runText args
    | "trap" => trapBuiltin args
    | "export" => exportBuiltin args
    | "readonly" => readonlyBuiltin args
    | "local" => localBuiltin args
    | "unset" =>
      for a in args do modify fun s => s.unsetVariable a
      return 0
    | "set" => setBuiltin args
    | "shift" => shiftBuiltin args
    | "umask" => if args.isEmpty then put "umask" (Bytes.ofString "0022\n") else return 0
    | "type" => typeBuiltin args
    | "times" => return 0
    | "exit" =>
      match args with
      | [] => throw (.exit (← get).status)
      | a :: _ => throw (.exit ((← wholeNumber "exit" a) % 256))
    | "return" =>
      match args with
      | [] => throw (.returned (← get).status)
      | a :: _ => throw (.returned (← wholeNumber "return" a))
    | "break" =>
      if (← get).loops = 0 then return 0
      throw (.broken ((natOf (args.headD ['1'])) - 1))
    | "continue" =>
      if (← get).loops = 0 then return 0
      throw (.continued ((natOf (args.headD ['1'])) - 1))
    | "wait" =>
      let jobs := (← get).jobs
      match args with
      | [] => do
        let _ ← awaitJobs jobs
        return 0
      | _ => do
        let wanted := jobs.filter fun j => args.contains (toString j.pid).toList
        if wanted.isEmpty then return 127
        let status ← awaitJobs wanted
        if let some text := signalText (status - 128) then complain text
        return status
    | "eval" => do
      runText (spaced args)
      return (← get).status
    | "." => do
      match (← get).look (args.headD []) with
      | .ok (.file content _) =>
        runText (ofBytes content)
        return (← get).status
      | _ =>
        warn (".: cannot open " ++ shown (args.headD []) ++ ": No such file")
        throw (.exit 2)
    | "command" =>
      match args with
      | ['-', 'v'] :: wanted :: _ =>
        if builtinNames.contains (String.ofList wanted) then
          put "command" (toBytes wanted ++ [10])
        else
          match findCommand (← get) wanted with
          | .program p => put "command" (p ++ [10])
          | _ => return 127
      | wanted :: rest => do
        invoke fuel false wanted rest
        return (← get).status
      | [] => return 0
    | _ => return 0

/-- Runs a program, in a process of its own unless it replaces the shell. -/
def external : Nat → Bool → Chars → List Chars → Run Unit
  | 0, _, _, _ => throw (.exit 2)
  | fuel + 1, separate, name, args => do
    let s ← get
    match findCommand s name with
    | .absent =>
      warn ((if separate then "" else "exec: ") ++ shown name ++ ": not found")
      modify fun s => { s with status := 127 }
    | .notExecutable =>
      warn ((if separate then "" else "exec: ") ++ shown name ++ ": Permission denied")
      modify fun s => { s with status := 126 }
    | .program path =>
      let argv := toBytes name :: args.map toBytes
      let action : Run Unit :=
        match Machine.load s.files s.directory Machine.scriptLimit path argv with
        | .ok (tool, argv) => execute fuel tool argv
        | .error .notExecutableFormat =>
          execute fuel "sh" (Bytes.ofString "sh" :: path :: args.map toBytes)
        | .error e => do
          warn (shown name ++ ": " ++ (if e == .notFound then "not found" else e.text))
          throw (.exit (if e == .notFound then 127 else 126))
      if separate then
        set { s with nextPid := s.nextPid + 1 }
        let halt ← tryCatch
          (do
            isolated do
              modify fun s => { s with pid := s.nextPid, parent := s.pid }
              action
            return none)
          fun h => return some h
        match halt with
        | some (.killed signal) =>
          match signalText signal with
          | some text => complain text
          | none => pure ()
          modify fun s => { s with status := 128 + signal }
        | some h => throw h
        | none => return
      else action

/-- Runs a tool. -/
def execute : Nat → String → List Bytes → Run Unit
  | 0, _, _ => throw (.exit 2)
  | fuel + 1, tool, argv => do
    let name := ofBytes (argv.headD [])
    let args := (argv.drop 1).map ofBytes
    modify fun s =>
      { s with bindings := s.bindings.filter (·.exported), functions := [], status := 0 }
    match tool with
    | "sh" => shell fuel name args
    | "dash" => shell fuel name args
    | "bash" => shell fuel name args
    | "env" =>
      let args := args.filter (· != ['-', '-'])
      let (args, cleared) :=
        if args.head? == some ['-', 'i'] then (args.drop 1, true) else (args, false)
      if cleared then modify fun s => { s with bindings := [] }
      let (settings, command) := envArguments args
      let _ ← exportBuiltin settings
      match command with
      | [] =>
        let status ← put "env" (exportedLines (← get))
        throw (.exit status)
      | n :: rest =>
        match findCommand (← get) n with
        | .program _ => external fuel false n rest
        | found =>
          let why := if found == .absent then "No such file or directory" else "Permission denied"
          complain ("env: '" ++ shown n ++ "': " ++ why)
          throw (.exit (if found == .absent then 127 else 126))
    | "nohup" => followed fuel args
    | "setsid" => followed fuel args
    | "which" =>
      let found := args.map (findCommand (← get))
      for f in found do
        if let .program p := f then let _ ← put "which" (p ++ [10])
      let all := found.all fun f => f != .absent && f != .notExecutable
      modify fun s => { s with status := if all then 0 else 1 }
    | "kill" =>
      let status ← killBuiltin (fun _ => return) args
      modify fun s => { s with status }
    | _ =>
      let status ← match tool? tool with
        | some action => action args
        | none => pure 0
      modify fun s => { s with status }

def followed : Nat → List Chars → Run Unit
  | 0, _ => throw (.exit 2)
  | fuel + 1, args =>
    match args with
    | [] => modify fun s => { s with status := 1 }
    | n :: rest => external fuel false n rest

/-- Runs a shell with its arguments; what is to be done at the end is done then. -/
def shell : Nat → Chars → List Chars → Run Unit
  | 0, _, _ => throw (.exit 2)
  | fuel + 1, name, args => do
    let (flags, source) := shellSource name [] args
    modify fun s => standardVariables (setOptions flags true { s with line := 1, name })
    let halt ← tryCatch
      (do
        match source with
        | none =>
          modify fun s => { s with line := 0 }
          warn "-c requires an argument"
          throw (.exit 2)
        | some (.text script name params) =>
          modify fun s => { s with name, params }
          program fuel (read script)
        | some (.file path params) =>
          match (← get).look path with
          | .ok (.file content _) =>
            modify fun s => { s with name := path, params }
            program fuel (read (ofBytes content))
          | _ =>
            modify fun s => { s with line := 0 }
            warn ("cannot open " ++ shown path ++ ": No such file")
            throw (.exit 2)
        | some .input =>
          let text ← takeInput
          program fuel (read (ofBytes text))
        return Halt.exit (← get).status)
      fun h => return h
    match halt with
    | .killed signal => throw (.killed signal)
    | h =>
      let status := match h with
        | .exit n => n
        | .returned n => n
        | _ => 0
      modify fun s => { s with status }
      let traps := (← get).traps
      match traps.find? (·.1 == trapName 0) with
      | some (_, action) =>
        modify fun s => { s with traps := s.traps.filter (·.1 != trapName 0) }
        program fuel (read action)
        throw (.exit status)
      | none => throw (.exit status)

end

end ToolRunner.Script
