import ToolRunner.Host
import ToolRunner.Script.Run

/-!
# Starting programs

How a host starts a command. A program named by a path is seen from the directory in which the
command is to run; a bare name is looked for in the directories of `PATH`, and an override of that
variable holds for the search already.
-/

namespace ToolRunner.Machine

def environment (h : Host) (c : Command) : Variables := h.environment.insertAll c.overrides.toList

/-- The directory in which a command runs. -/
def directory (h : Host) (c : Command) : Except OsError Place :=
  match c.directory with
  | none => .ok h.directory
  | some path =>
    match h.files.resolve h.directory path with
    | .error e => .error e
    | .ok place =>
      match h.files.entry? place with
      | some .directory => .ok place
      | some (.closed true) => .error .permissionDenied
      | _ => .error .notADirectory

/-- Directories that are searched where `PATH` is not set. -/
def standardPath : Bytes := Bytes.ofString "/bin:/usr/bin"

/-- Whether the search of a bare name goes on after an error. -/
def goesOn : OsError → Bool
  | .notFound => true
  | .notADirectory => true
  | .permissionDenied => true
  | _ => false

/-- Tries the paths of a bare name in order. If none can be executed, one that may not be executed
is reported rather than one that is not there. -/
def search (attempt : Path → Except OsError (String × List Bytes)) (denied : Bool)
    (last : OsError) : List Path → Except OsError (String × List Bytes)
  | [] => .error (if denied then .permissionDenied else last)
  | p :: ps =>
    match attempt p with
    | .ok found => .ok found
    | .error e =>
      if goesOn e then search attempt (denied || e == .permissionDenied) e ps else .error e

/-- The tool that a command runs and the arguments that it gets. -/
def resolve (h : Host) (c : Command) (cwd : Place) : Except OsError (String × List Bytes) :=
  let attempt (p : Path) := load h.files cwd scriptLimit p c.argv
  if c.program.contains Path.slash then attempt c.program
  else
    let overridden := c.overrides.find? (Bytes.ofString "PATH")
    let path := ((environment h c).find? (Bytes.ofString "PATH")).getD standardPath
    let inSearch (p : Path) :=
      match attempt p, overridden with
      | .error .notExecutableFormat, some _ =>
        .ok ("sh", Bytes.ofString "/bin/sh" :: p :: c.args)
      | found, _ => found
    search inSearch false .notFound ((Host.searchList path).map fun d => Path.join d c.program)

/-- The most bytes that one argument or variable may have. -/
def argumentLimit : Nat := 131071

/-- Whether an argument or a variable is too long to be handed over. -/
def tooLong (h : Host) (c : Command) : Bool :=
  c.argv.any (fun a => argumentLimit < a.length) ||
    (environment h c).toList.any fun v => argumentLimit < v.1.length + v.2.length + 1

/-- The script at work that a started program is. -/
def shellOf (h : Host) (c : Command) (cwd : Place) (pid : Nat) : Script.Shell where
  files := h.files
  directory := cwd
  bindings :=
    (environment h c).toList.reverse.map fun v =>
      ⟨Script.ofBytes v.1, Script.ofBytes v.2, true⟩
  name := Script.ofBytes c.program
  params := []
  functions := []
  streams := [(1, .channel .stdout), (2, .channel .stderr)]
  input := []
  status := 0
  line := 1
  traps := []
  stopsOnFailure := false
  pid := pid
  parent := Script.starterPid
  nextPid := pid + 1
  acts := []
  time := 0
  gathered := []
  jobs := []

/-- The child that a tool is. -/
def childOf (shell : Script.Shell) (tool : String) (argv : List Bytes) : Child :=
  let (outcome, after) := ((Script.execute Script.depthLimit tool argv).run shell).run
  let ending : Ending := match outcome with
    | .ok () => .exited after.status
    | .error (.exit status) => .exited status
    | .error (.killed _) => .killed
    | .error _ => .exited 0
  { main := .starting after.acts.reverse 0
    background := after.jobs.reverse.map (·.task)
    ending := ending
    status := none }

def spawn (h : Host) (pid : Nat) (c : Command) : Except OsError Child := do
  if c.holdsNul then throw .nulInCommand
  let cwd ← directory h c
  let (tool, argv) ← resolve h c cwd
  if tooLong h c then throw .argumentsTooLong
  return childOf (shellOf h c cwd pid) tool argv

/-! ## A standard machine -/

/-- The tools that every machine has. -/
def standardTools : List String :=
  ["[", "awk", "base64", "basename", "bash", "cat", "chmod", "cp", "cut", "dash", "date", "dd",
    "df", "dirname", "du", "echo", "env", "expr", "false", "find", "grep", "head", "hostname", "id",
    "install", "kill", "ln", "ls", "md5sum", "mkdir", "mktemp", "mv", "nohup", "nproc", "perl",
    "printenv", "printf", "ps", "pwd", "readlink", "realpath", "rm", "rmdir", "sed", "seq",
    "setsid", "sh", "sha256sum", "sleep", "sort", "stat", "tail", "tar", "tee", "test", "timeout",
    "touch", "tr", "true", "tty", "uname", "uniq", "wc", "which", "whoami", "xargs", "yes"]

def place (names : List String) : Place := names.map Bytes.ofString

/-- The files of a machine on which nothing has been done yet. -/
def standardFiles : FileTree :=
  let directories :=
    [["boot"], ["dev"], ["etc"], ["home"], ["media"], ["mnt"], ["opt"], ["proc"], ["root"], ["run"],
      ["srv"], ["sys"], ["tmp"], ["var"], ["var", "tmp"], ["usr", "bin"], ["usr", "lib"],
      ["usr", "sbin"], ["usr", "share"], ["usr", "local", "bin"], ["usr", "local", "lib"],
      ["usr", "local", "share"]]
  let files := [(["dev", "null"], Entry.file [] false), (["dev", "zero"], Entry.file [] false),
    (["etc", "passwd"], .file (Bytes.ofString "root:x:0:0:root:/root:/bin/bash\n") false),
    (["bin"], .link (Path.ofString "usr/bin")), (["lib"], .link (Path.ofString "usr/lib")),
    (["sbin"], .link (Path.ofString "usr/sbin"))]
  let tools := standardTools.map fun t => (["usr", "bin", t], Entry.file (image t) true)
  (files ++ tools).foldl (fun t f => t.add (place f.1) f.2)
    (directories.foldl (fun t d => t.add (place d) .directory) .empty)

end ToolRunner.Machine
