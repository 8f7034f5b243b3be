import ToolRunner.Sdk.Toolkit

/-!
# Finding a toolkit

The SDK that the `gcloud` on the search path belongs to comes first; then the first directory among
the well-known places.
-/

namespace ToolRunner.Sdk

/-- The components that a search directory inside an SDK ends with. -/
def toolDirectory : List Path.Component :=
  [.name (Bytes.ofString "google-cloud-sdk"), .name (Bytes.ofString "bin")]

/-- Where installers put an SDK for all users. -/
def fixedRoots : List Path :=
  ["/usr/lib/google-cloud-sdk", "/google/google-cloud-sdk",
    "/usr/local/share/google/google-cloud-sdk"].map Path.ofString

/-- The roots of those search directories that are tool directories by their name. -/
def rootsOnSearchList (path : Option Bytes) : List Path :=
  match path with
  | none => []
  | some path =>
    (Host.searchList path).filterMap fun dir =>
      if Path.endsWith dir toolDirectory then Path.parent? dir else none

/-- The well-known places of an SDK, in the order in which they are tried. -/
def candidateRoots (path sdkHome : Option Bytes) (home : Option Path) : List Path :=
  rootsOnSearchList path ++
    (sdkHome.filter (· != [])).toList ++
    (home.map (·.child "google-cloud-sdk")).toList ++
    fixedRoots

def firstDirectory (h : Host) (paths : List Path) : Option Path :=
  paths.find? h.isDirectory

/-- The directory above the one that a program stands in, if that one is named `bin`. -/
def rootAbove (program : Path) : Option Path := do
  let directory ← Path.parent? program
  let name ← Path.fileName? directory
  if name = Bytes.ofString "bin" then Path.parent? directory else none

/-- The path with its links followed, as long as they lead somewhere. -/
def followed (h : Host) (p : Path) : Path :=
  match h.files.canonical h.directory p with
  | .ok q => q
  | .error _ => p

def gcloudOnPath (h : Host) : Option Path :=
  match h.findProgram (Bytes.ofString "gcloud") with
  | .ok p => some (followed h p)
  | .error _ => none

/-- The root of the SDK that the `gcloud` on the search path belongs to. -/
def rootOnPath (h : Host) : Option Path :=
  (gcloudOnPath h).bind rootAbove

def hostCandidates (h : Host) : List Path :=
  candidateRoots (h.value? "PATH") (h.value? "GOOGLE_CLOUD_SDK_HOME") h.home

def discover (h : Host) : Result Toolkit :=
  let candidates := hostCandidates h
  match rootOnPath h <|> firstDirectory h candidates with
  | some root => .ok (.atRoot root)
  | none =>
    .error (.sdk
      ("no Cloud SDK found on PATH or in " ++ toString candidates.length ++ " known locations"))

end ToolRunner.Sdk
