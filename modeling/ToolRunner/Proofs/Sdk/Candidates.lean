import Mathlib.Data.List.Forall2
import ToolRunner.Proofs.Path.Components
import ToolRunner.Sdk.Discovery

/-!
# Where an SDK may be

The search directories that lie in an SDK are told by their components, and each of them names one
root, in their order (`roots_forall₂`); after these come the places that are told by the environment
and the fixed ones (`candidateRoots_exact`). Of whatever places, the first that is a directory is
taken, and none is passed over.
-/

namespace ToolRunner.Sdk

open ToolRunner.Path (components parent? fileName? isVoid)

variable {dir root : Path} {h : Host} {paths : List Path}

/-! ## Search directories inside an SDK -/

def searchDirectories (path : Option Bytes) : List Path :=
  path.elim [] Host.searchList

/-- A directory is the `bin` of a directory `google-cloud-sdk`, however it is written. -/
def InSdk (dir : Path) : Prop :=
  ∃ above, components dir =
    above ++ [.name (Bytes.ofString "google-cloud-sdk"), .name (Bytes.ofString "bin")]

/-- The root of the SDK that a search directory lies in. -/
structure RootOf (dir root : Path) : Prop where
  parent : parent? dir = some root
  components : components dir = components root ++ [.name (Bytes.ofString "bin")]
  named : (Path.components root).getLast? = some (.name (Bytes.ofString "google-cloud-sdk"))
  /-- It is written as the directory is. -/
  within : root <+: dir

theorem endsWith_toolDirectory_iff : Path.endsWith dir toolDirectory = true ↔ InSdk dir := by
  rw [Path.endsWith, List.isSuffixOf_iff_suffix, List.IsSuffix, InSdk]
  exact exists_congr fun above => eq_comm

instance : DecidablePred InSdk := fun _ => decidable_of_iff _ endsWith_toolDirectory_iff

/-- What lies in an SDK has a root. -/
theorem InSdk.exists_root (hin : InSdk dir) : ∃ root, RootOf dir root := by
  obtain ⟨above, habove⟩ := hin
  have hname : fileName? dir = some (Bytes.ofString "bin") := by
    rw [fileName?, habove, List.getLast?_append]
    rfl
  obtain ⟨root, hparent, hcomponents, hwithin⟩ := Path.components_of_fileName? hname
  have hroot : above ++ [.name (Bytes.ofString "google-cloud-sdk")] = components root := by
    rw [habove, List.append_cons] at hcomponents
    exact (List.append_inj' hcomponents rfl).1
  refine ⟨root, hparent, hcomponents, ?_, hwithin⟩
  rw [← hroot, List.getLast?_concat]

/-- The roots of a list of directories are those of the ones that lie in an SDK, one of each, in
their order. -/
theorem roots_forall₂ (dirs : List Path) :
    List.Forall₂ RootOf (dirs.filter (InSdk ·))
      (dirs.filterMap fun dir =>
        if Path.endsWith dir toolDirectory then parent? dir else none) := by
  induction dirs with
  | nil => exact .nil
  | cons dir dirs ih =>
    by_cases hin : InSdk dir
    · obtain ⟨root, hroot⟩ := hin.exists_root
      have hfound :
          (if Path.endsWith dir toolDirectory then parent? dir else none) = some root := by
        rw [if_pos (endsWith_toolDirectory_iff.mpr hin), hroot.parent]
      rw [List.filter_cons_of_pos (by simpa using hin), List.filterMap_cons, hfound]
      exact .cons hroot ih
    · have hnone : (if Path.endsWith dir toolDirectory then parent? dir else none) = none :=
        if_neg fun hends => hin (endsWith_toolDirectory_iff.mp hends)
      rw [List.filter_cons_of_neg (by simpa using hin), List.filterMap_cons, hnone]
      exact ih

theorem rootsOnSearchList_eq (path : Option Bytes) :
    rootsOnSearchList path = (searchDirectories path).filterMap fun dir =>
      if Path.endsWith dir toolDirectory then parent? dir else none := by
  cases path <;> rfl

/-- The search directories are what stands between the colons, all of it and in its order. -/
theorem searchDirectories_pieces (path : Bytes) :
    searchDirectories (some path) ≠ [] ∧
      Bytes.joinWith [58] (searchDirectories (some path)) = path ∧
      ∀ dir ∈ searchDirectories (some path), 58 ∉ dir :=
  ⟨Bytes.splitOn_ne_nil 58 path, Bytes.joinWith_splitOn 58 path,
    fun _ hdir => Bytes.not_mem_of_mem_splitOn hdir⟩

/-! ## The first directory -/

theorem firstDirectory_eq_some_iff {p : Path} : firstDirectory h paths = some p ↔
    ∃ before after, paths = before ++ p :: after ∧ h.isDirectory p = true ∧
      ∀ q ∈ before, h.isDirectory q = false := by
  rw [firstDirectory, List.find?_eq_some_iff_append]
  constructor
  · rintro ⟨hp, before, after, hpaths, hbefore⟩
    exact ⟨before, after, hpaths, hp, fun q hq => by simpa using hbefore q hq⟩
  · rintro ⟨before, after, hpaths, hp, hbefore⟩
    exact ⟨hp, before, after, hpaths, fun q hq => by simpa using hbefore q hq⟩

theorem firstDirectory_eq_none_iff :
    firstDirectory h paths = none ↔ ∀ q ∈ paths, h.isDirectory q = false := by
  simp [firstDirectory]

/-! ## All places -/

theorem components_child (home : Path) : components (home.child "google-cloud-sdk") =
    components home ++ [.name (Bytes.ofString "google-cloud-sdk")] :=
  Path.components_join (by decide) (by decide)

/-- The places where an SDK is looked for are the roots of the search directories that lie in one,
each of these once and no others, in the order of the search; the directory that is named for that,
unless it is empty; the one in the user's home, if that is known; and the fixed ones. A search
directory lies in an SDK by its components, so that void parts in it make no difference. The first
directory of any list of places is taken, and there is none if no place is a directory. -/
theorem candidateRoots_exact (path sdkHome : Option Bytes) (home : Option Path) :
    (∃ roots, candidateRoots path sdkHome home =
        roots ++
          (match sdkHome with
            | some (b :: bs) => [b :: bs]
            | _ => []) ++
          (match home with
            | some directory => [directory.child "google-cloud-sdk"]
            | none => []) ++
          ["/usr/lib/google-cloud-sdk", "/google/google-cloud-sdk",
            "/usr/local/share/google/google-cloud-sdk"].map Path.ofString ∧
      List.Forall₂ RootOf ((searchDirectories path).filter (InSdk ·)) roots) ∧
    (∀ directory : Path, components (directory.child "google-cloud-sdk") =
      components directory ++ [.name (Bytes.ofString "google-cloud-sdk")]) ∧
    (path = none → searchDirectories path = []) ∧
    (∀ list, path = some list → searchDirectories path ≠ [] ∧
      Bytes.joinWith [58] (searchDirectories path) = list ∧
      ∀ dir ∈ searchDirectories path, 58 ∉ dir) ∧
    (∀ (dir dir' first : Bytes) (rest rest' : List Bytes),
      Bytes.splitOn Path.slash dir = first :: rest →
      Bytes.splitOn Path.slash dir' = first :: rest' →
      Path.isAbsolute dir' = Path.isAbsolute dir →
      rest'.filter (!isVoid ·) = rest.filter (!isVoid ·) → (InSdk dir' ↔ InSdk dir)) ∧
    ∀ (h : Host) (paths : List Path),
      (∀ p, firstDirectory h paths = some p ↔
        ∃ before after, paths = before ++ p :: after ∧ h.isDirectory p = true ∧
          ∀ q ∈ before, h.isDirectory q = false) ∧
      (firstDirectory h paths = none ↔ ∀ q ∈ paths, h.isDirectory q = false) := by
  refine ⟨⟨rootsOnSearchList path, ?_, ?_⟩, components_child, ?_, ?_, ?_, ?_⟩
  · have hnamed : (sdkHome.filter (· != [])).toList =
        match sdkHome with
        | some (b :: bs) => [b :: bs]
        | _ => [] := by
      rcases sdkHome with _ | _ | ⟨b, bs⟩ <;> rfl
    have hhome : (home.map (·.child "google-cloud-sdk")).toList =
        match home with
        | some directory => [directory.child "google-cloud-sdk"]
        | none => [] := by
      cases home <;> rfl
    rw [candidateRoots, hnamed, hhome, fixedRoots]
  · rw [rootsOnSearchList_eq]
    exact roots_forall₂ _
  · rintro rfl
    rfl
  · rintro list rfl
    exact searchDirectories_pieces list
  · intro dir dir' first rest rest' hdir hdir' habsolute hrest
    rw [InSdk, InSdk, Path.components_congr hdir hdir' habsolute hrest]
  · exact fun h paths => ⟨fun p => firstDirectory_eq_some_iff, firstDirectory_eq_none_iff⟩

example : candidateRoots
    (some (Bytes.ofString "/opt/google-cloud-sdk//bin/:/opt/my-google-cloud-sdk/bin:sdk/bin"))
    none (some (Path.ofString "/home/user")) =
      ["/opt/google-cloud-sdk", "/home/user/google-cloud-sdk", "/usr/lib/google-cloud-sdk",
        "/google/google-cloud-sdk", "/usr/local/share/google/google-cloud-sdk"].map
          Path.ofString := by
  decide +kernel

end ToolRunner.Sdk
