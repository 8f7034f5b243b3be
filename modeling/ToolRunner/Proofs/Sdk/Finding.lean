import ToolRunner.Proofs.FileTree.Places
import ToolRunner.Sdk.Discovery

/-!
# Whose root is found

The `gcloud` on the search path stands for the SDK that it belongs to. Its links are followed, and
what is above the directory that they lead to is taken for the root if that directory is named
`bin`. The name of the file itself is not looked at. So the root holds that `gcloud` only if the
file is named so as well, or if there is another link beside it that leads to it.
-/

namespace ToolRunner

open Bytes (splitOn)
open ToolRunner.Path (slash AllVoid below)

namespace FileTree

/-- A link at a place, with which a walk that may follow as many as there can be leads to a
place. -/
def LinksTo (t : FileTree) (link place : Place) : Prop :=
  ∃ target, t.entry? link = some (.link target) ∧
    t.walk true (linkLimit - 1) (origin link.dropLast target) (splitOn slash target) = .ok place

/-- A name leads to a place that has another name only as a link. -/
theorem linksTo_iff {t : FileTree} {dirs out : Place} {name : Bytes}
    (hdirs : t.entry? dirs = some .directory) (hname : Proper name)
    (hother : out ≠ dirs ++ [name]) :
    t.LinksTo (dirs ++ [name]) out ↔ ∃ left, t.Walks linkLimit dirs [name] out left := by
  have hwalks : ∀ left, t.Walks (39 + 1) dirs [name] out left ↔ _ := fun _ =>
    walks_proper_iff hdirs hname
  constructor
  · rintro ⟨target, hlink, hwalk⟩
    obtain ⟨left, htarget⟩ := walks_of_walk hwalk
    rw [List.dropLast_concat] at htarget
    exact ⟨left, (hwalks left).mpr (.inr ⟨target, hlink, htarget⟩)⟩
  · rintro ⟨left, hleft⟩
    rcases (hwalks left).mp hleft with ⟨hsame, -⟩ | ⟨target, hlink, htarget⟩
    · exact absurd hsame hother
    · refine ⟨target, hlink, ?_⟩
      rw [List.dropLast_concat]
      exact walk_of_walks htarget

end FileTree

namespace Sdk

open FileTree (pathOf)

variable {h : Host} {root program found : Path} {file : Place} {name : Bytes}

def gcloudName : Bytes := Bytes.ofString "gcloud"

def binName : Bytes := Bytes.ofString "bin"

theorem gcloudName_proper : FileTree.Proper gcloudName := by
  constructor <;> decide

theorem splitOn_gcloud (root : Path) :
    splitOn slash (Toolkit.atRoot root).gcloud = below root ++ [binName, gcloudName] := by
  have hparts : splitOn slash (Path.ofString "bin/gcloud") = [binName, gcloudName] := by
    decide
  rw [Toolkit.gcloud, Path.child, Path.splitOn_join (by decide), hparts]
  rfl

theorem isAbsolute_gcloud (root : Path) :
    Path.isAbsolute (Toolkit.atRoot root).gcloud = Path.isAbsolute root := by
  have hrelative : Path.isAbsolute (Path.ofString "bin/gcloud") = false := by decide
  exact Path.isAbsolute_join hrelative

/-! ## The program on the search path -/

/-- A bare name is found below one of the directories that are searched. -/
theorem findProgram_gcloud (hfound : h.findProgram gcloudName = .ok found) :
    Path.fileName? found = some gcloudName ∧
      ∃ file, h.files.resolve h.directory found = .ok file := by
  have hbare : ¬ 1 < (Path.components gcloudName).length := by decide
  unfold Host.findProgram Host.programCandidates at hfound
  rw [if_neg hbare] at hfound
  cases hpath : h.value? "PATH" with
  | none =>
    rw [hpath] at hfound
    cases hfound
  | some path =>
    simp only [hpath, bind, Except.bind] at hfound
    split at hfound
    · rename_i p hp
      cases hfound
      constructor
      · obtain ⟨dir, -, rfl⟩ := List.mem_map.mp (List.mem_of_find?_eq_some hp)
        have hparts : splitOn slash (Path.join (h.expandHome dir) gcloudName) =
            below (h.expandHome dir) ++ [gcloudName] := by
          rw [Path.splitOn_join (by decide),
            Bytes.splitOn_of_not_mem gcloudName_proper.slash]
        exact Path.fileName?_of_parts hparts gcloudName_proper.void gcloudName_proper.up
      · have hexecutable := List.find?_some hp
        unfold FileTree.isExecutable at hexecutable
        split at hexecutable
        · rename_i hlook
          obtain ⟨file, hfile, -⟩ := FileTree.look_eq_ok_iff.mp hlook
          exact ⟨file, hfile⟩
        · cases hexecutable
    · cases hfound

/-- The links of the program are followed to the path of the file, or else the program stays as it
is. Either path leads to the file. -/
theorem followed_cases (hfile : h.files.resolve h.directory found = .ok file) :
    h.files.resolve h.directory (followed h found) = .ok file ∧
      (followed h found = pathOf file ∨ followed h found = found) := by
  unfold followed
  cases hcanonical : h.files.canonical h.directory found with
  | error e => exact ⟨hfile, .inr rfl⟩
  | ok q =>
    simp only [FileTree.canonical, hfile, bind, Except.bind] at hcanonical
    split at hcanonical
    · cases hcanonical
    · rename_i place hplace
      split at hcanonical
      · rename_i hsame
        cases hcanonical
        exact ⟨hsame ▸ hplace, .inl rfl⟩
      · cases hcanonical

/-! ## The root above a program -/

/-- A program that has a root above it stands in a directory named `bin`, between void parts. -/
theorem parts_of_rootAbove (hroot : rootAbove program = some root)
    (hname : Path.fileName? program = some name) :
    ∃ before between voids,
      splitOn slash program = below root ++ (before ++ binName :: (between ++ name :: voids)) ∧
        AllVoid before ∧ AllVoid between ∧ AllVoid voids ∧ name ≠ [] ∧
        Path.isAbsolute root = Path.isAbsolute program := by
  simp only [rootAbove, Option.bind_eq_bind, Option.bind_eq_some_iff] at hroot
  obtain ⟨dir, hdir, bin, hbin, hroot⟩ := hroot
  split at hroot
  · rename_i hbinName
    subst hbinName
    obtain ⟨between, voids, hprogram, hbetween, hvoids, hne, -, hdirAbsolute⟩ :=
      Path.parts_of_parent? hdir hname
    obtain ⟨before, after, hdirParts, hbefore, hafter, -, -, hrootAbsolute⟩ :=
      Path.parts_of_parent? hroot hbin
    rw [← List.append_assoc] at hdirParts
    obtain ⟨after, hbelow, hafter⟩ := Path.below_of_parts hdirParts hafter (by decide)
    refine ⟨before, after ++ between, voids, ?_, hbefore, hafter.append hbetween, hvoids,
      Path.isVoid_ne_nil hne, hrootAbsolute.trans hdirAbsolute⟩
    rw [hprogram, hbelow]
    simp [binName]
  · cases hroot

/-- The void parts around the directory of a program may be left out. -/
theorem walks_bin_iff {t : FileTree} {place out : Place} {links left : Nat} {part : Bytes}
    {parts before between rest : List Bytes} (hbefore : AllVoid before) (hbetween : AllVoid between)
    (hpart : part ≠ []) :
    t.Walks links place (parts ++ (before ++ binName :: (between ++ part :: rest))) out left ↔
      t.Walks links place (parts ++ binName :: part :: rest) out left := by
  have hbin : binName ≠ [] := by decide
  have hsnoc : ∀ more, parts ++ binName :: more = parts ++ [binName] ++ more := by simp
  rw [FileTree.walks_void_between_iff hbefore hbin, hsnoc (between ++ part :: rest),
    hsnoc (part :: rest), FileTree.walks_void_between_iff hbetween hpart]

theorem gcloud_ne_nil (root : Path) : (Toolkit.atRoot root).gcloud ≠ [] := by
  intro hempty
  have hparts := congrArg List.length (splitOn_gcloud root)
  rw [hempty] at hparts
  simp [splitOn] at hparts

/-- The path of the tool holds no NUL that the path of the program does not hold. -/
theorem nul_not_mem_gcloud (hparts : ∀ part ∈ below root, part ∈ splitOn slash program)
    (hnul : 0 ∉ program) : 0 ∉ (Toolkit.atRoot root).gcloud := by
  intro hmem
  obtain ⟨part, hpart, hzero⟩ := Path.exists_part_of_mem hmem (by decide)
  rw [splitOn_gcloud] at hpart
  rcases List.mem_append.mp hpart with hpart | hpart
  · exact hnul (Path.mem_of_mem_part (hparts part hpart) hzero)
  · have hnone : ∀ part ∈ [binName, gcloudName], 0 ∉ part := by decide
    exact hnone part hpart hzero

/-- A program with the name of the tool is the tool of the root above it. -/
theorem resolve_gcloud_of_name (hroot : rootAbove program = some root)
    (hname : Path.fileName? program = some gcloudName)
    (hfile : h.files.resolve h.directory program = .ok file) :
    h.files.resolve h.directory (Toolkit.atRoot root).gcloud = .ok file := by
  obtain ⟨before, between, voids, hprogram, hbefore, hbetween, hvoids, hne, habsolute⟩ :=
    parts_of_rootAbove hroot hname
  obtain ⟨hnul, -, hlong, left, hwalks⟩ := FileTree.resolve_eq_ok_iff.mp hfile
  have hfewer : (splitOn slash (Toolkit.atRoot root).gcloud).Sublist (splitOn slash program) := by
    rw [splitOn_gcloud, hprogram]
    have hlast : [gcloudName].Sublist (between ++ gcloudName :: voids) :=
      List.sublist_append_of_sublist_right (by simp)
    have hrest : [binName, gcloudName].Sublist
        (before ++ binName :: (between ++ gcloudName :: voids)) :=
      List.sublist_append_of_sublist_right (hlast.cons_cons binName)
    exact List.Sublist.append_left hrest (below root)
  have horigin : FileTree.origin h.directory (Toolkit.atRoot root).gcloud =
      FileTree.origin h.directory program := by
    rw [FileTree.origin, isAbsolute_gcloud, habsolute, FileTree.origin]
  have hdirect : h.files.Walks FileTree.linkLimit (FileTree.origin h.directory program)
      ((below root ++ [binName, gcloudName]) ++ voids) file left := by
    rw [hprogram, walks_bin_iff hbefore hbetween hne] at hwalks
    simpa using hwalks
  refine FileTree.resolve_eq_ok_iff.mpr ⟨?_, gcloud_ne_nil root, ?_, left, ?_⟩
  · refine nul_not_mem_gcloud (fun part hpart => ?_) hnul
    rw [hprogram]
    exact List.mem_append_left _ hpart
  · exact Nat.lt_of_le_of_lt (Path.length_le_of_sublist hfewer) hlong
  · rw [splitOn_gcloud, horigin]
    exact hdirect.of_void_end hvoids

/-- Where the path of a program is that of the file, the tool of the root is looked up in the
directory of the file. -/
theorem resolve_gcloud_of_pathOf (hroot : rootAbove (pathOf file) = some root)
    (hfile : h.files.resolve h.directory (pathOf file) = .ok file) :
    ∃ dirs last, file = dirs ++ [last] ∧ Path.fileName? (pathOf file) = some last ∧
      h.files.entry? dirs = some .directory ∧
      ∀ out, h.files.resolve h.directory (Toolkit.atRoot root).gcloud = .ok out ↔
        (Toolkit.atRoot root).gcloud.length < FileTree.pathLimit ∧
          ∃ left, h.files.Walks FileTree.linkLimit dirs [gcloudName] out left := by
  obtain ⟨hnul, -, -, _, hwalks⟩ := FileTree.resolve_eq_ok_iff.mp hfile
  have hreached : h.files.Reached file :=
    .walks hwalks .root fun _ => Bytes.not_mem_of_mem_splitOn
  rcases file.eq_nil_or_concat with rfl | ⟨dirs, last, hlast⟩
  · have hnone : rootAbove (pathOf []) = none := by decide
    rw [hnone] at hroot
    cases hroot
  rw [List.concat_eq_append] at hlast
  subst hlast
  have hproper : FileTree.Proper last := hreached.names last (by simp)
  have hdirs : h.files.entry? dirs = some .directory := hreached.above dirs last [] rfl
  have hparts := hreached.splitOn_pathOf (by simp)
  rw [← List.cons_append] at hparts
  have hname : Path.fileName? (pathOf (dirs ++ [last])) = some last :=
    Path.fileName?_of_parts hparts hproper.void hproper.up
  refine ⟨dirs, last, rfl, hname, hdirs, fun out => ?_⟩
  obtain ⟨before, between, voids, hprogram, hbefore, hbetween, hvoids, hne, habsolute⟩ :=
    parts_of_rootAbove hroot hname
  have hnames : [] :: dirs = below root ++ (before ++ binName :: between) := by
    have hlast : [] :: dirs ++ [last] =
        (below root ++ (before ++ binName :: between)) ++ last :: voids := by
      rw [← hparts, hprogram]
      simp
    exact (Path.last_unique hlast hproper.void hvoids).1
  have horigin : FileTree.origin h.directory (Toolkit.atRoot root).gcloud = [] := by
    rw [FileTree.origin, isAbsolute_gcloud, habsolute]
    rfl
  have htop : h.files.entry? [] = some .directory := by
    obtain ⟨name, names, hfirst⟩ := List.exists_cons_of_ne_nil (show dirs ++ [last] ≠ [] by simp)
    exact hreached.above [] name names hfirst
  have htoDirs : h.files.Walks FileTree.linkLimit [] ([] :: dirs) dirs FileTree.linkLimit :=
    .step (FileTree.lead_void htop rfl) (hreached.walks_above _)
  have hfromDirs : ∀ left,
      h.files.Walks FileTree.linkLimit [] (splitOn slash (Toolkit.atRoot root).gcloud) out left ↔
        h.files.Walks FileTree.linkLimit dirs [gcloudName] out left := by
    intro left
    have hgcloud : gcloudName ≠ [] := Path.isVoid_ne_nil gcloudName_proper.void
    rw [← htoDirs.goes_on_iff, splitOn_gcloud, ← walks_bin_iff hbefore hbetween hgcloud, hnames]
    simp
  rw [FileTree.resolve_eq_ok_iff, horigin]
  constructor
  · rintro ⟨-, -, hlong, left, hleft⟩
    exact ⟨hlong, left, (hfromDirs left).mp hleft⟩
  · rintro ⟨hlong, left, hleft⟩
    refine ⟨?_, gcloud_ne_nil root, hlong, left, (hfromDirs left).mpr hleft⟩
    refine nul_not_mem_gcloud (fun part hpart => ?_) hnul
    rw [hprogram]
    exact List.mem_append_left _ hpart

/-! ## The root of the program on the search path -/

/-- The program leads to the file that the `gcloud` on the search path is, by the path of the file
or, where that could not be had, by the path at which it was found. -/
theorem gcloudOnPath_cases (hprogram : gcloudOnPath h = some program) :
    ∃ found file, h.findProgram gcloudName = .ok found ∧
      h.files.resolve h.directory found = .ok file ∧
      h.files.resolve h.directory program = .ok file ∧
      (program = pathOf file ∨ Path.fileName? program = some gcloudName) := by
  unfold gcloudOnPath at hprogram
  split at hprogram
  · rename_i found hfound
    cases hprogram
    obtain ⟨hnamed, file, hfile⟩ := findProgram_gcloud hfound
    obtain ⟨hfollowed, hcases⟩ := followed_cases hfile
    refine ⟨found, file, hfound, hfile, hfollowed, ?_⟩
    rcases hcases with hpath | hsame
    · exact .inl hpath
    · exact .inr (by rw [hsame, hnamed])
  · cases hprogram

theorem resolve_gcloud_iff (hroot : rootAbove program = some root)
    (hfile : h.files.resolve h.directory program = .ok file)
    (hprogram : program = pathOf file ∨ Path.fileName? program = some gcloudName) :
    h.files.resolve h.directory (Toolkit.atRoot root).gcloud = .ok file ↔
      Path.fileName? program = some gcloudName ∨
        ((Toolkit.atRoot root).gcloud.length < FileTree.pathLimit ∧
          h.files.LinksTo (file.dropLast ++ [gcloudName]) file) := by
  by_cases hname : Path.fileName? program = some gcloudName
  · have hholds := resolve_gcloud_of_name hroot hname hfile
    simp [hname, hholds]
  · obtain rfl : program = pathOf file := hprogram.resolve_right hname
    obtain ⟨dirs, last, rfl, hlast, hdirs, hbeside⟩ := resolve_gcloud_of_pathOf hroot hfile
    have hother : dirs ++ [last] ≠ dirs ++ [gcloudName] := by
      intro hsame
      cases List.append_cancel_left hsame
      exact hname hlast
    rw [hbeside, List.dropLast_concat, FileTree.linksTo_iff hdirs gcloudName_proper hother]
    simp [hname]

/-- The root that is found for the `gcloud` on the search path, which comes before all well-known
places, holds that `gcloud` if the file that it leads to has that name, as it has where the links
could not be followed, or if a link of that name stands beside it and leads to it. Otherwise it does
not. -/
theorem rootOnPath_holds_iff (h : Host) (hroot : rootOnPath h = some root) :
    ∃ found program file, h.findProgram gcloudName = .ok found ∧ gcloudOnPath h = some program ∧
      h.files.resolve h.directory found = .ok file ∧
      h.files.resolve h.directory program = .ok file ∧
      (program = pathOf file ∨ Path.fileName? program = some gcloudName) ∧
      discover h = .ok (.atRoot root) ∧
      (h.files.resolve h.directory (Toolkit.atRoot root).gcloud = .ok file ↔
        Path.fileName? program = some gcloudName ∨
          ((Toolkit.atRoot root).gcloud.length < FileTree.pathLimit ∧
            h.files.LinksTo (file.dropLast ++ [gcloudName]) file)) := by
  obtain ⟨program, hprogram, habove⟩ := Option.bind_eq_some_iff.mp hroot
  obtain ⟨found, file, hfound, hfile, hleads, hcases⟩ := gcloudOnPath_cases hprogram
  have hdiscovered : discover h = .ok (.atRoot root) := by simp [discover, hroot]
  exact ⟨found, program, file, hfound, hprogram, hfile, hleads, hcases, hdiscovered,
    resolve_gcloud_iff habove hleads hcases⟩

/-- A machine on which `/snap/gcloud`, which is on the search path, is a link to a tool in
`/tools/bin`, and `/sdk` is said to be the SDK. -/
def linkedMachine (tool : String) : Host where
  files :=
    (((((FileTree.empty.put [Bytes.ofString "snap"] .directory).put
      [Bytes.ofString "snap", gcloudName] (.link (Path.ofString ("../tools/bin/" ++ tool)))).put
      [Bytes.ofString "tools"] .directory).put [Bytes.ofString "tools", binName] .directory).put
      [Bytes.ofString "tools", binName, Bytes.ofString tool] (.file [] true)).put
      [Bytes.ofString "sdk"] .directory
  directory := []
  environment := .ofList
    [(Bytes.ofString "PATH", Bytes.ofString "/snap"),
      (Bytes.ofString "GOOGLE_CLOUD_SDK_HOME", Bytes.ofString "/sdk")]
  accountHome := none

theorem lead_linkedMachine : ∀ tool ∈ ["gcloud", "multi"],
    (linkedMachine tool).files.lead [] [] = .ok (.place []) ∧
      (linkedMachine tool).files.lead [] (Bytes.ofString "snap") =
        .ok (.place [Bytes.ofString "snap"]) ∧
      (linkedMachine tool).files.lead [Bytes.ofString "snap"] gcloudName =
        .ok (.link (Path.ofString ("../tools/bin/" ++ tool))) ∧
      (linkedMachine tool).files.lead [Bytes.ofString "snap"] Path.dotdot = .ok (.place []) ∧
      (linkedMachine tool).files.lead [] (Bytes.ofString "tools") =
        .ok (.place [Bytes.ofString "tools"]) ∧
      (linkedMachine tool).files.lead [Bytes.ofString "tools"] binName =
        .ok (.place [Bytes.ofString "tools", binName]) ∧
      (linkedMachine tool).files.lead [Bytes.ofString "tools", binName] (Bytes.ofString tool) =
        .ok (.place [Bytes.ofString "tools", binName, Bytes.ofString tool]) := by
  decide

def toolPlace (tool : String) : Place := [Bytes.ofString "tools", binName, Bytes.ofString tool]

theorem resolve_linkedMachine {tool : String} (htool : tool ∈ ["gcloud", "multi"]) :
    (linkedMachine tool).files.resolve [] (Path.ofString "/snap/gcloud") = .ok (toolPlace tool) ∧
      (linkedMachine tool).files.resolve [] (pathOf (toolPlace tool)) = .ok (toolPlace tool) := by
  obtain ⟨htop, hsnap, hlink, hup, htools, hbin, hlast⟩ := lead_linkedMachine tool htool
  have hpath : ∀ tool ∈ ["gcloud", "multi"],
      splitOn slash (Path.ofString ("../tools/bin/" ++ tool)) = Path.dotdot :: toolPlace tool ∧
        FileTree.origin [Bytes.ofString "snap"] (Path.ofString ("../tools/bin/" ++ tool)) =
          [Bytes.ofString "snap"] ∧
        splitOn slash (pathOf (toolPlace tool)) = [] :: toolPlace tool ∧
        (0 ∉ pathOf (toolPlace tool) ∧ pathOf (toolPlace tool) ≠ [] ∧
          (pathOf (toolPlace tool)).length < FileTree.pathLimit) := by
    decide
  obtain ⟨htarget, horigin, hparts, hfit⟩ := hpath tool htool
  have hdown : ∀ links, (linkedMachine tool).files.Walks links [] (toolPlace tool)
      (toolPlace tool) links := fun links =>
    .step htools (.step hbin (.step hlast (.done _ _)))
  constructor
  · have hsplit : splitOn slash (Path.ofString "/snap/gcloud") =
        [[], Bytes.ofString "snap", gcloudName] := by decide
    have hafter : (linkedMachine tool).files.Walks 39
        (FileTree.origin [Bytes.ofString "snap"] (Path.ofString ("../tools/bin/" ++ tool)))
        (splitOn slash (Path.ofString ("../tools/bin/" ++ tool)) ++ []) (toolPlace tool) 39 := by
      rw [htarget, horigin, List.append_nil]
      exact .step hup (hdown 39)
    rw [FileTree.resolve_eq_walk (by decide) hsplit]
    exact FileTree.walk_of_walks (.step htop (.step hsnap (.follow hlink hafter)))
  · rw [FileTree.resolve_eq_walk hfit hparts]
    exact FileTree.walk_of_walks (.step htop (hdown 40))

theorem gcloudOnPath_linkedMachine {tool : String} (htool : tool ∈ ["gcloud", "multi"]) :
    (linkedMachine tool).findProgram gcloudName = .ok (Path.ofString "/snap/gcloud") ∧
      gcloudOnPath (linkedMachine tool) = some (pathOf (toolPlace tool)) := by
  obtain ⟨hresolve, hcanonical⟩ := resolve_linkedMachine htool
  have hconcrete : ∀ tool ∈ ["gcloud", "multi"],
      (linkedMachine tool).programCandidates gcloudName =
          .ok [Path.ofString "/snap/gcloud"] ∧
        (linkedMachine tool).files.entry? (toolPlace tool) = some (.file [] true) := by
    decide
  obtain ⟨hcandidates, hentry⟩ := hconcrete tool htool
  have hfound : (linkedMachine tool).findProgram gcloudName =
      .ok (Path.ofString "/snap/gcloud") := by
    have hlook : (linkedMachine tool).files.look [] (Path.ofString "/snap/gcloud") =
        .ok (.file [] true) := FileTree.look_eq_ok_iff.mpr ⟨_, hresolve, hentry⟩
    have hexecutable : (linkedMachine tool).files.isExecutable (linkedMachine tool).directory
        (Path.ofString "/snap/gcloud") = true := by
      rw [FileTree.isExecutable, show (linkedMachine tool).directory = [] from rfl, hlook]
    simp [Host.findProgram, hcandidates, hexecutable, bind, Except.bind]
  refine ⟨hfound, ?_⟩
  have hfollowed : (linkedMachine tool).files.canonical (linkedMachine tool).directory
      (Path.ofString "/snap/gcloud") = .ok (pathOf (toolPlace tool)) := by
    simp [FileTree.canonical, show (linkedMachine tool).directory = [] from rfl, hresolve,
      hcanonical, bind, Except.bind]
  rw [gcloudOnPath, show Bytes.ofString "gcloud" = gcloudName from rfl, hfound]
  simp [followed, hfollowed]

theorem rootOnPath_linkedMachine {tool : String} (htool : tool ∈ ["gcloud", "multi"]) :
    rootOnPath (linkedMachine tool) = some (Path.ofString "/tools") := by
  have habove : ∀ tool ∈ ["gcloud", "multi"],
      rootAbove (pathOf (toolPlace tool)) = some (Path.ofString "/tools") := by decide
  rw [rootOnPath, (gcloudOnPath_linkedMachine htool).2, Option.bind_some, habove tool htool]

/-- The link leads to a file that is named `gcloud` as well. -/
theorem rootOnPath_holds_iff_linked :
    rootOnPath (linkedMachine "gcloud") = some (Path.ofString "/tools") ∧
      (linkedMachine "gcloud").files.resolve [] (Toolkit.atRoot (Path.ofString "/tools")).gcloud =
        .ok (toolPlace "gcloud") := by
  have hroot := rootOnPath_linkedMachine (show "gcloud" ∈ ["gcloud", "multi"] by simp)
  have hpath := (gcloudOnPath_linkedMachine (show "gcloud" ∈ ["gcloud", "multi"] by simp)).2
  have hresolve := (resolve_linkedMachine (show "gcloud" ∈ ["gcloud", "multi"] by simp)).2
  obtain ⟨found, program, file, -, hprogram, -, hfile, -, -, hholds⟩ :=
    rootOnPath_holds_iff (linkedMachine "gcloud") hroot
  cases hpath.symm.trans hprogram
  cases hresolve.symm.trans hfile
  exact ⟨hroot, hholds.mpr (.inl (by decide))⟩

/-- The link leads to a file that has another name, so that the root above it, which is preferred to
the SDK that is said to be there, holds no `gcloud` at all. -/
theorem rootOnPath_misses_other :
    (linkedMachine "multi").findProgram gcloudName = .ok (Path.ofString "/snap/gcloud") ∧
      (linkedMachine "multi").files.resolve [] (Path.ofString "/snap/gcloud") =
        .ok (toolPlace "multi") ∧
      rootOnPath (linkedMachine "multi") = some (Path.ofString "/tools") ∧
      (linkedMachine "multi").files.resolve [] (Toolkit.atRoot (Path.ofString "/tools")).gcloud =
        .error .notFound ∧
      firstDirectory (linkedMachine "multi") (hostCandidates (linkedMachine "multi")) =
        some (Path.ofString "/sdk") ∧
      discover (linkedMachine "multi") = .ok (.atRoot (Path.ofString "/tools")) := by
  have hroot := rootOnPath_linkedMachine (show "multi" ∈ ["gcloud", "multi"] by simp)
  refine ⟨(gcloudOnPath_linkedMachine (by simp)).1, (resolve_linkedMachine (by simp)).1, hroot, ?_,
    ?_, ?_⟩
  · obtain ⟨htop, -, -, -, htools, hbin, -⟩ := lead_linkedMachine "multi" (by simp)
    have hmissing : (linkedMachine "multi").files.lead [Bytes.ofString "tools", binName]
        gcloudName = .error .notFound := by decide
    have hparts : splitOn slash (Toolkit.atRoot (Path.ofString "/tools")).gcloud =
        [[], Bytes.ofString "tools", binName, gcloudName] := by decide
    have horigin : FileTree.origin [] (Toolkit.atRoot (Path.ofString "/tools")).gcloud = [] := by
      decide
    rw [FileTree.resolve_eq_walk (by decide) hparts, horigin]
    simp only [FileTree.walk_cons, htop, htools, hbin, hmissing]
  · have hcandidates : hostCandidates (linkedMachine "multi") =
        Path.ofString "/sdk" :: fixedRoots := by decide
    have hparts : splitOn slash (Path.ofString "/sdk") = [[], Bytes.ofString "sdk"] := by decide
    have hsdk : (linkedMachine "multi").files.lead [] (Bytes.ofString "sdk") =
        .ok (.place [Bytes.ofString "sdk"]) := by decide
    have hresolve : (linkedMachine "multi").files.resolve [] (Path.ofString "/sdk") =
        .ok [Bytes.ofString "sdk"] := by
      rw [FileTree.resolve_eq_walk (by decide) hparts]
      apply FileTree.walk_of_walks
      exact .step (lead_linkedMachine "multi" (by simp)).1 (.step hsdk (.done 40 _))
    have hlook : (linkedMachine "multi").files.look [] (Path.ofString "/sdk") = .ok .directory :=
      FileTree.look_eq_ok_iff.mpr ⟨_, hresolve, by decide⟩
    have hdirectory : (linkedMachine "multi").isDirectory (Path.ofString "/sdk") = true := by
      rw [Host.isDirectory, FileTree.isDirectory,
        show (linkedMachine "multi").directory = [] from rfl, hlook]
    rw [firstDirectory, hcandidates, List.find?_cons_of_pos hdirectory]
  · simp [discover, hroot]

end Sdk

end ToolRunner
