import ToolRunner.Proofs.Sdk.Forms
import ToolRunner.Sdk.Deploy

/-!
# What the tokens of a deployment tell

The options of a deployment have different flags, and none of their tokens can be taken for a path,
so a deployment is read back from its tokens as it was given: but for how a path was written that is
displayed in the same way, and for whether a text was empty or absent (`Deployment.toArgs_tells`).
-/

namespace ToolRunner.Sdk.Deployment

open ToolRunner.Sdk.Flag (Form looksLikeFlag)

/-- No path to deploy is displayed like a flag. -/
def Plain (d : Deployment) : Prop := ∀ p ∈ d.deployables, looksLikeFlag p.display = false

/-- What the tokens tell of a deployment: its paths as they are displayed, and no difference between
an empty text and none. -/
def told (d : Deployment) : Deployment where
  deployables := d.deployables.map fun p => Path.ofString p.display
  bucket := d.bucket.filter (· ≠ "")
  dockerBuild := d.dockerBuild.filter (· ≠ "")
  force := d.force
  imageUrl := d.imageUrl.filter (· ≠ "")
  promote := d.promote
  server := d.server.filter (· ≠ "")
  stopPreviousVersion := d.stopPreviousVersion
  version := d.version.filter (· ≠ "")
  project := d.project.filter (· ≠ "")

/-- The options, in the order in which they are written. -/
abbrev Options : Type :=
  Option String × Option String × Option Bool × Option String × Option Bool × Option String ×
    Option Bool × Option String × Option String

def options (d : Deployment) : Options :=
  (d.bucket, d.dockerBuild, d.force, d.imageUrl, d.promote, d.server, d.stopPreviousVersion,
    d.version, d.project)

def ofOptions (deployables : List Path) : Options → Deployment
  | (bucket, dockerBuild, force, imageUrl, promote, server, stop, version, project) =>
    { deployables, bucket, dockerBuild, force, imageUrl, promote, server,
      stopPreviousVersion := stop, version, project }

def form : Form Options :=
  (Form.text "bucket").and
    ((Form.text "docker-build").and
      ((Form.choice "force").and
        ((Form.text "image-url").and
          ((Form.choice "promote").and
            ((Form.text "server").and
              ((Form.choice "stop-previous-version").and
                ((Form.text "version").and (Form.text "project")
                  (by decide +kernel)) (by decide +kernel)) (by decide +kernel))
            (by decide +kernel)) (by decide +kernel)) (by decide +kernel)) (by decide +kernel))
    (by decide +kernel)

theorem looksLikeFlag_flags : ∀ flag ∈ form.flags, looksLikeFlag flag = true := by decide +kernel

/-- Reads a deployment back from its tokens. The options begin where a token looks like a flag. -/
def read (args : List String) : Deployment :=
  ofOptions ((args.tail.takeWhile (!looksLikeFlag ·)).map Path.ofString)
    (form.read (args.tail.dropWhile (!looksLikeFlag ·))).1

variable {d d' : Deployment}

theorem toArgs_eq (d : Deployment) :
    d.toArgs = "deploy" :: (d.deployables.map Path.display ++ form.write d.options) := by
  simp [toArgs, form, options, Form.and, Form.text, Form.choice]

theorem told_eq (d : Deployment) :
    d.told = ofOptions ((d.deployables.map Path.display).map Path.ofString)
      (form.told d.options) := by
  rw [List.map_map]
  rfl

theorem toArgs_congr (h : d.told = d'.told) : d.toArgs = d'.toArgs := by
  have hpaths : d.deployables.map Path.display = d'.deployables.map Path.display := by
    have hmap := congrArg deployables h
    rw [told_eq, told_eq] at hmap
    exact List.map_injective_iff.mpr (fun s t => Bytes.ofString_inj.mp) hmap
  have hoptions : form.write d.options = form.write d'.options :=
    form.write_eq_iff.mpr (congrArg options h)
  rw [toArgs_eq, toArgs_eq, hpaths, hoptions]

/-- The paths end where the first option begins. -/
theorem read_toArgs (h : d.Plain) : read d.toArgs = d.told := by
  have hpaths : ∀ arg ∈ d.deployables.map Path.display, looksLikeFlag arg = false := by
    intro arg harg
    obtain ⟨p, hp, rfl⟩ := List.mem_map.mp harg
    exact h p hp
  obtain ⟨htake, hdrop⟩ := form.span_write looksLikeFlag_flags d.options hpaths
  rw [toArgs_eq, told_eq, read, List.tail_cons, htake, hdrop, form.read_write_self]

/-- The tokens of a deployment tell its paths as they are displayed, each of its texts that is not
empty and each of its choices. -/
theorem toArgs_tells (h : d.Plain) (h' : d'.Plain) :
    read d.toArgs = d.told ∧ (d.toArgs = d'.toArgs ↔ d.told = d'.told) := by
  refine ⟨read_toArgs h, fun heq => ?_, toArgs_congr⟩
  rw [← read_toArgs h, heq, read_toArgs h']

/-- A bucket named like an option is no option, and an empty version is no version. -/
theorem toArgs_tells_bucket :
    let d : Deployment :=
      { deployables := [Path.ofString "app.yaml"], bucket := some "--promote",
        promote := some false }
    let d' : Deployment := { d with version := some "" }
    read d.toArgs = d.told ∧ (d.toArgs = d'.toArgs ↔ d.told = d'.told) :=
  toArgs_tells (by unfold Plain; decide +kernel) (by unfold Plain; decide +kernel)

end ToolRunner.Sdk.Deployment
