import ToolRunner.FileTree
import ToolRunner.Proofs.Path.Parts

/-!
# Walking a path

A walk goes part by part, and each part leads to a place or to a link that the walk follows. A walk
that arrives is a derivation in `Walks`, which also says how many links it left unfollowed, so that
walks can be put together and taken apart. The places they arrive at have the names of directories
on their way (`Reached`), whatever links were followed to get there.
-/

namespace ToolRunner.FileTree

open Bytes (splitOn)
open ToolRunner.Path (isVoid AllVoid slash)

/-- What a part leads to. -/
inductive Lead where
  | place (next : Place)
  /-- A link, which is walked from the directory that holds it. -/
  | link (target : Path)
deriving DecidableEq

/-- What one part of a path leads to. -/
def lead (t : FileTree) (place : Place) (part : Bytes) : Except OsError Lead :=
  match t.entry? place with
  | none => .error .notFound
  | some .directory =>
    if isVoid part then .ok (.place place)
    else if part = Path.dotdot then .ok (.place place.dropLast)
    else if nameLimit < part.length then .error .nameTooLong
    else
      match t.entry? (place ++ [part]) with
      | none => .error .notFound
      | some (.link target) => .ok (.link target)
      | some _ => .ok (.place (place ++ [part]))
  | some (.closed true) => if part = [] then .ok (.place place) else .error .permissionDenied
  | some _ => .error .notADirectory

/-- The directory from which a path is walked. -/
def origin (cwd : Place) (p : Path) : Place :=
  if Path.isAbsolute p then [] else cwd

/-- The walks that arrive. The last number is how many links could still have been followed. -/
inductive Walks (t : FileTree) : Nat → Place → List Bytes → Place → Nat → Prop where
  | done (links : Nat) (place : Place) : t.Walks links place [] place links
  | step {links left : Nat} {place next out : Place} {part : Bytes} {rest : List Bytes} :
      t.lead place part = .ok (.place next) → t.Walks links next rest out left →
      t.Walks links place (part :: rest) out left
  | follow {links left : Nat} {place out : Place} {part : Bytes} {rest : List Bytes}
      {target : Path} :
      t.lead place part = .ok (.link target) →
      t.Walks links (origin place target) (splitOn slash target ++ rest) out left →
      t.Walks (links + 1) place (part :: rest) out left

variable {t : FileTree} {cwd place mid out next : Place} {p target : Path} {part name : Bytes}
  {parts rest voids : List Bytes} {links left m : Nat}

theorem walk_cons (t : FileTree) (links : Nat) (place : Place) (part : Bytes)
    (rest : List Bytes) :
    t.walk true links place (part :: rest) =
      match t.lead place part with
      | .error e => .error e
      | .ok (.place next) => t.walk true links next rest
      | .ok (.link target) =>
        match links with
        | 0 => .error .tooManyLinks
        | links + 1 => t.walk true links (origin place target) (splitOn slash target ++ rest) := by
  rw [walk, lead]
  cases hentry : t.entry? place with
  | none => rfl
  | some e =>
    cases e with
    | file _ _ | link _ => rfl
    | closed isDirectory =>
      cases isDirectory with
      | false => rfl
      | true => by_cases hpart : part = [] <;> simp [hpart]
    | directory =>
      by_cases hvoid : isVoid part
      · simp [hvoid]
      by_cases hup : part = Path.dotdot
      · subst hup
        simp [hvoid]
      by_cases hlong : nameLimit < part.length
      · simp [hvoid, hup, hlong]
      simp only [hvoid, hup, hlong, Bool.false_eq_true, ↓reduceIte, Bool.not_true, Bool.and_false]
      cases hchild : t.entry? (place ++ [part]) with
      | none => rfl
      | some e => cases e <;> cases links <;> rfl

theorem walk_of_walks (h : t.Walks links place parts out left) :
    t.walk true links place parts = .ok out := by
  induction h with
  | done => rw [walk]
  | step hlead _ ih =>
    rw [walk_cons, hlead]
    exact ih
  | follow hlead _ ih =>
    rw [walk_cons, hlead]
    exact ih

/-- The recursion of a walk is on the links that may be followed, and on the parts between them. -/
theorem walks_of_walk (h : t.walk true links place parts = .ok out) :
    ∃ left, t.Walks links place parts out left := by
  induction links using Nat.strong_induction_on generalizing place parts with
  | h links ihLinks =>
    induction parts generalizing place with
    | nil =>
      rw [walk] at h
      cases h
      exact ⟨links, .done links _⟩
    | cons part rest ih =>
      rw [walk_cons] at h
      cases hlead : t.lead place part with
      | error e => simp [hlead] at h
      | ok found =>
        cases found with
        | place next =>
          simp only [hlead] at h
          obtain ⟨left, hrest⟩ := ih h
          exact ⟨left, .step hlead hrest⟩
        | link target =>
          cases links with
          | zero => simp [hlead] at h
          | succ links =>
            simp only [hlead] at h
            obtain ⟨left, hrest⟩ := ihLinks links (Nat.lt_succ_self links) h
            exact ⟨left, .follow hlead hrest⟩

theorem walk_eq_ok_iff :
    t.walk true links place parts = .ok out ↔ ∃ left, t.Walks links place parts out left :=
  ⟨walks_of_walk, fun ⟨_, h⟩ => walk_of_walks h⟩

/-- A path that the system can be given is walked. -/
theorem resolve_eq_walk (hp : 0 ∉ p ∧ p ≠ [] ∧ p.length < pathLimit)
    (hparts : splitOn slash p = parts) :
    t.resolve cwd p = t.walk true linkLimit (origin cwd p) parts := by
  obtain ⟨hnul, hempty, hlong⟩ := hp
  simp [resolve, origin, hnul, hempty, Nat.not_le.mpr hlong, hparts]

theorem resolve_eq_ok_iff : t.resolve cwd p = .ok out ↔
    0 ∉ p ∧ p ≠ [] ∧ p.length < pathLimit ∧
      ∃ left, t.Walks linkLimit (origin cwd p) (splitOn slash p) out left := by
  rw [← walk_eq_ok_iff]
  by_cases hnul : 0 ∈ p
  · simp [resolve, hnul]
  by_cases hempty : p = []
  · simp [resolve, hempty]
  by_cases hlong : pathLimit ≤ p.length
  · simp [resolve, hnul, hempty, hlong, Nat.not_lt.mpr hlong]
  · have hp : 0 ∉ p ∧ p ≠ [] ∧ p.length < pathLimit :=
      ⟨hnul, hempty, Nat.lt_of_not_le hlong⟩
    simp [resolve_eq_walk hp rfl, hp]

theorem look_eq_ok_iff {e : Entry} :
    t.look cwd p = .ok e ↔ ∃ place, t.resolve cwd p = .ok place ∧ t.entry? place = some e := by
  simp only [look, bind, Except.bind]
  cases t.resolve cwd p with
  | error _ => simp
  | ok place => cases hentry : t.entry? place <;> simp [hentry]

/-! ## Parts of walks -/

namespace Walks

theorem append (h : t.Walks links place parts mid m) (h' : t.Walks m mid rest out left) :
    t.Walks links place (parts ++ rest) out left := by
  induction h with
  | done => exact h'
  | step hlead _ ih => exact .step hlead (ih h')
  | follow hlead _ ih =>
    have hrest := ih h'
    rw [List.append_assoc] at hrest
    exact .follow hlead hrest

theorem of_append (h : t.Walks links place (parts ++ rest) out left) :
    ∃ mid m, t.Walks links place parts mid m ∧ t.Walks m mid rest out left := by
  generalize hall : parts ++ rest = all at h
  induction h generalizing parts with
  | done links place =>
    obtain ⟨rfl, rfl⟩ := List.append_eq_nil_iff.mp hall
    exact ⟨place, links, .done links place, .done links place⟩
  | @step links left place next out part others hlead hrest ih =>
    cases parts with
    | nil =>
      cases hall
      exact ⟨place, links, .done links place, .step hlead hrest⟩
    | cons first parts =>
      cases hall
      obtain ⟨mid, m, hparts, hafter⟩ := ih rfl
      exact ⟨mid, m, .step hlead hparts, hafter⟩
  | @follow links left place out part others target hlead hrest ih =>
    cases parts with
    | nil =>
      cases hall
      exact ⟨place, links + 1, .done _ place, .follow hlead hrest⟩
    | cons first parts =>
      cases hall
      obtain ⟨mid, m, hparts, hafter⟩ := ih (List.append_assoc ..)
      exact ⟨mid, m, .follow hlead hparts, hafter⟩

theorem append_iff : t.Walks links place (parts ++ rest) out left ↔
    ∃ mid m, t.Walks links place parts mid m ∧ t.Walks m mid rest out left :=
  ⟨of_append, fun ⟨_, _, h, h'⟩ => h.append h'⟩

theorem unique (h : t.Walks links place parts out left) {out' : Place} {left' : Nat}
    (h' : t.Walks links place parts out' left') : out' = out ∧ left' = left := by
  induction h with
  | done =>
    cases h'
    exact ⟨rfl, rfl⟩
  | step hlead _ ih =>
    cases h' with
    | step hlead' hrest =>
      cases hlead.symm.trans hlead'
      exact ih hrest
    | follow hlead' _ => cases hlead.symm.trans hlead'
  | follow hlead _ ih =>
    cases h' with
    | step hlead' _ => cases hlead.symm.trans hlead'
    | follow hlead' hrest =>
      cases hlead.symm.trans hlead'
      exact ih hrest

/-- A walk goes on from where its first parts lead. -/
theorem goes_on_iff (h : t.Walks links place parts mid m) :
    t.Walks links place (parts ++ rest) out left ↔ t.Walks m mid rest out left := by
  constructor
  · intro hall
    obtain ⟨mid', m', hparts, hrest⟩ := hall.of_append
    obtain ⟨rfl, rfl⟩ := h.unique hparts
    exact hrest
  · exact h.append

/-- A walk that may follow more links goes the same way. -/
theorem more (h : t.Walks links place parts out left) (extra : Nat) :
    t.Walks (links + extra) place parts out (left + extra) := by
  induction h with
  | done links place => exact .done _ _
  | step hlead _ ih => exact .step hlead ih
  | follow hlead _ ih =>
    rw [Nat.add_right_comm]
    exact .follow hlead ih

theorem left_le (h : t.Walks links place parts out left) : left ≤ links := by
  induction h with
  | done => exact Nat.le_refl _
  | step _ _ ih => exact ih
  | follow _ _ ih => exact Nat.le_succ_of_le ih

end Walks

/-! ## Single parts -/

theorem lead_void (h : t.entry? place = some .directory) (hvoid : isVoid part) :
    t.lead place part = .ok (.place place) := by
  simp [lead, h, hvoid]

theorem lead_void_eq {found : Lead} (h : t.lead place part = .ok found) (hvoid : isVoid part) :
    found = .place place := by
  unfold lead at h
  split at h
  · cases h
  · rw [if_pos hvoid] at h
    cases h
    rfl
  · split at h <;> cases h
    rfl
  · cases h

/-- Names are looked up in directories only. -/
theorem directory_of_lead {found : Lead} (h : t.lead place part = .ok found) (hpart : part ≠ []) :
    t.entry? place = some .directory := by
  unfold lead at h
  split at h
  · cases h
  · assumption
  · rw [if_neg hpart] at h
    cases h
  · cases h

theorem Walks.directory (h : t.Walks links place (part :: rest) out left) (hpart : part ≠ []) :
    t.entry? place = some .directory := by
  cases h with
  | step hlead _ => exact directory_of_lead hlead hpart
  | follow hlead _ => exact directory_of_lead hlead hpart

/-- Void parts before a name change nothing. -/
theorem walks_void_iff (hvoids : AllVoid voids) (hpart : part ≠ []) :
    t.Walks links place (voids ++ part :: rest) out left ↔
      t.Walks links place (part :: rest) out left := by
  induction voids with
  | nil => rfl
  | cons void voids ih =>
    obtain ⟨hvoid, hvoids⟩ := List.forall_mem_cons.mp hvoids
    rw [← ih hvoids]
    constructor
    · intro h
      cases h with
      | step hlead hrest =>
        cases lead_void_eq hlead hvoid
        exact hrest
      | follow hlead hrest => cases lead_void_eq hlead hvoid
    · intro h
      have hplace := ((ih hvoids).mp h).directory hpart
      exact .step (lead_void hplace hvoid) h

/-- Void parts lead nowhere. -/
theorem walks_void (hvoids : AllVoid voids) (h : t.Walks links place voids out left) :
    out = place ∧ left = links := by
  induction voids generalizing links place with
  | nil =>
    cases h
    exact ⟨rfl, rfl⟩
  | cons void voids ih =>
    obtain ⟨hvoid, hvoids⟩ := List.forall_mem_cons.mp hvoids
    cases h with
    | step hlead hrest =>
      cases lead_void_eq hlead hvoid
      exact ih hvoids hrest
    | follow hlead _ => cases lead_void_eq hlead hvoid

theorem Walks.of_void_end (h : t.Walks links place (parts ++ voids) out left)
    (hvoids : AllVoid voids) : t.Walks links place parts out left := by
  obtain ⟨mid, m, hparts, hend⟩ := h.of_append
  obtain ⟨rfl, rfl⟩ := walks_void hvoids hend
  exact hparts

/-- Void parts between others change nothing. -/
theorem walks_void_between_iff (hvoids : AllVoid voids) (hpart : part ≠ []) :
    t.Walks links place (parts ++ (voids ++ part :: rest)) out left ↔
      t.Walks links place (parts ++ part :: rest) out left := by
  simp only [Walks.append_iff, walks_void_iff hvoids hpart]

/-! ## Joined paths -/

theorem resolve_absolute (h : Path.isAbsolute p) (cwd' : Place) :
    t.resolve cwd p = t.resolve cwd' p := by
  simp only [resolve, h, ↓reduceIte]

/-- What a joined path leads to is seen from the directory that its first half leads to. -/
theorem resolve_join {q : Path} (hp : p ≠ []) (hq : q ≠ []) (hrelative : Path.isAbsolute q = false)
    (h : t.resolve cwd (Path.join p q) = .ok out) :
    ∃ d, t.resolve cwd p = .ok d ∧ t.entry? d = some .directory ∧ t.resolve d q = .ok out := by
  obtain ⟨hnul, -, hlong, left, hwalks⟩ := resolve_eq_ok_iff.mp h
  have hparts : ∃ more, Path.join p q = p ++ more ∧ ∃ before, more = before ++ q := by
    rcases Path.join_eq_append hp hrelative with hjoin | hjoin
    · exact ⟨q, hjoin, [], rfl⟩
    · exact ⟨slash :: q, hjoin, [slash], rfl⟩
  obtain ⟨_, hjoin, before, rfl⟩ := hparts
  simp only [hjoin, List.mem_append, not_or, List.length_append] at hnul hlong
  have horigin : origin cwd (Path.join p q) = origin cwd p := by
    simp only [origin, Path.isAbsolute_join hrelative]
  rw [Path.splitOn_join hrelative, horigin] at hwalks
  obtain ⟨d, m, hbelow, hafter⟩ := hwalks.of_append
  have hd : t.entry? d = some .directory := by
    obtain ⟨first, rest, hfirst, hne⟩ := Path.exists_first_part hq hrelative
    rw [hfirst] at hafter
    exact hafter.directory hne
  have hall : t.Walks linkLimit (origin cwd p) (splitOn slash p) d m := by
    rcases Path.splitOn_eq_below p with hsplit | hsplit
    · rw [hsplit]
      exact hbelow
    · rw [hsplit]
      exact hbelow.append (.step (lead_void hd rfl) (.done m d))
  refine ⟨d, ?_, hd, ?_⟩
  · exact resolve_eq_ok_iff.mpr ⟨hnul.1, hp, by omega, m, hall⟩
  · have hmore := hafter.more (linkLimit - m)
    rw [Nat.add_sub_cancel' hbelow.left_le] at hmore
    have hfrom : origin d q = d := by simp [origin, hrelative]
    exact resolve_eq_ok_iff.mpr ⟨hnul.2.2, hq, by omega, _, by rw [hfrom]; exact hmore⟩

end ToolRunner.FileTree
