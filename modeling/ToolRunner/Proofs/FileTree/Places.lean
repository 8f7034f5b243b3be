import ToolRunner.Proofs.FileTree.Walking

/-!
# The places of walks

A walk that begins at the root, or at a place that was walked to, stays among places whose names
are those of entries and above which there are directories. So the path of such a place leads
there, and the names of its directories lead from the root to the directory that holds it.
-/

namespace ToolRunner.FileTree

open Bytes (splitOn joinWith)
open ToolRunner.Path (isVoid slash)

/-- A name that an entry can have. -/
structure Proper (name : Bytes) : Prop where
  slash : slash ∉ name
  void : isVoid name = false
  up : name ≠ Path.dotdot
  short : name.length ≤ nameLimit

/-- A place below directories. -/
structure Reached (t : FileTree) (place : Place) : Prop where
  names : ∀ name ∈ place, Proper name
  above : ∀ above name more, place = above ++ name :: more → t.entry? above = some .directory

variable {t : FileTree} {cwd place out next : Place} {p target : Path} {part name : Bytes}
  {parts : List Bytes} {links left : Nat}

theorem lead_proper (h : t.entry? place = some .directory) (hpart : Proper part) :
    t.lead place part =
      match t.entry? (place ++ [part]) with
      | none => .error .notFound
      | some (.link target) => .ok (.link target)
      | some _ => .ok (.place (place ++ [part])) := by
  have hlong : ¬ nameLimit < part.length := Nat.not_lt.mpr hpart.short
  cases hentry : t.entry? (place ++ [part]) with
  | none => simp [lead, h, hpart.void, hpart.up, hlong, hentry]
  | some e => cases e <;> simp [lead, h, hpart.void, hpart.up, hlong, hentry]

/-- A name leads to the entry that has it, or along the link that it is. -/
theorem walks_proper_iff (h : t.entry? place = some .directory) (hname : Proper name) :
    t.Walks (links + 1) place [name] out left ↔
      (out = place ++ [name] ∧ left = links + 1 ∧
          ∃ e, t.entry? out = some e ∧ ∀ target, e ≠ .link target) ∨
        ∃ target, t.entry? (place ++ [name]) = some (.link target) ∧
          t.Walks links (origin place target) (splitOn slash target) out left := by
  constructor
  · intro hwalks
    cases hwalks with
    | step hstep hrest =>
      cases hrest
      rw [lead_proper h hname] at hstep
      split at hstep
      · cases hstep
      · cases hstep
      · rename_i e hlink hentry
        cases hstep
        exact .inl ⟨rfl, rfl, e, hentry, fun target he => hlink target he⟩
    | follow hstep hrest =>
      rw [lead_proper h hname] at hstep
      split at hstep <;> cases hstep
      rw [List.append_nil] at hrest
      exact .inr ⟨_, ‹_›, hrest⟩
  · rintro (⟨rfl, rfl, e, hentry, hlink⟩ | ⟨target, hentry, hrest⟩)
    · refine .step ?_ (.done _ _)
      rw [lead_proper h hname, hentry]
      cases e with
      | link target => exact absurd rfl (hlink target)
      | directory | file _ _ | closed _ => rfl
    · rw [← List.append_nil (splitOn slash target)] at hrest
      refine .follow ?_ hrest
      rw [lead_proper h hname, hentry]

/-- A part leads to the same place, to the one above it, or to an entry of it. -/
theorem lead_cases (h : t.lead place part = .ok (.place next)) (hpart : slash ∉ part) :
    next = place ∨ next = place.dropLast ∨
      (next = place ++ [part] ∧ t.entry? place = some .directory ∧ Proper part) := by
  by_cases hvoid : isVoid part
  · left
    injection lead_void_eq h hvoid
  · right
    have hplace := directory_of_lead h (by rintro rfl; exact hvoid rfl)
    simp only [lead, hplace, if_neg hvoid] at h
    split at h
    · cases h
      exact .inl rfl
    · rename_i hup
      split at h
      · cases h
      · rename_i hlong
        have hproper : Proper part := ⟨hpart, by simpa using hvoid, hup, Nat.le_of_not_lt hlong⟩
        split at h <;> cases h
        exact .inr ⟨rfl, hplace, hproper⟩

namespace Reached

theorem root : t.Reached [] where
  names := nofun
  above := by simp

theorem concat (h : t.Reached place) (hplace : t.entry? place = some .directory)
    (hname : Proper name) : t.Reached (place ++ [name]) where
  names := List.forall_mem_append.mpr ⟨h.names, List.forall_mem_singleton.mpr hname⟩
  above := by
    intro above other more hall
    rcases more.eq_nil_or_concat with rfl | ⟨more, last, rfl⟩
    · obtain ⟨rfl, -⟩ := List.append_inj' hall rfl
      exact hplace
    · rw [List.concat_eq_append, ← List.cons_append, ← List.append_assoc] at hall
      obtain ⟨hrest, -⟩ := List.append_inj' hall rfl
      exact h.above above other more hrest

theorem dropLast (h : t.Reached place) : t.Reached place.dropLast where
  names := fun name hname => h.names name (List.dropLast_subset place hname)
  above := by
    intro above name more hall
    rcases place.eq_nil_or_concat with rfl | ⟨init, last, rfl⟩
    · simp at hall
    · rw [List.concat_eq_append, List.dropLast_concat] at hall
      refine h.above above name (more ++ [last]) ?_
      rw [List.concat_eq_append, hall, List.append_assoc, List.cons_append]

theorem lead (h : t.Reached place) (hlead : t.lead place part = .ok (.place next))
    (hpart : slash ∉ part) : t.Reached next := by
  rcases lead_cases hlead hpart with rfl | rfl | ⟨rfl, hplace, hproper⟩
  · exact h
  · exact h.dropLast
  · exact h.concat hplace hproper

theorem origin (h : t.Reached place) : t.Reached (origin place p) := by
  unfold FileTree.origin
  split
  · exact root
  · exact h

theorem walks (h : t.Walks links place parts out left) (hplace : t.Reached place)
    (hparts : ∀ part ∈ parts, slash ∉ part) : t.Reached out := by
  induction h with
  | done => exact hplace
  | step hlead _ ih =>
    obtain ⟨hpart, hrest⟩ := List.forall_mem_cons.mp hparts
    exact ih (hplace.lead hlead hpart) hrest
  | follow _ _ ih =>
    obtain ⟨-, hrest⟩ := List.forall_mem_cons.mp hparts
    refine ih hplace.origin (List.forall_mem_append.mpr ⟨?_, hrest⟩)
    exact fun _ => Bytes.not_mem_of_mem_splitOn

/-- The names of the directories above a place lead from the root to the lowest of them. -/
theorem walks_above (h : t.Reached (place ++ [name])) (links : Nat) :
    t.Walks links [] place place links := by
  induction place using List.reverseRecOn generalizing name with
  | nil => exact .done links []
  | append_singleton place last ih =>
    have habove : t.Reached (place ++ [last]) := by simpa using h.dropLast
    have hplace : t.entry? place = some .directory := habove.above place last [] rfl
    have hlast : t.entry? (place ++ [last]) = some .directory := h.above _ name [] rfl
    have hlead : t.lead place last = .ok (.place (place ++ [last])) := by
      rw [lead_proper hplace (habove.names last (by simp)), hlast]
    exact (ih habove).append (.step hlead (.done links _))

end Reached

/-! ## The paths of places -/

theorem pathOf_eq_joinWith (h : place ≠ []) : pathOf place = joinWith [slash] ([] :: place) := by
  have hjoin : ∀ (name : Bytes) (names : List Bytes),
      Path.ofComponents ((name :: names).map .name) = joinWith [slash] (name :: names) := by
    intro name names
    induction names generalizing name with
    | nil => simp [Path.ofComponents, Path.ofComponents.separated, joinWith]
    | cons next names ih =>
      rw [Bytes.joinWith_cons _ _ (by simp), ← ih next]
      simp [Path.ofComponents, Path.ofComponents.separated]
  obtain ⟨name, names, rfl⟩ := List.exists_cons_of_ne_nil h
  rw [pathOf, Path.ofComponents, hjoin, Bytes.joinWith_cons [slash] [] h]
  rfl

theorem Reached.splitOn_pathOf (h : t.Reached place) (hne : place ≠ []) :
    splitOn slash (pathOf place) = [] :: place := by
  rw [pathOf_eq_joinWith hne, Bytes.splitOn_joinWith (by simp)]
  intro part hpart
  rcases List.mem_cons.mp hpart with rfl | hpart
  · simp
  · exact (h.names part hpart).slash

end ToolRunner.FileTree
