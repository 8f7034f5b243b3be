import Mathlib.Data.List.Basic
import ToolRunner.Proofs.Execution.Tracking
import ToolRunner.Proofs.Session.Starting

/-!
# The ledger of a tracker

The registrations that are in force with a tracker are those of the executions that are registered
with it at the moment, and those that were made by hand and are still held, each of them once
(`Ledger`). Whatever can become of a session keeps it so, as long as the numbers of registrations
have not come round to one that is still in force (`Session.Fresh`).
-/

namespace ToolRunner

namespace Tracker

variable {t : Tracker} {entries rest : List (UInt64 × Handle)}

/-- The number of the next registration is that of none in force. -/
def Fresh (t : Tracker) : Prop := ∀ entry ∈ t.active, entry.1 ≠ t.nextId

/-- The registrations in force are these, and their numbers are different. -/
structure Holds (t : Tracker) (entries : List (UInt64 × Handle)) : Prop where
  perm : t.active.Perm entries
  nodup : (entries.map (·.1)).Nodup

namespace Holds

theorem new : Tracker.new.Holds [] := ⟨.refl _, List.nodup_nil⟩

theorem of_perm (h : t.Holds entries) (perm : entries.Perm rest) : t.Holds rest :=
  ⟨h.perm.trans perm, ((perm.map _).nodup_iff).mp h.nodup⟩

theorem track (h : t.Holds entries) (fresh : t.Fresh) (handle : Handle) :
    (t.track handle).2.Holds ((t.nextId, handle) :: entries) := by
  have hactive : (t.untrack t.nextId).active = t.active :=
    List.filter_eq_self.mpr fun entry hentry => bne_iff_ne.mpr (fresh entry hentry)
  constructor
  · show (_ :: (t.untrack t.nextId).active).Perm _
    rw [hactive]
    exact h.perm.cons _
  · rw [List.map_cons, List.nodup_cons]
    refine ⟨fun hmem => ?_, h.nodup⟩
    obtain ⟨entry, hentry, heq⟩ := List.mem_map.mp hmem
    exact fresh entry (h.perm.mem_iff.mpr hentry) heq

theorem untrack {id : UInt64} {handle : Handle} (h : t.Holds ((id, handle) :: rest)) :
    (t.untrack id).Holds rest := by
  have hnodup := h.nodup
  rw [List.map_cons, List.nodup_cons] at hnodup
  refine ⟨?_, hnodup.2⟩
  have hperm := h.perm.filter fun entry => entry.1 != id
  have hrest : rest.filter (fun entry => entry.1 != id) = rest := by
    refine List.filter_eq_self.mpr fun entry hentry => bne_iff_ne.mpr ?_
    rintro rfl
    exact hnodup.1 (List.mem_map.mpr ⟨entry, hentry, rfl⟩)
  rw [List.filter_cons_of_neg (by simp), hrest] at hperm
  exact hperm

end Holds

end Tracker

/-- The entries in the tracker of a name that are kept there by guards. -/
def Guard.entriesIn (name : String) (guards : List (Guard × Handle)) : List (UInt64 × Handle) :=
  guards.filterMap fun held => if held.1.tracker = name then some (held.1.id, held.2) else none

namespace Guard

variable {name : String}

theorem entriesIn_cons_own (g : Guard) (h : Handle) (guards : List (Guard × Handle)) :
    entriesIn g.tracker ((g, h) :: guards) = (g.id, h) :: entriesIn g.tracker guards := by
  simp [entriesIn]

theorem entriesIn_cons_other {g : Guard} (hne : name ≠ g.tracker) (h : Handle)
    (guards : List (Guard × Handle)) :
    entriesIn name ((g, h) :: guards) = entriesIn name guards := by
  simp [entriesIn, Ne.symm hne]

end Guard

namespace Session

variable {s s' : Session} {guards : List (Guard × Handle)} {e e' : Execution} {h : Handle}
variable {m : Move} {name : String}

/-- The entries that executions have in the tracker of a name. -/
def entriesIn (name : String) (executions : List Execution) : List (UInt64 × Handle) :=
  executions.filterMap (·.entryIn name)

/-- No tracker is about to give a number that is still in use. -/
def Fresh (s : Session) : Prop := ∀ name, (s.trackers name).Fresh

/-- The executions are under way, and the trackers have the entries of these and of the guards that
are held. -/
structure Ledger (guards : List (Guard × Handle)) (s : Session) : Prop where
  runs : ∀ h e, s.execution? h = some e → ∃ r capacity pid program child,
    (Runner.execution r capacity h pid program child).Reaches e
  entries : ∀ name, (s.trackers name).Holds
    (entriesIn name s.executions ++ Guard.entriesIn name guards)

/-- The execution of a handle, those before it and those after it. -/
theorem executions_split (found : s.execution? h = some e) :
    ∃ before after, s.executions = before ++ e :: after ∧
      ∀ e', s.executions.set h e' = before ++ e' :: after := by
  obtain ⟨hlt, hget⟩ := List.getElem?_eq_some_iff.mp found
  have hset (e' : Execution) :
      s.executions.set h e' = s.executions.take h ++ e' :: s.executions.drop (h + 1) := by
    rw [List.set_eq_take_append_cons_drop, if_pos hlt]
  refine ⟨s.executions.take h, s.executions.drop (h + 1), ?_, hset⟩
  rw [← hset e, ← hget, List.set_getElem_self]

theorem trackers_setTracker_same (s : Session) (name : String) (t : Tracker) :
    (s.setTracker name t).trackers name = t := if_pos rfl

theorem trackers_setTracker_other {other : String} (hne : other ≠ name) (t : Tracker) :
    (s.setTracker name t).trackers other = s.trackers other := if_neg hne

theorem setTracker_self (s : Session) (name : String) :
    s.setTracker name (s.trackers name) = s := by
  have htrackers : (s.setTracker name (s.trackers name)).trackers = s.trackers := by
    funext other
    by_cases hne : other = name
    · rw [hne, trackers_setTracker_same]
    · exact trackers_setTracker_other hne _
  exact congrArg (fun trackers => { s with trackers := trackers }) htrackers

/-! ## The acts of the holder of the handles -/

/-- Destroys the handles of which something holds. -/
def destroying (p : Handle → Bool) (s : Session) : Session :=
  { s with executions := s.executions.mapIdx fun h e => if p h then e.destroy else e }

theorem execution?_destroying (p : Handle → Bool) (s : Session) (h : Handle) :
    (s.destroying p).execution? h =
      (s.execution? h).map fun e => if p h then e.destroy else e := by
  rw [execution?, destroying, List.getElem?_mapIdx]
  rfl

theorem destroy_eq (s : Session) (h : Handle) : s.destroy h = s.destroying (· == h) := by
  refine congrArg (fun executions => { s with executions := executions }) ?_
  refine List.ext_getElem? fun i => ?_
  rw [List.getElem?_modify, List.getElem?_mapIdx, Option.map_eq_map]
  by_cases hi : h = i
  · simp [hi]
  · simp [hi, Ne.symm hi]

theorem destroyAll_eq (s : Session) (name : String) :
    s.destroyAll name =
      (s.active name, s.destroying (s.trackers name).handles.contains) := by
  rw [destroyAll, active, Tracker.count, Tracker.handles, List.length_map]
  rfl

/-- What destroying a handle does not change is the same of all executions. -/
theorem map_destroying {α : Type} {f : Execution → α} (same : ∀ e, f e.destroy = f e)
    (p : Handle → Bool) (s : Session) :
    (s.destroying p).executions.map f = s.executions.map f := by
  refine List.ext_getElem? fun i => ?_
  rw [List.getElem?_map, List.getElem?_map, destroying, List.getElem?_mapIdx, Option.map_map]
  refine Option.map_congr fun e _ => ?_
  show f (if p i then e.destroy else e) = f e
  split
  · exact same e
  · rfl

theorem entriesIn_destroying (name : String) (p : Handle → Bool) (s : Session) :
    entriesIn name (s.destroying p).executions = entriesIn name s.executions := by
  have hmap (executions : List Execution) :
      entriesIn name executions = (executions.map (·.entryIn name)).filterMap id := by
    rw [List.filterMap_map]
    rfl
  rw [hmap, hmap, map_destroying fun _ => rfl]

/-- To destroy some handles and then some others is to destroy all of them. -/
theorem destroying_destroying (p q : Handle → Bool) (s : Session) :
    (s.destroying p).destroying q = s.destroying fun h => p h || q h := by
  refine congrArg (fun executions => { s with executions := executions }) ?_
  refine List.ext_getElem? fun i => ?_
  simp only [destroying, List.getElem?_mapIdx, Option.map_map]
  refine Option.map_congr fun e _ => ?_
  show (if q i then (if p i then e.destroy else e).destroy else if p i then e.destroy else e) =
    if p i || q i then e.destroy else e
  cases p i <;> cases q i <;> rfl

/-- All registered handles are destroyed as if one after another. -/
theorem foldl_destroy (s : Session) (handles : List Handle) :
    handles.foldl destroy s = s.destroying handles.contains := by
  induction handles generalizing s with
  | nil =>
    refine congrArg (fun executions => { s with executions := executions }) ?_
    exact (List.ext_getElem? fun i => by simp).symm
  | cons h handles ih =>
    rw [List.foldl_cons, ih, destroy_eq, destroying_destroying]
    rfl

/-- Each tracker that has the entries of some guards, among others, has that of a new guard too. -/
theorem holds_track (others : String → List (UInt64 × Handle))
    (holds : ∀ name, (s.trackers name).Holds (others name ++ Guard.entriesIn name guards))
    (fresh : (s.trackers name).Fresh) (h : Handle) (other : String) :
    ((s.track name h).2.trackers other).Holds
      (others other ++ Guard.entriesIn other (((s.track name h).1, h) :: guards)) := by
  show ((s.setTracker name ((s.trackers name).track h).2).trackers other).Holds _
  have hentries := holds other
  by_cases hother : other = name
  · subst hother
    rw [trackers_setTracker_same]
    exact Guard.entriesIn_cons_own (s.track other h).1 h guards ▸
      (hentries.track fresh h).of_perm List.perm_middle.symm
  · rw [trackers_setTracker_other hother, Guard.entriesIn_cons_other hother]
    exact hentries

theorem holds_release (others : String → List (UInt64 × Handle)) {g : Guard}
    (holds : ∀ name,
      (s.trackers name).Holds (others name ++ Guard.entriesIn name ((g, h) :: guards)))
    (other : String) :
    ((s.release g).trackers other).Holds (others other ++ Guard.entriesIn other guards) := by
  show ((s.setTracker g.tracker ((s.trackers g.tracker).untrack g.id)).trackers other).Holds _
  have hentries := holds other
  by_cases hother : other = g.tracker
  · subst hother
    rw [Guard.entriesIn_cons_own] at hentries
    rw [trackers_setTracker_same]
    exact (hentries.of_perm List.perm_middle).untrack
  · rw [Guard.entriesIn_cons_other hother] at hentries
    rw [trackers_setTracker_other hother]
    exact hentries

namespace Ledger

theorem empty : Ledger [] .empty where
  runs h e found := by
    rw [execution?] at found
    cases found
  entries _ := Tracker.Holds.new

theorem destroying (hl : Ledger guards s) (p : Handle → Bool) : Ledger guards (s.destroying p) where
  runs h e found := by
    rw [execution?_destroying, Option.map_eq_some_iff] at found
    obtain ⟨before, hbefore, rfl⟩ := found
    obtain ⟨r, capacity, pid, program, child, hreaches⟩ := hl.runs h before hbefore
    refine ⟨r, capacity, pid, program, child, ?_⟩
    split
    · exact hreaches.move (m := .destroy) (t := .new) rfl
    · exact hreaches
  entries name := by
    rw [entriesIn_destroying]
    exact hl.entries name

/-- An execution is begun without an entry. -/
theorem begun (hl : Ledger guards s) {spawn : Spawn} {r : Runner} {c : Command}
    (begins : s.begin spawn r c = (.ok h, s')) : Ledger guards s' := by
  obtain ⟨child, -, -, -, rfl⟩ := begin_cases begins
  constructor
  · intro i e found
    rw [execution?] at found
    by_cases hi : i < s.executions.length
    · rw [List.getElem?_append_left hi] at found
      exact hl.runs i e found
    · rw [List.getElem?_append_right (Nat.le_of_not_lt hi), List.getElem?_singleton] at found
      split at found
      · injection found with found
        have hlast : i = s.executions.length :=
          Nat.le_antisymm (Nat.sub_eq_zero_iff_le.mp ‹_›) (Nat.le_of_not_lt hi)
        subst hlast found
        exact ⟨r, .standard, pidOf s.executions.length, c.programText, _, .refl⟩
      · contradiction
  · intro name
    have hnone : entriesIn name [s.beginning r c child] = [] := by
      simp [entriesIn, Execution.entryIn, Execution.ownEntry, beginning, Runner.execution]
    rw [entriesIn, List.filterMap_append, ← entriesIn, ← entriesIn, hnone, List.append_nil]
    exact hl.entries name

/-- An execution has one entry more, in front of which it may be thought to stand. -/
theorem insert_perm (before after held : List (UInt64 × Handle)) (entry : UInt64 × Handle) :
    (entry :: (before ++ after ++ held)).Perm (before ++ entry :: after ++ held) := by
  have hmiddle : (before ++ entry :: (after ++ held)).Perm (entry :: (before ++ (after ++ held))) :=
    List.perm_middle
  rw [List.append_assoc, List.append_assoc]
  exact hmiddle.symm

theorem moved (hl : Ledger guards s) (fresh : s.Fresh) (moves : s.move h m = some s') :
    Ledger guards s' := by
  obtain ⟨e, t', e', found, step, rfl⟩ := move_cases moves
  obtain ⟨r, capacity, pid, program, child, hreaches⟩ := hl.runs h e found
  obtain ⟨hlt, -⟩ := List.getElem?_eq_some_iff.mp found
  obtain ⟨before, after, hbefore, hafter⟩ := executions_split found
  constructor
  · intro i e₁ found₁
    by_cases hi : i = h
    · subst hi
      rw [execution?, List.getElem?_set_self hlt] at found₁
      injection found₁ with found₁
      subst found₁
      exact ⟨r, capacity, pid, program, child, hreaches.move step⟩
    · rw [execution?, List.getElem?_set_ne (Ne.symm hi)] at found₁
      exact hl.runs i e₁ found₁
  · intro name
    have hentries := hl.entries name
    have hother {own : String} (htracker : e.tracker = some own) : trackerName e = own := by
      rw [trackerName, htracker]
      rfl
    rw [hbefore] at hentries
    show ((s.setTracker (trackerName e) t').trackers name).Holds
      (entriesIn name (s.executions.set h e') ++ _)
    rw [hafter]
    simp only [entriesIn, List.filterMap_append, List.filterMap_cons] at hentries ⊢
    -- Only the entry of the execution that moves can differ, in the tracker that it moves with.
    cases hreaches.enrolled.posting (hreaches.wired.books step) with
    | same e' same spawned =>
      rw [setTracker_self, same name]
      exact hentries
    | added own e' tracker at_ spawned none added =>
      rw [none name] at hentries
      rw [added name, hother tracker]
      by_cases hname : own = name
      · subst hname
        rw [trackers_setTracker_same, if_pos rfl]
        exact (hentries.track (fresh own) h).of_perm (insert_perm _ _ _ _)
      · rw [trackers_setTracker_other (Ne.symm hname), if_neg hname]
        exact hentries
    | removed own id e' tracker spawned removed none =>
      rw [removed name] at hentries
      rw [none name, hother tracker]
      by_cases hname : own = name
      · subst hname
        rw [if_pos rfl] at hentries
        rw [trackers_setTracker_same]
        exact (hentries.of_perm (insert_perm _ _ _ _).symm).untrack
      · rw [if_neg hname] at hentries
        rw [trackers_setTracker_other (Ne.symm hname)]
        exact hentries

theorem tracked (hl : Ledger guards s) (fresh : s.Fresh) (name : String) (h : Handle) :
    Ledger (((s.track name h).1, h) :: guards) (s.track name h).2 where
  runs := hl.runs
  entries := holds_track _ hl.entries (fresh name) h

theorem released (hl : Ledger guards s) {g : Guard} (held : (g, h) ∈ guards) :
    Ledger (guards.erase (g, h)) (s.release g) where
  runs := hl.runs
  entries := by
    have hperm : guards.Perm ((g, h) :: guards.erase (g, h)) := List.perm_cons_erase held
    exact holds_release _ fun other =>
      (hl.entries other).of_perm ((hperm.filterMap _).append_left _)

end Ledger

end Session

end ToolRunner
