import Mathlib.Algebra.GroupWithZero.Nat
import Mathlib.Data.List.Induction
import Mathlib.Data.List.Nodup
import Mathlib.Data.List.ReduceOption
import ToolRunner.Proofs.Session.Tracking

/-!
# Registering by hand

A program registers handles with its trackers, drops the guards that it was given, and destroys
handles one by one or all that a tracker knows, in any order. The registrations of a tracker are
then those of the guards that were not dropped, each under a number of its own (`Sound`), and so a
handle is destroyed exactly if it was destroyed itself or registered when a tracker destroyed all
that it knew (`Registry.after_faithful`).
-/

namespace ToolRunner

/-- What is the case at some place of a list with one element more is the case at a place of the
list, or at its end. -/
theorem exists_split_concat {α : Type} {P : List α → α → Prop} (l : List α) (a : α) :
    (∃ earlier b later, l ++ [a] = earlier ++ b :: later ∧ P earlier b) ↔
      (∃ earlier b later, l = earlier ++ b :: later ∧ P earlier b) ∨ P l a := by
  constructor
  · rintro ⟨earlier, b, later, heq, hb⟩
    rcases List.eq_nil_or_concat later with rfl | ⟨later, c, rfl⟩
    · obtain ⟨rfl, ha⟩ := List.append_inj' heq rfl
      obtain rfl : a = b := List.singleton_inj.mp ha
      exact .inr hb
    · rw [List.concat_eq_append, ← List.cons_append, ← List.append_assoc] at heq
      obtain ⟨rfl, -⟩ := List.append_inj' heq rfl
      exact .inl ⟨earlier, b, later, rfl, hb⟩
  · rintro (⟨earlier, b, later, rfl, hb⟩ | ha)
    · exact ⟨earlier, b, later ++ [a], by simp, hb⟩
    · exact ⟨l, a, [], rfl, ha⟩

/-- To end a registration is to take its entry out. -/
theorem Tracker.Holds.untrack_of_mem {t : Tracker} {entries : List (UInt64 × Handle)} {id : UInt64}
    {handle : Handle} (h : t.Holds entries) (hmem : (id, handle) ∈ entries) :
    ∃ before after, t.active = before ++ (id, handle) :: after ∧
      t.untrack id = { t with active := before ++ after } := by
  obtain ⟨before, after, hactive⟩ := List.append_of_mem (h.perm.mem_iff.mpr hmem)
  have hnodup : (t.active.map (·.1)).Nodup := (h.perm.map _).nodup_iff.mpr h.nodup
  rw [hactive, List.map_append, List.map_cons, List.nodup_middle, List.nodup_cons,
    ← List.map_append] at hnodup
  refine ⟨before, after, hactive, ?_⟩
  have hothers (entry : UInt64 × Handle) (hentry : entry ∈ before ++ after) :
      (entry.1 != id) = true := by
    refine bne_iff_ne.mpr ?_
    rintro rfl
    exact hnodup.1 (List.mem_map.mpr ⟨entry, hentry, rfl⟩)
  rw [Tracker.untrack, hactive, List.filter_append, List.filter_cons_of_neg (by simp),
    ← List.filter_append, List.filter_eq_self.mpr hothers]

namespace Session

/-- What a program does with its trackers and handles. A tracker and its clones go by one name, and
a handle and its clones by one number. -/
inductive Use where
  | track (tracker : String) (h : Handle)
  /-- Drops the guard of a registration, of which the first one has the number zero. -/
  | drop (call : Nat)
  | destroy (h : Handle)
  | destroyAll (tracker : String)
  | active (tracker : String)
deriving DecidableEq, Repr

/-- How many registrations with a tracker are made. -/
def Use.calls (name : String) : Use → Nat
  | track tracker _ => if tracker = name then 1 else 0
  | _ => 0

/-- A session, and the guards of all registrations in the order in which they were made. -/
structure Registry where
  session : Session
  /-- With the handle that was registered; nothing is left of a guard that was dropped. -/
  guards : List (Option (Guard × Handle))

namespace Registry

def held (r : Registry) : List (Guard × Handle) := r.guards.reduceOption

/-- Whether a handle has a guard that was not dropped. -/
def registers (r : Registry) (name : String) (h : Handle) : Bool :=
  r.held.any fun held => held.1.tracker == name && held.2 == h

/-- One use. A guard that was dropped cannot be dropped again. -/
def use (r : Registry) : Use → Registry
  | .track name h =>
    let (g, s) := r.session.track name h
    ⟨s, r.guards ++ [some (g, h)]⟩
  | .drop call =>
    match r.guards[call]? with
    | some (some (g, _)) => ⟨r.session.release g, r.guards.set call none⟩
    | _ => r
  | .destroy h => { r with session := r.session.destroy h }
  | .destroyAll name => { r with session := (r.session.destroyAll name).2 }
  | .active _ => r

/-- What becomes of a session. -/
def after (s : Session) (uses : List Use) : Registry := uses.foldl use ⟨s, []⟩

/-- Whether a use destroys a handle. -/
def destroys (r : Registry) (h : Handle) : Use → Bool
  | .destroy h' => h == h'
  | .destroyAll name => r.registers name h
  | _ => false

variable {r : Registry} {s : Session} {uses : List Use} {name : String} {h : Handle} {g : Guard}
variable {call : Nat} {calls : String → Nat}

theorem after_concat (s : Session) (uses : List Use) (u : Use) :
    after s (uses ++ [u]) = (after s uses).use u := by
  rw [after, List.foldl_append]
  rfl

/-! ## The guards -/

theorem nodup_guards {guards : List (Guard × Handle)}
    (nodup : ∀ name, ((Guard.entriesIn name guards).map (·.1)).Nodup) :
    (guards.map (·.1)).Nodup := by
  induction guards with
  | nil => exact List.nodup_nil
  | cons held guards ih =>
    obtain ⟨g, h⟩ := held
    have hown := nodup g.tracker
    rw [Guard.entriesIn_cons_own, List.map_cons, List.nodup_cons] at hown
    rw [List.map_cons, List.nodup_cons]
    refine ⟨fun hmem => ?_, ih fun name => ?_⟩
    · obtain ⟨⟨g', h'⟩, hheld, rfl⟩ := List.mem_map.mp hmem
      exact hown.1 (List.mem_map.mpr ⟨(_, h'), List.mem_filterMap.mpr ⟨_, hheld, if_pos rfl⟩, rfl⟩)
    · by_cases hname : name = g.tracker
      · rw [hname]
        exact hown.2
      · exact Guard.entriesIn_cons_other hname h guards ▸ nodup name

theorem held_track (r : Registry) (name : String) (h : Handle) :
    (r.use (.track name h)).held = r.held ++ [((r.session.track name h).1, h)] :=
  List.reduceOption_append r.guards [some _]

/-- The guards before the one that is dropped, and those after it. -/
theorem held_drop (found : r.guards[call]? = some (some (g, h))) :
    ∃ before after, r.held = before ++ (g, h) :: after ∧
      r.use (.drop call) = ⟨r.session.release g, r.guards.set call none⟩ ∧
      (r.use (.drop call)).held = before ++ after := by
  obtain ⟨hlt, hget⟩ := List.getElem?_eq_some_iff.mp found
  have hset (slot : Option (Guard × Handle)) :
      (r.guards.set call slot).reduceOption =
        (r.guards.take call).reduceOption ++ slot.toList ++
          (r.guards.drop (call + 1)).reduceOption := by
    rw [List.set_eq_take_append_cons_drop, if_pos hlt, List.reduceOption_append,
      List.append_assoc]
    cases slot <;> rfl
  have huse : r.use (.drop call) = ⟨r.session.release g, r.guards.set call none⟩ := by
    rw [use, found]
  refine ⟨(r.guards.take call).reduceOption, (r.guards.drop (call + 1)).reduceOption, ?_, huse, ?_⟩
  · have hsame : r.guards.set call (some (g, h)) = r.guards := by
      rw [← hget, List.set_getElem_self]
    have hall := hset (some (g, h))
    rw [hsame, List.append_assoc] at hall
    exact hall
  · rw [huse, held, hset, Option.toList_none, List.append_nil]

/-! ## What every use keeps -/

/-- Every tracker has the registrations of the guards that were not dropped, and has given one
number after another. -/
structure Sound (calls : String → Nat) (r : Registry) : Prop where
  entries : ∀ name, (r.session.trackers name).Holds (Guard.entriesIn name r.held)
  numbered : ∀ name, (r.session.trackers name).Numbered 0 (calls name)

namespace Sound

theorem track (hr : Sound calls r) (h : Handle) (few : calls name + 1 < UInt64.size) :
    Sound (fun other => calls other + (Use.track name h).calls other)
      (r.use (.track name h)) where
  entries other := by
    have hholds := holds_track (fun _ => []) hr.entries (hr.numbered name).fresh h other
    have hperm : (((r.session.track name h).1, h) :: r.held).Perm (r.use (.track name h)).held := by
      rw [held_track]
      exact (List.perm_append_singleton _ _).symm
    have hentries : (Guard.entriesIn other (_ :: r.held)).Perm (Guard.entriesIn other _) :=
      hperm.filterMap _
    exact hholds.of_perm hentries
  numbered other := by
    show ((r.session.setTracker name ((r.session.trackers name).track h).2).trackers
      other).Numbered 0 (calls other + (Use.track name h).calls other)
    have hmore : (r.session.trackers name).Numbered 1 (calls name + 1) :=
      (hr.numbered name).mono (by omega)
    by_cases hother : other = name
    · subst hother
      rw [trackers_setTracker_same, Use.calls, if_pos rfl]
      exact hmore.track few h
    · rw [trackers_setTracker_other hother, Use.calls, if_neg (Ne.symm hother)]
      exact hr.numbered other

theorem drop (hr : Sound calls r) (call : Nat) : Sound calls (r.use (.drop call)) := by
  match found : r.guards[call]? with
  | none | some none =>
    rw [use, found]
    exact hr
  | some (some (g, h)) =>
    obtain ⟨before, after, hheld, huse, hheld'⟩ := held_drop found
    have hperm : r.held.Perm ((g, h) :: (r.use (.drop call)).held) := by
      rw [hheld, hheld']
      exact List.perm_middle
    have hentries := holds_release (fun _ => []) fun name =>
      (hr.entries name).of_perm (hperm.filterMap _)
    constructor
    · intro name
      rw [huse] at hentries ⊢
      exact hentries name
    · intro name
      rw [huse]
      show ((r.session.setTracker g.tracker _).trackers name).Numbered 0 (calls name)
      by_cases hname : name = g.tracker
      · subst hname
        rw [trackers_setTracker_same]
        exact (hr.numbered g.tracker).untrack g.id
      · rw [trackers_setTracker_other hname]
        exact hr.numbered name

theorem use (hr : Sound calls r) (u : Use) (few : ∀ name, calls name + u.calls name < UInt64.size) :
    Sound (fun name => calls name + u.calls name) (r.use u) := by
  cases u with
  | track name h =>
    have hname := few name
    rw [Use.calls, if_pos rfl] at hname
    exact hr.track h hname
  | drop call => exact hr.drop call
  | destroy h => exact ⟨hr.entries, hr.numbered⟩
  | destroyAll name => exact ⟨hr.entries, hr.numbered⟩
  | active name => exact hr

/-- A tracker knows the handles that have guards. -/
theorem contains_handles (hr : Sound calls r) (name : String) (h : Handle) :
    (r.session.trackers name).handles.contains h = r.registers name h := by
  rw [Bool.eq_iff_iff, List.contains_iff_mem, Tracker.handles, registers, List.any_eq_true,
    ((hr.entries name).perm.map _).mem_iff]
  simp only [Guard.entriesIn, List.map_filterMap, List.mem_filterMap]
  refine exists_congr fun held => and_congr_right fun _ => ?_
  by_cases htracker : held.1.tracker = name
  · simp [htracker]
  · simp [htracker]

theorem active_eq (hr : Sound calls r) (name : String) :
    r.session.active name = r.held.countP (·.1.tracker = name) := by
  rw [active, Tracker.count, (hr.entries name).perm.length_eq, Guard.entriesIn,
    List.length_filterMap_eq_countP]
  refine List.countP_congr fun held _ => ?_
  by_cases htracker : held.1.tracker = name
  · simp [htracker]
  · simp [htracker]

end Sound

def callsOf (uses : List Use) (name : String) : Nat := (uses.map (Use.calls name)).sum

theorem callsOf_concat (uses : List Use) (u : Use) (name : String) :
    callsOf (uses ++ [u]) name = callsOf uses name + u.calls name := by
  simp [callsOf]

theorem sound_after (start : ∀ name, s.trackers name = .new)
    (few : ∀ name, callsOf uses name < UInt64.size) : Sound (callsOf uses) (after s uses) := by
  induction uses using List.reverseRecOn with
  | nil =>
    constructor
    · intro name
      rw [show (after s []).session = s from rfl, start]
      exact .new
    · intro name
      rw [show (after s []).session = s from rfl, start]
      exact ⟨nofun, Nat.le_refl 0⟩
  | append_singleton uses u ih =>
    have hsum : callsOf (uses ++ [u]) = fun name => callsOf uses name + u.calls name :=
      funext (callsOf_concat uses u)
    rw [hsum] at few ⊢
    rw [after_concat]
    exact (ih fun name => Nat.lt_of_le_of_lt (Nat.le_add_right _ _) (few name)).use u few

/-! ## Who is destroyed -/

theorem isDestroyed_destroying (p : Handle → Bool) (s : Session) (found : (s.execution? h).isSome) :
    (s.destroying p).isDestroyed h = (s.isDestroyed h || p h) := by
  obtain ⟨e, he⟩ := Option.isSome_iff_exists.mp found
  rw [isDestroyed, isDestroyed, execution?_destroying, he]
  cases p h
  · simp
  · simp [Execution.destroy]

theorem isSome_of_isDestroyed (destroyed : s.isDestroyed h = true) : (s.execution? h).isSome := by
  rw [isDestroyed] at destroyed
  cases hfound : s.execution? h with
  | none => simp [hfound] at destroyed
  | some e => rfl

theorem executions_drop (r : Registry) (call : Nat) :
    (r.use (.drop call)).session.executions = r.session.executions := by
  rw [use]
  split <;> rfl

/-- A handle that is destroyed stays so. -/
theorem isDestroyed_mono (destroyed : r.session.isDestroyed h = true) (u : Use) :
    (r.use u).session.isDestroyed h = true := by
  have hdestroying (p : Handle → Bool) : (r.session.destroying p).isDestroyed h = true := by
    rw [isDestroyed_destroying p _ (isSome_of_isDestroyed destroyed), destroyed, Bool.true_or]
  cases u with
  | destroy h' =>
    rw [use, destroy_eq]
    exact hdestroying _
  | destroyAll name => exact hdestroying _
  | drop call =>
    rw [isDestroyed, execution?, executions_drop]
    exact destroyed
  | track | active => exact destroyed

/-- A use destroys what it destroys, and nothing else. -/
theorem isDestroyed_use (hr : Sound calls r) (found : (r.session.execution? h).isSome) (u : Use) :
    ((r.use u).session.execution? h).isSome ∧
      (r.use u).session.isDestroyed h = (r.session.isDestroyed h || r.destroys h u) := by
  have hdestroying (p : Handle → Bool) : ((r.session.destroying p).execution? h).isSome := by
    rw [execution?_destroying, Option.isSome_map]
    exact found
  cases u with
  | destroy h' =>
    rw [use, destroy_eq]
    exact ⟨hdestroying _, isDestroyed_destroying _ _ found⟩
  | destroyAll name =>
    rw [use, destroyAll_eq, destroys, ← hr.contains_handles]
    exact ⟨hdestroying _, isDestroyed_destroying _ _ found⟩
  | drop call =>
    rw [isDestroyed, execution?, executions_drop]
    exact ⟨found, (Bool.or_false _).symm⟩
  | track | active => exact ⟨found, (Bool.or_false _).symm⟩

/-- What trackers and handles tell after some uses in a session that had no registrations. -/
structure Faithful (s : Session) (uses : List Use) (r : Registry) : Prop where
  /-- A tracker counts the guards that were not dropped. -/
  active : ∀ name, r.session.active name = r.held.countP (·.1.tracker = name)
  /-- It has their entries, of which no two have the same number. -/
  entries : ∀ name, (r.session.trackers name).active.Perm (Guard.entriesIn name r.held)
  distinct : (r.held.map (·.1)).Nodup
  below : ∀ g h, (g, h) ∈ r.held → g.id < (r.session.trackers g.tracker).nextId
  /-- A guard has the number that its own registration was given. -/
  made : ∀ call g h, r.guards[call]? = some (some (g, h)) → ∃ earlier later,
    uses = earlier ++ .track g.tracker h :: later ∧ (after s earlier).guards.length = call ∧
      g = ((after s earlier).session.track g.tracker h).1
  /-- When it is dropped, its own entry goes, and nothing else changes. -/
  dropped : ∀ call g h, r.guards[call]? = some (some (g, h)) → ∃ before after,
    (r.session.trackers g.tracker).active = before ++ (g.id, h) :: after ∧
      (r.use (.drop call)).session = r.session.setTracker g.tracker
        { r.session.trackers g.tracker with active := before ++ after }
  /-- All that is registered is destroyed and counted, and the trackers stay as they are. -/
  destroyAll : ∀ name, (r.session.destroyAll name).1 = r.session.active name ∧
    (r.session.destroyAll name).2.trackers = r.session.trackers ∧
    (r.session.destroyAll name).2 = r.session.destroying (r.registers name)
  /-- A handle is destroyed if a use has destroyed it, and stays so. -/
  destroyed : ∀ h, (s.execution? h).isSome → (r.session.isDestroyed h = true ↔
    s.isDestroyed h = true ∨ ∃ earlier u later, uses = earlier ++ u :: later ∧
      (after s earlier).destroys h u = true)
  stays : ∀ more h, r.session.isDestroyed h = true →
    (after s (uses ++ more)).session.isDestroyed h = true

theorem made_after (call : Nat) (g : Guard) (h : Handle)
    (found : (after s uses).guards[call]? = some (some (g, h))) : ∃ earlier later,
    uses = earlier ++ .track g.tracker h :: later ∧ (after s earlier).guards.length = call ∧
      g = ((after s earlier).session.track g.tracker h).1 := by
  induction uses using List.reverseRecOn with
  | nil => contradiction
  | append_singleton uses u ih =>
    -- The guard was there before the last use, or it is the one that the last use has made.
    have hbefore (found : (after s uses).guards[call]? = some (some (g, h))) :
        ∃ earlier later, uses ++ [u] = earlier ++ .track g.tracker h :: later ∧
          (after s earlier).guards.length = call ∧
          g = ((after s earlier).session.track g.tracker h).1 := by
      obtain ⟨earlier, later, rfl, hmade⟩ := ih found
      exact ⟨earlier, later ++ [u], by simp, hmade⟩
    rw [after_concat] at found
    cases u with
    | track name h' =>
      rw [use, List.getElem?_append] at found
      split at found
      · exact hbefore found
      · rename_i hge
        rw [List.getElem?_singleton] at found
        split at found
        · simp only [Option.some.injEq, Prod.mk.injEq] at found
          obtain ⟨rfl, rfl⟩ := found
          exact ⟨uses, [], rfl, by omega, rfl⟩
        · contradiction
    | drop other =>
      rw [use] at found
      split at found
      · rw [List.getElem?_set] at found
        split at found
        · split at found <;> simp at found
        · exact hbefore found
      · exact hbefore found
    | destroy | destroyAll | active => exact hbefore found

theorem destroyed_after (start : ∀ name, s.trackers name = .new)
    (few : ∀ name, callsOf uses name < UInt64.size) (found : (s.execution? h).isSome) :
    ((after s uses).session.execution? h).isSome ∧
      ((after s uses).session.isDestroyed h = true ↔ s.isDestroyed h = true ∨
        ∃ earlier u later, uses = earlier ++ u :: later ∧
          (after s earlier).destroys h u = true) := by
  induction uses using List.reverseRecOn with
  | nil => exact ⟨found, by simp [after]⟩
  | append_singleton uses u ih =>
    have hless (name : String) : callsOf uses name < UInt64.size := by
      have hname := few name
      rw [callsOf_concat] at hname
      omega
    obtain ⟨hfound, hiff⟩ := ih hless
    obtain ⟨hfound', huse⟩ := isDestroyed_use (sound_after start hless) hfound u
    rw [after_concat]
    refine ⟨hfound', ?_⟩
    rw [huse, Bool.or_eq_true, hiff, or_assoc]
    exact or_congr_right (exists_split_concat uses u).symm

/-- Whatever a program does with trackers and handles, the registrations of a tracker are those of
the guards that it holds, each one's own, and a handle is destroyed exactly if it was destroyed by
itself or with all that were registered. A tracker must only not be asked for more registrations
than there are numbers. -/
theorem after_faithful (start : ∀ name, s.trackers name = .new)
    (few : ∀ name, callsOf uses name < UInt64.size) : Faithful s uses (after s uses) := by
  have hr := sound_after start few
  constructor
  · exact hr.active_eq
  · exact fun name => (hr.entries name).perm
  · exact nodup_guards fun name => (hr.entries name).nodup
  · intro g h hheld
    have hmem : (g.id, h) ∈ Guard.entriesIn g.tracker (after s uses).held :=
      List.mem_filterMap.mpr ⟨_, hheld, if_pos rfl⟩
    exact UInt64.lt_iff_toNat_lt.mpr
      ((hr.numbered g.tracker).below _ ((hr.entries g.tracker).perm.mem_iff.mpr hmem))
  · exact made_after
  · intro call g h found
    obtain ⟨before, behind, hheld, huse, -⟩ := held_drop found
    have hmem : (g.id, h) ∈ Guard.entriesIn g.tracker (after s uses).held :=
      List.mem_filterMap.mpr ⟨(g, h), by rw [hheld]; simp, if_pos rfl⟩
    obtain ⟨before, behind, hactive, huntrack⟩ := (hr.entries g.tracker).untrack_of_mem hmem
    refine ⟨before, behind, hactive, ?_⟩
    rw [huse, ← huntrack]
    rfl
  · intro name
    rw [destroyAll_eq]
    refine ⟨rfl, rfl, ?_⟩
    exact congrArg (destroying · (after s uses).session) (funext (hr.contains_handles name))
  · exact fun h found => (destroyed_after start few found).2
  · intro more h hdestroyed
    induction more using List.reverseRecOn with
    | nil => rwa [List.append_nil]
    | append_singleton more u ih =>
      rw [← List.append_assoc, after_concat]
      exact isDestroyed_mono ih u

/-- Of two handles one is registered twice and released once, and all are destroyed. -/
def twiceTracked : List Use :=
  [.track "main" 0, .track "main" 0, .drop 0, .destroyAll "main", .active "main", .track "main" 1]

theorem after_faithful_twice :
    Faithful pair twiceTracked (after pair twiceTracked) ∧
      (after pair twiceTracked).session.active "main" = 2 ∧
      (after pair twiceTracked).session.isDestroyed 0 = true ∧
      (after pair twiceTracked).session.isDestroyed 1 = false := by
  have hfew (name : String) : callsOf twiceTracked name < UInt64.size := by
    by_cases hname : "main" = name
    · subst hname
      decide +kernel
    · simp [callsOf, twiceTracked, Use.calls, hname]
  exact ⟨after_faithful (fun _ => rfl) hfew, by decide +kernel, by decide +kernel,
    by decide +kernel⟩

end Registry

end Session

end ToolRunner
