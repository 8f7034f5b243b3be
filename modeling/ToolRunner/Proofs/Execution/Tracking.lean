import ToolRunner.Proofs.Execution.Notification

/-!
# When a run is registered

A run has an entry in its tracker from the moment at which its child was started until its readers
have been joined. What a move does to the tracker is said once (`Books`); from that follows that the
entry is there at every start and line call (`Wired.registered_of_called`) and gone at every exit
call (`registered_of_exited`).
-/

namespace ToolRunner

/-- Whether the child is registered, where it is to be registered at all. -/
def Phase.registered : Phase → Bool
  | wiring | starting _ | waiting | reaping | joining _ | releasing => true
  | _ => false

/-- The supervisor ends the registration once it has joined the readers. -/
theorem Phase.registered_of_not_joined {phase : Phase} {c : Channel} (wired : phase.wired = true)
    (h : phase.joined c = false) : phase.registered = true := by
  cases phase with
  | starting next => rfl
  | waiting => rfl
  | reaping => rfl
  | joining d => rfl
  | releasing => rfl
  | notifying next => cases h
  | finished => cases h
  | _ => cases wired

namespace Execution

variable {r : Runner} {e e' : Execution} {m : Move} {t t' : Tracker}

/-- The entry that an execution has in its tracker. -/
def ownEntry (e : Execution) : Option (UInt64 × Handle) :=
  if e.phase.registered then e.registration.map (·, e.handle) else none

theorem entry_of_registered {id : UInt64} (registered : e.phase.registered = true)
    (registration : e.registration = some id) : e.ownEntry = some (id, e.handle) := by
  rw [ownEntry, if_pos registered, registration]
  rfl

theorem entry_of_not_registered (h : e.phase.registered = false) : e.ownEntry = none := by
  rw [ownEntry, h]
  rfl

theorem entry_of_unregistered (h : e.registration = none) : e.ownEntry = none := by
  rw [ownEntry, h]
  exact ite_self none

/-- The entry that an execution has in the tracker of a name. -/
def entryIn (name : String) (e : Execution) : Option (UInt64 × Handle) :=
  if e.tracker = some name then e.ownEntry else none

theorem entryIn_eq_some_iff {name : String} {id : UInt64} {handle : Handle} :
    e.entryIn name = some (id, handle) ↔ e.tracker = some name ∧ e.phase.registered = true ∧
      e.registration = some id ∧ e.handle = handle := by
  rw [entryIn, Option.ite_none_right_eq_some, ownEntry, Option.ite_none_right_eq_some,
    Option.map_eq_some_iff]
  refine and_congr_right fun _ => and_congr_right fun _ => ?_
  simp only [Prod.mk.injEq]
  constructor
  · rintro ⟨_, hid, rfl, hhandle⟩
    exact ⟨hid, hhandle⟩
  · rintro ⟨hid, hhandle⟩
    exact ⟨_, hid, rfl, hhandle⟩

/-- What a move makes of the tracker and of what the execution knows of its entry there. -/
inductive Books (e : Execution) (t : Tracker) : Tracker → Execution → Prop where
  | kept (e' : Execution) (handle : e'.handle = e.handle) (tracker : e'.tracker = e.tracker)
      (registration : e'.registration = e.registration)
      (registered : e'.phase.registered = e.phase.registered)
      (spawned : e'.phase = .spawned ↔ e.phase = .spawned) : Books e t t e'
  | entered (at_ : e.phase = .spawned) : Books e t (e.register t).1 (e.register t).2
  | left (at_ : e.phase = .releasing) :
      Books e t (e.unregister t) { e with phase := .notifying 0 }

/-- What a move makes of the entry that an execution of a handle has in its tracker. -/
inductive Posting (handle : Handle) (e : Execution) (t : Tracker) : Tracker → Execution → Prop where
  | same (e' : Execution) (same : ∀ name, e'.entryIn name = e.entryIn name)
      (spawned : e'.phase = .spawned → e.phase = .spawned) : Posting handle e t t e'
  | added (own : String) (e' : Execution) (tracker : e.tracker = some own)
      (at_ : e.phase = .spawned) (spawned : e'.phase ≠ .spawned)
      (before : ∀ name, e.entryIn name = none)
      (after : ∀ name, e'.entryIn name = if own = name then some (t.nextId, handle) else none) :
      Posting handle e t (t.track handle).2 e'
  | removed (own : String) (id : UInt64) (e' : Execution) (tracker : e.tracker = some own)
      (spawned : e'.phase ≠ .spawned)
      (before : ∀ name, e.entryIn name = if own = name then some (id, handle) else none)
      (after : ∀ name, e'.entryIn name = none) : Posting handle e t (t.untrack id) e'

theorem Posting.spawned {handle : Handle} (h : Posting handle e t t' e')
    (spawned : e'.phase = .spawned) : e.phase = .spawned := by
  cases h with
  | same e' same before => exact before spawned
  | added own e' tracker at_ => exact at_
  | removed own id e' tracker begun => exact absurd spawned begun

/-- The supervisor goes on between two phases in which the entry is the same. -/
theorem Books.phase {before after : Phase} (at_ : e.phase = before)
    (handle : e'.handle = e.handle) (tracker : e'.tracker = e.tracker)
    (registration : e'.registration = e.registration) (reached : e'.phase = after)
    (registered : after.registered = before.registered) (spawned : before ≠ .spawned)
    (spawned' : after ≠ .spawned) : Books e t t e' := by
  refine .kept e' handle tracker registration (by rw [reached, at_, registered]) ?_
  rw [reached, at_]
  exact ⟨fun h => absurd h spawned', fun h => absurd h spawned⟩

theorem tracker_eq_of_map {after : Option Execution} (h : after.map (t, ·) = some (t', e')) :
    t' = t := by
  rw [Option.map_eq_some_iff] at h
  obtain ⟨a, -, heq⟩ := h
  injection heq with heq
  exact heq.symm

namespace Wired

theorem books_of_reap (at_ : e.phase = .waiting ∨ e.phase = .reaping)
    (h : e.reap.map (t, ·) = some (t', e')) : Books e t t' e' := by
  obtain rfl := tracker_eq_of_map h
  have hreap := after_eq_of_map h
  rw [reap, Option.map_eq_some_iff] at hreap
  obtain ⟨ending, -, rfl⟩ := hreap
  have hafter : Phase.joining .stdout ≠ .spawned := by decide
  rcases at_ with at_ | at_ <;> exact .phase at_ rfl rfl rfl rfl rfl (by decide) hafter

theorem books_of_join {c : Channel} (at_ : e.phase = .joining c)
    (h : (e.join c).map (t, ·) = some (t', e')) : Books e t t' e' := by
  obtain rfl := tracker_eq_of_map h
  have hjoin := after_eq_of_map h
  have hphase : (afterJoining c).registered = true ∧ afterJoining c ≠ .spawned := by
    cases c <;> exact ⟨rfl, nofun⟩
  unfold join at hjoin
  split at hjoin
  · injection hjoin with hjoin
    subst hjoin
    exact .phase at_ rfl rfl rfl rfl hphase.1 nofun hphase.2
  · split at hjoin
    · injection hjoin with hjoin
      subst hjoin
      exact .phase at_ rfl rfl rfl rfl hphase.1 nofun hphase.2
    · contradiction

theorem books_of_supervise (hw : Wired r e) (h : e.supervise t = some (t', e')) :
    Books e t t' e' := by
  unfold supervise at h
  cases hphase : e.phase with
  | spawned =>
    simp only [hphase] at h
    injection h with h
    rw [show t' = (e.register t).1 by rw [h], show e' = (e.register t).2 by rw [h]]
    exact .entered hphase
  | wiring =>
    simp only [hphase, Execution.wire, hw.newReaders_eq] at h
    injection h with h
    injection h with ht he
    subst ht he
    exact .phase hphase rfl rfl rfl rfl rfl nofun nofun
  | starting next =>
    simp only [hphase] at h
    split at h <;>
    · injection h with h
      injection h with ht he
      subst ht he
      exact .phase hphase rfl rfl rfl rfl rfl nofun nofun
  | waiting =>
    simp only [hphase] at h
    exact books_of_reap (.inl hphase) h
  | reaping =>
    simp only [hphase] at h
    exact books_of_reap (.inr hphase) h
  | joining c =>
    simp only [hphase] at h
    exact books_of_join hphase h
  | releasing =>
    simp only [hphase] at h
    injection h with h
    injection h with ht he
    subst ht he
    exact .left hphase
  | notifying next =>
    simp only [hphase] at h
    split at h <;>
    · injection h with h
      injection h with ht he
      subst ht he
      exact .phase hphase rfl rfl rfl rfl rfl nofun nofun
  | finished => simp only [hphase] at h; contradiction
  | refused cause => simp only [hphase] at h; contradiction

/-- The supervisor registers the child once and ends that registration once; no other move and no
other party has to do with the tracker. -/
theorem books (hw : Wired r e) (h : e.step m t = some (t', e')) : Books e t t' e' := by
  have hsame {after : Execution} (heq : t' = t) (phase : after.phase = e.phase)
      (handle : after.handle = e.handle) (tracker : after.tracker = e.tracker)
      (registration : after.registration = e.registration) : Books e t t' after := by
    subst heq
    exact .kept after handle tracker registration (by rw [phase]) (by rw [phase])
  cases m with
  | supervisor => exact hw.books_of_supervise h
  | cancellation =>
    obtain rfl := tracker_eq_of_map h
    cases seeCancellation_change (after_eq_of_map h) with
    | killed at_ destroyed => exact .phase at_ rfl rfl rfl rfl rfl nofun nofun
    | read m c rd p s reader pipe going turn made => cases made
  | child which =>
    cases act_change (after_eq_of_map h) with
    | acted => exact hsame (tracker_eq_of_map h) rfl rfl rfl rfl
    | read m c rd p s reader pipe going turn made => cases made
  | reader c =>
    cases step_change h with
    | read => exact hsame (tracker_eq_of_map h) rfl rfl rfl rfl
  | destroy =>
    obtain rfl := after_eq h
    injection h with h
    injection h with ht
    exact hsame ht.symm rfl rfl rfl rfl
  | readFailure c message =>
    cases step_change h with
    | read => exact hsame (tracker_eq_of_map h) rfl rfl rfl rfl
  | waitFailure message =>
    obtain rfl := tracker_eq_of_map h
    cases failWaiting_change (after_eq_of_map h) with
    | waitFailed message at_ ended =>
      rcases at_ with at_ | at_ <;> exact .phase at_ rfl rfl rfl rfl rfl nofun nofun
    | read m c rd p s reader pipe going turn made => cases made

end Wired

/-- What an execution knows of its registration: an execution without a tracker never has one, any
other has had one since its first move. -/
structure Enrolled (r : Runner) (handle : Handle) (e : Execution) : Prop where
  tracker : e.tracker = r.tracker
  handle : e.handle = handle
  unspawned : e.phase = .spawned → e.registration = none
  spawned : e.phase ≠ .spawned → e.registration.isSome = e.tracker.isSome

namespace Enrolled

variable {handle : Handle}

theorem register_untracked (tracker : e.tracker = none) (t : Tracker) :
    e.register t = (t, { e with phase := .wiring }) := by
  simp only [register, tracker]

/-- The first move takes the next number of the tracker. -/
theorem register_tracked (h : Enrolled r handle e) {name : String} (tracker : e.tracker = some name)
    (t : Tracker) :
    e.register t =
      ((t.track handle).2, { e with phase := .wiring, registration := some t.nextId }) := by
  simp only [register, tracker, ← h.handle]
  rfl

theorem books (h : Enrolled r handle e) (hb : Books e t t' e') : Enrolled r handle e' := by
  cases hb with
  | kept e' same tracker registration registered spawned =>
    constructor
    · rw [tracker]
      exact h.tracker
    · rw [same]
      exact h.handle
    · rw [registration, spawned]
      exact h.unspawned
    · rw [registration, tracker, ne_eq, spawned]
      exact h.spawned
  | entered at_ =>
    cases htracker : e.tracker with
    | none =>
      rw [register_untracked htracker]
      refine ⟨h.tracker, h.handle, nofun, fun _ => ?_⟩
      show e.registration.isSome = e.tracker.isSome
      rw [h.unspawned at_, htracker]
      rfl
    | some name =>
      rw [h.register_tracked htracker]
      refine ⟨h.tracker, h.handle, nofun, fun _ => ?_⟩
      show true = e.tracker.isSome
      rw [htracker]
      rfl
  | left at_ => exact ⟨h.tracker, h.handle, nofun, fun _ => h.spawned (by rw [at_]; nofun)⟩

/-- A registered execution has a number with its tracker. -/
theorem registration_isSome (h : Enrolled r handle e) {name : String}
    (tracker : e.tracker = some name) (registered : e.phase.registered = true) :
    ∃ id, e.registration = some id := by
  have hspawned := h.spawned fun hphase => by
    rw [hphase] at registered
    contradiction
  rw [tracker] at hspawned
  exact Option.isSome_iff_exists.mp hspawned

/-- A move adds the entry, takes it away, or leaves it and the tracker alone. -/
theorem posting (h : Enrolled r handle e) (hb : Books e t t' e') : Posting handle e t t' e' := by
  cases hb with
  | kept e' same tracker registration registered spawned =>
    refine .same e' (fun name => ?_) spawned.mp
    rw [entryIn, entryIn, ownEntry, ownEntry, same, tracker, registration, registered]
  | entered at_ =>
    have hbefore (name : String) : e.entryIn name = none := by
      rw [entryIn, entry_of_unregistered (h.unspawned at_), ite_self]
    cases htracker : e.tracker with
    | none =>
      rw [register_untracked htracker]
      refine .same _ (fun name => ?_) nofun
      simp only [entryIn, htracker]
      rfl
    | some own =>
      rw [h.register_tracked htracker]
      refine .added own _ htracker at_ nofun hbefore fun name => ?_
      simp only [entryIn, htracker, Option.some.injEq, ← h.handle]
      rfl
  | left at_ =>
    have hafter (name : String) :
        ({ e with phase := .notifying 0 } : Execution).entryIn name = none := by
      rw [entryIn, entry_of_not_registered rfl, ite_self]
    have hregistered : e.phase.registered = true := by
      rw [at_]
      rfl
    have hspawned := h.spawned (by rw [at_]; nofun)
    rcases Option.eq_none_or_eq_some e.registration with hid | ⟨id, hid⟩
    · rw [show e.unregister t = t by rw [unregister, hid]]
      refine .same _ (fun name => ?_) nofun
      rw [hafter, entryIn, entry_of_unregistered hid, ite_self]
    · rw [hid, eq_comm] at hspawned
      obtain ⟨own, htracker⟩ := Option.isSome_iff_exists.mp hspawned
      rw [show e.unregister t = t.untrack id by rw [unregister, hid]]
      refine .removed own id _ htracker nofun (fun name => ?_) hafter
      rw [entryIn, htracker, entry_of_registered hregistered hid, h.handle]
      simp only [Option.some.injEq]

end Enrolled

theorem Reaches.enrolled {capacity : Capacity} {handle : Handle} {pid : Nat} {program : String}
    {child : Child} (h : (r.execution capacity handle pid program child).Reaches e) :
    Enrolled r handle e := by
  induction h with
  | refl => exact ⟨rfl, rfl, fun _ => rfl, fun hp => absurd rfl hp⟩
  | move reached step ih => exact ih.books (reached.wired.books step)

/-! ## Calls and the entry -/

namespace Wired

/-- A start or line call is made between the registration and its end, by a move that leaves the
tracker alone. -/
theorem registered_of_called (hw : Wired r e) (h : e.step m t = some (t', e'))
    (called : e'.starts ≠ e.starts ∨ ∃ c, e'.told c ≠ e.told c) :
    e.phase.registered = true ∧ t' = t := by
  have hphase : e.phase.registered = true := by
    cases step_change h with
    | startCalled next l at_ listener =>
      rw [at_]
      rfl
    | exitCalled next l at_ listener =>
      rcases called with hne | ⟨c, hne⟩
      · exact absurd (starts_callExit e next l) hne
      · exact absurd (told_callExit e next l c) hne
    | read m c rd p s reader pipe going turn made =>
      -- The registration outlasts the readers, and this one is still going.
      refine Phase.registered_of_not_joined (c := c) (hw.wired_of_reader reader) ?_
      rw [Bool.eq_false_iff]
      intro hjoined
      rw [hw.joined c rd hjoined reader] at going
      contradiction
    | _ =>
      rcases called with hne | ⟨c, hne⟩
      · exact absurd rfl hne
      · exact absurd rfl hne
  cases hw.books h with
  | kept e' handle tracker registration registered spawned =>
    exact ⟨hphase, rfl⟩
  | entered at_ =>
    rw [at_] at hphase
    contradiction
  | left at_ =>
    rcases called with hne | ⟨c, hne⟩
    · exact absurd rfl hne
    · exact absurd rfl hne

/-- An exit call is made when the registration has ended. -/
theorem released_of_exited (hw : Wired r e) (h : e.step m t = some (t', e'))
    (exited : e'.exits ≠ e.exits) :
    e.phase.registered = false ∧ t' = t := by
  rcases exits_of_change (step_change h) with hsame | ⟨next, hphase⟩
  · exact absurd hsame exited
  cases hw.books h with
  | kept e' handle tracker registration registered spawned =>
    have hfalse : e.phase.registered = false := by
      rw [hphase]
      rfl
    exact ⟨hfalse, rfl⟩
  | entered at_ =>
    rw [hphase] at at_
    contradiction
  | left at_ =>
    rw [hphase] at at_
    contradiction

end Wired

/-! ## A tracker that is used by one execution alone -/

/-- What an execution has made of its tracker, which was `start` when it was begun. -/
inductive Held (start : Tracker) (handle : Handle) (t : Tracker) (e : Execution) : Prop where
  | untracked (tracker : e.tracker = none) (same : t = start)
  | unspawned (at_ : e.phase = .spawned) (same : t = start)
  | registered (own : e.tracker ≠ none) (during : e.phase.registered = true)
      (registration : e.registration = some start.nextId) (tracked : t = (start.track handle).2)
  | released (own : e.tracker ≠ none) (after : e.phase.registered = false)
      (spawned : e.phase ≠ .spawned) (untracked : t = (start.track handle).2.untrack start.nextId)

theorem Held.books {start : Tracker} {handle : Handle} (h : Held start handle t e)
    (he : Enrolled r handle e) (hb : Books e t t' e') : Held start handle t' e' := by
  cases hb with
  | kept e' same tracker registration registered spawned =>
    cases h with
    | untracked none_ same => exact .untracked (tracker.trans none_) same
    | unspawned at_ same => exact .unspawned (spawned.mpr at_) same
    | registered own during id tracked =>
      exact .registered (tracker ▸ own) (registered.trans during) (registration.trans id) tracked
    | released own after begun untracked =>
      exact .released (tracker ▸ own) (registered.trans after) (fun hp => begun (spawned.mp hp))
        untracked
  | entered at_ =>
    cases h with
    | untracked none_ same =>
      rw [Enrolled.register_untracked none_]
      exact .untracked none_ same
    | unspawned _ same =>
      cases htracker : e.tracker with
      | none =>
        rw [Enrolled.register_untracked htracker]
        exact .untracked htracker same
      | some name =>
        rw [he.register_tracked htracker, same]
        exact .registered (fun hnone => by cases htracker.symm.trans hnone) rfl rfl rfl
    | registered own during =>
      rw [at_] at during
      contradiction
    | released own after begun => exact absurd at_ begun
  | left at_ =>
    cases h with
    | untracked none_ same =>
      have hnone : e.registration = none := by
        have hspawned := he.spawned (by rw [at_]; nofun)
        rw [none_] at hspawned
        exact Option.not_isSome_iff_eq_none.mp (by rw [hspawned]; nofun)
      rw [show e.unregister t = t by rw [unregister, hnone]]
      exact .untracked none_ same
    | unspawned spawned =>
      rw [at_] at spawned
      contradiction
    | registered own during id tracked =>
      rw [show e.unregister t = t.untrack start.nextId by rw [unregister, id], tracked]
      exact .released own rfl nofun rfl
    | released own after =>
      rw [at_] at after
      contradiction

/-- A run that is over has left its tracker without its entry, and has used up one number. -/
theorem tracker_of_steps {capacity : Capacity} {handle : Handle} {pid : Nat} {program : String}
    {child : Child} {ms : List Move}
    (h : (r.execution capacity handle pid program child).steps ms t = some (t', e))
    (done : e.done = true) :
    t' = if r.tracker = none then t else (t.track handle).2.untrack t.nextId := by
  have hreaches := reaches_of_steps h
  have hheld : Held t handle t' e :=
    steps_invariant h (.unspawned rfl rfl) fun reached hi step =>
      hi.books reached.enrolled (reached.wired.books step)
  have hphase : e.phase = .finished := eq_of_beq done
  rw [← hreaches.enrolled.tracker]
  cases hheld with
  | untracked tracker same => rw [if_pos tracker, same]
  | unspawned at_ same =>
    rw [hphase] at at_
    contradiction
  | registered own during =>
    rw [hphase] at during
    contradiction
  | released own after spawned untracked => rw [if_neg own, untracked]

end Execution

end ToolRunner
