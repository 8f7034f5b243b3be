import ToolRunner.Proofs.Session.Ledger

/-!
# What a tracker counts

Executions are begun, move in any order, are destroyed one by one or all at once, and guards are
made and released by hand meanwhile (`Session.Unfolds`). At any moment a tracker counts the
executions that are registered with it and not released yet, and the guards; an execution is
registered while its start and line listeners are called, and not when its exit listeners are
(`Unfolds.tracks`).
-/

namespace ToolRunner

namespace Tracker

variable {t : Tracker} {ahead less n more : Nat}

/-- Numbers are given one after another, at most `n` of them, of which some are set aside for what
is still to be registered. -/
structure Numbered (ahead n : Nat) (t : Tracker) : Prop where
  below : ∀ entry ∈ t.active, entry.1.toNat < t.nextId.toNat
  given : t.nextId.toNat + ahead ≤ n

namespace Numbered

theorem fresh (hn : t.Numbered ahead n) : t.Fresh := by
  intro entry hentry heq
  have hlt := hn.below entry hentry
  rw [heq] at hlt
  exact Nat.lt_irrefl _ hlt

theorem mono (hn : t.Numbered ahead n) (h : less + n ≤ ahead + more) : t.Numbered less more := by
  have hgiven := hn.given
  exact ⟨hn.below, by omega⟩

/-- The number of a new registration is above those of all others. -/
theorem track (hn : t.Numbered (ahead + 1) n) (few : n < UInt64.size) (handle : Handle) :
    (t.track handle).2.Numbered ahead n := by
  have hgiven := hn.given
  have hnext : (t.track handle).2.nextId.toNat = t.nextId.toNat + 1 := by
    show (t.nextId + 1).toNat = _
    rw [UInt64.toNat_add]
    exact Nat.mod_eq_of_lt (show t.nextId.toNat + 1 < UInt64.size by omega)
  refine ⟨fun entry hentry => ?_, by omega⟩
  rw [hnext]
  rcases List.mem_cons.mp hentry with rfl | hentry
  · exact Nat.lt_succ_self _
  · exact Nat.lt_succ_of_lt (hn.below entry (List.mem_of_mem_filter hentry))

theorem untrack (hn : t.Numbered ahead n) (id : UInt64) : (t.untrack id).Numbered ahead n :=
  ⟨fun entry hentry => hn.below entry (List.mem_of_mem_filter hentry), hn.given⟩

end Numbered

end Tracker

namespace Session

variable {s s' : Session} {guards : List (Guard × Handle)} {e e' : Execution} {h : Handle}
variable {m : Move} {name : String} {n : Nat}

/-- What can become of a session in which nothing runs, with the guards that are held; `n` is how
many executions were begun and guards made. No registration is made with a number that is still in
use, as happens only when there were more registrations than numbers (`Unfolds.tracks`). -/
inductive Unfolds : Nat → List (Guard × Handle) → Session → Prop where
  | empty : Unfolds 0 [] .empty
  | begun {n : Nat} {guards : List (Guard × Handle)} {s s' : Session} {spawn : Spawn} {r : Runner}
      {c : Command} {h : Handle} (before : Unfolds n guards s)
      (begins : s.begin spawn r c = (.ok h, s')) : Unfolds (n + 1) guards s'
  | moved {n : Nat} {guards : List (Guard × Handle)} {s s' : Session} {h : Handle} {m : Move}
      (before : Unfolds n guards s) (fresh : s.Fresh) (moves : s.move h m = some s') :
      Unfolds n guards s'
  | waited {n : Nat} {guards : List (Guard × Handle)} {s : Session} (before : Unfolds n guards s)
      (time : Nat) : Unfolds n guards { s with time := time }
  | destroyed {n : Nat} {guards : List (Guard × Handle)} {s : Session}
      (before : Unfolds n guards s) (h : Handle) : Unfolds n guards (s.destroy h)
  | destroyedAll {n : Nat} {guards : List (Guard × Handle)} {s : Session}
      (before : Unfolds n guards s) (name : String) : Unfolds n guards (s.destroyAll name).2
  | tracked {n : Nat} {guards : List (Guard × Handle)} {s : Session}
      (before : Unfolds n guards s) (fresh : s.Fresh) (name : String) (h : Handle) :
      Unfolds (n + 1) (((s.track name h).1, h) :: guards) (s.track name h).2
  | released {n : Nat} {guards : List (Guard × Handle)} {s : Session} {g : Guard} {h : Handle}
      (before : Unfolds n guards s) (held : (g, h) ∈ guards) :
      Unfolds n (guards.erase (g, h)) (s.release g)

theorem Unfolds.ledger (hu : Unfolds n guards s) : Ledger guards s := by
  induction hu with
  | empty => exact .empty
  | begun before begins ih => exact ih.begun begins
  | moved before fresh moves ih => exact ih.moved fresh moves
  | waited before time ih => exact ⟨ih.runs, ih.entries⟩
  | destroyed before h ih =>
    rw [destroy_eq]
    exact ih.destroying _
  | destroyedAll before name ih =>
    rw [destroyAll_eq]
    exact ih.destroying _
  | tracked before fresh name h ih => exact ih.tracked fresh name h
  | released before held ih => exact ih.released held

/-! ## The numbers of registrations -/

/-- How many executions are still to be registered. -/
def unspawned (executions : List Execution) : Nat :=
  (executions.map (·.phase)).count .spawned

theorem unspawned_middle (before after : List Execution) (e : Execution) :
    unspawned (before ++ e :: after) =
      unspawned (before ++ after) + if e.phase = .spawned then 1 else 0 := by
  simp only [unspawned, List.map_append, List.map_cons, List.count_append, List.count_cons,
    beq_iff_eq]
  omega

/-- Every tracker has a number left for every execution that is still to be registered. -/
def Numbered (n : Nat) (s : Session) : Prop :=
  ∀ name, (s.trackers name).Numbered (unspawned s.executions) n

theorem forall_setTracker {P : Tracker → Prop} {t : Tracker} (own : P t)
    (others : ∀ other, P (s.trackers other)) (other : String) :
    P ((s.setTracker name t).trackers other) := by
  by_cases hother : other = name
  · rw [hother, trackers_setTracker_same]
    exact own
  · rw [trackers_setTracker_other hother]
    exact others other

namespace Numbered

theorem begun (hn : Numbered n s) {spawn : Spawn} {r : Runner} {c : Command}
    (begins : s.begin spawn r c = (.ok h, s')) : Numbered (n + 1) s' := by
  obtain ⟨child, -, -, -, rfl⟩ := begin_cases begins
  have hone : unspawned (s.executions ++ [s.beginning r c child]) = unspawned s.executions + 1 := by
    rw [unspawned_middle, List.append_nil]
    rfl
  refine fun name => (hn name).mono ?_
  rw [hone]
  omega

theorem destroying (hn : Numbered n s) (p : Handle → Bool) : Numbered n (s.destroying p) := by
  intro name
  rw [unspawned, map_destroying fun _ => rfl]
  exact hn name

theorem moved (hn : Numbered n s) (few : n < UInt64.size) (hl : Ledger guards s)
    (moves : s.move h m = some s') : Numbered n s' := by
  obtain ⟨e, t', e', found, step, rfl⟩ := move_cases moves
  obtain ⟨r, capacity, pid, program, child, hreaches⟩ := hl.runs h e found
  obtain ⟨before, after, hbefore, hafter⟩ := executions_split found
  have hposting := hreaches.enrolled.posting (hreaches.wired.books step)
  have hfewer : unspawned (before ++ e' :: after) ≤ unspawned (before ++ e :: after) := by
    rw [unspawned_middle, unspawned_middle]
    by_cases hspawned : e'.phase = .spawned
    · simp [hspawned, hposting.spawned hspawned]
    · rw [if_neg hspawned]
      omega
  rw [Numbered, hbefore] at hn
  intro name
  show ((s.setTracker (trackerName e) t').trackers name).Numbered
    (unspawned (s.executions.set h e')) n
  rw [hafter]
  refine forall_setTracker (P := (·.Numbered _ n)) ?_ (fun other => (hn other).mono ?_) name
  · have hused := hn (trackerName e)
    cases hposting with
    | same e' same spawned => exact hused.mono (by omega)
    | added own e' tracker at_ spawned none added =>
      -- The number that is taken was set aside for this execution.
      rw [unspawned_middle, if_pos at_] at hused
      rw [unspawned_middle, if_neg spawned]
      exact hused.track few h
    | removed own id e' tracker spawned removed none =>
      exact (hused.untrack id).mono (by omega)
  · omega

theorem tracked (hn : Numbered n s) (few : n + 1 < UInt64.size) (name : String) (h : Handle) :
    Numbered (n + 1) (s.track name h).2 := by
  have hmore (other : String) :
      (s.trackers other).Numbered (unspawned s.executions + 1) (n + 1) :=
    (hn other).mono (by omega)
  have hothers (other : String) : (s.trackers other).Numbered (unspawned s.executions) (n + 1) :=
    (hn other).mono (by omega)
  exact forall_setTracker (P := (·.Numbered _ _)) ((hmore name).track few h) hothers

theorem released (hn : Numbered n s) (g : Guard) : Numbered n (s.release g) :=
  forall_setTracker (P := (·.Numbered _ n)) ((hn g.tracker).untrack g.id) hn

end Numbered

/-- As long as there were fewer registrations than there are numbers, no number is given while it is
in use. -/
theorem Unfolds.numbered (hu : Unfolds n guards s) (few : n < UInt64.size) : Numbered n s := by
  induction hu with
  | empty => exact fun _ => ⟨nofun, Nat.le_refl 0⟩
  | begun before begins ih => exact (ih (by omega)).begun begins
  | moved before fresh moves ih => exact (ih few).moved few before.ledger moves
  | waited before time ih => exact ih few
  | destroyed before h ih =>
    rw [destroy_eq]
    exact (ih few).destroying _
  | destroyedAll before name ih =>
    rw [destroyAll_eq]
    exact (ih few).destroying _
  | tracked before fresh name h ih => exact (ih (by omega)).tracked few name h
  | released before held ih => exact (ih few).released _

/-! ## What the ledger says of a tracker -/

/-- How many executions are registered with a tracker at the moment. -/
def registeredIn (name : String) (s : Session) : Nat :=
  s.executions.countP fun e => e.tracker == some name && e.phase.registered

namespace Ledger

/-- An entry is that of an execution that is registered, or is held by a guard. -/
theorem mem_active_iff (hl : Ledger guards s) {id : UInt64} :
    (id, h) ∈ (s.trackers name).active ↔
      (∃ e, s.execution? h = some e ∧ e.tracker = some name ∧ e.phase.registered = true ∧
        e.registration = some id) ∨ (⟨name, id⟩, h) ∈ guards := by
  rw [(hl.entries name).perm.mem_iff, List.mem_append]
  refine or_congr ?_ ?_
  · rw [entriesIn, List.mem_filterMap]
    constructor
    · rintro ⟨e, he, hentry⟩
      obtain ⟨htracker, hregistered, hid, hhandle⟩ := Execution.entryIn_eq_some_iff.mp hentry
      obtain ⟨i, hi⟩ := List.mem_iff_getElem?.mp he
      obtain ⟨r, capacity, pid, program, child, hreaches⟩ := hl.runs i e hi
      have hsame : i = h := hreaches.enrolled.handle.symm.trans hhandle
      exact ⟨e, hsame ▸ hi, htracker, hregistered, hid⟩
    · rintro ⟨e, he, htracker, hregistered, hid⟩
      obtain ⟨r, capacity, pid, program, child, hreaches⟩ := hl.runs h e he
      exact ⟨e, List.mem_of_getElem? he, Execution.entryIn_eq_some_iff.mpr
        ⟨htracker, hregistered, hid, hreaches.enrolled.handle⟩⟩
  · rw [Guard.entriesIn, List.mem_filterMap]
    constructor
    · rintro ⟨⟨⟨tracker, id'⟩, h'⟩, hmem, heq⟩
      simp only [Option.ite_none_right_eq_some, Option.some.injEq, Prod.mk.injEq] at heq
      obtain ⟨rfl, rfl, rfl⟩ := heq
      exact hmem
    · intro hmem
      exact ⟨_, hmem, if_pos rfl⟩

theorem mem_handles_iff (hl : Ledger guards s) :
    h ∈ (s.trackers name).handles ↔
      (∃ e, s.execution? h = some e ∧ e.tracker = some name ∧ e.phase.registered = true) ∨
      ∃ id, (⟨name, id⟩, h) ∈ guards := by
  have hmem : h ∈ (s.trackers name).handles ↔ ∃ id, (id, h) ∈ (s.trackers name).active := by
    simp [Tracker.handles]
  rw [hmem]
  simp only [hl.mem_active_iff, exists_or]
  refine or_congr_left ⟨?_, ?_⟩
  · rintro ⟨id, e, he, htracker, hregistered, -⟩
    exact ⟨e, he, htracker, hregistered⟩
  · rintro ⟨e, he, htracker, hregistered⟩
    obtain ⟨r, capacity, pid, program, child, hreaches⟩ := hl.runs h e he
    obtain ⟨id, hid⟩ := hreaches.enrolled.registration_isSome htracker hregistered
    exact ⟨id, e, he, htracker, hregistered, hid⟩

theorem active_eq (hl : Ledger guards s) (name : String) :
    s.active name = s.registeredIn name + guards.countP (·.1.tracker = name) := by
  rw [active, Tracker.count, (hl.entries name).perm.length_eq, List.length_append, entriesIn,
    Guard.entriesIn, List.length_filterMap_eq_countP, List.length_filterMap_eq_countP, registeredIn]
  refine congrArg₂ (· + ·) (List.countP_congr fun e he => ?_) (List.countP_congr fun held _ => ?_)
  · obtain ⟨i, hi⟩ := List.mem_iff_getElem?.mp he
    obtain ⟨r, capacity, pid, program, child, hreaches⟩ := hl.runs i e hi
    rw [Bool.and_eq_true, beq_iff_eq, Option.isSome_iff_exists]
    constructor
    · rintro ⟨⟨id, h⟩, hentry⟩
      obtain ⟨htracker, hregistered, -⟩ := Execution.entryIn_eq_some_iff.mp hentry
      exact ⟨htracker, hregistered⟩
    · rintro ⟨htracker, hregistered⟩
      obtain ⟨id, hid⟩ := hreaches.enrolled.registration_isSome htracker hregistered
      exact ⟨_, Execution.entryIn_eq_some_iff.mpr ⟨htracker, hregistered, hid, rfl⟩⟩
  · by_cases htracker : held.1.tracker = name
    · simp [htracker]
    · simp [htracker]

end Ledger

/-- A move of an execution that is tracked is one with its tracker. -/
theorem step_of_move (found : s.execution? h = some e) (tracker : e.tracker = some name)
    (moves : s.move h m = some s') (found' : s'.execution? h = some e') :
    e.step m (s.trackers name) = some (s'.trackers name, e') := by
  obtain ⟨e₁, t', e₂, hfound, hstep, rfl⟩ := move_cases moves
  rw [found] at hfound
  injection hfound with hfound
  subst hfound
  obtain ⟨hlt, -⟩ := List.getElem?_eq_some_iff.mp found
  rw [execution?, List.getElem?_set_self hlt] at found'
  injection found' with found'
  subst found'
  have hname : trackerName e = name := by
    rw [trackerName, tracker]
    rfl
  rw [hname] at hstep ⊢
  rw [hstep]
  exact congrArg (fun t => some (t, e₂)) (trackers_setTracker_same s name t').symm

/-- What the trackers of a session know at a moment, where `guards` are held and `n` registrations
were or are still to be made. -/
structure Tracks (n : Nat) (guards : List (Guard × Handle)) (s : Session) : Prop where
  /-- A tracker counts the executions that are registered and not released, and the guards. -/
  active : ∀ name, s.active name = s.registeredIn name + guards.countP (·.1.tracker = name)
  handles : ∀ name h, h ∈ (s.trackers name).handles ↔
    (∃ e, s.execution? h = some e ∧ e.tracker = some name ∧ e.phase.registered = true) ∨
    ∃ id, (⟨name, id⟩, h) ∈ guards
  /-- An execution has its entry before and after a move that calls start or line listeners. -/
  called : ∀ h m s' e e' name, s.execution? h = some e → e.tracker = some name →
    s.move h m = some s' → s'.execution? h = some e' →
    (e'.starts ≠ e.starts ∨ ∃ c, e'.told c ≠ e.told c) →
    ∃ id, e.registration = some id ∧ (id, h) ∈ (s.trackers name).active ∧
      (id, h) ∈ (s'.trackers name).active
  /-- When exit listeners are called it has none, but those that are held by guards. -/
  exited : ∀ h m s' e e' name, s.execution? h = some e → e.tracker = some name →
    s.move h m = some s' → s'.execution? h = some e' → e'.exits ≠ e.exits →
    ∀ id, (id, h) ∈ (s.trackers name).active ∨ (id, h) ∈ (s'.trackers name).active →
      (⟨name, id⟩, h) ∈ guards
  /-- All that is registered is destroyed and counted, and nothing else changes. -/
  destroyAll : ∀ name, (s.destroyAll name).1 = s.active name ∧
    (s.destroyAll name).2.trackers = s.trackers ∧
    (s.destroyAll name).2 = (s.trackers name).handles.foldl destroy s ∧
    ∀ h, (s.destroyAll name).2.execution? h =
      (s.execution? h).map fun e => if h ∈ (s.trackers name).handles then e.destroy else e
  /-- Executions that are over leave nothing behind. -/
  done : (∀ e ∈ s.executions, e.done = true) →
    ∀ name, s.active name = guards.countP (·.1.tracker = name)
  fresh : n < UInt64.size → s.Fresh

/-- Whatever becomes of a session, its trackers know the executions that are to be destroyed with
them, and no others. -/
theorem Unfolds.tracks (hu : Unfolds n guards s) : Tracks n guards s := by
  have hl := hu.ledger
  constructor
  · exact hl.active_eq
  · exact fun name h => hl.mem_handles_iff
  · intro h m s' e e' name found tracker moves found' called
    obtain ⟨r, capacity, pid, program, child, hreaches⟩ := hl.runs h e found
    obtain ⟨hregistered, hsame⟩ := hreaches.wired.registered_of_called
      (step_of_move found tracker moves found') called
    obtain ⟨id, hid⟩ := hreaches.enrolled.registration_isSome tracker hregistered
    have hmem := hl.mem_active_iff.mpr (.inl ⟨e, found, tracker, hregistered, hid⟩)
    rw [hsame]
    exact ⟨id, hid, hmem, hmem⟩
  · intro h m s' e e' name found tracker moves found' exited id hmem
    obtain ⟨r, capacity, pid, program, child, hreaches⟩ := hl.runs h e found
    obtain ⟨hregistered, hsame⟩ := hreaches.wired.released_of_exited
      (step_of_move found tracker moves found') exited
    rw [hsame, or_self, hl.mem_active_iff] at hmem
    refine hmem.resolve_left ?_
    -- An entry of its own would need the execution to be registered still.
    rintro ⟨e₁, found₁, -, hregistered₁, -⟩
    rw [found] at found₁
    injection found₁ with found₁
    rw [← found₁, hregistered] at hregistered₁
    contradiction
  · intro name
    rw [destroyAll_eq, foldl_destroy]
    refine ⟨rfl, rfl, rfl, fun h => ?_⟩
    rw [execution?_destroying]
    simp only [List.contains_iff_mem]
  · intro hdone name
    have hnone : s.registeredIn name = 0 := by
      rw [registeredIn, List.countP_eq_zero]
      intro e he
      rw [show e.phase = .finished from eq_of_beq (hdone e he)]
      simp [Phase.registered]
    rw [hl.active_eq, hnone, Nat.zero_add]
  · exact fun few name => (hu.numbered few name).fresh

/-- Makes moves of executions one after another, of which each must be possible. -/
def moves : List (Handle × Move) → Session → Option Session
  | [], s => some s
  | (h, m) :: rest, s =>
    match s.move h m with
    | some s => moves rest s
    | none => none

theorem Unfolds.moves {all : List (Handle × Move)} (hu : Unfolds n guards s) (few : n < UInt64.size)
    (h : Session.moves all s = some s') : Unfolds n guards s' := by
  induction all generalizing s with
  | nil =>
    injection h with h
    exact h ▸ hu
  | cons first rest ih =>
    obtain ⟨h₁, m₁⟩ := first
    unfold Session.moves at h
    split at h
    · exact ih (hu.moved (fun name => (hu.numbered few name).fresh) ‹_›) h
    · contradiction

/-- A child can be started for any command that is well formed. -/
theorem Unfolds.beginning (hu : Unfolds n guards s) {r : Runner} {c : Command} {child : Child}
    (check : c.check = .ok ()) :
    Unfolds (n + 1) guards { s with executions := s.executions ++ [s.beginning r c child] } := by
  have hbegin : s.begin (fun _ _ => .ok child) r c =
      (.ok s.executions.length,
        { s with executions := s.executions ++ [s.beginning r c child] }) := by
    rw [begin_eq, check]
  exact hu.begun hbegin

/-- A runner that registers its children and has listeners of most kinds. -/
def trackedRunner : Runner where
  mode := .asynchronous
  routing := .captured
  listeners :=
    { start := [.ofReaction fun _ => .quiet]
      stdout := [.ofReaction fun _ => .quiet]
      exit := [.ofReaction fun _ => .quiet] }
  suits := rfl
  tracker := some "main"

def trackedChild : Child := .ofActs [.write .stdout [97, 10]] (.exited 0)

/-- Two executions of one command. -/
def pair : Session :=
  let command : Command := .new [99, 97, 116]
  let first := Session.empty.beginning trackedRunner command trackedChild
  let one := { Session.empty with executions := [first] }
  { one with executions := [first, one.beginning trackedRunner command trackedChild] }

/-- The first one runs to its end, and the second one is started. -/
def earlyMoves : List (Handle × Move) :=
  [(0, .supervisor), (1, .supervisor), (0, .supervisor), (0, .supervisor), (0, .supervisor),
    (0, .child none), (0, .child none), (1, .supervisor), (0, .supervisor), (0, .reader .stdout),
    (0, .reader .stdout), (0, .reader .stdout), (0, .reader .stdout), (0, .reader .stdout),
    (0, .supervisor), (0, .supervisor), (0, .supervisor), (1, .supervisor), (0, .supervisor),
    (0, .supervisor), (1, .supervisor)]

/-- The second one ends because its handle is destroyed. -/
def lateMoves : List (Handle × Move) :=
  [(1, .cancellation), (1, .supervisor), (1, .reader .stdout), (1, .supervisor), (1, .supervisor),
    (1, .supervisor), (1, .supervisor), (1, .supervisor)]

/-- The second execution is registered once more by hand before everything is destroyed. -/
def pairRun : Option Session :=
  (moves earlyMoves pair).bind fun s => moves lateMoves ((s.track "main" 1).2.destroyAll "main").2

/-- When both executions are over, one of which was destroyed, the guard alone is counted. -/
theorem tracks_pair :
    ∃ n guards s, Unfolds n guards s ∧ Tracks n guards s ∧ s.active "main" = 1 ∧
      s.isDestroyed 0 = false ∧ s.isDestroyed 1 = true ∧
      s.executions.map Execution.done = [true, true] := by
  have hrun : pairRun.map (fun s => (s.active "main", s.isDestroyed 0, s.isDestroyed 1,
      s.executions.map Execution.done)) = some (1, false, true, [true, true]) := by decide +kernel
  obtain ⟨s, hs, heq⟩ := Option.map_eq_some_iff.mp hrun
  simp only [Prod.mk.injEq] at heq
  obtain ⟨between, hearly, hlate⟩ := Option.bind_eq_some_iff.mp hs
  have hpair : Unfolds 2 [] pair := (Unfolds.empty.beginning rfl).beginning rfl
  have hbetween := hpair.moves (by decide) hearly
  have hfresh : between.Fresh := fun name => (hbetween.numbered (by decide) name).fresh
  have hguarded := hbetween.tracked hfresh "main" 1
  have hend := (hguarded.destroyedAll "main").moves (by decide) hlate
  exact ⟨_, _, s, hend, Unfolds.tracks hend, heq⟩

end Session

end ToolRunner
