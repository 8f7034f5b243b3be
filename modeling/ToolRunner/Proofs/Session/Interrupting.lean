import ToolRunner.Proofs.Session.Registering

/-!
# Interrupting a session

A call that destroys everything notes which handles are registered, and destroys them one after
another while the executions go on (`Session.Interrupts`). Of the children that have not ended it
reaches those that are registered when the note is taken. A child that has been started, and that
its supervisor has not come to register yet, escapes (`Unfolds.interrupted_iff`).
-/

namespace ToolRunner

namespace Execution

variable {r : Runner} {e e' : Execution} {m : Move}

/-- A handle that is destroyed stays so. -/
theorem Change.stays_destroyed (hc : Change e m e') (destroyed : e.destroyed = true) :
    e'.destroyed = true := by
  cases hc with
  | startCalled => exact Bool.or_eq_true_iff.mpr (.inl destroyed)
  | exitCalled => exact Bool.or_eq_true_iff.mpr (.inl destroyed)
  | read => exact Bool.or_eq_true_iff.mpr (.inl destroyed)
  | destroyed => rfl
  | _ => exact destroyed

theorem Reaches.stays_destroyed (h : e.Reaches e') (destroyed : e.destroyed = true) :
    e'.destroyed = true :=
  h.invariant destroyed fun _ hd hc => hc.stays_destroyed hd

/-- The child of a run that is not registered either has not been noticed yet or has ended. -/
theorem Wired.registered_iff_of_running (hw : Wired r e) (running : e.child.status = none) :
    e.phase.registered = true ↔ e.phase ≠ .spawned := by
  have hreaped : ¬ e.phase.reaped = true := by
    intro hphase
    have hstatus := hw.reaped (.inl hphase)
    rw [running] at hstatus
    contradiction
  cases hphase : e.phase with
  | spawned => simp [Phase.registered]
  | notifying next => exact absurd (by rw [hphase]; rfl) hreaped
  | finished => exact absurd (by rw [hphase]; rfl) hreaped
  | refused cause => exact absurd hphase (hw.accepted cause)
  | _ => simp [Phase.registered]

end Execution

namespace Session

variable {s s' : Session} {guards : List (Guard × Handle)} {e : Execution} {h : Handle}
variable {m : Move} {name : String} {n : Nat} {handles : List Handle}

/-- Some handles are destroyed, one after another, and meanwhile executions are begun and the
parties of all executions make their moves. -/
inductive Interrupts : List Handle → Session → Session → Prop where
  | idle (s : Session) : Interrupts [] s s
  | destroyed {handles : List Handle} {s s' : Session} (h : Handle)
      (rest : Interrupts handles (s.destroy h) s') : Interrupts (h :: handles) s s'
  | begun {handles : List Handle} {s between s' : Session} {spawn : Spawn} {r : Runner}
      {c : Command} {h : Handle} (begins : s.begin spawn r c = (.ok h, between))
      (rest : Interrupts handles between s') : Interrupts handles s s'
  | moved {handles : List Handle} {s between s' : Session} {h : Handle} {m : Move}
      (moves : s.move h m = some between) (rest : Interrupts handles between s') :
      Interrupts handles s s'
  | waited {handles : List Handle} {s s' : Session} (time : Nat)
      (rest : Interrupts handles { s with time := time } s') : Interrupts handles s s'

/-! ## Who is reached -/

theorem Follows.begun {between : Session} {other : Handle} {spawn : Spawn} {r : Runner}
    {c : Command} (hf : Follows h e s) (begins : s.begin spawn r c = (.ok other, between)) :
    Follows h e between := by
  obtain ⟨e', found, hreaches⟩ := hf
  obtain ⟨child, -, -, -, rfl⟩ := begin_cases begins
  obtain ⟨hlt, -⟩ := List.getElem?_eq_some_iff.mp found
  exact ⟨e', (List.getElem?_append_left hlt).trans found, hreaches⟩

theorem Follows.destroy (hf : Follows h e s) (other : Handle) : Follows h e (s.destroy other) := by
  obtain ⟨e', found, hreaches⟩ := hf
  refine ⟨if h == other then e'.destroy else e', ?_, ?_⟩
  · rw [destroy_eq, execution?_destroying, found]
    rfl
  · split
    · exact hreaches.move (m := .destroy) (t := .new) rfl
    · exact hreaches

theorem Interrupts.follows (hi : Interrupts handles s s') (hf : Follows h e s) :
    Follows h e s' := by
  induction hi with
  | idle s => exact hf
  | destroyed other rest ih => exact ih (hf.destroy other)
  | begun begins rest ih => exact ih (hf.begun begins)
  | moved moves rest ih => exact ih (hf.move moves)
  | waited time rest ih => exact ih hf

/-- Every handle that is to be destroyed has been when the call is over, whatever happens
meanwhile. -/
theorem Interrupts.isDestroyed_of_mem (hi : Interrupts handles s s') (mem : h ∈ handles)
    (hf : Follows h e s) : s'.isDestroyed h = true := by
  induction hi with
  | idle s => contradiction
  | @destroyed handles s s' other rest ih =>
    rcases List.mem_cons.mp mem with rfl | hmem
    · obtain ⟨now, found, -⟩ := hf
      have hnow : Follows h now.destroy (s.destroy h) := by
        refine ⟨now.destroy, ?_, .refl⟩
        rw [destroy_eq, execution?_destroying, found, Option.map_some, beq_self_eq_true, if_pos rfl]
      obtain ⟨later, found', hreaches⟩ := rest.follows hnow
      rw [isDestroyed, found']
      exact hreaches.stays_destroyed rfl
    · exact ih hmem (hf.destroy other)
  | begun begins rest ih => exact ih mem (hf.begun begins)
  | moved moves rest ih => exact ih mem (hf.move moves)
  | waited time rest ih => exact ih mem hf

/-- The handle of a child that has not ended is destroyed by a call that destroys everything exactly
if it was destroyed before, or the child was registered when the call noted whom to destroy: by its
supervisor, who does so after the start and not with it, or by hand. Nothing that happens during the
call saves a child that was registered. -/
theorem Unfolds.interrupted_iff (hu : Unfolds n guards s) (found : s.execution? h = some e)
    (tracker : e.tracker = some name) (running : e.child.status = none) :
    ((s.destroyAll name).2.isDestroyed h = true ↔
      e.destroyed = true ∨ e.phase ≠ .spawned ∨ ∃ id, (⟨name, id⟩, h) ∈ guards) ∧
    ∀ handles s', handles.Perm (s.trackers name).handles → Interrupts handles s s' →
      (e.phase ≠ .spawned ∨ ∃ id, (⟨name, id⟩, h) ∈ guards) → s'.isDestroyed h = true := by
  have hl := hu.ledger
  obtain ⟨r, capacity, pid, program, child, hreaches⟩ := hl.runs h e found
  have hregistered := hreaches.wired.registered_iff_of_running running
  have hmem : h ∈ (s.trackers name).handles ↔
      e.phase ≠ .spawned ∨ ∃ id, (⟨name, id⟩, h) ∈ guards := by
    rw [hl.mem_handles_iff, ← hregistered]
    refine or_congr_left ⟨?_, fun hphase => ⟨e, found, tracker, hphase⟩⟩
    rintro ⟨e₁, found₁, -, hphase⟩
    rw [found] at found₁
    injection found₁ with found₁
    rwa [found₁]
  constructor
  · have hfound : (s.execution? h).isSome = true := by
      rw [found]
      rfl
    have hdestroyed : s.isDestroyed h = e.destroyed := by
      rw [isDestroyed, found]
      rfl
    rw [destroyAll_eq, Registry.isDestroyed_destroying _ s hfound, hdestroyed, Bool.or_eq_true,
      List.contains_iff_mem, hmem]
  · intro handles s' hperm hi hreached
    exact hi.isDestroyed_of_mem (hperm.mem_iff.mpr (hmem.mpr hreached)) ⟨e, found, .refl⟩

/-- When the first of two started children is registered, it is destroyed, and the second is not. -/
theorem interrupted_iff_pair :
    ∃ s e₀ e₁, Unfolds 2 [] s ∧ s.execution? 0 = some e₀ ∧ e₀.tracker = some "main" ∧
      e₀.child.status = none ∧ s.execution? 1 = some e₁ ∧ e₁.tracker = some "main" ∧
      e₁.child.status = none ∧ (s.destroyAll "main").2.isDestroyed 0 = true ∧
      ¬ (s.destroyAll "main").2.isDestroyed 1 = true := by
  have hpair : Unfolds 2 [] pair := (Unfolds.empty.beginning rfl).beginning rfl
  have hrun : (moves [(0, .supervisor)] pair).map (fun s => s.executions.map fun e =>
      (e.tracker, e.child.status, e.phase, e.destroyed)) =
        some [(some "main", none, .wiring, false), (some "main", none, .spawned, false)] := by
    decide +kernel
  obtain ⟨s, hmoves, heq⟩ := Option.map_eq_some_iff.mp hrun
  have hu := hpair.moves (by decide) hmoves
  obtain ⟨e₀, rest, hexecutions, hfirst, hrest⟩ := List.map_eq_cons_iff.mp heq
  obtain ⟨e₁, none_left, hrest, hsecond, -⟩ := List.map_eq_cons_iff.mp hrest
  simp only [Prod.mk.injEq] at hfirst hsecond
  obtain ⟨htracker₀, hstatus₀, hphase₀, -⟩ := hfirst
  obtain ⟨htracker₁, hstatus₁, hphase₁, hdestroyed₁⟩ := hsecond
  have hfound₀ : s.execution? 0 = some e₀ := by
    rw [execution?, hexecutions]
    rfl
  have hfound₁ : s.execution? 1 = some e₁ := by
    rw [execution?, hexecutions, hrest]
    rfl
  refine ⟨s, e₀, e₁, hu, hfound₀, htracker₀, hstatus₀, hfound₁, htracker₁, hstatus₁, ?_, ?_⟩
  · refine (Unfolds.interrupted_iff hu hfound₀ htracker₀ hstatus₀).1.mpr (.inr (.inl ?_))
    rw [hphase₀]
    decide
  · intro hdestroyed
    rcases (Unfolds.interrupted_iff hu hfound₁ htracker₁ hstatus₁).1.mp hdestroyed with
      hbefore | hphase | ⟨id, hguard⟩
    · rw [hdestroyed₁] at hbefore
      contradiction
    · exact hphase hphase₁
    · contradiction

/-- A session in which one child has been started and nothing else has happened. -/
def startedSession : Session :=
  { Session.empty with
    executions := [Session.empty.beginning trackedRunner (.new [99, 97, 116]) trackedChild] }

/-- The child is registered at last, and runs to its end. -/
def lateRegistration : List (Handle × Move) :=
  List.replicate 4 (0, .supervisor) ++ List.replicate 2 (0, .child none) ++ [(0, .supervisor)] ++
    List.replicate 5 (0, .reader .stdout) ++ List.replicate 5 (0, .supervisor)

/-- A child that has been started and is running when everything is destroyed can escape, and runs
to its own end. -/
theorem interrupt_misses_started :
    ∃ n s e s', Unfolds n [] s ∧ s.execution? 0 = some e ∧ e.tracker = some "main" ∧
      e.child.status = none ∧ (s.destroyAll "main").2.isDestroyed 0 = false ∧
      moves lateRegistration (s.destroyAll "main").2 = some s' ∧
      s'.executions.map (fun e => (e.done, e.child.status, e.completion.destroyed)) =
        [(true, some (.exited 0), false)] := by
  have hrun : (moves lateRegistration (startedSession.destroyAll "main").2).map
      (fun s => s.executions.map fun e => (e.done, e.child.status, e.completion.destroyed)) =
        some [(true, some (.exited 0), false)] := by
    decide +kernel
  obtain ⟨s', hmoves, heq⟩ := Option.map_eq_some_iff.mp hrun
  exact ⟨1, startedSession, _, s', Unfolds.empty.beginning rfl, rfl, rfl, rfl, rfl, hmoves, heq⟩

end Session

end ToolRunner
