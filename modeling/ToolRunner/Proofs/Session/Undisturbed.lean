import ToolRunner.Proofs.Session.Ending
import ToolRunner.Proofs.Session.Isolation

/-!
# Runs that nothing disturbs

In most runs only the parties themselves move: no read fails and no waiting, and the handle is not
destroyed. Where no listener fails either, nothing is reported of such a run (`Course.deferred_eq`),
its child ends as it would by itself (`Course.code_eq`), and what comes to the listeners is all that
the child writes (`Course.chunks_eq`). A session makes no other moves (`Session.run_own`).
-/

namespace ToolRunner

namespace Registration

variable {α : Type} {r : Registration α}

/-- Whether the listener never fails. -/
def Faultless (r : Registration α) : Prop := ∀ calls a, (r.respond calls a).outcome = .done

theorem Faultless.callAll (h : r.Faultless) (as : List α) : (r.callAll as).Faultless := by
  intro calls a
  rw [respond_callAll]
  exact h calls a

theorem Faultless.failure?_eq_none (h : r.Faultless) (a : α) (event : Event) (index : Nat) :
    (r.reaction a).failure? event index = none := by
  rw [Reaction.failure?, show (r.reaction a).outcome = .done from h _ a]
  rfl

end Registration

theorem callFailures_eq_nil {α : Type} {event : Event} {listeners : List (Registration α)}
    (h : ∀ l ∈ listeners, l.Faultless) (calls : List (Nat × α)) :
    callFailures event listeners calls = [] := by
  refine List.filterMap_eq_nil_iff.mpr fun call _ => ?_
  cases hl : listeners[call.1]? with
  | none => rfl
  | some l => exact (h l (List.mem_of_getElem? hl)).failure?_eq_none _ _ _

/-- The calls of listeners that never fail come back. -/
theorem Line.outcome_of_mem_calls {listeners : List (Registration String)}
    (h : ∀ l ∈ listeners, l.Faultless) {texts : List String} {call : Line.Call}
    (hcall : call ∈ Line.calls listeners texts) : call.outcome = .done := by
  induction texts generalizing listeners with
  | nil => contradiction
  | cons text texts ih =>
    rcases List.mem_append.mp hcall with hfirst | hlater
    · obtain ⟨⟨l, i⟩, hl, rfl⟩ := List.mem_map.mp hfirst
      exact h l (List.fst_mem_of_mem_zipIdx hl) _ text
    · refine ih (fun l hl => ?_) hlater
      obtain ⟨before, hbefore, rfl⟩ := List.mem_map.mp hl
      exact (h before hbefore).callAll [text]

/-! ## How a child ends -/

namespace Child

variable {c : Child} {which : Option Nat} {ending ending' : Ending}

theorem ending_setTask (c : Child) (which : Option Nat) (t : Task) :
    (c.setTask which t).ending = c.ending ∧ (c.setTask which t).status = c.status := by
  cases which <;> exact ⟨rfl, rfl⟩

theorem ending_endTask (c : Child) (which : Option Nat) (ending : Ending) :
    (c.endTask which ending).ending = c.ending := by
  cases which <;> rfl

theorem status_endTask (h : (c.endTask which ending).status = some ending') :
    c.status = some ending' ∨ ending' = ending := by
  cases which with
  | some i => exact .inl h
  | none =>
    cases hs : c.status with
    | some before =>
      have hkept : (c.endTask none ending).status = some before := status_finish hs ending
      exact .inl (hkept.symm.trans h)
    | none =>
      have hnew : (c.endTask none ending).status = some ending := by
        show (c.status <|> some ending) = _
        rw [hs]
        rfl
      exact .inr (Option.some.inj (h.symm.trans hnew))

theorem Turn.background {c c' : Child} (h : c.Turn c') :
    c'.background.length = c.background.length := by
  cases h with
  | went which =>
    cases which with
    | none => rfl
    | some i => exact List.length_set
  | ended which =>
    cases which with
    | none => rfl
    | some i => exact List.length_modify ..

end Child

namespace Execution

variable {r : Runner} {e e' : Execution} {m : Move} {which : Option Nat}
variable {log : List (Execution × Move)}

/-- How a child ends is as it was before, unless it writes to a pipe that nobody reads from. -/
structure Ends (e e' : Execution) : Prop where
  ending : e'.child.ending = e.child.ending
  status : ∀ ending, e'.child.status = some ending → e.child.status = some ending ∨
    ending = e.child.ending ∨ ∃ c, e.child.keeps c = true ∧ e.readable c = some false

theorem ends_proceed (e : Execution) (which : Option Nat) (t : Task) (acts : List Act)
    (outlets : PerChannel Outlet) (signals : List Signal) :
    Ends e { e.proceed which t acts with outlets := outlets, signals := signals } := by
  obtain ⟨hending, hstatus⟩ := Child.ending_setTask e.child which { t with acts := acts }
  exact ⟨hending, fun ending h => .inl (hstatus.symm.trans h)⟩

theorem write_ends {t : Task} {channel : Channel} {bytes : Bytes} {acts : List Act}
    (found : e.child.task? which = some t) (running : t.ended = false)
    (h : e.write which t channel bytes acts = some e') : Ends e e' := by
  unfold write at h
  split at h
  · injection h with h
    subst h
    exact ends_proceed e which t acts e.outlets e.signals
  · rename_i hsomething
    split at h
    · injection h with h
      subst h
      exact ends_proceed e which t acts e.outlets e.signals
    · injection h with h
      subst h
      exact ends_proceed e which t acts _ e.signals
    · rename_i p houtlet
      split at h
      · rename_i hbroken
        injection h with h
        subst h
        have hkeeps : t.keeps channel = true := by
          simp only [Bool.or_eq_true, Bool.not_eq_true', not_or, Bool.not_eq_false] at hsomething
          rw [Task.keeps, hsomething.1, running]
          rfl
        refine ⟨Child.ending_endTask _ _ _, fun ending hstatus => ?_⟩
        refine .inr (.inr ⟨channel, Child.keeps_iff.mpr ⟨which, t, found, hkeeps⟩, ?_⟩)
        rw [Bool.not_eq_true'] at hbroken
        rw [readable, houtlet, ← hbroken]
        rfl
      split at h
      · contradiction
      · injection h with h
        subst h
        exact ends_proceed e which t _ _ e.signals

theorem act_ends (h : e.act which = some e') : Ends e e' := by
  unfold act at h
  split at h
  · contradiction
  rename_i t found
  split at h
  · contradiction
  rename_i hrunning
  split at h
  · injection h with h
    subst h
    refine ⟨Child.ending_endTask _ _ _, fun ending hstatus => ?_⟩
    exact (Child.status_endTask hstatus).imp_right .inl
  · exact write_ends found (Bool.eq_false_iff.mpr hrunning) h
  · injection h with h
    subst h
    exact ends_proceed e which _ _ e.outlets e.signals
  · injection h with h
    subst h
    exact ends_proceed e which _ _ e.outlets e.signals
  · contradiction
  · injection h with h
    subst h
    exact ends_proceed e which t _ e.outlets _

/-! ## Runs in which only the parties move -/

/-- All moves are those of the parties themselves. -/
def Own (log : List (Execution × Move)) : Prop := ∀ now ∈ log, now.2.own = true

theorem own_append {later : List (Execution × Move)} :
    Own (log ++ later) ↔ Own log ∧ Own later := List.forall_mem_append

/-- A party that calls no listener that fails fails at nothing. -/
theorem raised_eq_nil (hr : Recorded r e) (faultless : r.listeners.Each Registration.Faultless)
    (own : m.own = true) : e.raised m = [] := by
  have hall : e.listeners.Each Registration.Faultless :=
    (recorded_iff.mp hr).each (fun hp => hp.callAll _) faultless
  cases m with
  | supervisor =>
    simp only [raised]
    split
    · exact callFailures_eq_nil hall.start _
    · exact callFailures_eq_nil hall.exit _
    · rfl
  | reader c =>
    refine List.filterMap_eq_nil_iff.mpr fun call hcall => ?_
    have hdone := Line.outcome_of_mem_calls (onLine_listeners e c ▸ hall.lines c) hcall
    rw [Line.Call.failure?, hdone]
    rfl
  | cancellation => rfl
  | child which => rfl
  | destroy => contradiction
  | readFailure c message => contradiction
  | waitFailure message => contradiction

section

variable {capacity : Capacity} {handle : Handle} {pid : Nat} {program : String} {child : Child}

/-- Nothing fails. -/
theorem Course.raised (h : (r.execution capacity handle pid program child).Course log e)
    (own : Own log) (faultless : r.listeners.Each Registration.Faultless) :
    Logs Execution.raised (r.execution capacity handle pid program child) [] e := by
  induction h with
  | refl => exact .refl
  | @move before after log m t t' reached step ih =>
    obtain ⟨hearlier, hnow⟩ := own_append.mp own
    have hnone := raised_eq_nil reached.reaches.recorded faultless
      (hnow _ (List.mem_singleton_self _))
    have hlogs := (ih hearlier).move step
    rwa [hnone] at hlogs

/-- No listener destroys the handle, and nobody else does. -/
theorem Course.kept (h : (r.execution capacity handle pid program child).Course log e)
    (own : Own log) (calm : r.listeners.Each Registration.Calm) : e.destroyed = false := by
  rw [Bool.eq_false_iff]
  intro hdestroyed
  obtain ⟨now, hnow, hdestroys⟩ := h.heeded.destroyed.mp hdestroyed
  have hmove := eq_destroy_of_calm (h.reaches_of_mem hnow).recorded calm hdestroys
  have hown := own now hnow
  rw [hmove] at hown
  contradiction

theorem Course.deferred_eq (h : (r.execution capacity handle pid program child).Course log e)
    (own : Own log) (faultless : r.listeners.Each Registration.Faultless) (done : e.done = true) :
    e.completion.deferred = [] :=
  (h.raised own faultless).gathered.deferred_perm done |>.eq_nil

theorem Course.undisturbed (h : (r.execution capacity handle pid program child).Course log e)
    (own : Own log) (faultless : r.listeners.Each Registration.Faultless) (done : e.done = true)
    (kept : e.destroyed = false) (c : Channel) : Undisturbed c e := by
  refine ⟨done, kept, fun message hmem => ?_⟩
  rw [h.deferred_eq own faultless done] at hmem
  contradiction

/-- No read fails. -/
theorem Course.not_failed (h : (r.execution capacity handle pid program child).Course log e)
    (own : Own log) (faultless : r.listeners.Each Registration.Faultless) {c : Channel}
    {rd : Reader} (reader : e.readers.get c = some rd) (message : String) :
    rd.drain.stop ≠ some (.failed message) := by
  intro hstop
  have hreported := (h.raised own faultless).gathered.reader c
  have hfailures := (h.reaches.accounted c rd reader).failures_eq
  rw [hstop] at hfailures
  rw [reported, reader] at hreported
  have hnone : rd.drain.failures.toList = [] := hreported
  rw [hnone] at hfailures
  exact absurd hfailures.symm (by simp [Line.Stop.readFailure])

/-- The child ends by itself. -/
theorem Course.ends (h : (r.execution capacity handle pid program child).Course log e)
    (own : Own log) (faultless : r.listeners.Each Registration.Faultless)
    (kept : e.destroyed = false) :
    e.child.ending = child.ending ∧ ∀ ending, e.child.status = some ending →
      child.status = some ending ∨ ending = child.ending := by
  induction h with
  | refl => exact ⟨rfl, fun ending h => .inl h⟩
  | @move before after log m t t' reached step ih =>
    obtain ⟨hearlier, -⟩ := own_append.mp own
    have hreached : (r.execution capacity handle pid program child).Course log before := reached
    have hbefore : before.destroyed = false := by
      rw [Bool.eq_false_iff] at kept ⊢
      exact fun hd => kept (((step_change step).destroyed_iff hreached.heeded.tokens).mpr (.inl hd))
    obtain ⟨hending, hstatus⟩ := ih hearlier hbefore
    have hsame (hchild : after.child = before.child) : after.child.ending = child.ending ∧
        ∀ ending, after.child.status = some ending →
          child.status = some ending ∨ ending = child.ending := by
      rw [hchild]
      exact ⟨hending, hstatus⟩
    cases step_flow step with
    | wrote goes =>
      have hends := act_ends (after_eq_of_map step)
      refine ⟨hends.ending.trans hending, fun ending hafter => ?_⟩
      rcases hends.status ending hafter with hold | hnew | ⟨c, hkeeps, hbroken⟩
      · exact hstatus ending hold
      · exact .inr (hnew.trans hending)
      · have hnone : ∀ c rd message, before.readers.get c = some rd →
            rd.drain.stop ≠ some (.failed message) :=
          fun c rd message hrd => hreached.not_failed hearlier faultless hrd message
        exact absurd hbroken
          (Owed.not_broken reached.reaches.wired hreached.writes.kept hbefore hnone hkeeps)
    | read c rd p s => exact hsame rfl
    | aside puts aside =>
      rcases aside.child with hchild | ⟨-, hdestroyed | ⟨cause, hrefused⟩⟩
      · exact hsame hchild
      · rw [kept] at hdestroyed
        contradiction
      · exact absurd hrefused ((reached.move step).reaches.wired.accepted cause)

/-- The exit code is the one with which the child ends. -/
theorem Course.code_eq (h : (r.execution capacity handle pid program child).Course log e)
    (own : Own log) (faultless : r.listeners.Each Registration.Faultless)
    (running : child.status = none) (done : e.done = true) (kept : e.destroyed = false) :
    e.code = child.ending.code?.getD (-1) := by
  have hreaped : e.phase.reaped = true := by
    rw [show e.phase = .finished from eq_of_beq done]
    rfl
  cases h.reaches.waited.after hreaped with
  | waited ending status code =>
    rcases (h.ends own faultless kept).2 ending status with hbefore | rfl
    · rw [running] at hbefore
      contradiction
    · exact code
  | unknown message code wait =>
    have hreported : .wait message ∈ e.completion.deferred := List.mem_append_right _ wait
    rw [h.deferred_eq own faultless done] at hreported
    contradiction

/-! ## What the child writes -/

theorem Reaches.background (h : (r.execution capacity handle pid program child).Reaches e) :
    e.child.background.length = child.background.length := by
  induction h with
  | refl => rfl
  | move reached step ih =>
    cases step_change step with
    | acted which child outlets signals turn => exact turn.background.trans ih
    | _ => exact ih

/-- A child that leaves nothing in the background does everything itself. -/
theorem Writes.putsOf_main {puts : List Put}
    (h : (r.execution capacity handle pid program child).Writes puts e)
    (alone : child.background = []) : putsOf none puts = puts := by
  induction h with
  | refl => rfl
  | @move before after puts m t t' reached step ih =>
    have hmain : putsOf none (before.puts m) = before.puts m := by
      cases m with
      | child which =>
        cases which with
        | none => exact (putsOf_puts before none none).trans (if_pos rfl)
        | some i =>
          have hlength := Reaches.background reached.reaches
          rw [alone, List.length_nil, List.length_eq_zero_iff] at hlength
          have hnobody : before.child.task? (some i) = none := by
            rw [Child.task?, hlength]
            rfl
          rw [Execution.puts, hnobody]
          rfl
      | _ => rfl
    rw [putsOf_append, ih, hmain]

/-- What has come out of a pipe is all that the child writes to it. -/
theorem Course.chunks_eq (h : (r.execution capacity handle pid program child).Course log e)
    (own : Own log) (faultless : r.listeners.Each Registration.Faultless) (done : e.done = true)
    (kept : e.destroyed = false) (alone : child.background = []) {c : Channel}
    (hne : r.listeners.onLine c ≠ []) : (e.chunks c).flatten = child.main.output c := by
  have hwrites := h.writes
  have hundisturbed := h.undisturbed own faultless done kept c
  obtain ⟨-, -, -, ⟨hclosed, -⟩, -⟩ := hwrites.reader_of_undisturbed hne hundisturbed
  obtain ⟨now, hnow, hall⟩ := hwrites.owed kept
    (fun c rd message hrd => h.not_failed own faultless hrd message) none child.main rfl
  -- Nobody keeps the channel open, and so nobody has anything more to write on it.
  have hnokeeps : now.keeps c = false := by
    refine Bool.eq_false_iff.mpr fun hkeeps => ?_
    have hopen : e.child.keeps c = true := Child.keeps_iff.mpr ⟨none, now, hnow, hkeeps⟩
    rw [closed, hopen] at hclosed
    contradiction
  rw [(hwrites.delivered hne hundisturbed).read, hall, Task.output_of_not_keeps hnokeeps,
    List.append_nil, hwrites.putsOf_main alone]

end

end Execution

/-! ## Sessions -/

namespace Session

variable {s s' : Session} {e : Execution} {h other : Handle} {m : Move}

/-- The execution of a handle is one that another becomes by moves of its parties. -/
def Proceeds (h : Handle) (e : Execution) (s : Session) : Prop :=
  ∃ log e', s.execution? h = some e' ∧ e.Course log e' ∧ Execution.Own log

theorem Proceeds.move (hp : Proceeds h e s) (own : m.own = true)
    (moves : s.move other m = some s') : Proceeds h e s' := by
  obtain ⟨log, before, hbefore, hcourse, hown⟩ := hp
  obtain ⟨e₁, t', e', hfound, hstep, rfl⟩ := move_cases moves
  by_cases hsame : h = other
  · subst hsame
    obtain ⟨hlt, -⟩ := List.getElem?_eq_some_iff.mp hbefore
    obtain rfl : before = e₁ := Option.some.inj (hbefore.symm.trans hfound)
    refine ⟨_, e', List.getElem?_set_self hlt, hcourse.move hstep, ?_⟩
    exact Execution.own_append.mpr ⟨hown, by simpa [Execution.Own] using own⟩
  · exact ⟨log, before, (List.getElem?_set_ne (Ne.symm hsame)).trans hbefore, hcourse, hown⟩

/-- A session brings a run on by moves of its parties alone. -/
theorem run_own {spawn : Spawn} {r : Runner} {c : Command} {child : Child}
    (spawned : spawn (pidOf s.executions.length) c = .ok child)
    (hrun : s.run spawn r c = (.ok h, s')) : Proceeds h (s.beginning r c child) s' := by
  obtain ⟨between, hbegin, rfl⟩ := run_cases hrun
  obtain ⟨child', -, hspawn, rfl, rfl⟩ := begin_cases hbegin
  obtain rfl : child' = child := Except.ok.inj (hspawn.symm.trans spawned)
  have hbegun : Proceeds s.executions.length (s.beginning r c child') _ :=
    ⟨[], _, execution?_begun s r c child', .refl, by simp [Execution.Own]⟩
  exact advance_invariant_own (fun own hp moves => hp.move own moves) (fun _ hp => hp) _ hbegun

end Session

end ToolRunner
