import ToolRunner.Execution.Begin
import ToolRunner.Proofs.Execution.Turns

/-!
# The changes of an execution

A move that is possible makes one of a few changes (`Change`), each under the conditions under which
the party that moves makes it. Whatever holds of every change holds of every reachable execution;
the tracker may be any at any move, since other executions and its holder have their way with it.
-/

namespace ToolRunner

/-! ## The child -/

namespace Child

/-- A task of a child goes on or ends. -/
inductive Turn (c : Child) : Child → Prop where
  /-- What it still does is what it would have done or the rest of a write. -/
  | went (which : Option Nat) (before after : Task) (found : c.task? which = some before)
      (ended : after.ended = before.ended) (hang : .hang ∈ after.acts → .hang ∈ before.acts) :
      Turn c (c.setTask which after)
  | ended (which : Option Nat) (ending : Ending) : Turn c (c.endTask which ending)

variable {c c' : Child}

@[simp] theorem status_kill (c : Child) : c.kill.status = (c.status <|> some .killed) := rfl

/-- How a child has ended does not change any more. -/
theorem status_finish {e : Ending} (h : c.status = some e) (ending : Ending) :
    (c.finish ending).status = some e := by
  rw [finish, h]
  rfl

theorem Turn.status {e : Ending} (h : c.Turn c') (hs : c.status = some e) :
    c'.status = some e := by
  cases h with
  | went which =>
    cases which with
    | none => exact hs
    | some i => exact hs
  | ended which ending =>
    cases which with
    | none => exact status_finish hs ending
    | some i => exact hs

end Child

/-- Whether a move is one of the parties themselves: nobody destroys the handle, and nothing fails
that need not fail. -/
def Move.own : Move → Bool
  | .supervisor | .cancellation | .child _ | .reader _ => true
  | .destroy | .readFailure .. | .waitFailure _ => false

/-- The step of the reader of a channel that a move is, if it is one. -/
def Reader.made (r : Reader) (token closed : Bool) (p : Pipe) (channel : Channel) :
    Move → Option ReaderStep
  | .reader c => if c = channel then r.step token closed p else none
  | .readFailure c message => if c = channel then r.fail token message p else none
  | _ => none

theorem Reader.made_cases {r : Reader} {token closed : Bool} {p : Pipe} {channel : Channel}
    {m : Move} {s : ReaderStep} (h : r.made token closed p channel m = some s) :
    m = .reader channel ∧ r.step token closed p = some s ∨
      ∃ message, m = .readFailure channel message ∧ r.fail token message p = some s := by
  unfold made at h
  split at h
  · split at h
    · rename_i hc
      exact .inl ⟨by rw [hc], h⟩
    · contradiction
  · split at h
    · rename_i hc
      exact .inr ⟨_, by rw [hc], h⟩
    · contradiction
  · contradiction

theorem Reader.made_turn {r : Reader} {token closed : Bool} {p : Pipe} {channel : Channel}
    {m : Move} {s : ReaderStep} (h : r.made token closed p channel m = some s) :
    r.finished = false ∧ r.Turn p s := by
  rcases made_cases h with ⟨-, hstep⟩ | ⟨message, -, hfail⟩
  · exact step_turn hstep
  · exact fail_turn hfail

namespace Execution

/-- Whether the output of a channel goes through a pipe that somebody reads from; nothing where it
is not captured. -/
def readable (e : Execution) (channel : Channel) : Option Bool :=
  (e.outlets.get channel).pipe?.map (·.readable)

/-- What a move can make of an execution. -/
inductive Change (e : Execution) : Move → Execution → Prop where
  | registered (id : Option UInt64) (at_ : e.phase = .spawned) :
      Change e .supervisor { e with phase := .wiring, registration := id }
  | wired (readers : PerChannel (Option Reader)) (at_ : e.phase = .wiring)
      (wires : e.newReaders = .ok readers) :
      Change e .supervisor { e with readers := readers, phase := .starting 0 }
  | refused (cause : RunError) (at_ : e.phase = .wiring) (wires : e.newReaders = .error cause) :
      Change e .supervisor { e with child := e.child.kill, phase := .refused cause }
  | startCalled (next : Nat) (r : Registration Started) (at_ : e.phase = .starting next)
      (listener : e.start[next]? = some r) : Change e .supervisor (e.callStart next r)
  | startsDone (next : Nat) (at_ : e.phase = .starting next) (none_left : e.start[next]? = none) :
      Change e .supervisor { e with phase := .waiting }
  | reaped (ending : Ending) (at_ : e.phase = .waiting ∨ e.phase = .reaping)
      (status : e.child.status = some ending) :
      Change e .supervisor
        { e with
          code := ending.code?.getD Completion.unknownExitCode
          phase := .joining .stdout }
  | skipped (channel : Channel) (at_ : e.phase = .joining channel)
      (unread : e.readers.get channel = none) :
      Change e .supervisor { e with phase := afterJoining channel }
  | joined (channel : Channel) (r : Reader) (at_ : e.phase = .joining channel)
      (reader : e.readers.get channel = some r) (finished : r.finished = true) :
      Change e .supervisor
        { e with
          failures := e.failures ++ r.drain.report.failures
          reports := e.reports.set channel (some { r.drain.report with failures := [] })
          phase := afterJoining channel }
  | released (at_ : e.phase = .releasing) : Change e .supervisor { e with phase := .notifying 0 }
  | exitCalled (next : Nat) (r : Registration Int) (at_ : e.phase = .notifying next)
      (listener : e.exit[next]? = some r) : Change e .supervisor (e.callExit next r)
  | exitsDone (next : Nat) (at_ : e.phase = .notifying next) (none_left : e.exit[next]? = none) :
      Change e .supervisor { e with phase := .finished }
  | killed (at_ : e.phase = .waiting) (destroyed : e.destroyed = true) :
      Change e .cancellation
        { e with child := e.child.kill, killed := true, phase := .reaping }
  | waitFailed (message : String) (at_ : e.phase = .waiting ∨ e.phase = .reaping)
      (ended : e.child.status.isSome = true) :
      Change e (.waitFailure message)
        { e with
          failures := e.failures ++ [.wait message]
          code := Completion.unknownExitCode
          phase := .joining .stdout }
  | acted (which : Option Nat) (child : Child) (outlets : PerChannel Outlet)
      (signals : List Signal) (turn : e.child.Turn child)
      (pipes : ∀ channel, (outlets.get channel).pipe?.map (·.readable) = e.readable channel) :
      Change e (.child which)
        { e with child := child, outlets := outlets, signals := signals }
  | read (m : Move) (channel : Channel) (r : Reader) (p : Pipe) (s : ReaderStep)
      (reader : e.readers.get channel = some r) (pipe : e.outlets.get channel = .pipe p)
      (going : r.finished = false) (turn : r.Turn p s)
      (made : r.made e.destroyed (e.closed channel) p channel m = some s) :
      Change e m (e.afterReader channel s)
  | destroyed : Change e .destroy e.destroy

variable {e e' : Execution} {t t' : Tracker} {m : Move}

theorem after_eq {after : Execution} (h : some (t, after) = some (t', e')) : after = e' := by
  injection h with h
  injection h

theorem after_eq_of_map {after : Option Execution} (h : after.map (t, ·) = some (t', e')) :
    after = some e' := by
  rw [Option.map_eq_some_iff] at h
  obtain ⟨a, ha, heq⟩ := h
  injection heq with _ heq
  rw [ha, heq]

/-! ## The supervisor -/

theorem register_change (t : Tracker) (h : e.phase = .spawned) :
    Change e .supervisor (e.register t).2 := by
  unfold register
  split
  · exact .registered e.registration h
  · exact .registered _ h

theorem wire_change (t : Tracker) (h : e.phase = .wiring) :
    Change e .supervisor (e.wire t).2 := by
  unfold wire
  split
  · exact .wired _ h ‹_›
  · exact .refused _ h ‹_›

theorem reap_change (at_ : e.phase = .waiting ∨ e.phase = .reaping) (h : e.reap = some e') :
    Change e .supervisor e' := by
  rw [reap, Option.map_eq_some_iff] at h
  obtain ⟨ending, hs, rfl⟩ := h
  exact .reaped ending at_ hs

theorem join_change {channel : Channel} (at_ : e.phase = .joining channel)
    (h : e.join channel = some e') : Change e .supervisor e' := by
  unfold join at h
  split at h
  · injection h with h
    subst h
    exact .skipped channel at_ ‹_›
  · split at h
    · injection h with h
      subst h
      exact .joined channel _ at_ ‹_› ‹_›
    · contradiction

theorem supervise_change (h : e.supervise t = some (t', e')) : Change e .supervisor e' := by
  unfold supervise at h
  cases hphase : e.phase with
  | spawned =>
    simp only [hphase] at h
    injection h with h
    rw [show e' = (e.register t).2 by rw [h]]
    exact register_change t hphase
  | wiring =>
    simp only [hphase] at h
    injection h with h
    rw [show e' = (e.wire t).2 by rw [h]]
    exact wire_change t hphase
  | starting next =>
    simp only [hphase] at h
    split at h
    · obtain rfl := after_eq h
      exact .startCalled next _ hphase ‹_›
    · obtain rfl := after_eq h
      exact .startsDone next hphase ‹_›
  | waiting =>
    simp only [hphase] at h
    exact reap_change (.inl hphase) (after_eq_of_map h)
  | reaping =>
    simp only [hphase] at h
    exact reap_change (.inr hphase) (after_eq_of_map h)
  | joining channel =>
    simp only [hphase] at h
    exact join_change hphase (after_eq_of_map h)
  | releasing =>
    simp only [hphase] at h
    obtain rfl := after_eq h
    exact .released hphase
  | notifying next =>
    simp only [hphase] at h
    split at h
    · obtain rfl := after_eq h
      exact .exitCalled next _ hphase ‹_›
    · obtain rfl := after_eq h
      exact .exitsDone next hphase ‹_›
  | finished => simp only [hphase] at h; contradiction
  | refused cause => simp only [hphase] at h; contradiction

theorem seeCancellation_change (h : e.seeCancellation = some e') : Change e .cancellation e' := by
  unfold seeCancellation at h
  split at h
  · rename_i hcond
    rw [Bool.and_eq_true, beq_iff_eq] at hcond
    injection h with h
    subst h
    exact .killed hcond.1 hcond.2
  · contradiction

theorem failWaiting_change {message : String} (h : e.failWaiting message = some e') :
    Change e (.waitFailure message) e' := by
  unfold failWaiting at h
  split at h
  · rename_i hcond
    rw [Bool.and_eq_true, Bool.or_eq_true, beq_iff_eq, beq_iff_eq] at hcond
    injection h with h
    subst h
    exact .waitFailed message hcond.1 hcond.2
  · contradiction

/-! ## Readers and the child -/

theorem read_change {channel : Channel} {next : Reader → Pipe → Option ReaderStep}
    (hnext : ∀ r p, next r p = r.made e.destroyed (e.closed channel) p channel m)
    (h : e.read channel next = some e') : Change e m e' := by
  unfold read at h
  split at h
  · rename_i r p hr hp
    rw [Option.map_eq_some_iff] at h
    obtain ⟨s, hs, rfl⟩ := h
    rw [hnext] at hs
    obtain ⟨hgoing, hturn⟩ := Reader.made_turn hs
    exact .read m channel r p s hr hp hgoing hturn hs
  · contradiction

theorem readers_afterReader (e : Execution) (c : Channel) (s : ReaderStep) :
    (e.afterReader c s).readers.get c = some s.reader := PerChannel.get_set_same _ _ _

theorem readers_afterReader_other (e : Execution) {c d : Channel} (hd : d ≠ c) (s : ReaderStep) :
    (e.afterReader c s).readers.get d = e.readers.get d := PerChannel.get_set_other _ hd _

theorem hang_of_writeRest {channel : Channel} {bytes : Bytes} {acts : List Act}
    (h : .hang ∈ writeRest channel bytes acts) : .hang ∈ acts := by
  unfold writeRest at h
  split at h
  · exact h
  · simpa using h

/-- A channel's pipe keeps its reader when another outlet takes its place that has the same one. -/
theorem readable_set {channel : Channel} {outlet : Outlet}
    (h : outlet.pipe?.map (·.readable) = e.readable channel) (c : Channel) :
    ((e.outlets.set channel outlet).get c).pipe?.map (·.readable) = e.readable c := by
  by_cases hc : c = channel
  · subst hc
    rw [PerChannel.get_set_same]
    exact h
  · rw [PerChannel.get_set_other _ hc]
    rfl

theorem write_change {which : Option Nat} {task : Task} {channel : Channel} {bytes : Bytes}
    {acts : List Act} (found : e.child.task? which = some task)
    (hacts : task.acts = .write channel bytes :: acts)
    (h : e.write which task channel bytes acts = some e') : Change e (.child which) e' := by
  have hrest : ∀ a, a ∈ acts → a ∈ task.acts := by
    intro a ha
    rw [hacts]
    exact List.mem_cons_of_mem _ ha
  have hgo : e.child.Turn (e.child.setTask which { task with acts := acts }) :=
    .went which task _ found rfl (hrest _)
  unfold write at h
  split at h
  · injection h with h
    subst h
    exact .acted which _ e.outlets e.signals hgo fun _ => rfl
  split at h
  · injection h with h
    subst h
    exact .acted which _ e.outlets e.signals hgo fun _ => rfl
  · rename_i before houtlet
    injection h with h
    subst h
    refine .acted which _ _ e.signals hgo (readable_set ?_)
    rw [readable, houtlet]
    rfl
  · rename_i p houtlet
    split at h
    · injection h with h
      subst h
      exact .acted which _ e.outlets e.signals (.ended which .killed) fun _ => rfl
    split at h
    · contradiction
    · injection h with h
      subst h
      refine .acted which _ _ e.signals
        (.went which task _ found rfl fun ha => hrest _ (hang_of_writeRest ha)) (readable_set ?_)
      rw [readable, houtlet]
      rfl

theorem act_change {which : Option Nat} (h : e.act which = some e') :
    Change e (.child which) e' := by
  unfold act at h
  split at h
  · contradiction
  rename_i task found
  split at h
  · contradiction
  have went (after : Task) (signals : List Signal) (ended : after.ended = task.ended)
      (hang : .hang ∈ after.acts → .hang ∈ task.acts) :
      Change e (.child which)
        { e with child := e.child.setTask which after, signals := signals } :=
    .acted which _ e.outlets signals (.went which task after found ended hang) fun _ => rfl
  split at h
  · injection h with h
    subst h
    exact .acted which _ e.outlets e.signals (.ended which _) fun _ => rfl
  · exact write_change found ‹_› h
  · rename_i hacts
    injection h with h
    subst h
    exact went _ _ rfl fun ha => by rw [hacts]; exact List.mem_cons_of_mem _ ha
  · rename_i hacts
    injection h with h
    subst h
    exact went _ _ rfl fun ha => by rw [hacts]; exact List.mem_cons_of_mem _ ha
  · contradiction
  · rename_i hacts
    injection h with h
    subst h
    exact went _ _ rfl fun ha => by rw [hacts]; exact List.mem_cons_of_mem _ ha

/-! ## All moves -/

/-- Every possible move makes one of the changes. -/
theorem step_change (h : e.step m t = some (t', e')) : Change e m e' := by
  cases m with
  | supervisor => exact supervise_change h
  | cancellation => exact seeCancellation_change (after_eq_of_map h)
  | child which => exact act_change (after_eq_of_map h)
  | reader channel => exact read_change (fun _ _ => (if_pos rfl).symm) (after_eq_of_map h)
  | destroy =>
    obtain rfl := after_eq h
    exact .destroyed
  | readFailure channel message =>
    exact read_change (fun _ _ => (if_pos rfl).symm) (after_eq_of_map h)
  | waitFailure message => exact failWaiting_change (after_eq_of_map h)

/-- What an execution can become, move by move, whatever becomes of the tracker between them. -/
inductive Reaches (e : Execution) : Execution → Prop where
  | refl : Reaches e e
  | move {before after : Execution} {m : Move} {t t' : Tracker} (reached : Reaches e before)
      (step : before.step m t = some (t', after)) : Reaches e after

/-- What every change preserves holds of whatever an execution can become. -/
theorem Reaches.invariant {Inv : Execution → Prop} (h : e.Reaches e') (start : Inv e)
    (change : ∀ {before m after}, e.Reaches before → Inv before → Change before m after →
      Inv after) : Inv e' := by
  induction h with
  | refl => exact start
  | move reached step ih => exact change reached ih (step_change step)

/-- An execution becomes another, move by move, and this is what there is to see of the moves. -/
inductive Logs {α : Type} (see : Execution → Move → List α) (e : Execution) :
    List α → Execution → Prop where
  | refl : Logs see e [] e
  | move {before after : Execution} {log : List α} {m : Move} {t t' : Tracker}
      (reached : Logs see e log before) (step : before.step m t = some (t', after)) :
      Logs see e (log ++ see before m) after

section

variable {α : Type} {see : Execution → Move → List α} {log : List α}

theorem Logs.reaches (h : Logs see e log e') : e.Reaches e' := by
  induction h with
  | refl => exact .refl
  | move reached step ih => exact .move ih step

theorem Reaches.logs (h : e.Reaches e') (see : Execution → Move → List α) :
    ∃ log, Logs see e log e' := by
  induction h with
  | refl => exact ⟨[], .refl⟩
  | move reached step ih =>
    obtain ⟨log, hlog⟩ := ih
    exact ⟨_, hlog.move step⟩

/-- What every change preserves holds of whatever an execution can become and of what was seen. -/
theorem Logs.invariant {Inv : List α → Execution → Prop} (h : Logs see e log e')
    (start : Inv [] e)
    (change : ∀ {log before m after}, e.Reaches before → Inv log before →
      Change before m after → Inv (log ++ see before m) after) : Inv log e' := by
  induction h with
  | refl => exact start
  | move reached step ih => exact change reached.reaches ih (step_change step)

/-- What there is to see of moves that are made one after another. -/
def seen (see : Execution → Move → List α) : List Move → Tracker → Execution → List α
  | [], _, _ => []
  | m :: ms, t, e =>
    see e m ++
      match e.step m t with
      | some (t, e) => seen see ms t e
      | none => []

theorem logs_of_steps (see : Execution → Move → List α) {ms : List Move}
    (h : e.steps ms t = some (t', e')) :
    Logs see e (seen see ms t e) e' := by
  suffices hrun : ∀ log before, Logs see e log before → before.steps ms t = some (t', e') →
      Logs see e (log ++ seen see ms t before) e' from hrun [] e .refl h
  clear h
  intro log before reached h
  induction ms generalizing t before log with
  | nil =>
    obtain rfl := after_eq h
    rw [seen, List.append_nil]
    exact reached
  | cons m ms ih =>
    unfold steps at h
    split at h
    · rename_i hstep
      rw [seen, hstep, ← List.append_assoc]
      exact ih _ _ (reached.move hstep) h
    · contradiction

end

/-- What every possible move preserves of an execution and its tracker holds after some moves. -/
theorem steps_invariant {Inv : Tracker → Execution → Prop} {ms : List Move}
    (h : e.steps ms t = some (t', e')) (start : Inv t e)
    (move : ∀ {t t' before m after}, e.Reaches before → Inv t before →
      before.step m t = some (t', after) → Inv t' after) : Inv t' e' := by
  suffices hrun : ∀ t before, e.Reaches before → Inv t before →
      before.steps ms t = some (t', e') → Inv t' e' from hrun t e .refl start h
  clear h start
  intro t before reached hi h
  induction ms generalizing t before with
  | nil =>
    injection h with h
    injection h with ht he
    exact ht ▸ he ▸ hi
  | cons m ms ih =>
    unfold steps at h
    split at h
    · rename_i hstep
      exact ih _ _ (reached.move hstep) (move reached hi hstep) h
    · contradiction

theorem reaches_of_steps {ms : List Move} (h : e.steps ms t = some (t', e')) : e.Reaches e' :=
  (logs_of_steps (fun _ _ => ([] : List Unit)) h).reaches

end Execution

end ToolRunner
