import ToolRunner.Proofs.Session.Ledger
import ToolRunner.Proofs.Session.Overhearing

/-!
# Sessions with shared listeners, move by move

Runs are begun with one runner and its clones, whose listeners they have in common, and their
parties move in any order, while handles are destroyed one by one or all at once
(`Shared.Unfolds`). Each execution is then what it would have become by its own moves had it been
the only one (`Alone`), as long as the listeners overhear what was meant for the others.
-/

namespace ToolRunner

open Happening

namespace Execution

variable {e e' : Execution} {k k' : Ties} {m : Move} {t t' : Tracker} {told : List Incident}

theorem steps_concat {ms : List Move} (h : e.steps ms t = some (t', e')) (m : Move) :
    e.steps (ms ++ [m]) t = e'.step m t' := by
  induction ms generalizing e t with
  | nil =>
    injection h with h
    injection h with ht he
    subst ht he
    rw [List.nil_append, steps]
    cases e.step m t <;> rfl
  | cons first ms ih =>
    rw [List.cons_append, steps]
    rw [steps] at h
    cases hstep : e.step first t with
    | none =>
      rw [hstep] at h
      contradiction
    | some after =>
      rw [hstep] at h
      exact ih h

/-! ## Executions that hear of others -/

theorem Seated.withTies (h : Seated e) (k : Ties) : Seated (e.withTies k) := by
  constructor
  · intro c rd hrd
    rw [readers_withTies, Option.map_eq_some_iff] at hrd
    obtain ⟨rd', hrd', rfl⟩ := hrd
    exact h.channel c rd' hrd'
  · intro hunwired c
    rw [readers_withTies, h.unwired hunwired c]
    rfl

theorem listeners_hearing (e : Execution) (l : Listeners) : (e.hearing l).listeners = l := by
  have honLine (c : Channel) : (e.hearing l).onLine c = l.onLine c := by
    rw [hearing_eq, onLine, readers_withTies]
    cases e.readers.get c with
    | none => exact PerChannel.get_ofFn _ c
    | some rd => exact PerChannel.get_ofFn _ c
  rw [listeners, honLine, honLine]
  rfl

theorem Seated.hearing (h : Seated e) (l : Listeners) : Seated (e.hearing l) := by
  rw [hearing_eq]
  exact h.withTies _

/-- Whatever is told in a move, the listeners have heard of it when it is made. -/
theorem heard_of_step {l : Listeners} (seated : Seated e)
    (step : (e.hearing l).step m t = some (t', e'))
    (tells : e'.history = told.reverse ++ e.history) : Heard l told e'.listeners := by
  obtain ⟨told', htells⟩ := (step_change step).tells (seated.hearing l)
  have hsame : told.reverse = told'.reverse :=
    List.append_cancel_right (tells.symm.trans htells.history)
  rw [List.reverse_inj.mp hsame, ← listeners_hearing e l]
  exact htells.heard

end Execution

/-! ## One execution -/

/-- A run that was begun: with which runner, the name of the program, and the child. -/
structure Begun where
  runner : Runner
  program : String
  child : Child

namespace Begun

/-- The run by itself. -/
def run (b : Begun) (h : Handle) : Execution :=
  b.runner.execution .standard h (Session.pidOf h) b.program b.child

/-- The run whose listeners overhear what was meant for others. -/
def overhearing (b : Begun) (h : Handle) (log : List Happening) : Begun :=
  { b with runner := b.runner.overhearing h log }

theorem run_overhearing (b : Begun) (h : Handle) (log : List Happening) :
    ((b.overhearing h log).run h).untied = (b.run h).untied := by
  have houtlet : (b.runner.overhearing h log).outlet .standard = b.runner.outlet .standard := by
    funext c
    show Runner.outlet _ _ _ = _
    unfold Runner.outlet
    rw [show (b.runner.overhearing h log).listeners.onLine c =
      (b.runner.listeners.overhearing h log).onLine c from rfl, Listeners.onLine_overhearing,
      List.isEmpty_map]
    rfl
  show (Execution.untied { (b.overhearing h log).run h with
    outlets := .ofFn ((b.runner.overhearing h log).outlet .standard) }) = _
  rw [houtlet]
  rfl

end Begun

/-- An execution that is what it becomes alone: by its own moves, and with listeners that overhear
what is meant for others, now or later. -/
structure Alone (b : Begun) (h : Handle) (log : List Happening) (e : Execution) : Prop where
  told : incidents (own h log) = e.history.reverse
  steps : ∀ later t, ∃ t' e', ((b.overhearing h (log ++ later)).run h).steps (moves (own h log)) t =
    some (t', e') ∧ e'.untied = e.untied

namespace Alone

variable {b : Begun} {h : Handle} {log more : List Happening} {e e' : Execution} {m : Move}
variable {t t' : Tracker} {told : List Incident} {all : Listeners}

theorem begun (b : Begun) (unmoved : own h log = []) : Alone b h log (b.run h) := by
  constructor
  · rw [unmoved]
    rfl
  · intro later t
    rw [unmoved]
    exact ⟨t, _, rfl, b.run_overhearing h _⟩

/-- An execution is alone as one that can be reached. -/
theorem seated (ha : Alone b h log e) : Execution.Seated e := by
  obtain ⟨t', e', hsteps, hsame⟩ := ha.steps [] .new
  rw [Execution.eq_withTies hsame.symm]
  exact (Execution.reaches_of_steps hsteps).wired.seated.withTies _

/-- What others do makes no difference. -/
theorem append (ha : Alone b h log e) (unmoved : own h more = []) : Alone b h (log ++ more) e := by
  have hown : own h (log ++ more) = own h log := by
    rw [own_append, unmoved, List.append_nil]
  refine ⟨hown ▸ ha.told, fun later t => ?_⟩
  rw [hown, List.append_assoc]
  exact ha.steps (more ++ later) t

/-- A move that is made with the listeners of all can be made alone. -/
theorem follow (ha : Alone b h log e) (heard : Heard b.runner.listeners (incidents log) all)
    (step : (e.hearing all).step m t = some (t', e'))
    (tells : e'.history = told.reverse ++ e.history) (later : List Happening) (t₀ : Tracker) :
    ∃ t₁ e₁ t₂ e₂,
      ((b.overhearing h (log ++ ⟨h, m, told⟩ :: later)).run h).steps (moves (own h log)) t₀ =
        some (t₁, e₁) ∧ e₁.untied = e.untied ∧ e₁.step m t₁ = some (t₂, e₂) ∧
        e₂.untied = e'.untied := by
  obtain ⟨t₁, e₁, hsteps, hsame⟩ := ha.steps (⟨h, m, told⟩ :: later) t₀
  have hreaches := Execution.reaches_of_steps hsteps
  have hhistory : e₁.history = e.history := congrArg (·.history) hsame
  have hrecorded := Execution.recorded_iff.mp hreaches.recorded
  rw [hhistory, ← ha.told] at hrecorded
  have hagree : Execution.Agree (all.ties e.registration) e₁.ties told :=
    agree_overhearing hrecorded hreaches.wired.lines heard e.registration
  -- With the ties of either the execution is the same, so its step is one of the other.
  have hshared : e.hearing all = e₁.withTies (all.ties e.registration) := by
    rw [Execution.hearing_eq, Execution.eq_withTies hsame.symm,
      Execution.withTies_withTies]
  rw [hshared] at step
  rw [← hhistory] at tells
  obtain ⟨t₂, e₂, hstep, hsame'⟩ :=
    Execution.step_untied hreaches.wired.seated hagree step tells t₁
  rw [Execution.withTies_ties] at hstep
  exact ⟨t₁, e₁, t₂, e₂, hsteps, hsame, hstep, hsame'⟩

theorem move (ha : Alone b h log e) (heard : Heard b.runner.listeners (incidents log) all)
    (step : (e.hearing all).step m t = some (t', e'))
    (tells : e'.history = told.reverse ++ e.history) :
    Alone b h (log ++ [⟨h, m, told⟩]) e' := by
  refine ⟨?_, fun later t₀ => ?_⟩
  · rw [own_concat_self, incidents_append, ha.told, tells, List.reverse_append,
      List.reverse_reverse]
    simp [incidents]
  · rw [List.append_assoc, List.singleton_append]
    obtain ⟨t₁, e₁, t₂, e₂, hsteps, -, hstep, hsame⟩ := ha.follow heard step tells later t₀
    refine ⟨t₂, e₂, ?_, hsame⟩
    rw [own_concat_self, Happening.moves, List.map_append]
    exact (Execution.steps_concat hsteps m).trans hstep

/-- Whoever destroys the handle, that is a move of this execution. -/
theorem destroy (ha : Alone b h log e) (one : own h more = [⟨h, .destroy, []⟩]) :
    Alone b h (log ++ more) e.destroy := by
  have hown : own h (log ++ more) = own h log ++ [⟨h, .destroy, []⟩] := by rw [own_append, one]
  refine ⟨?_, fun later t => ?_⟩
  · rw [hown, incidents_append, ha.told]
    exact List.append_nil _
  · rw [hown, List.append_assoc]
    obtain ⟨t₁, e₁, hsteps, hsame⟩ := ha.steps (more ++ later) t
    refine ⟨t₁, e₁.destroy, ?_, congrArg Execution.destroy hsame⟩
    rw [Happening.moves, List.map_append]
    exact Execution.steps_concat hsteps .destroy

end Alone

/-! ## All executions -/

namespace Shared

variable {free : Shared → Prop} {l : Listeners} {runs : List Begun} {log : List Happening}
variable {s s' : Shared} {h : Handle} {m : Move} {told : List Incident}

/-- What happened to an execution before a moment. -/
def history (s : Shared) (h : Handle) : List Incident :=
  ((s.execution? h).map (·.history)).getD []

/-- The moves that destroy those handles of which something holds. -/
def destructions (p : Handle → Bool) (count : Nat) : List Happening :=
  ((List.range count).filter p).map (⟨·, .destroy, []⟩)

/-- Those who destroy handles tell nobody. -/
theorem incidents_destructions (p : Handle → Bool) (count : Nat) :
    incidents (destructions p count) = [] := by
  refine List.flatMap_eq_nil_iff.mpr fun x hx => ?_
  obtain ⟨h, -, rfl⟩ := List.mem_map.mp hx
  rfl

theorem own_destructions (p : Handle → Bool) {count : Nat} (lt : h < count) :
    own h (destructions p count) = if p h then [⟨h, .destroy, []⟩] else [] := by
  have hbelow (n : Nat) (hn : n ≤ h) : own h (destructions p n) = [] := by
    refine List.filter_eq_nil_iff.mpr fun x hx => ?_
    obtain ⟨i, hi, rfl⟩ := List.mem_map.mp hx
    have hlt := List.mem_range.mp (List.mem_of_mem_filter hi)
    rw [decide_eq_true_eq]
    exact Nat.ne_of_lt (Nat.lt_of_lt_of_le hlt hn)
  induction count with
  | zero => contradiction
  | succ n ih =>
    have hsplit : destructions p (n + 1) =
        destructions p n ++ if p n then [⟨n, .destroy, []⟩] else [] := by
      rw [destructions, List.range_succ, List.filter_append, List.map_append]
      cases hp : p n <;> simp [destructions, hp]
    rw [hsplit, own_append]
    rcases Nat.lt_succ_iff_lt_or_eq.mp lt with hlt | rfl
    · rw [ih hlt]
      cases p n <;> simp [own, Nat.ne_of_gt hlt]
    · rw [hbelow h (Nat.le_refl h)]
      cases p h <;> simp [own]

/-- What can become of a session whose executions have their listeners in common. Runs are begun
when it is `free`; of those that were begun and of the moves, with what was told in each of them,
account is kept. In the meantime the trackers and the time may change as they like. -/
inductive Unfolds (free : Shared → Prop) (l : Listeners) :
    List Begun → List Happening → Shared → Prop where
  | new : Unfolds free l [] [] ⟨.empty, l⟩
  | begun {runs : List Begun} {log : List Happening} {s s' : Shared} {spawn : Session.Spawn}
      {r : Runner} {c : Command} {h : Handle} {child : Child} (before : Unfolds free l runs log s)
      (admitted : free s) (shared : r.listeners = l)
      (spawned : spawn (Session.pidOf h) c = .ok child) (begins : s.begin spawn r c = (.ok h, s')) :
      Unfolds free l
        (runs ++ [⟨r, c.programText, child.delay (s.session.time + Session.startTime)⟩]) log s'
  | failed {runs : List Begun} {log : List Happening} {s s' : Shared} {spawn : Session.Spawn}
      {r : Runner} {c : Command} {cause : RunError} (before : Unfolds free l runs log s)
      (fails : s.begin spawn r c = (.error cause, s')) : Unfolds free l runs log s'
  | moved {runs : List Begun} {log : List Happening} {s s' : Shared} {h : Handle} {m : Move}
      {told : List Incident} (before : Unfolds free l runs log s) (moves : s.move h m = some s')
      (tells : s'.history h = told.reverse ++ s.history h) :
      Unfolds free l runs (log ++ [⟨h, m, told⟩]) s'
  | destroyed {runs : List Begun} {log : List Happening} {s : Shared}
      (before : Unfolds free l runs log s) (h : Handle) :
      Unfolds free l runs (log ++ destructions (· == h) runs.length) (s.destroy h)
  | destroyedAll {runs : List Begun} {log : List Happening} {s : Shared}
      (before : Unfolds free l runs log s) (name : String) :
      Unfolds free l runs
        (log ++ destructions (s.session.trackers name).handles.contains runs.length)
        (s.destroyAll name).2
  | meanwhile {runs : List Begun} {log : List Happening} {s : Shared}
      (before : Unfolds free l runs log s) (trackers : String → Tracker) (time : Nat) :
      Unfolds free l runs log { s with session := { s.session with trackers, time } }

/-- How the executions of a session have come about. -/
structure Coupled (l : Listeners) (runs : List Begun) (log : List Happening) (s : Shared) :
    Prop where
  count : s.session.executions.length = runs.length
  handles : ∀ x ∈ log, x.handle < runs.length
  heard : Heard l (incidents log) s.listeners
  alone : ∀ h e, s.execution? h = some e →
    ∃ b, runs[h]? = some b ∧ b.runner.listeners = l ∧ Alone b h log e

theorem begin_cases {spawn : Session.Spawn} {r : Runner} {c : Command}
    (begins : s.begin spawn r c = (.ok h, s')) :
    ∃ session, s.session.begin spawn r c = (.ok h, session) ∧ s' = { s with session } := by
  obtain ⟨hh, hs⟩ := Prod.mk.inj begins
  exact ⟨_, Prod.ext hh rfl, hs.symm⟩

/-- Where nothing is begun everything stays as it is. -/
theorem begin_of_error {spawn : Session.Spawn} {r : Runner} {c : Command} {cause : RunError}
    (fails : s.begin spawn r c = (.error cause, s')) : s' = s := by
  have hcause : (s.session.begin spawn r c).1 = .error cause := congrArg Prod.fst fails
  have hs : { s with session := (s.session.begin spawn r c).2 } = s' := congrArg Prod.snd fails
  obtain ⟨hsession, -⟩ := Session.begin_of_error (Prod.ext hcause rfl)
  exact hs.symm.trans (congrArg (fun session => ({ s with session } : Shared)) hsession)

/-- A move is one of some execution, with the listeners that all have in common. -/
theorem move_cases (moves : s.move h m = some s') :
    ∃ e t' e', s.execution? h = some e ∧ s'.execution? h = some e' ∧
      (e.hearing s.listeners).step m (s.session.trackers (Session.trackerName e)) = some (t', e') ∧
      s'.session.executions = s.session.executions.set h e' ∧ s'.listeners = e'.listeners := by
  unfold move at moves
  split at moves
  · contradiction
  · rename_i e found
    rw [Option.map_eq_some_iff] at moves
    obtain ⟨⟨t', e'⟩, hstep, rfl⟩ := moves
    have hlt := (List.getElem?_eq_some_iff.mp found).1
    exact ⟨e, t', e', found, List.getElem?_set_self hlt, hstep, rfl, rfl⟩

theorem history_of_found {e : Execution} (found : s.execution? h = some e) :
    s.history h = e.history := by
  rw [history, found]
  rfl

namespace Coupled

theorem lt_count (hc : Coupled l runs log s) {e : Execution} (found : s.execution? h = some e) :
    h < runs.length := by
  rw [← hc.count]
  exact (List.getElem?_eq_some_iff.mp found).1

theorem new (l : Listeners) : Coupled l [] [] ⟨.empty, l⟩ where
  count := rfl
  handles := nofun
  heard := .refl l
  alone h e found := by cases found

theorem begun (hc : Coupled l runs log s) {spawn : Session.Spawn} {r : Runner} {c : Command}
    {child : Child} (shared : r.listeners = l) (spawned : spawn (Session.pidOf h) c = .ok child)
    (begins : s.begin spawn r c = (.ok h, s')) :
    Coupled l (runs ++ [⟨r, c.programText, child.delay (s.session.time + Session.startTime)⟩]) log
      s' := by
  obtain ⟨session, hbegin, rfl⟩ := begin_cases begins
  obtain ⟨child', -, hspawn, rfl, rfl⟩ := Session.begin_cases hbegin
  obtain rfl : child = child' := by
    rw [spawned] at hspawn
    injection hspawn
  constructor
  · simp [hc.count]
  · intro x hx
    rw [List.length_append]
    exact Nat.lt_add_right _ (hc.handles x hx)
  · exact hc.heard
  · intro i e found
    by_cases hi : i < s.session.executions.length
    · rw [execution?, Session.execution?, List.getElem?_append_left hi] at found
      obtain ⟨b, hb, hrest⟩ := hc.alone i e found
      rw [List.getElem?_append_left (hc.count ▸ hi)]
      exact ⟨b, hb, hrest⟩
    · have heq : i = s.session.executions.length := by
        have hlt : i < (s.session.executions ++ [_]).length :=
          (List.getElem?_eq_some_iff.mp found).1
        rw [List.length_append, List.length_singleton] at hlt
        exact Nat.le_antisymm (Nat.lt_succ_iff.mp hlt) (Nat.le_of_not_lt hi)
      subst heq
      rw [execution?, Session.execution?_begun] at found
      injection found with found
      subst found
      refine ⟨_, by rw [hc.count, List.getElem?_concat_length], shared, Alone.begun _ ?_⟩
      refine List.filter_eq_nil_iff.mpr fun x hx => ?_
      have hlt := hc.handles x hx
      rw [← hc.count] at hlt
      simp only [decide_eq_true_eq]
      exact Nat.ne_of_lt hlt

theorem moved (hc : Coupled l runs log s) (moves : s.move h m = some s')
    (tells : s'.history h = told.reverse ++ s.history h) :
    Coupled l runs (log ++ [⟨h, m, told⟩]) s' := by
  obtain ⟨e, t', e', found, hself, hstep, hexecutions, hlisteners⟩ := move_cases moves
  rw [history_of_found hself, history_of_found found] at tells
  obtain ⟨b, hb, hshared, halone⟩ := hc.alone h e found
  constructor
  · rw [hexecutions, List.length_set, hc.count]
  · intro x hx
    rcases List.mem_append.mp hx with hx | hx
    · exact hc.handles x hx
    · rw [List.mem_singleton.mp hx]
      exact hc.lt_count found
  · rw [incidents_append, hlisteners]
    refine hc.heard.trans ?_
    show Heard _ (told ++ []) _
    rw [List.append_nil]
    exact Execution.heard_of_step halone.seated hstep tells
  · intro i e₁ found₁
    by_cases hi : i = h
    · subst hi
      rw [hself] at found₁
      injection found₁ with found₁
      subst found₁
      exact ⟨b, hb, hshared, halone.move (hshared ▸ hc.heard) hstep tells⟩
    · rw [execution?, Session.execution?, hexecutions,
        List.getElem?_set_ne (Ne.symm hi)] at found₁
      obtain ⟨b₁, hb₁, hshared₁, halone₁⟩ := hc.alone i e₁ found₁
      exact ⟨b₁, hb₁, hshared₁, halone₁.append (by simp [own, Ne.symm hi])⟩

/-- Handles are destroyed one by one or many at once. -/
theorem destroying (hc : Coupled l runs log s) (p : Handle → Bool) :
    Coupled l runs (log ++ destructions p runs.length)
      { s with session := s.session.destroying p } := by
  constructor
  · rw [← hc.count]
    exact List.length_mapIdx
  · intro x hx
    rcases List.mem_append.mp hx with hx | hx
    · exact hc.handles x hx
    · obtain ⟨i, hi, rfl⟩ := List.mem_map.mp hx
      exact List.mem_range.mp (List.mem_of_mem_filter hi)
  · rw [incidents_append, incidents_destructions, List.append_nil]
    exact hc.heard
  · intro h e found
    rw [execution?, Session.execution?_destroying, Option.map_eq_some_iff] at found
    obtain ⟨e, found, rfl⟩ := found
    obtain ⟨b, hb, hshared, halone⟩ := hc.alone h e found
    have hown := own_destructions p (hc.lt_count found)
    refine ⟨b, hb, hshared, ?_⟩
    cases hp : p h with
    | true =>
      rw [hp] at hown
      exact halone.destroy hown
    | false =>
      rw [hp] at hown
      exact halone.append hown

end Coupled

theorem Unfolds.coupled (hu : Unfolds free l runs log s) : Coupled l runs log s := by
  induction hu with
  | new => exact .new l
  | begun before admitted shared spawned begins ih => exact ih.begun shared spawned begins
  | failed before fails ih => rwa [begin_of_error fails]
  | moved before moves tells ih => exact ih.moved moves tells
  | destroyed before h ih =>
    rw [destroy, Session.destroy_eq]
    exact ih.destroying _
  | destroyedAll before name ih =>
    rw [destroyAll, Session.destroyAll_eq]
    exact ih.destroying _
  | meanwhile before trackers time ih => exact ⟨ih.count, ih.handles, ih.heard, ih.alone⟩

theorem Unfolds.move (hu : Unfolds free l runs log s) (moves : s.move h m = some s') :
    ∃ told, Unfolds free l runs (log ++ [⟨h, m, told⟩]) s' := by
  obtain ⟨e, t', e', found, hself, hstep, -⟩ := move_cases moves
  obtain ⟨b, -, -, halone⟩ := hu.coupled.alone h e found
  obtain ⟨told, htells⟩ := (Execution.step_change hstep).tells (halone.seated.hearing _)
  refine ⟨told, hu.moved moves ?_⟩
  rw [history_of_found hself, history_of_found found]
  exact htells.history

theorem Unfolds.moves {all : List (Handle × Move)} (hu : Unfolds free l runs log s)
    (moves : Shared.moves all s = some s') :
    ∃ later, later.map (fun x => (x.handle, x.move)) = all ∧
      Unfolds free l runs (log ++ later) s' := by
  induction all generalizing s log with
  | nil =>
    injection moves with moves
    exact ⟨[], rfl, by rw [List.append_nil]; exact moves ▸ hu⟩
  | cons first rest ih =>
    unfold Shared.moves at moves
    split at moves
    · obtain ⟨told, hfirst⟩ := hu.move ‹_›
      obtain ⟨later, hmoved, hlater⟩ := ih hfirst moves
      rw [List.append_assoc] at hlater
      exact ⟨_, by rw [← hmoved]; rfl, hlater⟩
    · contradiction

/-- The session in which a run was begun. -/
def beginning (s : Shared) (r : Runner) (c : Command) (child : Child) : Shared :=
  { s with
    session :=
      { s.session with executions := s.session.executions ++ [s.session.beginning r c child] } }

/-- A child can be started for any command that is well formed. -/
theorem Unfolds.beginning (hu : Unfolds free l runs log s) (admitted : free s) {r : Runner}
    {c : Command} (child : Child) (shared : r.listeners = l) (check : c.check = .ok ()) :
    Unfolds free l
      (runs ++ [⟨r, c.programText, child.delay (s.session.time + Session.startTime)⟩]) log
      (s.beginning r c child) := by
  have hbegin : s.begin (fun _ _ => .ok child) r c =
      (.ok s.session.executions.length, s.beginning r c child) := by
    rw [begin, Session.begin_eq, check]
    rfl
  exact hu.begun admitted shared rfl hbegin

end Shared

end ToolRunner
