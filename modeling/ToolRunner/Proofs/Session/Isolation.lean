import ToolRunner.Proofs.Execution.Outcome
import ToolRunner.Proofs.Session.Cancellation
import ToolRunner.Proofs.Session.Sharing

/-!
# Executions side by side

Executions that have their listeners in common have nothing else of each other
(`Shared.Unfolds.isolated`): each is what its run becomes by itself, whoever else is destroyed. The
listeners record the calls of all executions in the order of the moves, and so of one run after
another where the runs were made one after another.
-/

namespace ToolRunner

open Happening

/-! ## Executions that nobody destroys -/

namespace Execution

variable {r : Runner} {e e' : Execution} {m : Move} {log : List (Execution × Move)}

/-- Where no listener destroys, only the holder of the handle does. -/
theorem eq_destroy_of_calm (hr : Recorded r e)
    (calm : r.listeners.Each Registration.Calm) (destroys : e.Destroys m) : m = .destroy := by
  have hcalm : e.listeners.Each Registration.Calm :=
    (recorded_iff.mp hr).each (fun hp => hp.callAll _) calm
  cases destroys with
  | holder => rfl
  | start next l at_ listener destroys =>
    have hkeeps := hcalm.start l (List.mem_of_getElem? listener)
    rw [Registration.reaction, hkeeps] at destroys
    contradiction
  | line c rd p s reader pipe step destroys =>
    obtain ⟨text, l, -, hl, hdestroys⟩ := destroys
    rw [← onLine_eq reader, ← onLine_listeners] at hl
    rw [Registration.reaction, hcalm.lines c l hl] at hdestroys
    contradiction
  | exit next l at_ listener destroys =>
    have hkeeps := hcalm.exit l (List.mem_of_getElem? listener)
    rw [Registration.reaction, hkeeps] at destroys
    contradiction

theorem Course.reaches_of_mem (h : e.Course log e') {now : Execution × Move} (mem : now ∈ log) :
    e.Reaches now.1 := by
  induction h with
  | refl => contradiction
  | move reached step ih =>
    rcases List.mem_append.mp mem with mem | mem
    · exact ih mem
    · rw [List.mem_singleton.mp mem]
      exact reached.reaches

theorem mem_moves_of_seen {ms : List Move} {t : Tracker} {now : Execution × Move}
    (mem : now ∈ seen (fun e m => [(e, m)]) ms t e) : now.2 ∈ ms := by
  induction ms generalizing e t with
  | nil => contradiction
  | cons m ms ih =>
    rcases List.mem_append.mp mem with mem | mem
    · rw [List.mem_singleton.mp mem]
      exact List.mem_cons_self
    · split at mem
      · exact List.mem_cons_of_mem _ (ih mem)
      · contradiction

end Execution

/-- The course by which a run becomes by itself what an execution has become among others. -/
theorem Alone.course {b : Begun} {h : Handle} {log : List Happening} {e : Execution}
    (ha : Alone b h log e) :
    ∃ e₁, ((b.overhearing h log).run h).Course
        (Execution.seen (fun e m => [(e, m)]) (moves (own h log)) .new
          ((b.overhearing h log).run h)) e₁ ∧ e₁.untied = e.untied := by
  obtain ⟨t₁, e₁, hsteps, hsame⟩ := ha.steps [] .new
  rw [List.append_nil] at hsteps
  exact ⟨e₁, Execution.logs_of_steps _ hsteps, hsame⟩

/-- An execution is destroyed by its own moves and by nobody else's, and only then is a reader of it
cancelled. -/
theorem Alone.destroyed_iff {b : Begun} {h : Handle} {log : List Happening} {e : Execution}
    (ha : Alone b h log e) :
    (e.destroyed = true ↔ ∃ now ∈ Execution.seen (fun e m => [(e, m)]) (moves (own h log)) .new
        ((b.overhearing h log).run h), now.1.Destroys now.2) ∧
      ((e.completion.destroyed = true ∨ ∃ c report, e.completion.report c = some report ∧
        report.cancelled = true) → e.destroyed = true) := by
  obtain ⟨e₁, hcourse, hsame⟩ := ha.course
  have hanswers := hcourse.answers
  have hdestroyed : e₁.destroyed = e.destroyed := (congrArg Execution.destroyed hsame :)
  have hcompletion : e₁.completion = e.completion := (congrArg Execution.completion hsame :)
  rw [← hdestroyed, ← hcompletion]
  exact ⟨hanswers.destroyed, fun hflag => (hanswers.flagged hflag).2⟩

/-- An execution that neither its listeners nor its own moves destroy is not destroyed, and no
reader of it is cancelled. -/
theorem Alone.kept {b : Begun} {h : Handle} {log : List Happening} {e : Execution}
    (ha : Alone b h log e) (calm : b.runner.listeners.Each Registration.Calm)
    (kept : ∀ x ∈ own h log, x.move ≠ .destroy) :
    e.destroyed = false ∧ e.completion.destroyed = false ∧
      ∀ c report, e.completion.report c = some report → report.cancelled = false := by
  obtain ⟨e₁, hcourse, -⟩ := ha.course
  have hcalm : (b.overhearing h log).runner.listeners.Each Registration.Calm :=
    calm.overhearing fun hp => hp.overhearing _ _
  obtain ⟨hdestroyed, hflags⟩ := ha.destroyed_iff
  have hnot : ¬ e.destroyed = true := by
    rw [hdestroyed]
    intro ⟨now, hnow, hdestroys⟩
    have hrecorded := (hcourse.reaches_of_mem hnow).recorded
    have hmove := Execution.eq_destroy_of_calm hrecorded hcalm hdestroys
    obtain ⟨x, hx, hx'⟩ := List.mem_map.mp (Execution.mem_moves_of_seen hnow)
    exact kept x hx (hx'.trans hmove)
  refine ⟨Bool.eq_false_iff.mpr hnot, ?_, fun c report hreport => ?_⟩
  · exact Bool.eq_false_iff.mpr fun hkilled => hnot (hflags (.inl hkilled))
  · exact Bool.eq_false_iff.mpr fun hcancelled =>
      hnot (hflags (.inr ⟨c, report, hreport, hcancelled⟩))

/-- When an execution is over its moves tell nobody anything. -/
theorem Alone.ended {b : Begun} {h : Handle} {log : List Happening} {e e' : Execution} {m : Move}
    {t t' : Tracker} {told : List Incident} {all : Listeners} (ha : Alone b h log e)
    (heard : Heard b.runner.listeners (incidents log) all)
    (step : (e.hearing all).step m t = some (t', e'))
    (tells : e'.history = told.reverse ++ e.history) (done : e.done = true) :
    told = [] ∧ e'.done = true := by
  obtain ⟨t₁, e₁, t₂, e₂, hsteps, hsame, hstep, hsame'⟩ := ha.follow heard step tells [] .new
  have hdone : e₁.done = true := (congrArg Execution.done hsame).trans done
  obtain ⟨hdone₂, -, -, hhistory⟩ := Execution.over_of_change
    (Execution.reaches_of_steps hsteps).wired hdone (Execution.step_change hstep)
  have hnone : e'.history = e.history :=
    (congrArg (·.history) hsame').symm.trans (hhistory.trans (congrArg (·.history) hsame))
  rw [hnone, List.self_eq_append_left, List.reverse_eq_nil_iff] at tells
  exact ⟨tells, (congrArg Execution.done hsame').symm.trans hdone₂⟩

namespace Shared

variable {free : Shared → Prop} {l : Listeners} {runs : List Begun} {log : List Happening}
variable {s s' : Shared} {h : Handle} {m : Move} {told : List Incident}

/-! ## One run after another -/

def Over (s : Shared) : Prop := ∀ e ∈ s.session.executions, e.done = true

theorem over_of_map {dones : List Bool} (h : s.session.executions.map (·.done) = dones)
    (all : ∀ done ∈ dones, done = true) : Over s :=
  fun _ he => all _ (h ▸ List.mem_map_of_mem he)

theorem Over.destroy (ended : Over s) (h : Handle) : Over (s.destroy h) := by
  have hsame : (s.destroy h).session.executions.map (·.done) =
      s.session.executions.map (·.done) := by
    rw [Shared.destroy, Session.destroy_eq, Session.map_destroying fun _ => rfl]
  refine over_of_map hsame fun done hdone => ?_
  obtain ⟨e, he, rfl⟩ := List.mem_map.mp hdone
  exact ended e he

/-- What happened in the executions, in the order in which they were begun. -/
def histories (executions : List Execution) : List Incident :=
  (executions.map (·.history.reverse)).flatten

theorem histories_append (executions more : List Execution) :
    histories (executions ++ more) = histories executions ++ histories more := by
  rw [histories, List.map_append, List.flatten_append]
  rfl

theorem histories_middle (before after : List Execution) (e : Execution) :
    histories (before ++ e :: after) =
      histories before ++ (e.history.reverse ++ histories after) := histories_append before _

/-- At most the last execution is under way, and all that was told was told by one execution after
another. -/
structure Consecutive (log : List Happening) (s : Shared) : Prop where
  told : incidents log = histories s.session.executions
  ended : ∀ e ∈ s.session.executions.dropLast, e.done = true

namespace Consecutive

theorem begun (hc : Consecutive log s) (ended : Over s) {spawn : Session.Spawn} {r : Runner}
    {c : Command} (begins : s.begin spawn r c = (.ok h, s')) : Consecutive log s' := by
  obtain ⟨session, hbegin, rfl⟩ := begin_cases begins
  obtain ⟨child, -, -, rfl, rfl⟩ := Session.begin_cases hbegin
  constructor
  · rw [histories_append, ← hc.told]
    exact (List.append_nil _).symm
  · intro e he
    rw [List.dropLast_concat] at he
    exact ended e he

theorem moved (hc : Consecutive log s) (hu : Coupled l runs log s)
    (moves : s.move h m = some s') (tells : s'.history h = told.reverse ++ s.history h) :
    Consecutive (log ++ [⟨h, m, told⟩]) s' := by
  obtain ⟨e, t', e', found, hself, hstep, hexecutions, -⟩ := move_cases moves
  rw [history_of_found hself, history_of_found found] at tells
  obtain ⟨b, -, hshared, halone⟩ := hu.alone h e found
  obtain ⟨before, after, hbefore, hafter⟩ := Session.executions_split found
  have htold := hc.told
  have hover := hc.ended
  rw [hbefore] at htold hover
  rw [hafter] at hexecutions
  have hlog : incidents (log ++ [⟨h, m, told⟩]) = incidents log ++ told :=
    (incidents_append _ _).trans (congrArg _ (List.append_nil told))
  cases after with
  | nil =>
    constructor
    · rw [hlog, htold, hexecutions, histories_middle, histories_middle, tells, List.reverse_append,
        List.reverse_reverse]
      simp [histories]
    · rw [hexecutions, List.dropLast_concat]
      rwa [List.dropLast_concat] at hover
  | cons last after =>
    rw [List.dropLast_append_of_ne_nil (List.cons_ne_nil _ _),
      List.dropLast_cons_of_ne_nil (List.cons_ne_nil _ _)] at hover
    have hdone := hover e (List.mem_append_right _ List.mem_cons_self)
    obtain ⟨rfl, hdone'⟩ := halone.ended (hshared ▸ hu.heard) hstep tells hdone
    constructor
    · rw [hlog, htold, hexecutions, histories_middle, histories_middle, tells]
      exact List.append_nil _
    · rw [hexecutions, List.dropLast_append_of_ne_nil (List.cons_ne_nil _ _),
        List.dropLast_cons_of_ne_nil (List.cons_ne_nil _ _)]
      intro e₁ he₁
      rcases List.mem_append.mp he₁ with he₁ | he₁
      · exact hover e₁ (List.mem_append_left _ he₁)
      · rcases List.mem_cons.mp he₁ with rfl | he₁
        · exact hdone'
        · exact hover e₁ (List.mem_append_right _ (List.mem_cons_of_mem _ he₁))

theorem destroying (hc : Consecutive log s) (p : Handle → Bool) (count : Nat) :
    Consecutive (log ++ destructions p count)
      { s with session := s.session.destroying p } := by
  constructor
  · rw [incidents_append, incidents_destructions, List.append_nil, hc.told, histories, histories,
      Session.map_destroying fun _ => rfl]
  · intro e he
    have hmem := List.mem_map_of_mem (f := Execution.done) he
    rw [List.map_dropLast, Session.map_destroying fun _ => rfl, ← List.map_dropLast] at hmem
    obtain ⟨e', he', hdone⟩ := List.mem_map.mp hmem
    rw [← hdone]
    exact hc.ended e' he'

end Consecutive

theorem Unfolds.consecutive (hu : Unfolds free l runs log s) (one : ∀ s, free s → Over s) :
    Consecutive log s := by
  induction hu with
  | new => exact ⟨rfl, fun e he => by cases he⟩
  | begun before admitted shared spawned begins ih => exact ih.begun (one _ admitted) begins
  | failed before fails ih => rwa [begin_of_error fails]
  | moved before moves tells ih => exact ih.moved before.coupled moves tells
  | destroyed before h ih =>
    rw [destroy, Session.destroy_eq]
    exact ih.destroying _ _
  | destroyedAll before name ih =>
    rw [destroyAll, Session.destroyAll_eq]
    exact ih.destroying _ _
  | meanwhile before trackers time ih => exact ⟨ih.told, ih.ended⟩

/-! ## What executions have of each other -/

/-- What the executions of a session have of each other: the listeners that they have in common, and
nothing else. -/
structure Isolated (l : Listeners) (runs : List Begun) (log : List Happening) (s : Shared) :
    Prop where
  count : s.session.executions.length = runs.length
  /-- An execution is what its run becomes by itself and by its own moves, with listeners that
  overhear what is meant for others, and can then do what it can do by itself. -/
  alone : ∀ h e, s.execution? h = some e → ∃ b, runs[h]? = some b ∧ b.runner.listeners = l ∧
    ∀ t, ∃ t' e', ((b.overhearing h log).run h).steps (Happening.moves (own h log)) t =
      some (t', e') ∧ e'.untied = e.untied ∧ e'.completion = e.completion ∧
      e'.history = e.history ∧ ∀ m, (s.move h m).isSome = (e'.step m t').isSome
  /-- Listeners without memory make nothing of what they overhear. -/
  memoryless : l.Each Registration.Memoryless →
    ∀ (h : Handle) (b : Begun), runs[h]? = some b → b.overhearing h log = b
  /-- Then the same run is the same among any others, if its own moves are. -/
  only : l.Each Registration.Memoryless → ∀ {free' : Shared → Prop} {l' runs' log' s'},
    Unfolds free' l' runs' log' s' → ∀ h e e', s.execution? h = some e →
      s'.execution? h = some e' → runs'[h]? = runs[h]? →
      Happening.moves (own h log') = Happening.moves (own h log) → e'.untied = e.untied
  /-- And the completion follows from what the run observes of its child. -/
  outcome : l.Each Registration.Memoryless → ∀ h e b, s.execution? h = some e →
    runs[h]? = some b → e.done = true → e.destroyed = false →
      e.completion = b.runner.outcome b.program (Session.pidOf h)
        (Execution.seen Execution.observed (Happening.moves (own h log)) .new (b.run h))
  told : ∀ h e, s.execution? h = some e → incidents (own h log) = e.history.reverse
  heard : Heard l (incidents log) s.listeners
  destroyed : ∀ h other, h ≠ other → (s.destroy other).execution? h = s.execution? h
  /-- An execution is destroyed by its own moves, whatever becomes of others, and only then are its
  readers cancelled. -/
  destroyed_iff : ∀ h e b, s.execution? h = some e → runs[h]? = some b →
    (e.destroyed = true ↔
      ∃ now ∈ Execution.seen (fun e m => [(e, m)]) (Happening.moves (own h log)) .new
        ((b.overhearing h log).run h), now.1.Destroys now.2) ∧
      ((e.completion.destroyed = true ∨ ∃ c report, e.completion.report c = some report ∧
        report.cancelled = true) → e.destroyed = true)
  /-- So it is not destroyed with others where neither its handle nor a listener destroys it. -/
  kept : ∀ h e, s.execution? h = some e → l.Each Registration.Calm →
    (∀ x ∈ own h log, x.move ≠ .destroy) → e.destroyed = false ∧ e.completion.destroyed = false ∧
      ∀ c report, e.completion.report c = some report → report.cancelled = false

/-- Every listener has had the calls of one execution after another. -/
structure Concatenated (l : Listeners) (s : Shared) : Prop where
  start : Called l.start s.listeners.start (s.session.executions.flatMap (·.starts))
  lines : ∀ c, s.listeners.onLine c =
    (l.onLine c).map (·.callAll (s.session.executions.flatMap (·.told c)))
  exit : Called l.exit s.listeners.exit (s.session.executions.flatMap (·.exits))

theorem filterMap_histories {α : Type} (f : Incident → Option α) (executions : List Execution) :
    (histories executions).filterMap f =
      executions.flatMap fun e => e.history.reverse.filterMap f := by
  rw [histories, List.filterMap_flatten, List.map_map, List.flatMap_def]
  rfl

theorem Unfolds.concatenated (hu : Unfolds free l runs log s) (one : ∀ s, free s → Over s) :
    Concatenated l s := by
  have hheard := hu.coupled.heard
  rw [(hu.consecutive one).told] at hheard
  constructor
  · have hstart := hheard.start
    rwa [filterMap_histories] at hstart
  · intro c
    have hlines := hheard.lines c
    rwa [filterMap_histories] at hlines
  · have hexit := hheard.exit
    rwa [filterMap_histories] at hexit

theorem overhearing_run (memoryless : l.Each Registration.Memoryless) {b : Begun}
    (shared : b.runner.listeners = l) (h : Handle) (log : List Happening) :
    b.overhearing h log = b := by
  have hsame := Runner.overhearing_eq (shared ▸ memoryless : b.runner.listeners.Each _) h log
  exact congrArg (fun runner => ({ b with runner } : Begun)) hsame

/-- What is possible for an execution is possible whatever others do. -/
theorem move_isSome {e e' : Execution} (found : s.execution? h = some e)
    (same : e'.untied = e.untied) (m : Move) (t : Tracker) :
    (s.move h m).isSome = (e'.step m t).isSome := by
  have hshared : e.hearing s.listeners = e'.withTies (s.listeners.ties e.registration) := by
    rw [Execution.hearing_eq, Execution.eq_withTies same.symm, Execution.withTies_withTies]
  rw [move, found]
  dsimp only
  rw [Option.isSome_map, hshared]
  exact e'.step_isSome_withTies _ m t _

theorem execution?_destroy {other : Handle} (hne : h ≠ other) :
    (s.destroy other).execution? h = s.execution? h := by
  have hdestroying := Session.execution?_destroying (· == other) s.session h
  rw [← Session.destroy_eq] at hdestroying
  refine hdestroying.trans ?_
  rw [show (h == other) = false from beq_false_of_ne hne]
  exact Option.map_id'

namespace Coupled

variable {e e' : Execution} {b : Begun}

theorem run_eq (hc : Coupled l runs log s) (found : s.execution? h = some e)
    (run : runs[h]? = some b) : b.runner.listeners = l ∧ Alone b h log e := by
  obtain ⟨b', hb', hrest⟩ := hc.alone h e found
  rw [run] at hb'
  injection hb' with hb'
  exact hb' ▸ hrest

/-- Where nobody has a memory an execution is what its run becomes by its own moves. -/
theorem steps_eq (hc : Coupled l runs log s) (memoryless : l.Each Registration.Memoryless)
    (found : s.execution? h = some e) (run : runs[h]? = some b) :
    ∃ t' e', (b.run h).steps (Happening.moves (own h log)) .new = some (t', e') ∧
      e'.untied = e.untied := by
  obtain ⟨hshared, halone⟩ := hc.run_eq found run
  obtain ⟨t', e', hsteps, hsame⟩ := halone.steps [] .new
  rw [overhearing_run memoryless hshared] at hsteps
  exact ⟨t', e', hsteps, hsame⟩

theorem only {l' : Listeners} {runs' : List Begun} {log' : List Happening}
    (hc : Coupled l runs log s) (hc' : Coupled l' runs' log' s')
    (memoryless : l.Each Registration.Memoryless) (found : s.execution? h = some e)
    (found' : s'.execution? h = some e') (same : runs'[h]? = runs[h]?)
    (moves : Happening.moves (own h log') = Happening.moves (own h log)) :
    e'.untied = e.untied := by
  obtain ⟨b, hb, hshared, -⟩ := hc.alone h e found
  obtain ⟨hshared', -⟩ := hc'.run_eq found' (same.trans hb)
  have memoryless' : l'.Each Registration.Memoryless := hshared'.symm.trans hshared ▸ memoryless
  obtain ⟨t₁, e₁, hsteps, hsame⟩ := hc.steps_eq memoryless found hb
  obtain ⟨t₂, e₂, hsteps', hsame'⟩ := hc'.steps_eq memoryless' found' (same.trans hb)
  rw [moves, hsteps] at hsteps'
  obtain rfl := Execution.after_eq hsteps'
  exact hsame'.symm.trans hsame

theorem outcome (hc : Coupled l runs log s) (memoryless : l.Each Registration.Memoryless)
    (found : s.execution? h = some e) (run : runs[h]? = some b) (done : e.done = true)
    (kept : e.destroyed = false) :
    e.completion = b.runner.outcome b.program (Session.pidOf h)
      (Execution.seen Execution.observed (Happening.moves (own h log)) .new (b.run h)) := by
  obtain ⟨t₁, e₁, hsteps, hsame⟩ := hc.steps_eq memoryless found run
  have hlogs := Execution.logs_of_steps Execution.observed hsteps
  have hdone : e₁.done = true := (congrArg Execution.done hsame).trans done
  have hkept : e₁.destroyed = false := (congrArg Execution.destroyed hsame).trans kept
  obtain ⟨houtcome, -⟩ := Execution.Logs.outcome hlogs hdone hkept
  exact (congrArg Execution.completion hsame).symm.trans houtcome

theorem begin_error (hc : Coupled l runs log s) {spawn : Session.Spawn} (r : Runner) {c : Command}
    (unspawned : ∀ child, spawn (Session.pidOf runs.length) c ≠ .ok child) :
    ∃ cause, s.begin spawn r c = (.error cause, s) := by
  unfold begin
  rw [Session.begin_eq, hc.count]
  cases c.check with
  | error cause => exact ⟨cause, rfl⟩
  | ok checked =>
    cases hspawn : spawn (Session.pidOf runs.length) c with
    | error cause => exact ⟨_, rfl⟩
    | ok child => exact absurd hspawn (unspawned child)

theorem isolates (hc : Coupled l runs log s) : Isolated l runs log s where
  count := hc.count
  alone h e found := by
    obtain ⟨b, hb, hshared, halone⟩ := hc.alone h e found
    refine ⟨b, hb, hshared, fun t => ?_⟩
    obtain ⟨t', e', hsteps, hsame⟩ := halone.steps [] t
    rw [List.append_nil] at hsteps
    exact ⟨t', e', hsteps, hsame, (congrArg Execution.completion hsame :),
      (congrArg Execution.history hsame :), fun m => move_isSome found hsame m t'⟩
  memoryless memoryless h b hb := by
    obtain ⟨hlt, -⟩ := List.getElem?_eq_some_iff.mp hb
    rw [← hc.count] at hlt
    obtain ⟨hshared, -⟩ := hc.run_eq (List.getElem?_eq_getElem hlt) hb
    exact overhearing_run memoryless hshared h log
  only memoryless _ _ _ _ _ hu' _ _ _ found found' same moves :=
    hc.only hu'.coupled memoryless found found' same moves
  outcome memoryless _ _ _ found run done kept := hc.outcome memoryless found run done kept
  told h e found := by
    obtain ⟨b, -, -, halone⟩ := hc.alone h e found
    exact halone.told
  heard := hc.heard
  destroyed _ _ hne := execution?_destroy hne
  destroyed_iff _ _ _ found run := (hc.run_eq found run).2.destroyed_iff
  kept h e found calm kept := by
    obtain ⟨b, -, hshared, halone⟩ := hc.alone h e found
    exact halone.kept (hshared ▸ calm) kept

end Coupled

/-- Executions that have a runner in common, or clones of one, whichever of them move and are
destroyed and in whatever order, leave each other alone; where each was begun when all before it
were over, the listeners have the record of one run after another. A run that cannot be started
is not begun at all. -/
theorem Unfolds.isolated (hu : Unfolds free l runs log s) :
    Isolated l runs log s ∧ ((∀ s, free s → Over s) → Concatenated l s) ∧
      ∀ spawn r c, (∀ child, spawn (Session.pidOf runs.length) c ≠ .ok child) →
        ∃ cause, s.begin spawn r c = (.error cause, s) := by
  have hc := hu.coupled
  refine ⟨hc.isolates, hu.concatenated, fun spawn r c unspawned => ?_⟩
  exact hc.begin_error r unspawned

/-! ## Two runs -/

/-- A runner whose listener has room for one line only. -/
def sharedRunner : Runner where
  mode := .asynchronous
  routing := .captured
  listeners :=
    { stdout := [.ofResponse fun calls _ =>
        if calls.isEmpty then .quiet else ⟨.failed ["full"], false⟩]
      exit := [.ofReaction fun _ => .quiet] }
  suits := rfl
  tracker := some "main"

def lineChild (b : UInt8) : Child := .ofActs [.write .stdout [b, 10]] (.exited 0)

/-- The moves of an execution until its line has been given to the listener. -/
def lineMoves (h : Handle) : List (Handle × Move) :=
  [.supervisor, .supervisor, .supervisor, .child none, .reader .stdout, .reader .stdout,
    .reader .stdout].map (h, ·)

/-- Its moves after that. -/
def lastMoves (h : Handle) : List (Handle × Move) :=
  [.child none, .supervisor, .reader .stdout, .reader .stdout, .supervisor, .supervisor,
    .supervisor, .supervisor, .supervisor].map (h, ·)

def firstBegun : Shared :=
  (Shared.new sharedRunner).beginning sharedRunner (.new [97]) (lineChild 97)

/-- The completion of a run in which the listener had no room. -/
def fullCompletion : Completion :=
  ⟨0, false, some ⟨.stdout, 1, false, []⟩, none, [.listener (.line .stdout) 0 "full"]⟩

/-- The run of a program that writes one line. -/
def lineRun (program : String) (b : UInt8) : Begun :=
  ⟨sharedRunner, program, (lineChild b).delay Session.startTime⟩

theorem firstBegun_unfolds (admitted : free (.new sharedRunner)) :
    Unfolds free sharedRunner.listeners [lineRun "a" 97] [] firstBegun :=
  Unfolds.new.beginning admitted (r := sharedRunner) (c := .new [97]) (lineChild 97) rfl rfl

theorem pair_of_map {α : Type} {f : Execution → α} {a b : α}
    (h : s.session.executions.map f = [a, b]) :
    ∃ e e', s.execution? 0 = some e ∧ s.execution? 1 = some e' ∧ f e = a ∧ f e' = b := by
  obtain ⟨e, rest, hall, he, hrest⟩ := List.map_eq_cons_iff.mp h
  obtain ⟨e', rfl, he'⟩ := List.map_eq_singleton_iff.mp hrest
  refine ⟨e, e', ?_, ?_, he, he'⟩ <;> rw [execution?, Session.execution?, hall] <;> rfl

/-- Two executions go on side by side; the second one gives its line first, and is destroyed. -/
theorem side_by_side :
    ∃ runs log s e other, Unfolds (fun _ => True) sharedRunner.listeners runs log s ∧
      s.execution? 0 = some e ∧ s.execution? 1 = some other ∧ e.completion = fullCompletion ∧
      other.destroyed = true ∧ s.listeners.stdout.map (·.received) = [["b", "a"]] := by
  have hrun : ((firstBegun.beginning sharedRunner (.new [98]) (lineChild 98)).moves
      (lineMoves 1 ++ lineMoves 0 ++ [(1, .destroy)] ++ lastMoves 0)).map
      (fun s => (s.session.executions.map fun e => (e.completion, e.destroyed),
        s.listeners.stdout.map (·.received))) =
        some ([(fullCompletion, false), (⟨-1, false, none, none, []⟩, true)], [["b", "a"]]) := by
    decide +kernel
  obtain ⟨s, hmoves, heq⟩ := Option.map_eq_some_iff.mp hrun
  injection heq with hexecutions hreceived
  obtain ⟨e, other, found, found', he, hother⟩ := pair_of_map hexecutions
  injection he with hcompletion hkept
  injection hother with _ hdestroyed
  have hfirst := @firstBegun_unfolds (fun _ => True) trivial
  have hboth := hfirst.beginning trivial (r := sharedRunner) (c := .new [98]) (lineChild 98) rfl rfl
  obtain ⟨log, -, hu⟩ := hboth.moves hmoves
  exact ⟨_, _, s, e, other, hu, found, found', hcompletion, hdestroyed, hreceived⟩

/-- One execution comes after the other; in between the handle of the first is destroyed, and a
program that is not found is tried. -/
theorem one_after_another :
    ∃ runs log s e, Unfolds Over sharedRunner.listeners runs log s ∧ s.execution? 1 = some e ∧
      e.completion = fullCompletion ∧ e.destroyed = false ∧
      s.listeners.stdout.map (·.received) = [["a", "b"]] := by
  have hrun : ((firstBegun.moves (lineMoves 0 ++ lastMoves 0)).bind fun s =>
      ((s.destroy 0).beginning sharedRunner (.new [98]) (lineChild 98)).moves
        (lineMoves 1 ++ lastMoves 1)).map
      (fun s => (s.session.executions.map fun e => (e.completion, e.destroyed),
        s.listeners.stdout.map (·.received))) =
        some ([(⟨0, false, some ⟨.stdout, 1, false, []⟩, none, []⟩, true),
          (fullCompletion, false)], [["a", "b"]]) := by
    decide +kernel
  have hdone : (firstBegun.moves (lineMoves 0 ++ lastMoves 0)).map
      (fun s => s.session.executions.map (·.done)) = some [true] := by decide +kernel
  obtain ⟨s, hmoves, heq⟩ := Option.map_eq_some_iff.mp hrun
  obtain ⟨between, hbefore, hafter⟩ := Option.bind_eq_some_iff.mp hmoves
  injection heq with hexecutions hreceived
  obtain ⟨other, e, -, found, -, he⟩ := pair_of_map hexecutions
  injection he with hcompletion hkept
  rw [hbefore, Option.map_some] at hdone
  injection hdone with hdone
  have hover : Over between := over_of_map hdone (by simp)
  have hfirst := @firstBegun_unfolds Over fun e he => by cases he
  obtain ⟨log, -, hu⟩ := hfirst.moves hbefore
  have hmissing : (between.destroy 0).begin (fun _ _ => .error .notFound) sharedRunner
      (.new [99]) = (.error (.spawn "c" .notFound), between.destroy 0) := rfl
  have htried := (hu.destroyed 0).failed hmissing
  have hboth := htried.beginning (hover.destroy 0) (r := sharedRunner) (c := .new [98]) (lineChild 98) rfl rfl
  obtain ⟨later, -, hu'⟩ := hboth.moves hafter
  exact ⟨_, _, s, e, hu', found, hcompletion, hkept, hreceived⟩

/-- What a run comes to depends on what was run before, where a listener remembers it: the second
time the same program finds no room for its line. -/
theorem repeated_run_differs :
    ∃ log s e e', Unfolds Over sharedRunner.listeners [lineRun "a" 97, lineRun "a" 97] log s ∧
      s.execution? 0 = some e ∧ s.execution? 1 = some e' ∧
      Happening.moves (own 1 log) = Happening.moves (own 0 log) ∧
      e.done = true ∧ e'.done = true ∧ e.completion ≠ e'.completion := by
  have hrun : ((firstBegun.moves (lineMoves 0 ++ lastMoves 0)).bind fun s =>
      (s.beginning sharedRunner (.new [97]) (lineChild 97)).moves (lineMoves 1 ++ lastMoves 1)).map
      (fun s => s.session.executions.map fun e => (e.completion, e.done)) =
        some [(⟨0, false, some ⟨.stdout, 1, false, []⟩, none, []⟩, true),
          (fullCompletion, true)] := by
    decide +kernel
  have hbetween : (firstBegun.moves (lineMoves 0 ++ lastMoves 0)).map
      (fun s => (s.session.executions.map (·.done), s.session.time)) = some ([true], 0) := by
    decide +kernel
  obtain ⟨s, hmoves, heq⟩ := Option.map_eq_some_iff.mp hrun
  obtain ⟨between, hbefore, hafter⟩ := Option.bind_eq_some_iff.mp hmoves
  obtain ⟨e, e', found, found', he, he'⟩ := pair_of_map heq
  injection he with hcompletion hdone
  injection he' with hcompletion' hdone'
  rw [hbefore, Option.map_some] at hbetween
  injection hbetween with hbetween
  injection hbetween with hended htime
  have hover : Over between := over_of_map hended (by simp)
  have hfirst := @firstBegun_unfolds Over fun e he => by cases he
  obtain ⟨log, hmoved, hu⟩ := hfirst.moves hbefore
  have hboth := hu.beginning hover (r := sharedRunner) (c := .new [97]) (lineChild 97) rfl rfl
  obtain ⟨later, hmoved', hu'⟩ := hboth.moves hafter
  rw [htime] at hu'
  refine ⟨_, s, e, e', hu', found, found', ?_, hdone, hdone', ?_⟩
  · rw [List.nil_append, moves_own, moves_own, List.map_append, hmoved, hmoved']
    rfl
  · rw [hcompletion, hcompletion']
    decide

/-- Side by side the first execution is what it is alone with a listener that overhears the second
one; one after the other both have their lines in the record. -/
theorem isolated_lines :
    (∃ runs log s e, Unfolds (fun _ => True) sharedRunner.listeners runs log s ∧
      s.execution? 0 = some e ∧ e.completion = fullCompletion ∧
      s.listeners.stdout.map (·.received) = [["b", "a"]] ∧
      ∃ (b : Begun) (t : Tracker) (e' : Execution),
        ((b.overhearing 0 log).run 0).steps (Happening.moves (own 0 log)) .new = some (t, e') ∧
        e'.completion = fullCompletion) ∧
    ∃ runs log s e, Unfolds Over sharedRunner.listeners runs log s ∧
      s.execution? 1 = some e ∧ e.completion = fullCompletion ∧
      s.listeners.stdout.map (·.received) = [["a", "b"]] ∧
      Concatenated sharedRunner.listeners s := by
  constructor
  · obtain ⟨runs, log, s, e, -, hu, found, -, hcompletion, -, hreceived⟩ := side_by_side
    obtain ⟨hisolated, -⟩ := Unfolds.isolated hu
    obtain ⟨b, -, -, halone⟩ := hisolated.alone 0 e found
    obtain ⟨t, e', hsteps, -, hsame, -⟩ := halone .new
    exact ⟨runs, log, s, e, hu, found, hcompletion, hreceived, b, t, e', hsteps,
      hsame.trans hcompletion⟩
  · obtain ⟨runs, log, s, e, hu, found, hcompletion, -, hreceived⟩ := one_after_another
    obtain ⟨-, hconcatenated, -⟩ := Unfolds.isolated hu
    exact ⟨runs, log, s, e, hu, found, hcompletion, hreceived, hconcatenated fun _ h => h⟩

end Shared

end ToolRunner
