import ToolRunner.Proofs.Execution.Ties
import ToolRunner.Session

/-!
# Overhearing

What a listener answers may depend on the calls that it has had, and when several executions have it
in common these are the calls of all of them. For one of these executions it is as if it had the
listener for itself, and the listener had overheard what was meant for the others (`overhearing`).
To a listener without memory that makes no difference (`overhearing_eq`).
-/

namespace ToolRunner

/-- A move of one execution, and what happened in it. -/
structure Happening where
  handle : Handle
  move : Move
  told : List Incident

namespace Happening

variable {α : Type} {log later : List Happening} {h : Handle}

/-- What happened in the moves of one execution. -/
def own (h : Handle) (log : List Happening) : List Happening := log.filter (·.handle = h)

def moves (log : List Happening) : List Move := log.map (·.move)

def incidents (log : List Happening) : List Incident := log.flatMap (·.told)

/-- The calls among all that happened, each with the execution that it was for. -/
def calls (call? : Incident → Option α) (log : List Happening) : List (Handle × α) :=
  log.flatMap fun x => (x.told.filterMap call?).map (x.handle, ·)

theorem own_append (h : Handle) (log later : List Happening) :
    own h (log ++ later) = own h log ++ own h later := List.filter_append _ _

theorem own_concat_self (log : List Happening) (h : Handle) (m : Move) (told : List Incident) :
    own h (log ++ [⟨h, m, told⟩]) = own h log ++ [⟨h, m, told⟩] := by
  simp [own]

/-- The moves of one execution are those that were made for it. -/
theorem moves_own (h : Handle) (log : List Happening) :
    moves (own h log) =
      ((log.map fun x => (x.handle, x.move)).filter (·.1 = h)).map (·.2) := by
  rw [moves, own, List.filter_map, List.map_map]
  rfl

theorem incidents_append (log later : List Happening) :
    incidents (log ++ later) = incidents log ++ incidents later := List.flatMap_append

theorem calls_append (call? : Incident → Option α) (log later : List Happening) :
    calls call? (log ++ later) = calls call? log ++ calls call? later := List.flatMap_append

theorem calls_cons (call? : Incident → Option α) (x : Happening) (log : List Happening) :
    calls call? (x :: log) = (x.told.filterMap call?).map (x.handle, ·) ++ calls call? log := rfl

/-- Whomever they were for, the calls are among what happened. -/
theorem map_calls (call? : Incident → Option α) (log : List Happening) :
    (calls call? log).map (·.2) = (incidents log).filterMap call? := by
  induction log with
  | nil => rfl
  | cons x log ih =>
    rw [calls_cons, List.map_append, ih]
    simp [incidents, Function.comp_def]

theorem countP_calls (call? : Incident → Option α) (h : Handle) (log : List Happening) :
    (calls call? log).countP (·.1 = h) = ((incidents (own h log)).filterMap call?).length := by
  induction log with
  | nil => rfl
  | cons x log ih =>
    rw [calls_cons, List.countP_append, ih]
    by_cases hx : x.handle = h
    · simp [own, incidents, hx, List.countP_map, Function.comp_def]
    · simp [own, hx, List.countP_map, Function.comp_def]

/-- A call that is made in a move comes after all that happened before. -/
theorem calls_split {call? : Incident → Option α} {told : List Incident} {i : Incident} {a : α}
    (mem : i ∈ told) (call : call? i = some a) (log : List Happening) (h : Handle) (m : Move)
    (later : List Happening) :
    ∃ b rest, calls call? (log ++ ⟨h, m, told⟩ :: later) = calls call? log ++ (h, b) :: rest := by
  have hmem : a ∈ told.filterMap call? := List.mem_filterMap.mpr ⟨i, mem, call⟩
  rw [calls_append, calls_cons]
  cases hfound : told.filterMap call? with
  | nil =>
    rw [hfound] at hmem
    contradiction
  | cons b rest => exact ⟨b, _, rfl⟩

end Happening

/-- The calls before one that is for an execution, of which there were `count` for it already. -/
def heardBefore {α : Type} (h : Handle) : Nat → List (Handle × α) → List α
  | _, [] => []
  | count, (other, a) :: calls =>
    if other = h then
      match count with
      | 0 => []
      | count + 1 => a :: heardBefore h count calls
    else a :: heardBefore h count calls

theorem heardBefore_split {α : Type} (h : Handle) (earlier : List (Handle × α)) (a : α)
    (later : List (Handle × α)) :
    heardBefore h (earlier.countP (·.1 = h)) (earlier ++ (h, a) :: later) =
      earlier.map (·.2) := by
  induction earlier with
  | nil => simp [heardBefore]
  | cons call earlier ih =>
    obtain ⟨other, b⟩ := call
    by_cases hother : other = h
    · simp [heardBefore, hother, ih]
    · simp [heardBefore, hother, ih]

namespace Registration

variable {α : Type}

/-- The listener as one execution finds it, which is called by others as well. -/
def overhearing (r : Registration α) (h : Handle) (calls : List (Handle × α)) : Registration α :=
  { r with
    respond := fun own =>
      r.respond ((heardBefore h (own.length - r.calls.length) calls).reverse ++ r.calls) }

/-- Whether what the listener answers depends on the present call alone. -/
def Memoryless (r : Registration α) : Prop :=
  ∀ calls calls' a, r.respond calls a = r.respond calls' a

theorem calls_callAll (r : Registration α) (as : List α) :
    (r.callAll as).calls = as.reverse ++ r.calls := by
  induction as generalizing r with
  | nil => rfl
  | cons a as ih =>
    show ((r.call a).callAll as).calls = _
    rw [ih]
    simp [call]

theorem respond_callAll (r : Registration α) (as : List α) :
    (r.callAll as).respond = r.respond := by
  induction as generalizing r with
  | nil => rfl
  | cons a as ih => exact ih (r.call a)

/-- Whether the listener never destroys the process that it is called for. -/
def Calm (r : Registration α) : Prop := ∀ calls a, (r.respond calls a).destroys = false

theorem Calm.callAll {r : Registration α} (calm : r.Calm) (as : List α) : (r.callAll as).Calm := by
  intro calls a
  rw [respond_callAll]
  exact calm calls a

theorem Calm.overhearing {r : Registration α} (calm : r.Calm) (h : Handle)
    (calls : List (Handle × α)) : (r.overhearing h calls).Calm := fun _ a => calm _ a

/-- Called for an execution, the listener answers as it does after all calls that it has had. -/
theorem reaction_overhearing (r : Registration α) (h : Handle) {earlier later : List (Handle × α)}
    {a : α} {own : List α} (count : own.length = earlier.countP (·.1 = h)) :
    ((r.overhearing h (earlier ++ (h, a) :: later)).callAll own).reaction =
      (r.callAll (earlier.map (·.2))).reaction := by
  funext b
  simp only [reaction, respond_callAll, calls_callAll, overhearing, List.length_append,
    List.length_reverse, Nat.add_sub_cancel, count, heardBefore_split]

theorem overhearing_eq {r : Registration α} (memoryless : r.Memoryless) (h : Handle)
    (calls : List (Handle × α)) : r.overhearing h calls = r := by
  obtain ⟨respond, before⟩ := r
  exact congrArg (Registration.mk · before) (funext fun own => funext fun a => memoryless _ own a)

end Registration

namespace Listeners

variable {l : Listeners} {h : Handle} {log : List Happening}

/-- The calls of the start listener of a number. -/
def startCall? (index : Nat) (i : Incident) : Option Started :=
  i.start?.bind fun call => if call.1 = index then some call.2 else none

def exitCall? (index : Nat) (i : Incident) : Option Int :=
  i.exit?.bind fun call => if call.1 = index then some call.2 else none

/-- The listeners as one execution finds them, when all this happens. -/
def overhearing (l : Listeners) (h : Handle) (log : List Happening) : Listeners where
  start := l.start.mapIdx fun i r => r.overhearing h (Happening.calls (startCall? i) log)
  stdout := l.stdout.map (·.overhearing h (Happening.calls (Incident.line? .stdout) log))
  stderr := l.stderr.map (·.overhearing h (Happening.calls (Incident.line? .stderr) log))
  exit := l.exit.mapIdx fun i r => r.overhearing h (Happening.calls (exitCall? i) log)

/-- Something holds of every listener. -/
structure Each (p : ∀ {α : Type}, Registration α → Prop) (l : Listeners) : Prop where
  start : ∀ r ∈ l.start, p r
  lines : ∀ c, ∀ r ∈ l.onLine c, p r
  exit : ∀ r ∈ l.exit, p r

theorem onLine_overhearing (l : Listeners) (h : Handle) (log : List Happening) (c : Channel) :
    (l.overhearing h log).onLine c =
      (l.onLine c).map (·.overhearing h (Happening.calls (Incident.line? c) log)) := by
  cases c <;> rfl

theorem wantsOutput_overhearing (l : Listeners) (h : Handle) (log : List Happening) :
    (l.overhearing h log).wantsOutput = l.wantsOutput := by
  simp [wantsOutput, overhearing]

theorem overhearing_eq (memoryless : l.Each Registration.Memoryless) (h : Handle)
    (log : List Happening) : l.overhearing h log = l := by
  have hlines (c : Channel) : (l.onLine c).map
      (·.overhearing h (Happening.calls (Incident.line? c) log)) = l.onLine c :=
    (List.map_congr_left fun r hr =>
      Registration.overhearing_eq (memoryless.lines c r hr) h _).trans (List.map_id _)
  have hindexed {α : Type} {rs : List (Registration α)} (hrs : ∀ r ∈ rs, r.Memoryless)
      (heard : Nat → List (Handle × α)) :
      rs.mapIdx (fun i r => r.overhearing h (heard i)) = rs := by
    refine List.ext_getElem? fun i => ?_
    rw [List.getElem?_mapIdx]
    cases hr : rs[i]? with
    | none => rfl
    | some r =>
      exact congrArg some (Registration.overhearing_eq (hrs r (List.mem_of_getElem? hr)) h _)
  rw [overhearing, hindexed memoryless.start, hindexed memoryless.exit]
  exact (congrArg (Listeners.mk l.start · _ l.exit) (hlines .stdout)).trans
    (congrArg (Listeners.mk l.start l.stdout · l.exit) (hlines .stderr))

theorem Each.overhearing {p : ∀ {α : Type}, Registration α → Prop}
    (keeps : ∀ {α : Type} {r : Registration α} {calls : List (Handle × α)}, p r →
      p (r.overhearing h calls)) (hl : l.Each p) : (l.overhearing h log).Each p := by
  constructor
  · intro r hr
    obtain ⟨i, hi, rfl⟩ := List.mem_mapIdx.mp hr
    exact keeps (hl.start _ (List.getElem_mem hi))
  · intro c r hr
    rw [onLine_overhearing] at hr
    obtain ⟨r', hr', rfl⟩ := List.mem_map.mp hr
    exact keeps (hl.lines c r' hr')
  · intro r hr
    obtain ⟨i, hi, rfl⟩ := List.mem_mapIdx.mp hr
    exact keeps (hl.exit _ (List.getElem_mem hi))

end Listeners

theorem Called.of_mem {α : Type} {ls ls' : List (Registration α)} {calls : List (Nat × α)}
    (h : Called ls ls' calls) {r : Registration α} (mem : r ∈ ls') :
    ∃ r' as, r' ∈ ls ∧ r = r'.callAll as := by
  obtain ⟨i, hi⟩ := List.mem_iff_getElem?.mp mem
  rw [h i, Option.map_eq_some_iff] at hi
  obtain ⟨r', hr', rfl⟩ := hi
  exact ⟨r', _, List.mem_of_getElem? hr', rfl⟩

/-- What a call does not change holds of all listeners ever after. -/
theorem Heard.each {l l' : Listeners} {told : List Incident}
    {p : ∀ {α : Type}, Registration α → Prop}
    (keeps : ∀ {α : Type} {r : Registration α} {as : List α}, p r → p (r.callAll as))
    (h : Heard l told l') (hl : l.Each p) : l'.Each p := by
  constructor
  · intro r hr
    obtain ⟨r', as, hr', rfl⟩ := h.start.of_mem hr
    exact keeps (hl.start r' hr')
  · intro c r hr
    rw [h.lines] at hr
    obtain ⟨r', hr', rfl⟩ := List.mem_map.mp hr
    exact keeps (hl.lines c r' hr')
  · intro r hr
    obtain ⟨r', as, hr', rfl⟩ := h.exit.of_mem hr
    exact keeps (hl.exit r' hr')

/-! ## Who is called answers alike -/

/-- A listener that has overheard what others were called with answers as one that was called with
all of it. -/
theorem alike_overhearing {α : Type} {ls own all : List (Registration α)} {h : Handle} {m : Move}
    {log later : List Happening} {told : List Incident} {ownCalls allCalls : List (Nat × α)}
    {call? : Nat → Incident → Option α}
    (own_called : Called (ls.mapIdx fun i r => r.overhearing h
      (Happening.calls (call? i) (log ++ ⟨h, m, told⟩ :: later))) own ownCalls)
    (own_calls : ∀ i, callsTo i ownCalls =
      (Happening.incidents (Happening.own h log)).filterMap (call? i))
    (all_called : Called ls all allCalls)
    (all_calls : ∀ i, callsTo i allCalls = (Happening.incidents log).filterMap (call? i))
    (i : Nat) :
    (own[i]?).isSome = (all[i]?).isSome ∧ ∀ incident a, incident ∈ told →
      call? i incident = some a → (own[i]?).map (·.reaction) = (all[i]?).map (·.reaction) := by
  rw [own_called i, all_called i, List.getElem?_mapIdx]
  cases hl : ls[i]? with
  | none => exact ⟨rfl, fun _ _ _ _ => rfl⟩
  | some l =>
    refine ⟨rfl, fun incident a hmem hcall => congrArg some ?_⟩
    obtain ⟨b, rest, hsplit⟩ := Happening.calls_split hmem hcall log h m later
    rw [own_calls, all_calls, hsplit, ← Happening.map_calls _ log]
    exact l.reaction_overhearing h (Happening.countP_calls (call? i) h log).symm

theorem callsTo_starts (i : Nat) (told : List Incident) :
    callsTo i (told.filterMap Incident.start?) = told.filterMap (Listeners.startCall? i) :=
  List.filterMap_filterMap

theorem callsTo_exits (i : Nat) (told : List Incident) :
    callsTo i (told.filterMap Incident.exit?) = told.filterMap (Listeners.exitCall? i) :=
  List.filterMap_filterMap

/-- An execution that has the listeners for itself, where these overhear what is meant for others,
gets the same answers as one that has them in common with others. -/
theorem agree_overhearing {l all : Listeners} {e : Execution} {h : Handle} {m : Move}
    {log later : List Happening} {told : List Incident}
    (own_heard : Heard (l.overhearing h (log ++ ⟨h, m, told⟩ :: later))
      (Happening.incidents (Happening.own h log)) e.listeners)
    (own_lines : e.lines = .ofFn (l.overhearing h (log ++ ⟨h, m, told⟩ :: later)).onLine)
    (all_heard : Heard l (Happening.incidents log) all) (registration : Option UInt64) :
    Execution.Agree (all.ties registration) e.ties told := by
  constructor
  · intro i
    obtain ⟨hsome, halike⟩ := alike_overhearing own_heard.start (fun i => callsTo_starts i _)
      all_heard.start (fun i => callsTo_starts i _) i
    exact ⟨hsome, fun seen hmem => halike _ seen hmem (by simp [Listeners.startCall?,
      Incident.start?])⟩
  · intro i
    obtain ⟨hsome, halike⟩ := alike_overhearing own_heard.exit (fun i => callsTo_exits i _)
      all_heard.exit (fun i => callsTo_exits i _) i
    exact ⟨hsome, fun code hmem => halike _ code hmem (by simp [Listeners.exitCall?,
      Incident.exit?])⟩
  · intro c
    show (e.lines.get c).isEmpty = ((PerChannel.ofFn all.onLine).get c).isEmpty
    rw [own_lines, PerChannel.get_ofFn, PerChannel.get_ofFn, Listeners.onLine_overhearing,
      all_heard.lines, List.isEmpty_map, List.isEmpty_map]
  · intro c text hmem
    obtain ⟨b, rest, hsplit⟩ := Happening.calls_split hmem
      (show Incident.line? c (.line c text) = some text from if_pos rfl) log h m later
    show ((PerChannel.ofFn e.onLine).get c).map _ = ((PerChannel.ofFn all.onLine).get c).map _
    rw [PerChannel.get_ofFn, PerChannel.get_ofFn, ← Execution.onLine_listeners, own_heard.lines,
      all_heard.lines, Listeners.onLine_overhearing, hsplit, ← Happening.map_calls _ log]
    simp only [List.map_map]
    exact List.map_congr_left fun l _ =>
      l.reaction_overhearing h (Happening.countP_calls (Incident.line? c) h log).symm

namespace Runner

/-- The runner whose listeners overhear what was meant for others. -/
def overhearing (r : Runner) (h : Handle) (log : List Happening) : Runner :=
  { r with
    listeners := r.listeners.overhearing h log
    suits := by
      have hsuits := r.suits
      unfold Routing.suits at hsuits ⊢
      rwa [Listeners.wantsOutput_overhearing] }

theorem overhearing_eq {r : Runner} (memoryless : r.listeners.Each Registration.Memoryless)
    (h : Handle) (log : List Happening) : r.overhearing h log = r := by
  have hsame := Listeners.overhearing_eq memoryless h log
  obtain ⟨mode, routing, l, suits, tracker⟩ := r
  simp only [overhearing] at hsame ⊢
  congr

end Runner

end ToolRunner
