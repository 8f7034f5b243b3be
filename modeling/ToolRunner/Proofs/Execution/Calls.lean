import ToolRunner.Proofs.Execution.Wiring

/-!
# The history of a run and the calls of its listeners

The history tells of every call: what a listener has got since the run began is what the history
says of its number or of its channel, in the same order (`Recorded`). So a statement about the
history is one about the calls.
-/

namespace ToolRunner

theorem Registration.callAll_append {α : Type} (r : Registration α) (as bs : List α) :
    r.callAll (as ++ bs) = (r.callAll as).callAll bs := List.foldl_append

/-- The calls that go to the listener of a number. -/
def callsTo {α : Type} (index : Nat) (calls : List (Nat × α)) : List α :=
  calls.filterMap fun call => if call.1 = index then some call.2 else none

/-- Listeners that have had some calls, each of them those of its number. -/
def Called {α : Type} (before after : List (Registration α)) (calls : List (Nat × α)) : Prop :=
  ∀ i : Nat, after[i]? = before[i]?.map (·.callAll (callsTo i calls))

section

variable {α : Type} {before after : List (Registration α)} {calls : List (Nat × α)}

theorem callsTo_concat_self (index : Nat) (a : α) (calls : List (Nat × α)) :
    callsTo index (calls ++ [(index, a)]) = callsTo index calls ++ [a] := by
  simp [callsTo]

theorem callsTo_concat_ne {index other : Nat} (h : other ≠ index) (a : α)
    (calls : List (Nat × α)) : callsTo index (calls ++ [(other, a)]) = callsTo index calls := by
  simp [callsTo, h]

theorem called_nil (before : List (Registration α)) : Called before before [] := by
  intro i
  simp [callsTo, Registration.callAll]

theorem Called.length_eq (h : Called before after calls) : after.length = before.length := by
  have hnone (i : Nat) : after[i]? = none ↔ before[i]? = none := by
    rw [h i, Option.map_eq_none_iff]
  have hle := (hnone before.length).mpr (List.getElem?_eq_none (Nat.le_refl _))
  have hge := (hnone after.length).mp (List.getElem?_eq_none (Nat.le_refl _))
  rw [List.getElem?_eq_none_iff] at hle hge
  omega

theorem callsTo_append (index : Nat) (calls more : List (Nat × α)) :
    callsTo index (calls ++ more) = callsTo index calls ++ callsTo index more :=
  List.filterMap_append

theorem Called.trans {last : List (Registration α)} {more : List (Nat × α)}
    (h : Called before after calls) (h' : Called after last more) :
    Called before last (calls ++ more) := by
  intro i
  rw [h' i, h i, Option.map_map, callsTo_append]
  exact congrArg (Option.map · _) (funext fun r => (r.callAll_append _ _).symm)

/-- One more call of one listener. -/
theorem Called.call (h : Called before after calls) {index : Nat} {r : Registration α}
    (listener : after[index]? = some r) (a : α) :
    Called before (after.set index (r.call a)) (calls ++ [(index, a)]) := by
  intro i
  by_cases hi : i = index
  · subst hi
    have hlt : i < after.length := (List.getElem?_eq_some_iff.mp listener).1
    have hcalled := h i
    rw [listener, eq_comm, Option.map_eq_some_iff] at hcalled
    obtain ⟨r', hr', rfl⟩ := hcalled
    rw [List.getElem?_set_self hlt, hr', callsTo_concat_self]
    show _ = some (r'.callAll (callsTo i calls ++ [a]))
    rw [Registration.callAll_append]
    rfl
  · rw [List.getElem?_set_ne (Ne.symm hi), callsTo_concat_ne (Ne.symm hi)]
    exact h i

theorem callsTo_eq_nil {n : Nat} (h : calls.map (·.1) = List.range n) {i : Nat} (hi : n ≤ i) :
    callsTo i calls = [] := by
  refine List.filterMap_eq_nil_iff.mpr fun call hcall => if_neg ?_
  have hmem := List.mem_map_of_mem (f := (·.1)) hcall
  rw [h, List.mem_range] at hmem
  omega

/-- A listener whose turn has not come is as it was. -/
theorem Called.untouched (h : Called before after calls) {n : Nat}
    (range : calls.map (·.1) = List.range n) {r : Registration α}
    (listener : after[n]? = some r) : before[n]? = some r := by
  have hcalled := h n
  rw [listener, callsTo_eq_nil range (Nat.le_refl n), eq_comm, Option.map_eq_some_iff] at hcalled
  obtain ⟨r', hr', rfl⟩ := hcalled
  exact hr'

/-- In calls of consecutive listeners each listener has one. -/
theorem callsTo_of_range {n : Nat} (h : calls.map (·.1) = List.range n) {i : Nat} (hi : i < n) :
    ∃ a, (i, a) ∈ calls ∧ callsTo i calls = [a] := by
  induction n generalizing calls with
  | zero => exact absurd hi (Nat.not_lt_zero i)
  | succ n ih =>
    rw [List.range_succ, List.map_eq_append_iff] at h
    obtain ⟨earlier, last, rfl, hearlier, hlast⟩ := h
    rw [List.map_eq_singleton_iff] at hlast
    obtain ⟨⟨index, a⟩, rfl, rfl⟩ := hlast
    by_cases hin : i = index
    · subst hin
      have hnone := callsTo_eq_nil hearlier (Nat.le_refl i)
      refine ⟨a, by simp, ?_⟩
      rw [callsTo_concat_self, hnone, List.nil_append]
    · obtain ⟨b, hb, hcalls⟩ := ih hearlier (by omega)
      refine ⟨b, List.mem_append_left _ hb, ?_⟩
      rw [callsTo_concat_ne (Ne.symm hin), hcalls]

/-- Where all listeners are called one after another, each is called once. -/
theorem Called.once (h : Called before after calls)
    (range : calls.map (·.1) = List.range before.length) {i : Nat} {r : Registration α}
    (listener : before[i]? = some r) : ∃ a, (i, a) ∈ calls ∧ after[i]? = some (r.call a) := by
  have hlt : i < before.length := (List.getElem?_eq_some_iff.mp listener).1
  obtain ⟨a, hmem, hcalls⟩ := callsTo_of_range range hlt
  refine ⟨a, hmem, ?_⟩
  rw [h i, listener, hcalls]
  rfl

/-- Where all listeners are called with the same, that is the one call of each. -/
theorem Called.all (h : Called before after calls) {a : α}
    (all : calls = (List.range before.length).map (·, a)) : after = before.map (·.call a) := by
  have hnumbers : calls.map (·.1) = List.range before.length := by
    rw [all, List.map_map]
    exact List.map_id _
  refine List.ext_getElem? fun i => ?_
  rw [List.getElem?_map]
  cases hl : before[i]? with
  | none =>
    rw [h i, hl]
    rfl
  | some l =>
    obtain ⟨b, hmem, hcall⟩ := h.once hnumbers hl
    rw [all, List.mem_map] at hmem
    obtain ⟨_, -, heq⟩ := hmem
    injection heq with _ heq
    rw [hcall, heq]
    rfl

end

/-- Listeners that have heard of what has happened, each of what is for it to hear. -/
structure Heard (before : Listeners) (told : List Incident) (after : Listeners) : Prop where
  start : Called before.start after.start (told.filterMap Incident.start?)
  lines : ∀ c, after.onLine c =
    (before.onLine c).map (·.callAll (told.filterMap (Incident.line? c)))
  exit : Called before.exit after.exit (told.filterMap Incident.exit?)

theorem Heard.refl (l : Listeners) : Heard l [] l :=
  ⟨called_nil _, fun _ => (List.map_id _).symm, called_nil _⟩

theorem Heard.trans {l l' l'' : Listeners} {told more : List Incident} (h : Heard l told l')
    (h' : Heard l' more l'') : Heard l (told ++ more) l'' := by
  constructor
  · rw [List.filterMap_append]
    exact h.start.trans h'.start
  · intro c
    rw [h'.lines, h.lines, List.map_map, List.filterMap_append]
    exact List.map_congr_left fun r _ => (r.callAll_append _ _).symm
  · rw [List.filterMap_append]
    exact h.exit.trans h'.exit

namespace Execution

def starts (e : Execution) : List (Nat × Started) := e.history.reverse.filterMap Incident.start?

def exits (e : Execution) : List (Nat × Int) := e.history.reverse.filterMap Incident.exit?

def told (e : Execution) (channel : Channel) : List String :=
  e.history.reverse.filterMap (Incident.line? channel)

/-- The listeners of a run have had the calls that its history tells of, and no others. -/
structure Recorded (r : Runner) (e : Execution) : Prop where
  start : Called r.listeners.start e.start e.starts
  lines : ∀ c, e.onLine c = (r.listeners.onLine c).map (·.callAll (e.told c))
  exit : Called r.listeners.exit e.exit e.exits

variable {r : Runner} {e e' : Execution} {m : Move}

theorem starts_callStart (e : Execution) (index : Nat) (l : Registration Started) :
    (e.callStart index l).starts =
      e.starts ++ [(index, ⟨e.program, some e.pid, e.destroyed⟩)] := by
  simp [starts, callStart, Incident.start?]

theorem exits_callExit (e : Execution) (index : Nat) (l : Registration Int) :
    (e.callExit index l).exits = e.exits ++ [(index, e.code)] := by
  simp [exits, callExit, Incident.exit?]

theorem exits_callStart (e : Execution) (index : Nat) (l : Registration Started) :
    (e.callStart index l).exits = e.exits := by
  simp [exits, callStart, Incident.exit?]

theorem starts_callExit (e : Execution) (index : Nat) (l : Registration Int) :
    (e.callExit index l).starts = e.starts := by
  simp [starts, callExit, Incident.start?]

theorem told_callStart (e : Execution) (index : Nat) (l : Registration Started) (c : Channel) :
    (e.callStart index l).told c = e.told c := by
  simp [told, callStart, Incident.line?]

theorem told_callExit (e : Execution) (index : Nat) (l : Registration Int) (c : Channel) :
    (e.callExit index l).told c = e.told c := by
  simp [told, callExit, Incident.line?]

theorem told_afterReader (e : Execution) (channel c : Channel) (s : ReaderStep) :
    (e.afterReader channel s).told c =
      e.told c ++ s.incidents.filterMap (Incident.line? c) := by
  simp [told, afterReader]

/-- A step of a reader is no call of a start or exit listener. -/
theorem starts_afterReader {rd : Reader} {p : Pipe} {s : ReaderStep} (turn : rd.Turn p s)
    (channel : Channel) : (e.afterReader channel s).starts = e.starts := by
  have hnone : s.incidents.filterMap Incident.start? = [] :=
    List.filterMap_eq_nil_iff.mpr fun i hi => (turn.incidents i hi).1
  simp [starts, afterReader, hnone]

theorem exits_afterReader {rd : Reader} {p : Pipe} {s : ReaderStep} (turn : rd.Turn p s)
    (channel : Channel) : (e.afterReader channel s).exits = e.exits := by
  have hnone : s.incidents.filterMap Incident.exit? = [] :=
    List.filterMap_eq_nil_iff.mpr fun i hi => (turn.incidents i hi).2.1
  simp [exits, afterReader, hnone]

theorem onLine_eq {channel : Channel} {rd : Reader} (h : e.readers.get channel = some rd) :
    e.onLine channel = rd.drain.listeners := by
  rw [onLine, h]

theorem onLine_of_none {channel : Channel} (h : e.readers.get channel = none) :
    e.onLine channel = e.lines.get channel := by
  rw [onLine, h]

theorem newReader_of_wires {readers : PerChannel (Option Reader)}
    (wires : e.newReaders = .ok readers) (c : Channel) : e.newReader c = .ok (readers.get c) := by
  unfold newReaders at wires
  cases hout : e.newReader .stdout with
  | error cause => rw [hout] at wires; contradiction
  | ok stdout =>
    cases herr : e.newReader .stderr with
    | error cause => rw [hout, herr] at wires; contradiction
    | ok stderr =>
      rw [hout, herr] at wires
      injection wires with wires
      subst wires
      cases c with
      | stdout => exact hout
      | stderr => exact herr

/-- A new reader has the listeners of its channel. -/
theorem listeners_of_newReader {c : Channel} {rd : Reader} (h : e.newReader c = .ok (some rd)) :
    rd.drain.listeners = e.lines.get c := by
  unfold newReader at h
  split at h
  · unfold Reader.new at h
    split at h
    · contradiction
    · injection h with h
      injection h with h
      rw [← h]
      rfl
  · injection h with h
    contradiction

/-- Every reader is that of its channel, and there is none before the wiring. -/
structure Seated (e : Execution) : Prop where
  channel : ∀ c rd, e.readers.get c = some rd → rd.drain.channel = c
  unwired : e.phase.wired = false → ∀ c, e.readers.get c = none

theorem Wired.seated (hw : Wired r e) : Seated e :=
  ⟨hw.channel, fun hunwired c => (hw.unwired hunwired c).1⟩

/-- What happened in a change was told to those listeners that are to hear of it. -/
structure Tells (e : Execution) (told : List Incident) (e' : Execution) : Prop where
  history : e'.history = told.reverse ++ e.history
  heard : Heard e.listeners told e'.listeners

theorem onLine_listeners (e : Execution) (c : Channel) : e.listeners.onLine c = e.onLine c := by
  cases c <;> rfl

namespace Tells

/-- Nobody is called. -/
theorem keep (start : e'.start = e.start) (exit : e'.exit = e.exit)
    (onLine : ∀ c, e'.onLine c = e.onLine c) (history : e'.history = e.history) :
    Tells e [] e' := by
  have hsame : e'.listeners = e.listeners := by
    rw [listeners, start, exit, onLine, onLine, listeners]
  exact ⟨history, hsame ▸ .refl _⟩

/-- The readers begin with the listeners that the run has for them. -/
theorem wire (hs : Seated e) {readers : PerChannel (Option Reader)} (at_ : e.phase = .wiring)
    (wires : e.newReaders = .ok readers) :
    Tells e [] { e with readers := readers, phase := .starting 0 } := by
  refine keep rfl rfl (fun c => ?_) rfl
  rw [onLine_of_none (hs.unwired (by rw [at_]; rfl) c), onLine]
  cases hrd : readers.get c with
  | none => rfl
  | some rd => exact listeners_of_newReader ((newReader_of_wires wires c).trans (congrArg _ hrd))

theorem startCalled {index : Nat} {l : Registration Started}
    (listener : e.start[index]? = some l) :
    Tells e [.started index ⟨e.program, some e.pid, e.destroyed⟩] (e.callStart index l) := by
  refine ⟨rfl, (called_nil e.start).call listener _, fun c => ?_, called_nil e.exit⟩
  rw [onLine_listeners, onLine_listeners]
  exact (List.map_id _).symm

theorem exitCalled {index : Nat} {l : Registration Int} (listener : e.exit[index]? = some l) :
    Tells e [.exited index e.code] (e.callExit index l) := by
  refine ⟨rfl, called_nil e.start, fun c => ?_, (called_nil e.exit).call listener _⟩
  rw [onLine_listeners, onLine_listeners]
  exact (List.map_id _).symm

theorem read (hs : Seated e) {c : Channel} {rd : Reader} {p : Pipe} {s : ReaderStep}
    (reader : e.readers.get c = some rd) (turn : rd.Turn p s) :
    Tells e s.incidents (e.afterReader c s) := by
  have hchannel := hs.channel c rd reader
  have hstart : s.incidents.filterMap Incident.start? = [] :=
    List.filterMap_eq_nil_iff.mpr fun i hi => (turn.incidents i hi).1
  have hexit : s.incidents.filterMap Incident.exit? = [] :=
    List.filterMap_eq_nil_iff.mpr fun i hi => (turn.incidents i hi).2.1
  refine ⟨rfl, hstart ▸ called_nil e.start, fun d => ?_, hexit ▸ called_nil e.exit⟩
  rw [onLine_listeners, onLine_listeners]
  by_cases hd : d = c
  · subst hd
    rw [onLine_eq (readers_afterReader e d s), onLine_eq reader, turn.listeners, hchannel]
  · have hsame : (e.afterReader c s).onLine d = e.onLine d := by
      rw [onLine, readers_afterReader_other e hd]
      rfl
    have hnone : s.incidents.filterMap (Incident.line? d) = [] :=
      List.filterMap_eq_nil_iff.mpr fun i hi => (turn.incidents i hi).2.2 d (by rwa [hchannel])
    rw [hsame, hnone]
    exact (List.map_id _).symm

end Tells

/-- Every change calls the listeners that it tells of. -/
theorem Change.tells (hc : Change e m e') (hs : Seated e) : ∃ told, Tells e told e' := by
  cases hc with
  | wired readers at_ wires => exact ⟨_, .wire hs at_ wires⟩
  | startCalled next l at_ listener => exact ⟨_, .startCalled listener⟩
  | exitCalled next l at_ listener => exact ⟨_, .exitCalled listener⟩
  | read m c rd p s reader pipe going turn => exact ⟨_, .read hs reader turn⟩
  | registered | refused | startsDone | reaped | skipped | joined | released | exitsDone | killed
  | waitFailed | acted | destroyed => exact ⟨_, .keep rfl rfl (fun _ => rfl) rfl⟩

/-- A run is recorded by its history, of which all listeners have heard. -/
theorem recorded_iff : Recorded r e ↔ Heard r.listeners e.history.reverse e.listeners := by
  constructor
  · intro h
    exact ⟨h.start, fun c => (onLine_listeners e c).trans (h.lines c), h.exit⟩
  · intro h
    exact ⟨h.start, fun c => (onLine_listeners e c).symm.trans (h.lines c), h.exit⟩

theorem Recorded.change (h : Recorded r e) (hw : Wired r e) (hc : Change e m e') :
    Recorded r e' := by
  obtain ⟨told, hhistory, hheard⟩ := hc.tells hw.seated
  rw [recorded_iff, hhistory, List.reverse_append, List.reverse_reverse]
  exact (recorded_iff.mp h).trans hheard

/-- The history of a run tells of every call at any moment. -/
theorem Reaches.recorded {capacity : Capacity} {handle : Handle} {pid : Nat} {program : String}
    {child : Child} (h : (r.execution capacity handle pid program child).Reaches e) :
    Recorded r e := by
  refine h.invariant ⟨called_nil _, ?_, called_nil _⟩ fun reached hr => hr.change reached.wired
  intro c
  rw [onLine_of_none (readers_execution r capacity handle pid program child c)]
  simp [Runner.execution, told, Registration.callAll]

end Execution

end ToolRunner
