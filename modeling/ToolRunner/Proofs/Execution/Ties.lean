import ToolRunner.Proofs.Execution.Calls
import ToolRunner.Session.Shared

/-!
# What ties an execution to others

An execution has its listeners in common with others, and its tracker, which gives it a number. A
move depends on these by what the listeners that it calls answer to it, and by nothing else: with
other listeners that give the same answers it is possible where it was, and leaves behind the same
(`step_untied`).
-/

namespace ToolRunner

/-- Of listeners that answer alike, what their calls leave behind is the same. -/
theorem dispatchFrom_congr {α : Type} {rs rs' : List (Registration α)}
    (alike : rs'.map Registration.reaction = rs.map Registration.reaction) (event : Event) (a : α)
    (index : Nat) :
    (dispatchFrom event a index rs').failures = (dispatchFrom event a index rs).failures ∧
      (dispatchFrom event a index rs').destroyed = (dispatchFrom event a index rs).destroyed := by
  induction rs generalizing rs' index with
  | nil =>
    obtain rfl := List.map_eq_nil_iff.mp alike
    exact ⟨rfl, rfl⟩
  | cons r rs ih =>
    obtain ⟨r', rs', rfl, hr, hrs⟩ := List.map_eq_cons_iff.mp alike
    obtain ⟨hfailures, hdestroyed⟩ := ih hrs (index + 1)
    simp [dispatchFrom, hr, hfailures, hdestroyed]

/-- What a step of a reader leaves behind, but for the listeners. -/
def ReaderStep.untied (s : ReaderStep) : ReaderStep := { s with reader := s.reader.hearing [] }

namespace Reader

variable {r : Reader} {p : Pipe} {ls ls' : List (Registration String)}

/-- Listeners answer alike if they are given a line. -/
def Alike (r : Reader) (ls ls' : List (Registration String)) (s : ReaderStep) : Prop :=
  ∀ text, .line r.drain.channel text ∈ s.incidents →
    ls'.map Registration.reaction = ls.map Registration.reaction

theorem deliver_untied (alike : ls'.map Registration.reaction = ls.map Registration.reaction)
    (p : Pipe) (bytes : Array UInt8) (rest : Bytes) :
    ((r.hearing ls').deliver p bytes rest).untied =
      ((r.hearing ls).deliver p bytes rest).untied := by
  obtain ⟨hfailures, hdestroyed⟩ :=
    dispatchFrom_congr alike (.line r.drain.channel) (Utf8.decode bytes.toList) 0
  simp [ReaderStep.untied, hearing, deliver, Line.Drain.deliver, dispatch, hfailures, hdestroyed]

theorem told_deliver (r : Reader) (p : Pipe) (bytes : Array UInt8) (rest : Bytes) :
    .line r.drain.channel (Utf8.decode bytes.toList) ∈ (r.deliver p bytes rest).incidents :=
  List.mem_singleton_self _

theorem consume_untied (alike : r.Alike ls ls' ((r.hearing ls).consume p)) :
    ((r.hearing ls').consume p).untied = ((r.hearing ls).consume p).untied := by
  have htake (ls : List (Registration String)) :
      Line.take (r.hearing ls).drain.line (r.hearing ls).unread =
        Line.take r.drain.line r.unread := rfl
  unfold consume at alike ⊢
  rw [htake] at alike ⊢
  rw [htake]
  cases hpiece : Line.take r.drain.line r.unread with
  | more line => rfl
  | line bytes rest =>
    rw [hpiece] at alike
    exact deliver_untied (alike _ (told_deliver (r.hearing ls) p bytes rest)) p bytes rest
  | split bytes rest =>
    rw [hpiece] at alike
    have hdeliver := deliver_untied (r := r)
      (alike _ (List.mem_cons_of_mem _ (told_deliver (r.hearing ls) p bytes rest))) p bytes rest
    exact congrArg
      (fun s : ReaderStep => { s with incidents := .split r.drain.channel :: s.incidents }) hdeliver

theorem endInput_untied (alike : r.Alike ls ls' ((r.hearing ls).endInput p)) :
    ((r.hearing ls').endInput p).untied = ((r.hearing ls).endInput p).untied := by
  have hline (ls : List (Registration String)) : (r.hearing ls).drain.line = r.drain.line := rfl
  unfold endInput at alike ⊢
  rw [hline] at alike ⊢
  rw [hline]
  by_cases hempty : r.drain.line.bytes.isEmpty = true
  · rw [if_pos hempty, if_pos hempty]
    have hend (ls : List (Registration String)) :
        (r.hearing ls).drain.endInput = { r.drain.endInput with listeners := ls } := by
      cases hstop : r.drain.stop <;> simp [Line.Drain.endInput, hearing, hstop, hempty]
    rw [hend, hend]
    rfl
  · rw [if_neg hempty] at alike
    rw [if_neg hempty, if_neg hempty]
    exact deliver_untied (alike _ (told_deliver (r.hearing ls) p _ _)) p _ _

theorem cancel_untied (r : Reader) (p : Pipe) (ls ls' : List (Registration String)) :
    ((r.hearing ls').cancel p).untied = ((r.hearing ls).cancel p).untied := by
  have hcancel (ls : List (Registration String)) :
      (r.hearing ls).cancel p = { r.cancel p with reader := (r.cancel p).reader.hearing ls } := by
    cases hstop : r.drain.stop <;> simp [cancel, stopped, Line.Drain.checkToken, hearing, hstop]
  rw [hcancel, hcancel]
  rfl

/-- A reader makes the same step whoever listens. -/
theorem step_untied {token closed : Bool}
    (alike : ∀ s, (r.hearing ls).step token closed p = some s → r.Alike ls ls' s) :
    ((r.hearing ls').step token closed p).map ReaderStep.untied =
      ((r.hearing ls).step token closed p).map ReaderStep.untied := by
  have hsame (ls : List (Registration String)) : (r.hearing ls).finished = r.finished ∧
      (r.hearing ls).phase = r.phase ∧ (r.hearing ls).unread = r.unread := ⟨rfl, rfl, rfl⟩
  unfold step at alike ⊢
  simp only [hsame] at alike ⊢
  by_cases hstopped : r.finished = true
  · rw [if_pos hstopped, if_pos hstopped]
  rw [if_neg hstopped] at alike
  rw [if_neg hstopped, if_neg hstopped]
  cases hphase : r.phase with
  | fresh =>
    cases token with
    | true => exact congrArg some (cancel_untied r p ls ls')
    | false => rfl
  | asleep =>
    cases token with
    | true => exact congrArg some (cancel_untied r p ls ls')
    | false => cases (closed || !p.content.isEmpty) <;> rfl
  | reading =>
    simp only [hphase] at alike
    dsimp only
    by_cases hunread : (!r.unread.isEmpty) = true
    · rw [if_pos hunread] at alike
      rw [if_pos hunread, if_pos hunread]
      exact congrArg some (consume_untied (alike _ rfl))
    · rw [if_neg hunread] at alike
      rw [if_neg hunread, if_neg hunread]
      by_cases hcontent : (!p.content.isEmpty) = true
      · rw [if_pos hcontent, if_pos hcontent]
        rfl
      · rw [if_neg hcontent] at alike
        rw [if_neg hcontent, if_neg hcontent]
        cases closed with
        | true => exact congrArg some (endInput_untied (alike _ rfl))
        | false => rfl

theorem fail_hearing (r : Reader) (token : Bool) (message : String) (p : Pipe)
    (ls : List (Registration String)) : (r.hearing ls).fail token message p =
      (r.fail token message p).map fun s => { s with reader := s.reader.hearing ls } := by
  have hreads : (!(r.hearing ls).finished && (r.hearing ls).reads token) =
      (!r.finished && r.reads token) := rfl
  unfold fail
  rw [hreads]
  split
  · cases hstop : r.drain.stop <;> simp [stopped, Line.Drain.fail, hearing, hstop]
  · rfl

theorem fail_untied (r : Reader) (token : Bool) (message : String) (p : Pipe)
    (ls ls' : List (Registration String)) :
    ((r.hearing ls').fail token message p).map ReaderStep.untied =
      ((r.hearing ls).fail token message p).map ReaderStep.untied := by
  rw [fail_hearing, fail_hearing, Option.map_map, Option.map_map]
  rfl

/-- Whether a reader can make a step has nothing to do with who listens. -/
theorem step_isSome_hearing (r : Reader) (token closed : Bool) (p : Pipe)
    (ls : List (Registration String)) :
    ((r.hearing ls).step token closed p).isSome = (r.step token closed p).isSome := by
  have hsame : (r.hearing ls).finished = r.finished ∧ (r.hearing ls).phase = r.phase ∧
      (r.hearing ls).unread = r.unread := ⟨rfl, rfl, rfl⟩
  unfold step
  simp only [hsame]
  cases r.finished with
  | true => rfl
  | false =>
    cases r.phase with
    | fresh => rfl
    | asleep => cases token <;> cases closed || !p.content.isEmpty <;> rfl
    | reading =>
      cases !r.unread.isEmpty <;> cases !p.content.isEmpty <;> cases closed <;> rfl

end Reader

/-! ## Executions -/

/-- What ties an execution to others: the listeners that it calls, and its number with a tracker. -/
structure Ties where
  start : List (Registration Started) := []
  exit : List (Registration Int) := []
  /-- The line listeners that the readers will be given. -/
  lines : PerChannel (List (Registration String)) := .both []
  /-- Those that they have. -/
  readers : PerChannel (List (Registration String)) := .both []
  registration : Option UInt64 := none

/-- What ties executions to listeners that they have in common. -/
def Listeners.ties (l : Listeners) (registration : Option UInt64) : Ties :=
  ⟨l.start, l.exit, .ofFn l.onLine, .ofFn l.onLine, registration⟩

namespace Execution

def ties (e : Execution) : Ties := ⟨e.start, e.exit, e.lines, .ofFn e.onLine, e.registration⟩

/-- The same execution with these ties. -/
def withTies (e : Execution) (k : Ties) : Execution :=
  { e with
    start := k.start
    exit := k.exit
    lines := k.lines
    readers := .ofFn fun c => (e.readers.get c).map (·.hearing (k.readers.get c))
    registration := k.registration }

def untied (e : Execution) : Execution := e.withTies {}

variable {e e' : Execution} {k k' : Ties}

theorem readers_withTies (e : Execution) (k : Ties) (c : Channel) :
    (e.withTies k).readers.get c = (e.readers.get c).map (·.hearing (k.readers.get c)) :=
  PerChannel.get_ofFn _ c

theorem withTies_withTies (e : Execution) (k k' : Ties) :
    (e.withTies k).withTies k' = e.withTies k' := by
  simp only [withTies, PerChannel.get_ofFn, Option.map_map]
  rfl

theorem untied_withTies (e : Execution) (k : Ties) : (e.withTies k).untied = e.untied :=
  withTies_withTies e k {}

theorem retied_untied (e : Execution) (k k' : Ties) :
    (e.withTies k').untied = (e.withTies k).untied :=
  (untied_withTies e k').trans (untied_withTies e k).symm

theorem withTies_ties (e : Execution) : e.withTies e.ties = e := by
  have hreader (c : Channel) :
      (e.readers.get c).map (·.hearing (e.ties.readers.get c)) = e.readers.get c := by
    rw [ties, PerChannel.get_ofFn, onLine]
    cases e.readers.get c <;> rfl
  have hreaders : PerChannel.ofFn e.readers.get = e.readers := rfl
  simp only [withTies, hreader, hreaders]
  rfl

/-- Executions that differ in their ties only. -/
theorem eq_withTies (h : e'.untied = e.untied) : e' = e.withTies e'.ties := by
  have hties := congrArg (·.withTies e'.ties) h
  simp only [untied, withTies_withTies] at hties
  rwa [withTies_ties] at hties

theorem hearing_eq (e : Execution) (l : Listeners) :
    e.hearing l = e.withTies (l.ties e.registration) := by
  simp only [hearing, withTies, Listeners.ties, PerChannel.get_ofFn]

/-! ## Moves in which nobody is called -/

/-- Whether a channel has listeners is all that the making of its reader needs to know of them. -/
theorem newReader_untied {c : Channel}
    (listened : (k'.lines.get c).isEmpty = (k.lines.get c).isEmpty) :
    ((e.withTies k').newReader c).map (Option.map (·.hearing [])) =
      ((e.withTies k).newReader c).map (Option.map (·.hearing [])) := by
  have houtlets (k : Ties) : (e.withTies k).outlets = e.outlets := rfl
  have hlines (k : Ties) : (e.withTies k).lines = k.lines := rfl
  unfold newReader
  rw [houtlets, houtlets, hlines, hlines]
  cases e.outlets.get c with
  | pipe p =>
    simp only [Reader.new, listened]
    cases (k.lines.get c).isEmpty <;> rfl
  | passed bytes => rfl
  | discarded => rfl

/-- Readers to which nobody listens. -/
def unheard (readers : PerChannel (Option Reader)) : PerChannel (Option Reader) :=
  .ofFn fun c => (readers.get c).map (·.hearing [])

theorem newReaders_untied (listened : ∀ c, (k'.lines.get c).isEmpty = (k.lines.get c).isEmpty) :
    (e.withTies k').newReaders.map unheard = (e.withTies k).newReaders.map unheard := by
  have hstdout := newReader_untied (e := e) (listened .stdout)
  have hstderr := newReader_untied (e := e) (listened .stderr)
  unfold newReaders
  cases hout : (e.withTies k).newReader .stdout <;>
    cases hout' : (e.withTies k').newReader .stdout <;>
    cases herr : (e.withTies k).newReader .stderr <;>
    cases herr' : (e.withTies k').newReader .stderr <;>
    simp_all [Except.map, bind, Except.bind, pure, Except.pure, unheard, PerChannel.ofFn,
      PerChannel.get]

theorem wire_untied (listened : ∀ c, (k'.lines.get c).isEmpty = (k.lines.get c).isEmpty)
    (t t' : Tracker) :
    ((e.withTies k').wire t').2.untied = ((e.withTies k).wire t).2.untied := by
  have hreaders := newReaders_untied (e := e) listened
  unfold wire
  cases hnew : (e.withTies k).newReaders with
  | error cause =>
    rw [hnew] at hreaders
    cases hnew' : (e.withTies k').newReaders with
    | error cause' =>
      rw [hnew'] at hreaders
      injection hreaders with hreaders
      simp only [hreaders, untied, withTies, PerChannel.get_ofFn, Option.map_map]
      rfl
    | ok readers' =>
      rw [hnew'] at hreaders
      contradiction
  | ok readers =>
    rw [hnew] at hreaders
    cases hnew' : (e.withTies k').newReaders with
    | error cause' =>
      rw [hnew'] at hreaders
      contradiction
    | ok readers' =>
      rw [hnew'] at hreaders
      injection hreaders with hreaders
      exact congrArg (fun readers => ({ e.untied with readers, phase := .starting 0 } : Execution))
        hreaders

theorem act_withTies (e : Execution) (k : Ties) (which : Option Nat) :
    (e.withTies k).act which = (e.act which).map (·.withTies k) := by
  have hchild : (e.withTies k).child = e.child := rfl
  have houtlets : (e.withTies k).outlets = e.outlets := rfl
  unfold act write
  rw [hchild, houtlets]
  cases e.child.task? which with
  | none => rfl
  | some task =>
    dsimp only
    split
    · rfl
    · split
      · rfl
      · split
        · rfl
        · split
          · rfl
          · rfl
          · split
            · rfl
            · split <;> rfl
      · rfl
      · rfl
      · rfl
      · rfl

theorem reap_withTies (e : Execution) (k : Ties) :
    (e.withTies k).reap = e.reap.map (·.withTies k) := by
  unfold reap
  show e.child.status.map _ = _
  cases e.child.status <;> rfl

theorem join_withTies (e : Execution) (k : Ties) (c : Channel) :
    (e.withTies k).join c = (e.join c).map (·.withTies k) := by
  unfold join
  rw [readers_withTies]
  cases e.readers.get c with
  | none => rfl
  | some r =>
    show (if r.finished then _ else _) = Option.map _ (if r.finished then _ else _)
    cases r.finished <;> rfl

theorem seeCancellation_withTies (e : Execution) (k : Ties) :
    (e.withTies k).seeCancellation = e.seeCancellation.map (·.withTies k) := by
  unfold seeCancellation
  show (if e.phase == .waiting && e.destroyed then _ else _) = _
  cases e.phase == .waiting && e.destroyed <;> rfl

theorem failWaiting_withTies (e : Execution) (k : Ties) (message : String) :
    (e.withTies k).failWaiting message = (e.failWaiting message).map (·.withTies k) := by
  unfold failWaiting
  show (if (e.phase == .waiting || e.phase == .reaping) && e.child.status.isSome then _ else _) = _
  cases (e.phase == .waiting || e.phase == .reaping) && e.child.status.isSome <;> rfl

/-- In a move that does not look at them, ties play no part. -/
theorem map_untied {f : Execution → Option Execution}
    (same : ∀ k, f (e.withTies k) = (f e).map (·.withTies k))
    (step : f (e.withTies k) = some e') :
    ∃ after, f (e.withTies k') = some after ∧ after.untied = e'.untied := by
  rw [same, Option.map_eq_some_iff] at step
  obtain ⟨a, ha, rfl⟩ := step
  exact ⟨a.withTies k', by rw [same, ha]; rfl, retied_untied a k k'⟩

/-! ## Moves in which listeners are called -/

theorem callStart_untied {l l' : Registration Started} (alike : l'.reaction = l.reaction)
    (next : Nat) :
    ((e.withTies k').callStart next l').untied = ((e.withTies k).callStart next l).untied := by
  simp only [callStart, alike, untied, withTies, PerChannel.get_ofFn, Option.map_map]
  rfl

theorem callExit_untied {l l' : Registration Int} (alike : l'.reaction = l.reaction)
    (next : Nat) :
    ((e.withTies k').callExit next l').untied = ((e.withTies k).callExit next l).untied := by
  simp only [callExit, alike, untied, withTies, PerChannel.get_ofFn, Option.map_map]
  rfl

theorem afterReader_untied {c : Channel} {s s' : ReaderStep} (same : s'.untied = s.untied) :
    ((e.withTies k').afterReader c s').untied = ((e.withTies k).afterReader c s).untied := by
  have hreader : s'.reader.hearing [] = s.reader.hearing [] := congrArg (·.reader) same
  have hpipe : s'.pipe = s.pipe := congrArg (·.pipe) same
  have hincidents : s'.incidents = s.incidents := congrArg (·.incidents) same
  have hcancelled : s'.reader.drain.cancelled = s.reader.drain.cancelled :=
    congrArg (·.drain.cancelled) hreader
  cases c <;>
    simp only [afterReader, untied, withTies, PerChannel.ofFn, PerChannel.get, PerChannel.set,
      PerChannel.both, Option.map_some, Option.map_map, hreader, hpipe, hincidents, hcancelled] <;>
    rfl

/-! ## Any move -/

/-- Listeners of which there are as many, and of which those that are told of an incident answer
alike. -/
structure Agree (k k' : Ties) (told : List Incident) : Prop where
  start : ∀ i, (k'.start[i]?).isSome = (k.start[i]?).isSome ∧ (∀ seen, .started i seen ∈ told →
    (k'.start[i]?).map (·.reaction) = (k.start[i]?).map (·.reaction))
  exit : ∀ i, (k'.exit[i]?).isSome = (k.exit[i]?).isSome ∧ (∀ code, .exited i code ∈ told →
    (k'.exit[i]?).map (·.reaction) = (k.exit[i]?).map (·.reaction))
  lines : ∀ c, (k'.lines.get c).isEmpty = (k.lines.get c).isEmpty
  readers : ∀ c text, .line c text ∈ told →
    (k'.readers.get c).map (·.reaction) = (k.readers.get c).map (·.reaction)

variable {m : Move} {t t' : Tracker} {told : List Incident}

/-- A listener is called where its counterpart is, and answers alike. -/
theorem alike_of_agree {α : Type} {ls ls' : List (Registration α)} {i : Nat} {l : Registration α}
    (found : ls[i]? = some l)
    (same : (ls'[i]?).map (·.reaction) = (ls[i]?).map (·.reaction)) :
    ∃ l', ls'[i]? = some l' ∧ l'.reaction = l.reaction := by
  rw [found, Option.map_some, Option.map_eq_some_iff] at same
  exact same

theorem none_of_agree {α : Type} {ls ls' : List (Registration α)} {i : Nat} (left : ls[i]? = none)
    (same : (ls'[i]?).isSome = (ls[i]?).isSome) : ls'[i]? = none := by
  rw [left] at same
  exact Option.isNone_iff_eq_none.mp (Option.isSome_eq_false_iff.mp same)

/-- An incident of a move is told. -/
theorem mem_told {i : Incident} {history : List Incident}
    (tells : i :: history = told.reverse ++ history) : i ∈ told := by
  have hone : [i] = told.reverse := List.append_cancel_right (tells : [i] ++ history = _)
  rw [← List.mem_reverse, ← hone]
  exact List.mem_singleton_self i

theorem register_untied (e : Execution) (t : Tracker) :
    (e.register t).2.untied = ({ e with phase := .wiring } : Execution).untied := by
  unfold register
  split <;> rfl

theorem supervise_untied (agree : Agree k k' told)
    (step : (e.withTies k).supervise t = some (t', e'))
    (tells : e'.history = told.reverse ++ e.history) (other : Tracker) :
    ∃ other' after, (e.withTies k').supervise other = some (other', after) ∧
      after.untied = e'.untied := by
  have hphase (k : Ties) : (e.withTies k).phase = e.phase := rfl
  unfold supervise at step ⊢
  simp only [hphase] at step ⊢
  cases hat : e.phase with
  | spawned =>
    simp only [hat] at step
    injection step with step
    refine ⟨_, ((e.withTies k').register other).2, rfl, ?_⟩
    rw [show e' = ((e.withTies k).register t).2 by rw [step]]
    rw [register_untied, register_untied]
    exact retied_untied { e with phase := .wiring } k k'
  | wiring =>
    simp only [hat] at step
    injection step with step
    refine ⟨_, _, rfl, ?_⟩
    rw [show e' = ((e.withTies k).wire t).2 by rw [step]]
    exact wire_untied agree.lines t other
  | starting next =>
    simp only [hat] at step
    dsimp only
    cases hl : k.start[next]? with
    | none =>
      have hl' := none_of_agree hl (agree.start next).1
      rw [show (e.withTies k).start[next]? = none from hl] at step
      obtain rfl := after_eq step
      rw [show (e.withTies k').start[next]? = none from hl']
      exact ⟨other, _, rfl, retied_untied { e with phase := .waiting } k k'⟩
    | some l =>
      rw [show (e.withTies k).start[next]? = some l from hl] at step
      obtain rfl := after_eq step
      obtain ⟨l', hl', halike⟩ := alike_of_agree hl ((agree.start next).2 _ (mem_told tells))
      rw [show (e.withTies k').start[next]? = some l' from hl']
      exact ⟨other, _, rfl, callStart_untied halike next⟩
  | waiting =>
    simp only [hat] at step
    obtain ⟨a, ha, hsame⟩ := map_untied (f := reap) (reap_withTies e) (after_eq_of_map step)
    exact ⟨other, a, congrArg (Option.map (other, ·)) ha, hsame⟩
  | reaping =>
    simp only [hat] at step
    obtain ⟨a, ha, hsame⟩ := map_untied (f := reap) (reap_withTies e) (after_eq_of_map step)
    exact ⟨other, a, congrArg (Option.map (other, ·)) ha, hsame⟩
  | joining c =>
    simp only [hat] at step
    obtain ⟨a, ha, hsame⟩ :=
      map_untied (f := (·.join c)) (fun k => join_withTies e k c) (after_eq_of_map step)
    exact ⟨other, a, congrArg (Option.map (other, ·)) ha, hsame⟩
  | releasing =>
    simp only [hat] at step
    obtain rfl := after_eq step
    exact ⟨_, _, rfl, retied_untied { e with phase := .notifying 0 } k k'⟩
  | notifying next =>
    simp only [hat] at step
    dsimp only
    cases hl : k.exit[next]? with
    | none =>
      have hl' := none_of_agree hl (agree.exit next).1
      rw [show (e.withTies k).exit[next]? = none from hl] at step
      obtain rfl := after_eq step
      rw [show (e.withTies k').exit[next]? = none from hl']
      exact ⟨other, _, rfl, retied_untied { e with phase := .finished } k k'⟩
    | some l =>
      rw [show (e.withTies k).exit[next]? = some l from hl] at step
      obtain rfl := after_eq step
      obtain ⟨l', hl', halike⟩ := alike_of_agree hl ((agree.exit next).2 _ (mem_told tells))
      rw [show (e.withTies k').exit[next]? = some l' from hl']
      exact ⟨other, _, rfl, callExit_untied halike next⟩
  | finished => simp only [hat] at step; contradiction
  | refused cause => simp only [hat] at step; contradiction

theorem read_untied {c : Channel} {next : Reader → Pipe → Option ReaderStep}
    (same : ∀ rd p s, e.readers.get c = some rd →
      next (rd.hearing (k.readers.get c)) p = some s →
        (∀ text, .line c text ∈ s.incidents → .line c text ∈ told) →
        ∃ s', next (rd.hearing (k'.readers.get c)) p = some s' ∧ s'.untied = s.untied)
    (step : (e.withTies k).read c next = some e')
    (tells : e'.history = told.reverse ++ e.history) :
    ∃ after, (e.withTies k').read c next = some after ∧ after.untied = e'.untied := by
  have houtlets (k : Ties) : (e.withTies k).outlets = e.outlets := rfl
  unfold read at step ⊢
  rw [readers_withTies, houtlets] at step ⊢
  cases hrd : e.readers.get c with
  | none =>
    rw [hrd] at step
    contradiction
  | some rd =>
    rw [hrd] at step
    cases hp : e.outlets.get c with
    | pipe p =>
      rw [hp] at step
      obtain ⟨s, hs, rfl⟩ := Option.map_eq_some_iff.mp step
      have htold : s.incidents.reverse = told.reverse := List.append_cancel_right tells
      obtain ⟨s', hs', hsame⟩ := same rd p s hrd hs fun text hmem => by
        rwa [← List.reverse_inj.mp htold]
      exact ⟨_, by rw [Option.map_some]; exact congrArg (Option.map _) hs',
        afterReader_untied hsame⟩
    | passed bytes => rw [hp] at step; contradiction
    | discarded => rw [hp] at step; contradiction

theorem reads_untied {s : ReaderStep} {made made' : Option ReaderStep}
    (same : made'.map ReaderStep.untied = made.map ReaderStep.untied) (makes : made = some s) :
    ∃ s', made' = some s' ∧ s'.untied = s.untied := by
  rw [makes, Option.map_some, Option.map_eq_some_iff] at same
  exact same

/-- A move that is possible is so with other ties, as long as the listeners that are told something
answer alike, and leaves behind the same but for the ties. -/
theorem step_untied (seated : Seated e) (agree : Agree k k' told)
    (step : (e.withTies k).step m t = some (t', e'))
    (tells : e'.history = told.reverse ++ e.history) (other : Tracker) :
    ∃ other' after, (e.withTies k').step m other = some (other', after) ∧
      after.untied = e'.untied := by
  have hmap {f : Execution → Option Execution}
      (hf : ∀ k, f (e.withTies k) = (f e).map (·.withTies k))
      (hstep : (f (e.withTies k)).map (t, ·) = some (t', e')) :
      ∃ other' after, (f (e.withTies k')).map (other, ·) = some (other', after) ∧
        after.untied = e'.untied := by
    obtain ⟨a, ha, hsame⟩ := map_untied hf (after_eq_of_map hstep)
    exact ⟨other, a, congrArg (Option.map (other, ·)) ha, hsame⟩
  cases m with
  | supervisor => exact supervise_untied agree step tells other
  | cancellation => exact hmap (f := seeCancellation) (seeCancellation_withTies e) step
  | child which => exact hmap (f := (·.act which)) (fun k => act_withTies e k which) step
  | waitFailure message =>
    exact hmap (f := (·.failWaiting message)) (fun k => failWaiting_withTies e k message) step
  | destroy =>
    obtain rfl := after_eq step
    exact ⟨other, _, rfl, retied_untied e.destroy k k'⟩
  | reader c =>
    have hnext (rd : Reader) (p : Pipe) (s : ReaderStep) (hrd : e.readers.get c = some rd)
        (hs : (rd.hearing (k.readers.get c)).step e.destroyed (e.closed c) p = some s)
        (hmem : ∀ text, .line c text ∈ s.incidents → .line c text ∈ told) :
        ∃ s', (rd.hearing (k'.readers.get c)).step e.destroyed (e.closed c) p = some s' ∧
          s'.untied = s.untied := by
      refine reads_untied (Reader.step_untied fun s' hs' text hline => ?_) hs
      rw [hs] at hs'
      injection hs' with hs'
      subst hs'
      rw [seated.channel c rd hrd] at hline
      exact agree.readers c text (hmem text hline)
    obtain ⟨a, ha, hsame⟩ := read_untied hnext (after_eq_of_map step) tells
    exact ⟨other, a, congrArg (Option.map (other, ·)) ha, hsame⟩
  | readFailure c message =>
    have hnext (rd : Reader) (p : Pipe) (s : ReaderStep) (_ : e.readers.get c = some rd)
        (hs : (rd.hearing (k.readers.get c)).fail e.destroyed message p = some s)
        (_ : ∀ text, .line c text ∈ s.incidents → .line c text ∈ told) :
        ∃ s', (rd.hearing (k'.readers.get c)).fail e.destroyed message p = some s' ∧
          s'.untied = s.untied :=
      reads_untied (rd.fail_untied e.destroyed message p _ _) hs
    obtain ⟨a, ha, hsame⟩ := read_untied hnext (after_eq_of_map step) tells
    exact ⟨other, a, congrArg (Option.map (other, ·)) ha, hsame⟩

theorem supervise_isSome_withTies (e : Execution) (k : Ties) (t other : Tracker) :
    ((e.withTies k).supervise other).isSome = (e.supervise t).isSome := by
  have hphase : (e.withTies k).phase = e.phase := rfl
  unfold supervise
  rw [hphase]
  cases e.phase with
  | starting next =>
    dsimp only
    cases (e.withTies k).start[next]? <;> cases e.start[next]? <;> rfl
  | notifying next =>
    dsimp only
    cases (e.withTies k).exit[next]? <;> cases e.exit[next]? <;> rfl
  | waiting | reaping =>
    dsimp only
    rw [reap_withTies, Option.isSome_map, Option.isSome_map, Option.isSome_map]
  | joining c =>
    dsimp only
    rw [join_withTies, Option.isSome_map, Option.isSome_map, Option.isSome_map]
  | spawned | wiring | releasing | finished | refused => rfl

theorem read_isSome_withTies (e : Execution) (k : Ties) {c : Channel}
    {next : Reader → Pipe → Option ReaderStep}
    (same : ∀ rd ls p, (next (rd.hearing ls) p).isSome = (next rd p).isSome) :
    ((e.withTies k).read c next).isSome = (e.read c next).isSome := by
  have houtlets : (e.withTies k).outlets = e.outlets := rfl
  unfold read
  rw [readers_withTies, houtlets]
  cases e.readers.get c with
  | none => rfl
  | some rd =>
    cases e.outlets.get c with
    | pipe p =>
      dsimp only [Option.map_some]
      rw [Option.isSome_map, Option.isSome_map]
      exact same rd (k.readers.get c) p
    | passed bytes => rfl
    | discarded => rfl

/-- Whether a move is possible has nothing to do with ties. -/
theorem step_isSome_withTies (e : Execution) (k : Ties) (m : Move) (t other : Tracker) :
    ((e.withTies k).step m other).isSome = (e.step m t).isSome := by
  cases m with
  | supervisor => exact supervise_isSome_withTies e k t other
  | cancellation =>
    show (((e.withTies k).seeCancellation).map _).isSome = _
    rw [seeCancellation_withTies, Option.isSome_map, Option.isSome_map]
    exact Option.isSome_map.symm
  | child which =>
    show (((e.withTies k).act which).map _).isSome = _
    rw [act_withTies, Option.isSome_map, Option.isSome_map]
    exact Option.isSome_map.symm
  | waitFailure message =>
    show (((e.withTies k).failWaiting message).map _).isSome = _
    rw [failWaiting_withTies, Option.isSome_map, Option.isSome_map]
    exact Option.isSome_map.symm
  | destroy => rfl
  | reader c =>
    show (((e.withTies k).read c _).map _).isSome = ((e.read c _).map _).isSome
    rw [Option.isSome_map, Option.isSome_map]
    exact read_isSome_withTies e k fun rd ls p => rd.step_isSome_hearing _ _ p ls
  | readFailure c message =>
    show (((e.withTies k).read c _).map _).isSome = ((e.read c _).map _).isSome
    rw [Option.isSome_map, Option.isSome_map]
    exact read_isSome_withTies e k fun rd ls p =>
      (congrArg Option.isSome (rd.fail_hearing _ _ p ls)).trans Option.isSome_map

end Execution

end ToolRunner
