import ToolRunner.Proofs.Execution.Changes

/-!
# What no move looks at

No move looks at how the callbacks of listeners come back, at what was reported of them, or at the
mode. A guise changes these, and commutes with every move (`Guise.step_eq`); so what an execution
becomes can be followed from any other that is the same in the guise (`Guise.follow`).
-/

namespace ToolRunner

/-- A change of the mode, of what callbacks return, and of what is reported of that. -/
structure Guise where
  mode : Mode → Mode
  listener : ∀ {α : Type}, Registration α → Registration α
  failures : List SecondaryFailure → List SecondaryFailure
  call_eq : ∀ {α : Type} (l : Registration α) a, (listener l).call a = listener (l.call a)
  /-- What callbacks do besides stays as it is. -/
  destroys_eq : ∀ {α : Type} (l : Registration α) a,
    ((listener l).reaction a).destroys = (l.reaction a).destroys
  failure_eq : ∀ {α : Type} (l : Registration α) a event index,
    (((listener l).reaction a).failure? event index).toList =
      failures ((l.reaction a).failure? event index).toList
  failures_nil : failures [] = []
  failures_append : ∀ before more, failures (before ++ more) = failures before ++ failures more
  failures_read : ∀ channel message, failures [.read channel message] = [.read channel message]
  failures_wait : ∀ message, failures [.wait message] = [.wait message]

namespace Guise

variable (g : Guise)

/-! ## Readers -/

theorem dispatchFrom_eq {α : Type} (event : Event) (a : α) (index : Nat)
    (ls : List (Registration α)) :
    dispatchFrom event a index (ls.map g.listener) =
      { listeners := (dispatchFrom event a index ls).listeners.map g.listener
        failures := g.failures (dispatchFrom event a index ls).failures
        destroyed := (dispatchFrom event a index ls).destroyed } := by
  induction ls generalizing index with
  | nil => simp [dispatchFrom, g.failures_nil]
  | cons l ls ih =>
    simp [dispatchFrom, ih, g.call_eq, g.destroys_eq, g.failure_eq, g.failures_append]

def drain {cap : Line.Cap} (d : Line.Drain cap) : Line.Drain cap :=
  { d with
    listeners := d.listeners.map g.listener
    failures := (g.failures d.failures.toList).toArray }

def reader (r : Reader) : Reader := { r with drain := g.drain r.drain }

def readerStep (s : ReaderStep) : ReaderStep := { s with reader := g.reader s.reader }

section

variable {cap : Line.Cap}

theorem deliver_eq (d : Line.Drain cap) (bytes : Array UInt8) :
    (g.drain d).deliver bytes = g.drain (d.deliver bytes) := by
  simp [Line.Drain.deliver, drain, dispatch, g.dispatchFrom_eq, g.failures_append]

theorem checkToken_eq (d : Line.Drain cap) : (g.drain d).checkToken = g.drain d.checkToken := by
  unfold Line.Drain.checkToken
  split
  · rename_i h
    rw [if_pos (by exact h)]
    rfl
  · rename_i h
    rw [if_neg (by exact h)]

theorem drainEndInput_eq (d : Line.Drain cap) : (g.drain d).endInput = g.drain d.endInput := by
  unfold Line.Drain.endInput
  by_cases hstopped : d.stop.isSome = true
  · rw [if_pos hstopped, if_pos (by exact hstopped)]
  · rw [if_neg hstopped, if_neg (by exact hstopped)]
    by_cases hempty : d.line.bytes.isEmpty = true
    · rw [if_pos hempty, if_pos (by exact hempty)]
      rfl
    · rw [if_neg hempty, if_neg (by exact hempty), ← checkToken_eq, ← deliver_eq]
      rfl

/-- A failed read is reported in any guise. -/
theorem drainFail_eq (d : Line.Drain cap) (message : String) :
    (g.drain d).fail message = g.drain (d.fail message) := by
  unfold Line.Drain.fail
  by_cases hstopped : d.stop.isSome = true
  · rw [if_pos hstopped, if_pos (by exact hstopped)]
  · rw [if_neg hstopped, if_neg (by exact hstopped)]
    simp [drain, g.failures_append, g.failures_read]

end

theorem readerDeliver_eq (r : Reader) (p : Pipe) (bytes : Array UInt8) (rest : Bytes) :
    (g.reader r).deliver p bytes rest = g.readerStep (r.deliver p bytes rest) := by
  rw [Reader.deliver, reader, deliver_eq]
  rfl

theorem cancel_eq (r : Reader) (p : Pipe) :
    (g.reader r).cancel p = g.readerStep (r.cancel p) := by
  have hcheck := g.checkToken_eq { r.drain with cancelled := true }
  exact congrArg (fun d => r.stopped d p) hcheck

theorem consume_eq (r : Reader) (p : Pipe) :
    (g.reader r).consume p = g.readerStep (r.consume p) := by
  have htake : Line.take (g.reader r).drain.line (g.reader r).unread =
      Line.take r.drain.line r.unread := rfl
  unfold Reader.consume
  rw [htake]
  cases Line.take r.drain.line r.unread with
  | more line => rfl
  | line bytes rest => exact g.readerDeliver_eq r p bytes rest
  | split bytes rest =>
    dsimp only
    rw [readerDeliver_eq]
    rfl

theorem endInput_eq (r : Reader) (p : Pipe) :
    (g.reader r).endInput p = g.readerStep (r.endInput p) := by
  unfold Reader.endInput
  by_cases hempty : r.drain.line.bytes.isEmpty = true
  · rw [if_pos hempty, if_pos (by exact hempty)]
    exact congrArg (fun d => r.stopped d p) (g.drainEndInput_eq r.drain)
  · rw [if_neg hempty, if_neg (by exact hempty)]
    exact g.readerDeliver_eq r p _ _

/-- A reader has the same steps in any guise. -/
theorem readerStep_eq (r : Reader) (token closed : Bool) (p : Pipe) :
    (g.reader r).step token closed p = (r.step token closed p).map g.readerStep := by
  unfold Reader.step
  by_cases hstopped : r.finished = true
  · rw [if_pos hstopped, if_pos (by exact hstopped)]
    rfl
  · have hphase : (g.reader r).phase = r.phase := rfl
    rw [if_neg hstopped, if_neg (by exact hstopped), hphase]
    cases r.phase with
    | fresh =>
      cases token with
      | true => exact congrArg some (g.cancel_eq r p)
      | false => rfl
    | asleep =>
      cases token with
      | true => exact congrArg some (g.cancel_eq r p)
      | false => cases (closed || !p.content.isEmpty) <;> rfl
    | reading =>
      show (if !r.unread.isEmpty then _ else _) = Option.map _ (if !r.unread.isEmpty then _ else _)
      cases r.unread.isEmpty with
      | false => exact congrArg some (g.consume_eq r p)
      | true =>
        cases hp : p.content.isEmpty with
        | false => rfl
        | true =>
          cases closed with
          | true => exact congrArg some (g.endInput_eq r p)
          | false => rfl

theorem readerFail_eq (r : Reader) (token : Bool) (message : String) (p : Pipe) :
    (g.reader r).fail token message p = (r.fail token message p).map g.readerStep := by
  unfold Reader.fail
  show (if !r.finished && r.reads token then _ else _) = _
  cases !r.finished && r.reads token with
  | false => rfl
  | true => exact congrArg (fun d => some (r.stopped d p)) (g.drainFail_eq r.drain message)

/-- There are as many listeners in any guise. -/
theorem newReader_eq (channel : Channel) (listeners : List (Registration String)) :
    Reader.new channel (listeners.map g.listener) =
      (Reader.new channel listeners).map g.reader := by
  unfold Reader.new
  rw [List.isEmpty_map]
  cases listeners.isEmpty with
  | true => rfl
  | false => simp [Except.map, reader, drain, Line.Drain.start, g.failures_nil]

/-! ## The supervisor -/

/-- The same execution in the guise. -/
def execution (e : Execution) : Execution :=
  { e with
    mode := g.mode e.mode
    lines := .ofFn fun c => (e.lines.get c).map g.listener
    start := e.start.map g.listener
    exit := e.exit.map g.listener
    readers := .ofFn fun c => (e.readers.get c).map g.reader
    startFailures := g.failures e.startFailures
    failures := g.failures e.failures }

variable {e : Execution}

theorem readers_eq (e : Execution) (c : Channel) :
    (g.execution e).readers.get c = (e.readers.get c).map g.reader := PerChannel.get_ofFn _ c

theorem channelReader_eq (e : Execution) (c : Channel) :
    (g.execution e).newReader c = (e.newReader c).map (Option.map g.reader) := by
  have houtlets : (g.execution e).outlets = e.outlets := rfl
  unfold Execution.newReader
  rw [houtlets]
  cases e.outlets.get c with
  | pipe p =>
    show (Reader.new c ((g.execution e).lines.get c)).map some = _
    rw [execution, PerChannel.get_ofFn, newReader_eq]
    cases Reader.new c (e.lines.get c) <;> rfl
  | passed bytes => rfl
  | discarded => rfl

theorem newReaders_eq (e : Execution) :
    (g.execution e).newReaders =
      e.newReaders.map fun readers => .ofFn fun c => (readers.get c).map g.reader := by
  unfold Execution.newReaders
  rw [channelReader_eq, channelReader_eq]
  cases e.newReader .stdout with
  | error cause => rfl
  | ok stdout => cases e.newReader .stderr <;> rfl

theorem register_eq (e : Execution) (t : Tracker) :
    (g.execution e).register t = ((e.register t).1, g.execution (e.register t).2) := by
  have hsame : (g.execution e).tracker = e.tracker := rfl
  cases htracker : e.tracker <;> simp only [Execution.register, hsame, htracker] <;> rfl

theorem unregister_eq (e : Execution) (t : Tracker) :
    (g.execution e).unregister t = e.unregister t := rfl

theorem wire_eq (e : Execution) (t : Tracker) :
    (g.execution e).wire t = ((e.wire t).1, g.execution (e.wire t).2) := by
  unfold Execution.wire
  rw [newReaders_eq]
  cases e.newReaders <;> rfl

theorem callStart_eq (e : Execution) (index : Nat) (l : Registration Started) :
    (g.execution e).callStart index (g.listener l) = g.execution (e.callStart index l) := by
  simp [Execution.callStart, execution, List.map_set, g.call_eq, g.destroys_eq, g.failure_eq,
    g.failures_append]

theorem callExit_eq (e : Execution) (index : Nat) (l : Registration Int) :
    (g.execution e).callExit index (g.listener l) = g.execution (e.callExit index l) := by
  simp [Execution.callExit, execution, List.map_set, g.call_eq, g.destroys_eq, g.failure_eq,
    g.failures_append]

theorem reap_eq (e : Execution) : (g.execution e).reap = e.reap.map g.execution := by
  unfold Execution.reap
  show e.child.status.map _ = _
  cases e.child.status <;> rfl

theorem join_eq (e : Execution) (c : Channel) :
    (g.execution e).join c = (e.join c).map g.execution := by
  unfold Execution.join
  rw [readers_eq]
  cases e.readers.get c with
  | none => rfl
  | some r =>
    show (if r.finished then _ else _) = Option.map _ (if r.finished then _ else _)
    cases r.finished with
    | false => rfl
    | true => simp [execution, reader, drain, Line.Drain.report, g.failures_append]

theorem supervise_eq (e : Execution) (t : Tracker) :
    (g.execution e).supervise t =
      (e.supervise t).map fun after => (after.1, g.execution after.2) := by
  have hphase : (g.execution e).phase = e.phase := rfl
  have hstart : (g.execution e).start = e.start.map g.listener := rfl
  have hexit : (g.execution e).exit = e.exit.map g.listener := rfl
  unfold Execution.supervise
  rw [register_eq, wire_eq, reap_eq, unregister_eq, hphase]
  cases e.phase with
  | starting next =>
    dsimp only
    rw [hstart, List.getElem?_map]
    cases e.start[next]? with
    | none => rfl
    | some l => exact congrArg (fun after => some (t, after)) (g.callStart_eq e next l)
  | notifying next =>
    dsimp only
    rw [hexit, List.getElem?_map]
    cases e.exit[next]? with
    | none => rfl
    | some l => exact congrArg (fun after => some (t, after)) (g.callExit_eq e next l)
  | waiting => cases e.reap <;> rfl
  | reaping => cases e.reap <;> rfl
  | joining channel =>
    dsimp only
    rw [join_eq]
    cases e.join channel <;> rfl
  | _ => rfl

theorem seeCancellation_eq (e : Execution) :
    (g.execution e).seeCancellation = e.seeCancellation.map g.execution := by
  unfold Execution.seeCancellation
  show (if e.phase == .waiting && e.destroyed then _ else _) = _
  cases e.phase == .waiting && e.destroyed <;> rfl

/-- That waiting failed is reported in any guise. -/
theorem failWaiting_eq (e : Execution) (message : String) :
    (g.execution e).failWaiting message = (e.failWaiting message).map g.execution := by
  unfold Execution.failWaiting
  show (if (e.phase == .waiting || e.phase == .reaping) && e.child.status.isSome
    then _ else _) = _
  cases (e.phase == .waiting || e.phase == .reaping) && e.child.status.isSome with
  | false => rfl
  | true => simp [execution, g.failures_append, g.failures_wait]

/-! ## Readers and the child -/

theorem afterReader_eq (e : Execution) (c : Channel) (s : ReaderStep) :
    (g.execution e).afterReader c (g.readerStep s) = g.execution (e.afterReader c s) := by
  cases c <;> rfl

theorem read_eq (e : Execution) (c : Channel) {next next' : Reader → Pipe → Option ReaderStep}
    (h : ∀ r p, next' (g.reader r) p = (next r p).map g.readerStep) :
    (g.execution e).read c next' = (e.read c next).map g.execution := by
  have houtlets : (g.execution e).outlets = e.outlets := rfl
  unfold Execution.read
  rw [readers_eq, houtlets]
  cases e.readers.get c with
  | none => rfl
  | some r =>
    cases e.outlets.get c with
    | pipe p =>
      dsimp only [Option.map_some]
      rw [h]
      cases next r p with
      | none => rfl
      | some s => exact congrArg some (g.afterReader_eq e c s)
    | passed bytes => rfl
    | discarded => rfl

theorem write_eq (e : Execution) (which : Option Nat) (task : Task) (c : Channel)
    (bytes : Bytes) (acts : List Act) :
    (g.execution e).write which task c bytes acts =
      (e.write which task c bytes acts).map g.execution := by
  have houtlets : (g.execution e).outlets = e.outlets := rfl
  unfold Execution.write
  split
  · rfl
  · rw [houtlets]
    cases e.outlets.get c with
    | discarded => rfl
    | passed before => rfl
    | pipe p =>
      dsimp only
      split
      · rfl
      · split <;> rfl

/-- What the child does is seen by its readers only. -/
theorem act_eq (e : Execution) (which : Option Nat) :
    (g.execution e).act which = (e.act which).map g.execution := by
  have hchild : (g.execution e).child = e.child := rfl
  unfold Execution.act
  rw [hchild]
  cases e.child.task? which with
  | none => rfl
  | some task =>
    dsimp only
    split
    · rfl
    · split
      · rfl
      · exact g.write_eq e which task _ _ _
      · rfl
      · rfl
      · rfl
      · rfl

/-! ## All moves -/

/-- In a guise an execution makes the same moves, and becomes in the guise what it would have
become. -/
theorem step_eq (e : Execution) (m : Move) (t : Tracker) :
    (g.execution e).step m t = (e.step m t).map fun after => (after.1, g.execution after.2) := by
  have hmap (after : Option Execution) :
      (after.map g.execution).map (t, ·) =
        (after.map (t, ·)).map fun after => (after.1, g.execution after.2) := by
    cases after <;> rfl
  cases m with
  | supervisor => exact g.supervise_eq e t
  | cancellation =>
    rw [Execution.step, seeCancellation_eq, hmap]
    rfl
  | child which =>
    rw [Execution.step, act_eq, hmap]
    rfl
  | reader c =>
    rw [Execution.step,
      g.read_eq e c fun r p => g.readerStep_eq r e.destroyed (e.closed c) p, hmap]
    rfl
  | destroy => rfl
  | readFailure c message =>
    rw [Execution.step,
      g.read_eq e c fun r p => g.readerFail_eq r e.destroyed message p, hmap]
    rfl
  | waitFailure message =>
    rw [Execution.step, failWaiting_eq, hmap]
    rfl

theorem steps_eq (e : Execution) (ms : List Move) (t : Tracker) :
    (g.execution e).steps ms t =
      (e.steps ms t).map fun after => (after.1, g.execution after.2) := by
  induction ms generalizing e t with
  | nil => rfl
  | cons m ms ih =>
    rw [Execution.steps, Execution.steps, step_eq]
    cases e.step m t with
    | none => rfl
    | some after => exact ih after.2 after.1

/-- What an execution becomes, another that is the same in the guise can become too, up to the
guise. -/
theorem follow {start start' : Execution} (h : start.Reaches e)
    (alike : g.execution start' = g.execution start) :
    ∃ e', start'.Reaches e' ∧ g.execution e' = g.execution e := by
  -- On the first run: the second one follows it move by move, and stays the same in the guise.
  induction h with
  | refl => exact ⟨start', .refl, alike⟩
  | @move before after m t t' reached step ih =>
    obtain ⟨before', hreached, hbefore⟩ := ih
    have hstep := g.step_eq before' m t
    rw [hbefore, step_eq, step, Option.map_some, eq_comm, Option.map_eq_some_iff] at hstep
    obtain ⟨⟨t'', after'⟩, hmade, heq⟩ := hstep
    injection heq with _ heq
    exact ⟨after', hreached.move hmade, heq⟩

end Guise

end ToolRunner
