import ToolRunner.Execution.Reader
import ToolRunner.Proofs.Line.Delivery

/-!
# The steps of a reader

A step of a reader goes on with its line, takes bytes out of the pipe, gives a line to the
listeners, or stops (`Turn`). Both its own step and the step in which a read fails are of this kind,
and what either of them leaves alone is read off the four kinds.
-/

namespace ToolRunner

namespace Incident

def start? : Incident → Option (Nat × Started)
  | .started index seen => some (index, seen)
  | _ => none

def line? (channel : Channel) : Incident → Option String
  | .line c text => if c = channel then some text else none
  | _ => none

def exit? : Incident → Option (Nat × Int)
  | .exited index code => some (index, code)
  | _ => none

end Incident

/-- A reader that has stopped has the listeners it had, and at most the failed read to report. -/
structure Line.Drain.Halts (d d' : Line.Drain .standard) : Prop where
  stopped : d'.stop.isSome = true
  channel : d'.channel = d.channel
  listeners : d'.listeners = d.listeners
  failures : ∀ f ∈ d'.failures.toList,
    f ∈ d.failures.toList ∨ ∃ message, f = .read d.channel message

namespace Reader

/-- What a step of a reader leaves behind, by what it does. -/
inductive Turn (r : Reader) (p : Pipe) : ReaderStep → Prop where
  | went (line : Line.Partial .standard) (unread : Bytes) (phase : ReaderPhase) :
      Turn r p ⟨⟨{ r.drain with line := line }, unread, phase⟩, p, []⟩
  | filled : Turn r p (r.fill p)
  | delivered (bytes : Array UInt8) (rest : Bytes) : Turn r p (r.deliver p bytes rest)
  | divided (bytes : Array UInt8) (rest : Bytes) :
      Turn r p
        { r.deliver p bytes rest with
          incidents := .split r.drain.channel :: (r.deliver p bytes rest).incidents }
  | stopped (drain : Line.Drain .standard) (halts : r.drain.Halts drain) :
      Turn r p (r.stopped drain p)

variable {r : Reader} {p : Pipe} {s : ReaderStep}

theorem consume_turn (r : Reader) (p : Pipe) : Turn r p (r.consume p) := by
  unfold consume
  split
  · exact .went _ _ _
  · exact .delivered _ _
  · exact .divided _ _

theorem cancel_turn (h : r.drain.stop = none) : Turn r p (r.cancel p) := by
  refine .stopped _ ?_
  rw [Line.Drain.checkToken, h]
  exact ⟨rfl, rfl, rfl, fun f hf => .inl hf⟩

theorem endInput_turn (h : r.drain.stop = none) : Turn r p (r.endInput p) := by
  have hgoing : ¬ r.drain.stop.isSome = true := by simp [h]
  unfold endInput
  by_cases he : r.drain.line.bytes.isEmpty = true
  · rw [if_pos he]
    refine .stopped _ ?_
    rw [Line.Drain.endInput, if_neg hgoing, if_pos he]
    exact ⟨rfl, rfl, rfl, fun f hf => .inl hf⟩
  · rw [if_neg he]
    exact .delivered _ _

theorem stop_of_not_finished (h : ¬ r.finished = true) : r.drain.stop = none := by
  rw [finished, Option.not_isSome_iff_eq_none] at h
  exact h

/-- What a reader does in a step of its own, and under which conditions it does that. -/
inductive Action (r : Reader) (token closed : Bool) (p : Pipe) : ReaderStep → Prop where
  | turned (phase : ReaderPhase) (asleep : phase = .asleep → r.unread = [])
      (idle : r.phase = .reading → p.content = [] ∧ closed = false) :
      Action r token closed p ⟨{ r with phase := phase }, p, []⟩
  | cancelled (seen : token = true) : Action r token closed p (r.cancel p)
  | consumed (at_ : r.phase = .reading) (unread : r.unread ≠ []) :
      Action r token closed p (r.consume p)
  | filled (at_ : r.phase = .reading) (unread : r.unread = []) (content : p.content ≠ []) :
      Action r token closed p (r.fill p)
  | ended (at_ : r.phase = .reading) (unread : r.unread = []) (content : p.content = [])
      (dry : closed = true) : Action r token closed p (r.endInput p)

/-- A reader that makes a step has not stopped. -/
theorem step_action {token closed : Bool} (h : r.step token closed p = some s) :
    r.drain.stop = none ∧ Action r token closed p s := by
  have hreading (hphase : r.phase ≠ .reading) :
      Action r token closed p ⟨{ r with phase := .reading }, p, []⟩ :=
    .turned _ nofun fun hreads => absurd hreads hphase
  unfold step at h
  split at h
  · contradiction
  rename_i hf
  refine ⟨stop_of_not_finished hf, ?_⟩
  split at h
  · rename_i hphase
    injection h with h
    subst h
    split
    · exact .cancelled ‹_›
    · exact hreading (by rw [hphase]; nofun)
  · rename_i hphase
    split at h
    · injection h with h
      subst h
      exact .cancelled ‹_›
    · split at h
      · injection h with h
        subst h
        exact hreading (by rw [hphase]; nofun)
      · contradiction
  · rename_i hphase
    split at h
    · rename_i hunread
      injection h with h
      subst h
      exact .consumed hphase (by simpa using hunread)
    · rename_i hunread
      have hunread : r.unread = [] := by simpa using hunread
      split at h
      · rename_i hcontent
        injection h with h
        subst h
        exact .filled hphase hunread (by simpa using hcontent)
      · rename_i hcontent
        have hcontent : p.content = [] := by simpa using hcontent
        split at h
        · rename_i hclosed
          injection h with h
          subst h
          exact .ended hphase hunread hcontent hclosed
        · rename_i hopen
          injection h with h
          subst h
          exact .turned _ (fun _ => hunread) fun _ => ⟨hcontent, by simpa using hopen⟩

theorem step_turn {token closed : Bool} (h : r.step token closed p = some s) :
    r.finished = false ∧ Turn r p s := by
  obtain ⟨hstop, haction⟩ := step_action h
  refine ⟨by rw [finished, hstop]; rfl, ?_⟩
  cases haction with
  | turned phase => exact .went _ _ _
  | cancelled seen => exact cancel_turn hstop
  | consumed => exact consume_turn r p
  | filled => exact .filled
  | ended => exact endInput_turn hstop

/-- So is the step in which a read fails. -/
theorem fail_turn {token : Bool} {message : String} (h : r.fail token message p = some s) :
    r.finished = false ∧ Turn r p s := by
  unfold fail at h
  by_cases hf : r.finished = true
  · simp [hf] at h
  have hgoing : ¬ r.drain.stop.isSome = true := hf
  split at h
  · injection h with h
    subst h
    refine ⟨by simpa using hf, .stopped _ ?_⟩
    rw [Line.Drain.fail, if_neg hgoing]
    refine ⟨rfl, rfl, rfl, ?_⟩
    intro f hf
    rw [Array.toList_push, List.mem_append, List.mem_singleton] at hf
    rcases hf with hf | hf
    · exact .inl hf
    · exact .inr ⟨message, hf⟩
  · contradiction

/-! ## What every step leaves alone -/

theorem Turn.channel (h : Turn r p s) : s.reader.drain.channel = r.drain.channel := by
  cases h with
  | went => rfl
  | filled => rfl
  | delivered => rfl
  | divided => rfl
  | stopped drain halts => exact halts.channel

/-- A reader calls neither start nor exit listeners, and the lines that it tells of are those of its
own channel. -/
theorem Turn.incidents (h : Turn r p s) :
    ∀ i ∈ s.incidents, i.start? = none ∧ i.exit? = none ∧
      ∀ channel ≠ r.drain.channel, i.line? channel = none := by
  have hline : ∀ text, ∀ channel ≠ r.drain.channel,
      (Incident.line r.drain.channel text).line? channel = none :=
    fun text channel hne => if_neg (Ne.symm hne)
  intro i hi
  cases h with
  | went => simp at hi
  | filled =>
    rw [List.mem_singleton.mp hi]
    exact ⟨rfl, rfl, fun _ _ => rfl⟩
  | delivered bytes rest =>
    rw [List.mem_singleton.mp hi]
    exact ⟨rfl, rfl, hline _⟩
  | divided bytes rest =>
    rcases List.mem_cons.mp hi with rfl | hi
    · exact ⟨rfl, rfl, fun _ _ => rfl⟩
    · rw [List.mem_singleton.mp hi]
      exact ⟨rfl, rfl, hline _⟩
  | stopped => simp [Reader.stopped] at hi

/-- Every listener gets the lines that the step tells of, in their order. -/
theorem Turn.listeners (h : Turn r p s) :
    s.reader.drain.listeners = r.drain.listeners.map
      (·.callAll (s.incidents.filterMap (Incident.line? r.drain.channel))) := by
  have hnone : r.drain.listeners = r.drain.listeners.map (·.callAll []) := by
    simp [Registration.callAll]
  have hone (bytes : Array UInt8) : (r.drain.deliver bytes).listeners =
      r.drain.listeners.map (·.callAll [Utf8.decode bytes.toList]) := by
    simp [Line.Drain.deliver, Registration.callAll]
  have hline (text : String) :
      [Incident.line r.drain.channel text].filterMap (Incident.line? r.drain.channel) = [text] := by
    simp [Incident.line?]
  cases h with
  | went => exact hnone
  | filled => exact hnone
  | delivered bytes rest =>
    show (r.drain.deliver bytes).listeners = _
    rw [hone, deliver, hline]
  | divided bytes rest =>
    show (r.drain.deliver bytes).listeners = _
    rw [hone, deliver, List.filterMap_cons_none rfl, hline]
  | stopped drain halts =>
    show drain.listeners = _
    rw [halts.listeners]
    exact hnone

/-- A reader reports failures of listeners and of reads. -/
theorem Turn.failures (h : Turn r p s) :
    ∀ f ∈ s.reader.drain.failures.toList, f ∈ r.drain.failures.toList ∨
      (∃ message, f = .read r.drain.channel message) ∨
        ∃ event i message, f = .listener event i message := by
  have hdeliver (bytes : Array UInt8) : ∀ f ∈ (r.drain.deliver bytes).failures.toList,
      f ∈ r.drain.failures.toList ∨ ∃ event i message, f = .listener event i message := by
    intro f hf
    rw [Line.Drain.failures_deliver, List.mem_append] at hf
    rcases hf with hf | hf
    · exact .inl hf
    · exact .inr ⟨_, dispatch_failures hf⟩
  intro f hf
  cases h with
  | went => exact .inl hf
  | filled => exact .inl hf
  | delivered bytes rest => exact (hdeliver bytes f hf).imp_right .inr
  | divided bytes rest => exact (hdeliver bytes f hf).imp_right .inr
  | stopped drain halts => exact (halts.failures f hf).imp_right .inl

/-- The pipe is abandoned by the step in which its reader stops, and by no other. -/
theorem Turn.readable (h : Turn r p s) (hr : r.finished = false) (hp : p.readable = true) :
    s.pipe.readable = !s.reader.finished := by
  have hstep : p.readable = !r.finished := by rw [hr, hp]; rfl
  cases h with
  | went => exact hstep
  | filled => exact hstep
  | delivered => exact hstep
  | divided => exact hstep
  | stopped drain halts =>
    show false = !drain.stop.isSome
    rw [halts.stopped]
    rfl

/-! ## When a reader has a step -/

/-- A reader that has not stopped has a step, unless it sleeps and nothing wakes it. -/
theorem step_isSome {token closed : Bool} (hr : r.finished = false)
    (hwake : token = true ∨ closed = true ∨ p.content ≠ []) :
    (r.step token closed p).isSome = true := by
  have hf : ¬ r.finished = true := by simp [hr]
  unfold step
  rw [if_neg hf]
  cases r.phase with
  | fresh => rfl
  | asleep =>
    show (if token = true then _ else _ : Option ReaderStep).isSome = true
    by_cases ht : token = true
    · rw [if_pos ht]
      rfl
    · have hopen : (closed || !p.content.isEmpty) = true := by
        rcases hwake with h | h | h
        · exact absurd h ht
        · rw [h, Bool.true_or]
        · rw [Bool.or_eq_true]
          exact .inr (by simpa using h)
      rw [if_neg ht, if_pos hopen]
      rfl
  | reading =>
    dsimp only
    split
    · rfl
    · split
      · rfl
      · split <;> rfl

end Reader

end ToolRunner
