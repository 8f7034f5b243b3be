import ToolRunner.Proofs.Execution.Calls
import ToolRunner.Proofs.Line.Account

/-!
# The account of the readers of a run

A reader of a pipe gives its lines in many steps, between which others move, and all the same it has
at any moment given the lines that the history of the run tells of, and reports what failed in these
calls and the read that failed, if one did (`Reaches.accounted`).
-/

namespace ToolRunner

namespace Reader

variable {r : Reader} {p : Pipe} {s : ReaderStep} {token closed : Bool} {channel : Channel}
variable {listeners : List (Registration String)} {texts : List String}

theorem deliver_gave (hg : r.drain.Gave channel listeners texts) (going : r.drain.stop = none)
    (bytes : Array UInt8) (rest : Bytes) :
    (r.deliver p bytes rest).reader.drain.Gave channel listeners (texts ++
      (r.deliver p bytes rest).incidents.filterMap (Incident.line? channel)) := by
  have htext : (r.deliver p bytes rest).incidents.filterMap (Incident.line? channel) =
      [Utf8.decode bytes.toList] := by
    simp [deliver, Incident.line?, hg.channel_eq]
  rw [htext]
  exact hg.deliver going bytes

/-- A step of a reader gives the lines that it tells of, and nothing but their calls fails. -/
theorem step_gave (h : r.step token closed p = some s)
    (hg : r.drain.Gave channel listeners texts) :
    s.reader.drain.Gave channel listeners
      (texts ++ s.incidents.filterMap (Incident.line? channel)) ∧
    ∀ message, s.reader.drain.stop ≠ some (.failed message) := by
  obtain ⟨going, haction⟩ := step_action h
  have hgoing {stop : Option Line.Stop} (hstop : stop = none) (message : String) :
      stop ≠ some (.failed message) := by
    rw [hstop]
    nofun
  cases haction with
  | turned phase =>
    rw [List.filterMap_nil, List.append_nil]
    exact ⟨hg, hgoing going⟩
  | cancelled seen =>
    have hstop := Line.Drain.checkToken_of_cancelled (d := { r.drain with cancelled := true })
      going rfl
    refine ⟨?_, fun message => ?_⟩
    · show Line.Drain.Gave channel listeners (texts ++ []) _
      rw [List.append_nil]
      exact (hg.withToken true).checkToken
    · show Line.Drain.stop (Line.Drain.checkToken _) ≠ _
      rw [hstop]
      nofun
  | consumed =>
    unfold consume
    split
    · rw [List.filterMap_nil, List.append_nil]
      exact ⟨hg.withLine _, hgoing going⟩
    · exact ⟨deliver_gave (p := p) hg going _ _, hgoing going⟩
    · exact ⟨deliver_gave (p := p) hg going _ _, hgoing going⟩
  | filled =>
    refine ⟨?_, hgoing going⟩
    show Line.Drain.Gave channel listeners (texts ++ []) _
    rw [List.append_nil]
    exact hg
  | ended =>
    unfold endInput
    split
    · rename_i hempty
      have hend := Line.Drain.endInput_of_empty going hempty
      refine ⟨?_, fun message => ?_⟩
      · show Line.Drain.Gave channel listeners (texts ++ []) r.drain.endInput
        rw [List.append_nil, hend]
        exact hg.stopAt going rfl r.drain.line
      · show r.drain.endInput.stop ≠ _
        rw [hend]
        nofun
    · exact ⟨deliver_gave (p := p) hg going _ _, hgoing going⟩

/-- In the step in which a read fails the reader stops with that failure and gives nothing. -/
theorem fail_eq {message : String} (h : r.fail token message p = some s) :
    r.drain.stop = none ∧ s = r.stopped (r.drain.fail message) p := by
  unfold fail at h
  split at h
  · rename_i hcond
    injection h with h
    refine ⟨stop_of_not_finished fun hf => ?_, h.symm⟩
    rw [hf] at hcond
    contradiction
  · contradiction

end Reader

namespace Execution

variable {r : Runner} {e e' : Execution} {m : Move}

/-- The readers have given the lines that the history tells of. -/
def Accounted (r : Runner) (e : Execution) : Prop :=
  ∀ c rd, e.readers.get c = some rd → rd.drain.Gave c (r.listeners.onLine c) (e.told c)

namespace Accounted

theorem keep (h : Accounted r e) (readers : e'.readers = e.readers)
    (told : ∀ c, e'.told c = e.told c) : Accounted r e' := by
  intro c rd hrd
  rw [told]
  exact h c rd (readers ▸ hrd)

theorem read (h : Accounted r e) (hw : Wired r e) {c : Channel} {rd : Reader} {p : Pipe}
    {s : ReaderStep} (reader : e.readers.get c = some rd) (turn : rd.Turn p s)
    (made : rd.made e.destroyed (e.closed c) p c m = some s) :
    Accounted r (e.afterReader c s) := by
  intro d rd' hrd'
  rw [told_afterReader]
  by_cases hd : d = c
  · subst hd
    rw [readers_afterReader] at hrd'
    injection hrd' with hrd'
    subst hrd'
    have hg := h d rd reader
    rcases Reader.made_cases made with ⟨-, hstep⟩ | ⟨message, -, hfail⟩
    · exact (Reader.step_gave hstep hg).1
    · rw [(Reader.fail_eq hfail).2]
      show Line.Drain.Gave d (r.listeners.onLine d) (e.told d ++ []) _
      rw [List.append_nil]
      exact hg.fail message
  · have hnone : s.incidents.filterMap (Incident.line? d) = [] :=
      List.filterMap_eq_nil_iff.mpr fun i hi =>
        (turn.incidents i hi).2.2 d (by rwa [hw.channel c rd reader])
    rw [readers_afterReader_other e hd] at hrd'
    rw [hnone, List.append_nil]
    exact h d rd' hrd'

/-- Readers begin with nothing, and nothing has been given before. -/
theorem wire (hw : Wired r e) (hr : Recorded r e) {readers : PerChannel (Option Reader)}
    (at_ : e.phase = .wiring) (wires : e.newReaders = .ok readers) :
    Accounted r { e with readers := readers, phase := .starting 0 } := by
  intro c rd hrd
  obtain ⟨hcaptured, rfl⟩ := hw.reader_of_wires wires hrd
  have hnone := (hw.unwired (by rw [at_]; rfl) c).1
  have hlines := hr.lines c
  rw [onLine_of_none hnone, hw.lines, PerChannel.get_ofFn] at hlines
  have hne : r.listeners.onLine c ≠ [] := by
    rw [Runner.captures, Bool.and_eq_true, Bool.not_eq_true'] at hcaptured
    exact List.isEmpty_eq_false_iff.mp hcaptured.2
  have hstart : r.listeners.onLine c = (r.listeners.onLine c).map (·.callAll []) :=
    (List.map_id _).symm
  have htold : e.told c = [] := Registration.callAll_injective hne (hlines.symm.trans hstart)
  show (r.reader c).drain.Gave c (r.listeners.onLine c) (e.told c)
  rw [htold]
  exact Line.Drain.gave_start .standard c (r.listeners.onLine c) false

theorem change (h : Accounted r e) (hw : Wired r e) (hr : Recorded r e) (hc : Change e m e') :
    Accounted r e' := by
  cases hc with
  | wired readers at_ wires => exact wire hw hr at_ wires
  | startCalled next l at_ listener => exact h.keep rfl (told_callStart e next l)
  | exitCalled next l at_ listener => exact h.keep rfl (told_callExit e next l)
  | read m c rd p s reader pipe going turn made => exact h.read hw reader turn made
  | registered => exact h.keep rfl fun _ => rfl
  | refused => exact h.keep rfl fun _ => rfl
  | startsDone => exact h.keep rfl fun _ => rfl
  | reaped => exact h.keep rfl fun _ => rfl
  | skipped => exact h.keep rfl fun _ => rfl
  | joined => exact h.keep rfl fun _ => rfl
  | released => exact h.keep rfl fun _ => rfl
  | exitsDone => exact h.keep rfl fun _ => rfl
  | killed => exact h.keep rfl fun _ => rfl
  | waitFailed => exact h.keep rfl fun _ => rfl
  | acted => exact h.keep rfl fun _ => rfl
  | destroyed => exact h.keep rfl fun _ => rfl

end Accounted

theorem Reaches.accounted {capacity : Capacity} {handle : Handle} {pid : Nat} {program : String}
    {child : Child} (h : (r.execution capacity handle pid program child).Reaches e) :
    Accounted r e := by
  refine h.invariant (fun c rd hrd => ?_) fun reached ha => ha.change reached.wired reached.recorded
  rw [readers_execution] at hrd
  contradiction

end Execution

end ToolRunner
