import ToolRunner.Proofs.Execution.Changes

/-!
# How the parties of a run are connected

What is true of the phase of the supervisor, the readers, the pipes and the child of a run at any
moment (`Wired`): a reader for every captured channel and for no other, a pipe that is abandoned
exactly when its reader has stopped, and a supervisor that has passed by no party that still works.
A run whose child was started is never refused (`Reaches.wired`).
-/

namespace ToolRunner

namespace Phase

def wired : Phase → Bool
  | spawned | wiring | refused _ => false
  | _ => true

def reaped : Phase → Bool
  | joining _ | releasing | notifying _ | finished => true
  | _ => false

def joined (channel : Channel) : Phase → Bool
  | joining .stderr => channel == .stdout
  | releasing | notifying _ | finished => true
  | _ => false

theorem reaped_of_joined {phase : Phase} {channel : Channel} (h : phase.joined channel = true) :
    phase.reaped = true := by
  cases phase with
  | joining c => rfl
  | releasing => rfl
  | notifying next => rfl
  | finished => rfl
  | _ => cases h

end Phase

/-- Whether a runner captures a channel: it does so where somebody listens. -/
def Runner.captures (r : Runner) (channel : Channel) : Bool :=
  r.routing == .captured && !(r.listeners.onLine channel).isEmpty

theorem Runner.outlet_readable (r : Runner) (capacity : Capacity) (channel : Channel) :
    (r.outlet capacity channel).pipe?.map (·.readable) =
      if r.captures channel then some true else none := by
  unfold captures outlet
  cases r.routing with
  | inherited => rfl
  | captured => cases r.listeners.onLine channel <;> rfl

def Runner.reader (r : Runner) (channel : Channel) : Reader :=
  ⟨.start .standard channel (r.listeners.onLine channel) false, [], .fresh⟩

namespace Execution

/-- How the parties of a run stand to each other. -/
structure Wired (r : Runner) (e : Execution) : Prop where
  accepted : ∀ cause, e.phase ≠ .refused cause
  captured : ∀ c, (e.readable c).isSome = r.captures c
  lines : e.lines = .ofFn r.listeners.onLine
  unwired : e.phase.wired = false → ∀ c, e.readers.get c = none ∧ e.readable c ≠ some false
  reads : e.phase.wired = true → ∀ c, (e.readers.get c).isSome = r.captures c
  channel : ∀ c rd, e.readers.get c = some rd → rd.drain.channel = c
  abandons : ∀ c rd, e.readers.get c = some rd → e.readable c = some (!rd.finished)
  reaped : e.phase.reaped = true ∨ e.phase = .reaping → e.child.status.isSome = true
  joined : ∀ c rd, e.phase.joined c = true → e.readers.get c = some rd → rd.finished = true

variable {r : Runner} {e e' : Execution} {m : Move}

theorem readers_execution (r : Runner) (capacity : Capacity) (handle : Handle) (pid : Nat)
    (program : String) (child : Child) (c : Channel) :
    (r.execution capacity handle pid program child).readers.get c = none :=
  PerChannel.get_both none c

theorem wired_execution (r : Runner) (capacity : Capacity) (handle : Handle) (pid : Nat)
    (program : String) (child : Child) :
    Wired r (r.execution capacity handle pid program child) := by
  have hreadable (c : Channel) :
      (r.execution capacity handle pid program child).readable c =
        if r.captures c then some true else none := by
    rw [readable, Runner.execution, PerChannel.get_ofFn]
    exact r.outlet_readable capacity c
  have hreaders := readers_execution r capacity handle pid program child
  constructor
  · intro cause h
    cases h
  · intro c
    rw [hreadable]
    cases r.captures c <;> rfl
  · rfl
  · intro _ c
    refine ⟨hreaders c, ?_⟩
    rw [hreadable]
    cases r.captures c <;> decide
  · intro h
    cases h
  · intro c rd h
    rw [hreaders] at h
    cases h
  · intro c rd h
    rw [hreaders] at h
    cases h
  · intro h
    rcases h with h | h <;> cases h
  · intro c rd h
    cases h

namespace Wired

/-- The supervisor goes on and changes nothing that the parties share. -/
theorem advance (h : Wired r e) (readers : e'.readers = e.readers)
    (outlets : e'.outlets = e.outlets) (lines : e'.lines = e.lines)
    (accepted : ∀ cause, e'.phase ≠ .refused cause) (wired : e'.phase.wired = e.phase.wired)
    (reaped : e'.phase.reaped = true ∨ e'.phase = .reaping → e'.child.status.isSome = true)
    (joined : ∀ c rd, e'.phase.joined c = true → e.readers.get c = some rd →
      rd.finished = true) : Wired r e' := by
  have hreadable : e'.readable = e.readable := by
    funext c
    rw [readable, outlets]
    rfl
  constructor
  · exact accepted
  · rw [hreadable]
    exact h.captured
  · rw [lines]
    exact h.lines
  · rw [wired, readers, hreadable]
    exact h.unwired
  · rw [wired, readers]
    exact h.reads
  · rw [readers]
    exact h.channel
  · rw [readers, hreadable]
    exact h.abandons
  · exact reaped
  · rw [readers]
    exact joined

/-- The supervisor has not begun to wait. -/
theorem early (h : Wired r e) (readers : e'.readers = e.readers)
    (outlets : e'.outlets = e.outlets) (lines : e'.lines = e.lines)
    (accepted : ∀ cause, e'.phase ≠ .refused cause) (wired : e'.phase.wired = e.phase.wired)
    (reaped : e'.phase.reaped = false) (reaping : e'.phase ≠ .reaping) : Wired r e' := by
  refine h.advance readers outlets lines accepted wired ?_ ?_
  · rintro (hp | hp)
    · rw [reaped] at hp
      cases hp
    · exact absurd hp reaping
  · intro c rd hp
    rw [Phase.reaped_of_joined hp] at reaped
    cases reaped

/-- The supervisor waits for nobody any more. -/
theorem late (h : Wired r e) (readers : e'.readers = e.readers)
    (outlets : e'.outlets = e.outlets) (lines : e'.lines = e.lines) (child : e'.child = e.child)
    (accepted : ∀ cause, e'.phase ≠ .refused cause) (wired : e'.phase.wired = e.phase.wired)
    (joined : ∀ c, e.phase.joined c = true) : Wired r e' := by
  refine h.advance readers outlets lines accepted wired ?_ ?_
  · intro _
    rw [child]
    exact h.reaped (.inl (Phase.reaped_of_joined (joined .stdout)))
  · intro c rd _
    exact h.joined c rd (joined c)

/-- A captured channel has listeners, and so its reader can be made. -/
theorem newReader_eq (h : Wired r e) (c : Channel) :
    e.newReader c = .ok (if r.captures c then some (r.reader c) else none) := by
  have hcaptured := h.captured c
  have hlines : e.lines.get c = r.listeners.onLine c := by
    rw [h.lines, PerChannel.get_ofFn]
  unfold readable at hcaptured
  unfold newReader
  cases houtlet : e.outlets.get c with
  | pipe p =>
    rw [houtlet] at hcaptured
    have hr : r.captures c = true := hcaptured.symm
    have hne : ¬ (r.listeners.onLine c).isEmpty = true := by
      rw [Runner.captures, Bool.and_eq_true, Bool.not_eq_true'] at hr
      rw [hr.2]
      exact Bool.false_ne_true
    simp only [hr, hlines, Reader.new, if_neg hne]
    rfl
  | passed bytes =>
    rw [houtlet] at hcaptured
    rw [← hcaptured]
    rfl
  | discarded =>
    rw [houtlet] at hcaptured
    rw [← hcaptured]
    rfl

theorem newReaders_eq (h : Wired r e) :
    e.newReaders = .ok (.ofFn fun c => if r.captures c then some (r.reader c) else none) := by
  rw [newReaders, h.newReader_eq .stdout, h.newReader_eq .stderr]
  rfl

theorem get_of_wires (h : Wired r e) {readers : PerChannel (Option Reader)}
    (wires : e.newReaders = .ok readers) (c : Channel) :
    readers.get c = if r.captures c then some (r.reader c) else none := by
  rw [h.newReaders_eq] at wires
  injection wires with wires
  rw [← wires, PerChannel.get_ofFn]

/-- The readers that are wired are those of the captured channels. -/
theorem reader_of_wires (h : Wired r e) {readers : PerChannel (Option Reader)}
    (wires : e.newReaders = .ok readers) {c : Channel} {rd : Reader}
    (reader : readers.get c = some rd) : r.captures c = true ∧ rd = r.reader c := by
  rw [h.get_of_wires wires] at reader
  split at reader
  · injection reader with reader
    exact ⟨‹_›, reader.symm⟩
  · contradiction

theorem wire (h : Wired r e) {readers : PerChannel (Option Reader)} (at_ : e.phase = .wiring)
    (wires : e.newReaders = .ok readers) :
    Wired r { e with readers := readers, phase := .starting 0 } := by
  have hunwired := h.unwired (by rw [at_]; rfl)
  constructor
  · intro cause h
    cases h
  · exact h.captured
  · exact h.lines
  · intro h
    cases h
  · intro _ c
    rw [h.get_of_wires wires]
    cases r.captures c <;> rfl
  · intro c rd hrd
    rw [(h.reader_of_wires wires hrd).2]
    rfl
  · intro c rd hrd
    obtain ⟨hcap, rfl⟩ := h.reader_of_wires wires hrd
    have hsome := h.captured c
    have hne := (hunwired c).2
    show e.readable c = some true
    rw [hcap] at hsome
    obtain ⟨b, hb⟩ := Option.isSome_iff_exists.mp hsome
    cases b with
    | false => exact absurd hb hne
    | true => exact hb
  · intro h
    rcases h with h | h <;> cases h
  · intro c rd h
    cases h

/-- A task of the child makes no difference to the others but through the bytes in the pipes. -/
theorem act (h : Wired r e) {child : Child} {outlets : PerChannel Outlet} {signals : List Signal}
    (turn : e.child.Turn child)
    (pipes : ∀ c, (outlets.get c).pipe?.map (·.readable) = e.readable c) :
    Wired r { e with child := child, outlets := outlets, signals := signals } := by
  have hreadable :
      { e with child := child, outlets := outlets, signals := signals }.readable = e.readable :=
    funext pipes
  constructor
  · exact h.accepted
  · rw [hreadable]
    exact h.captured
  · exact h.lines
  · rw [hreadable]
    exact h.unwired
  · exact h.reads
  · exact h.channel
  · rw [hreadable]
    exact h.abandons
  · intro hphase
    obtain ⟨ending, hs⟩ := Option.isSome_iff_exists.mp (h.reaped hphase)
    show child.status.isSome = true
    rw [turn.status hs]
    rfl
  · exact h.joined

theorem wired_of_reader (h : Wired r e) {c : Channel} {rd : Reader}
    (hrd : e.readers.get c = some rd) : e.phase.wired = true := by
  cases hw : e.phase.wired with
  | true => rfl
  | false =>
    have hnone := (h.unwired hw c).1
    rw [hrd] at hnone
    cases hnone

theorem read (h : Wired r e) {c : Channel} {rd : Reader} {p : Pipe} {s : ReaderStep}
    (reader : e.readers.get c = some rd) (pipe : e.outlets.get c = .pipe p)
    (going : rd.finished = false) (turn : rd.Turn p s) : Wired r (e.afterReader c s) := by
  have hwired := h.wired_of_reader reader
  have hp : p.readable = true := by
    have := h.abandons c rd reader
    rw [readable, pipe, going] at this
    exact Option.some.inj this
  have hsame : (e.afterReader c s).readable c = some (!s.reader.finished) := by
    rw [readable, afterReader, PerChannel.get_set_same, ← turn.readable going hp]
    rfl
  have hother {d : Channel} (hd : d ≠ c) : (e.afterReader c s).readable d = e.readable d := by
    rw [readable, afterReader, PerChannel.get_set_other _ hd]
    rfl
  constructor
  · exact h.accepted
  · intro d
    by_cases hd : d = c
    · subst hd
      rw [hsame, ← h.captured d, h.abandons d rd reader]
      rfl
    · rw [hother hd]
      exact h.captured d
  · exact h.lines
  · intro hunwired
    have hunwired : e.phase.wired = false := hunwired
    rw [hwired] at hunwired
    cases hunwired
  · intro _ d
    by_cases hd : d = c
    · subst hd
      rw [readers_afterReader, ← h.reads hwired d, reader]
      rfl
    · rw [readers_afterReader_other e hd]
      exact h.reads hwired d
  · intro d rd' hrd'
    by_cases hd : d = c
    · subst hd
      rw [readers_afterReader] at hrd'
      injection hrd' with hrd'
      rw [← hrd', turn.channel]
      exact h.channel d rd reader
    · rw [readers_afterReader_other e hd] at hrd'
      exact h.channel d rd' hrd'
  · intro d rd' hrd'
    by_cases hd : d = c
    · subst hd
      rw [readers_afterReader] at hrd'
      injection hrd' with hrd'
      rw [← hrd', hsame]
    · rw [readers_afterReader_other e hd] at hrd'
      rw [hother hd]
      exact h.abandons d rd' hrd'
  · exact h.reaped
  · intro d rd' hjoined hrd'
    by_cases hd : d = c
    · -- A joined reader has stopped, and one that has stopped makes no step.
      subst hd
      have hfinished := h.joined d rd hjoined reader
      rw [going] at hfinished
      cases hfinished
    · rw [readers_afterReader_other e hd] at hrd'
      exact h.joined d rd' hjoined hrd'

theorem kill (h : Wired r e) (at_ : e.phase = .waiting) :
    Wired r { e with child := e.child.kill, killed := true, phase := .reaping } := by
  refine h.advance rfl rfl rfl (fun cause h => by cases h) (by rw [at_]; rfl) ?_ ?_
  · intro _
    show e.child.kill.status.isSome = true
    rw [Child.status_kill]
    cases e.child.status <;> rfl
  · intro c rd hjoined
    cases hjoined

/-- The supervisor joins the reader of a channel when it has stopped, or passes by where there is
none. -/
theorem afterJoining_joined (h : Wired r e) {c : Channel} (at_ : e.phase = .joining c)
    (stopped : ∀ rd, e.readers.get c = some rd → rd.finished = true) (d : Channel) (rd : Reader)
    (hjoined : (afterJoining c).joined d = true) (hrd : e.readers.get d = some rd) :
    rd.finished = true := by
  by_cases hd : d = c
  · subst hd
    exact stopped rd hrd
  · refine h.joined d rd ?_ hrd
    rw [at_]
    cases c with
    | stdout =>
      cases d with
      | stdout => exact absurd rfl hd
      | stderr => cases hjoined
    | stderr =>
      cases d with
      | stdout => rfl
      | stderr => exact absurd rfl hd

theorem joining (h : Wired r e) {c : Channel} (at_ : e.phase = .joining c)
    (stopped : ∀ rd, e.readers.get c = some rd → rd.finished = true)
    (failures : List SecondaryFailure) (reports : PerChannel (Option Report)) :
    Wired r { e with failures := failures, reports := reports, phase := afterJoining c } := by
  refine h.advance rfl rfl rfl ?_ ?_ ?_ (h.afterJoining_joined at_ stopped)
  · intro cause hcause
    cases c <;> cases hcause
  · rw [at_]
    cases c <;> rfl
  · intro _
    exact h.reaped (.inl (by rw [at_]; rfl))

/-- Every change keeps the parties connected. -/
theorem change (h : Wired r e) (hc : Change e m e') : Wired r e' := by
  cases hc with
  | registered id at_ => exact h.early rfl rfl rfl nofun (by rw [at_]; rfl) rfl nofun
  | wired readers at_ wires => exact h.wire at_ wires
  | refused cause at_ wires =>
    rw [h.newReaders_eq] at wires
    cases wires
  | startCalled next l at_ listener =>
    exact h.early rfl rfl rfl nofun (by rw [at_]; rfl) rfl nofun
  | startsDone next at_ none_left =>
    exact h.early rfl rfl rfl nofun (by rw [at_]; rfl) rfl nofun
  | reaped ending at_ status =>
    refine h.advance rfl rfl rfl (fun _ hp => by cases hp) ?_ ?_ ?_
    · rcases at_ with at_ | at_ <;> rw [at_] <;> rfl
    · intro _
      show e.child.status.isSome = true
      rw [status]
      rfl
    · intro c rd hp
      cases c <;> cases hp
  | skipped c at_ unread =>
    exact h.joining at_ (fun rd hrd => by rw [unread] at hrd; cases hrd) e.failures e.reports
  | joined c rd at_ reader finished =>
    refine h.joining at_ ?_ _ _
    intro rd' hrd'
    rw [reader] at hrd'
    injection hrd' with hrd'
    rwa [← hrd']
  | released at_ =>
    exact h.late rfl rfl rfl rfl nofun (by rw [at_]; rfl) fun c => by rw [at_]; rfl
  | exitCalled next l at_ listener =>
    exact h.late rfl rfl rfl rfl nofun (by rw [at_]; rfl) fun c => by rw [at_]; rfl
  | exitsDone next at_ none_left =>
    exact h.late rfl rfl rfl rfl nofun (by rw [at_]; rfl) fun c => by rw [at_]; rfl
  | killed at_ destroyed => exact h.kill at_
  | waitFailed message at_ ended =>
    refine h.advance rfl rfl rfl (fun _ hp => by cases hp) ?_ (fun _ => ended) ?_
    · rcases at_ with at_ | at_ <;> rw [at_] <;> rfl
    · intro c rd hp
      cases c <;> cases hp
  | acted which child outlets signals turn pipes => exact h.act turn pipes
  | read m c rd p s reader pipe going turn => exact h.read reader pipe going turn
  | destroyed => exact h.advance rfl rfl rfl h.accepted rfl h.reaped h.joined

end Wired

/-- The parties of a run are connected at any moment. -/
theorem Reaches.wired {capacity : Capacity} {handle : Handle} {pid : Nat} {program : String}
    {child : Child} (h : (r.execution capacity handle pid program child).Reaches e) : Wired r e :=
  h.invariant (wired_execution r capacity handle pid program child) fun _ => Wired.change

end Execution

end ToolRunner
