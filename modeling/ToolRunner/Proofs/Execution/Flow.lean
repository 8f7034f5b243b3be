import ToolRunner.Proofs.Execution.Reading
import ToolRunner.Proofs.Execution.Writing

/-!
# From the child to the listeners

A move of a run writes to a pipe, reads from one, or does neither (`Flow`). So what was written on a
captured channel is what came out of its pipe and what is still in it, and as long as the handle is
not destroyed the reader has done with the former what a reader of a scripted stream does (`Kept`).
Unless a read fails no pipe is broken while somebody writes to it, and what a task has written and
what it has still to write are what it had to write when the run began (`Owed`).
-/

namespace ToolRunner

namespace Execution

/-- The chunks that came out of the pipe of a channel, in order. -/
def chunks (e : Execution) (channel : Channel) : List Bytes :=
  e.history.reverse.filterMap (Incident.chunk? channel)

/-- A move in which nobody writes or reads. -/
structure Aside (e e' : Execution) : Prop where
  outlets : e'.outlets = e.outlets
  chunks : ∀ c, e'.chunks c = e.chunks c
  readers : e'.readers = e.readers ∨ e.phase = .wiring ∧ e.newReaders = .ok e'.readers
  child : e'.child = e.child ∨
    e'.child = e.child.kill ∧ (e'.destroyed = true ∨ ∃ cause, e'.phase = .refused cause)
  destroyed : e'.destroyed = false → e.destroyed = false

/-- What a move has to do with what the child writes. -/
inductive Flow (e : Execution) : Move → Execution → Prop where
  | wrote {which : Option Nat} {before after : Task} {e' : Execution}
      (goes : Goes e which before after e') : Flow e (.child which) e'
  | read {m : Move} (c : Channel) (r : Reader) (p : Pipe) (s : ReaderStep) (puts : e.puts m = [])
      (reader : e.readers.get c = some r) (pipe : e.outlets.get c = .pipe p)
      (going : r.finished = false) (stride : r.Stride e.destroyed (e.closed c) p s) :
      Flow e m (e.afterReader c s)
  | aside {m : Move} {e' : Execution} (puts : e.puts m = []) (aside : Aside e e') : Flow e m e'

variable {r : Runner} {e e' : Execution} {m : Move} {t t' : Tracker} {log : List Put}

/-! ## The moves -/

/-- Only the phase, and what the readers and the child have no part in, is changed. -/
theorem aside_of_same (outlets : e'.outlets = e.outlets) (chunks : ∀ c, e'.chunks c = e.chunks c)
    (readers : e'.readers = e.readers) (child : e'.child = e.child)
    (destroyed : e'.destroyed = false → e.destroyed = false) : Aside e e' :=
  ⟨outlets, chunks, .inl readers, .inl child, destroyed⟩

theorem chunks_callStart (e : Execution) (index : Nat) (l : Registration Started) (c : Channel) :
    (e.callStart index l).chunks c = e.chunks c := by
  simp [chunks, callStart, Incident.chunk?]

theorem chunks_callExit (e : Execution) (index : Nat) (l : Registration Int) (c : Channel) :
    (e.callExit index l).chunks c = e.chunks c := by
  simp [chunks, callExit, Incident.chunk?]

theorem register_aside (e : Execution) (t : Tracker) : Aside e (e.register t).2 := by
  unfold register
  split <;> exact aside_of_same rfl (fun _ => rfl) rfl rfl id

theorem wire_aside (t : Tracker) (h : e.phase = .wiring) : Aside e (e.wire t).2 := by
  unfold wire
  split
  · exact ⟨rfl, fun _ => rfl, .inr ⟨h, ‹_›⟩, .inl rfl, id⟩
  · exact ⟨rfl, fun _ => rfl, .inl rfl, .inr ⟨rfl, .inr ⟨_, rfl⟩⟩, id⟩

theorem reap_aside (h : e.reap = some e') : Aside e e' := by
  rw [reap, Option.map_eq_some_iff] at h
  obtain ⟨ending, -, rfl⟩ := h
  exact aside_of_same rfl (fun _ => rfl) rfl rfl id

theorem join_aside {c : Channel} (h : e.join c = some e') : Aside e e' := by
  unfold join at h
  split at h
  · injection h with h
    subst h
    exact aside_of_same rfl (fun _ => rfl) rfl rfl id
  · split at h
    · injection h with h
      subst h
      exact aside_of_same rfl (fun _ => rfl) rfl rfl id
    · contradiction

/-- The supervisor neither writes nor reads. -/
theorem supervise_aside (h : e.supervise t = some (t', e')) : Aside e e' := by
  have hor {a b : Bool} (h : (a || b) = false) : a = false := (Bool.or_eq_false_iff.mp h).1
  unfold supervise at h
  split at h
  · injection h with h
    rw [show e' = (e.register t).2 by rw [h]]
    exact register_aside e t
  · rename_i hphase
    injection h with h
    rw [show e' = (e.wire t).2 by rw [h]]
    exact wire_aside t hphase
  · split at h
    · obtain rfl := after_eq h
      exact aside_of_same rfl (chunks_callStart e _ _) rfl rfl hor
    · obtain rfl := after_eq h
      exact aside_of_same rfl (fun _ => rfl) rfl rfl id
  · exact reap_aside (after_eq_of_map h)
  · exact reap_aside (after_eq_of_map h)
  · exact join_aside (after_eq_of_map h)
  · obtain rfl := after_eq h
    exact aside_of_same rfl (fun _ => rfl) rfl rfl id
  · split at h
    · obtain rfl := after_eq h
      exact aside_of_same rfl (chunks_callExit e _ _) rfl rfl hor
    · obtain rfl := after_eq h
      exact aside_of_same rfl (fun _ => rfl) rfl rfl id
  · contradiction
  · contradiction

theorem seeCancellation_aside (h : e.seeCancellation = some e') : Aside e e' := by
  unfold seeCancellation at h
  split at h
  · rename_i hcond
    rw [Bool.and_eq_true] at hcond
    injection h with h
    subst h
    exact ⟨rfl, fun _ => rfl, .inl rfl, .inr ⟨rfl, .inl hcond.2⟩, id⟩
  · contradiction

theorem failWaiting_aside {message : String} (h : e.failWaiting message = some e') :
    Aside e e' := by
  unfold failWaiting at h
  split at h
  · injection h with h
    subst h
    exact aside_of_same rfl (fun _ => rfl) rfl rfl id
  · contradiction

theorem read_flow {c : Channel} {next : Reader → Pipe → Option ReaderStep} (puts : e.puts m = [])
    (hnext : ∀ r p s, next r p = some s →
      r.finished = false ∧ r.Stride e.destroyed (e.closed c) p s)
    (h : e.read c next = some e') : Flow e m e' := by
  unfold read at h
  split at h
  · rename_i r p hr hp
    rw [Option.map_eq_some_iff] at h
    obtain ⟨s, hs, rfl⟩ := h
    obtain ⟨hgoing, hstride⟩ := hnext r p s hs
    exact .read c r p s puts hr hp hgoing hstride
  · contradiction

theorem step_flow (h : e.step m t = some (t', e')) : Flow e m e' := by
  cases m with
  | supervisor => exact .aside rfl (supervise_aside h)
  | cancellation => exact .aside rfl (seeCancellation_aside (after_eq_of_map h))
  | child which =>
    obtain ⟨before, after, hgoes⟩ := act_goes (after_eq_of_map h)
    exact .wrote hgoes
  | reader c =>
    refine read_flow rfl (fun r p s hs => ?_) (after_eq_of_map h)
    exact ⟨(Reader.step_turn hs).1, Reader.step_stride hs⟩
  | destroy =>
    obtain rfl := after_eq h
    exact .aside rfl (aside_of_same rfl (fun _ => rfl) rfl rfl nofun)
  | readFailure c message =>
    refine read_flow rfl (fun r p s hs => ?_) (after_eq_of_map h)
    exact ⟨(Reader.fail_turn hs).1, Reader.fail_stride hs⟩
  | waitFailure message => exact .aside rfl (failWaiting_aside (after_eq_of_map h))

/-! ## Nothing is lost on the way -/

/-- What was written on a captured channel has come out of its pipe or is in it, and the reader of
the channel has come as far with the chunks as they go. -/
structure Kept (r : Runner) (log : List Put) (e : Execution) : Prop where
  held : ∀ c, r.captures c = true → written c log = (e.chunks c).flatten ++ e.held c
  fits : ∀ c, ∀ chunk ∈ e.chunks c, chunk ≠ [] ∧ chunk.length ≤ Line.readSize
  unread : ∀ c, e.readers.get c = none → e.chunks c = []
  progress : e.destroyed = false → ∀ c rd, e.readers.get c = some rd →
    rd.Progress c (r.listeners.onLine c) (e.chunks c) (e.closed c = true ∧ e.held c = [])

theorem Aside.held_eq (h : Aside e e') (c : Channel) : e'.held c = e.held c := by
  rw [held, h.outlets]
  rfl

theorem Aside.closed (h : Aside e e') {c : Channel} (closed : e.closed c = true) :
    e'.closed c = true := by
  rw [Execution.closed, Bool.not_eq_true'] at closed ⊢
  rcases h.child with hchild | ⟨hchild, -⟩
  · rw [hchild]
    exact closed
  · rw [hchild]
    refine Bool.eq_false_iff.mpr fun hkeeps => ?_
    rw [Child.keeps_of_kill hkeeps] at closed
    contradiction

/-- Nothing more comes out of a channel that nobody keeps open and in which nothing is left. -/
theorem Goes.dry {which : Option Nat} {before after : Task} (h : Goes e which before after e')
    {c : Channel} (captured : (e.readable c).isSome = true)
    (hdry : e.closed c = true ∧ e.held c = []) : e'.closed c = true ∧ e'.held c = [] := by
  obtain ⟨hclosed, hempty⟩ := hdry
  rw [h.held c captured, hempty, h.written_eq_nil hclosed]
  rw [Execution.closed, Bool.not_eq_true'] at hclosed ⊢
  refine ⟨Bool.eq_false_iff.mpr fun hkeeps => ?_, rfl⟩
  rw [h.child_keeps hkeeps] at hclosed
  contradiction

theorem chunks_afterReader (e : Execution) (c d : Channel) (s : ReaderStep) :
    (e.afterReader c s).chunks d = e.chunks d ++ s.chunks d := by
  simp [chunks, afterReader, ReaderStep.chunks]

theorem held_afterReader (e : Execution) (c : Channel) (s : ReaderStep) :
    (e.afterReader c s).held c = s.pipe.content := by
  rw [held, afterReader, PerChannel.get_set_same]

theorem held_afterReader_other (e : Execution) {c d : Channel} (hd : d ≠ c) (s : ReaderStep) :
    (e.afterReader c s).held d = e.held d := by
  rw [held, afterReader, PerChannel.get_set_other _ hd]
  rfl

theorem captures_of_reader (hw : Wired r e) {c : Channel} {rd : Reader}
    (reader : e.readers.get c = some rd) : r.captures c = true := by
  rw [← hw.reads (hw.wired_of_reader reader) c, reader]
  rfl

namespace Kept

theorem aside (h : Kept r log e) (hw : Wired r e) (ha : Aside e e') : Kept r log e' := by
  -- A reader begins with nothing when it is wired.
  have hreaders (c : Channel) : e'.readers.get c = e.readers.get c ∨
      e.readers.get c = none ∧ ∀ rd, e'.readers.get c = some rd → rd = r.reader c := by
    rcases ha.readers with hreaders | ⟨hphase, hwires⟩
    · exact .inl (by rw [hreaders])
    · have hnone := (hw.unwired (by rw [hphase]; rfl) c).1
      exact .inr ⟨hnone, fun rd hrd => (hw.reader_of_wires hwires hrd).2⟩
  constructor
  · intro c hc
    rw [ha.chunks, ha.held_eq]
    exact h.held c hc
  · intro c
    rw [ha.chunks]
    exact h.fits c
  · intro c hnone
    rw [ha.chunks]
    rcases hreaders c with hsame | ⟨hnone, -⟩
    · exact h.unread c (hsame ▸ hnone)
    · exact h.unread c hnone
  · intro hkept c rd hrd
    rw [ha.chunks, ha.held_eq]
    rcases hreaders c with hsame | ⟨hnone, hnew⟩
    · rw [hsame] at hrd
      exact (h.progress (ha.destroyed hkept) c rd hrd).mono fun hover =>
        ⟨ha.closed hover.1, hover.2⟩
    · rw [hnew rd hrd, h.unread c hnone]
      exact Reader.progress_start c _ _

theorem wrote (h : Kept r log e) (hw : Wired r e) {which : Option Nat} {before after : Task}
    (hg : Goes e which before after e') : Kept r (log ++ e.puts (.child which)) e' := by
  have hreaders : e'.readers = e.readers := by rw [hg.same]
  have hchunks (c : Channel) : e'.chunks c = e.chunks c := by rw [hg.same]; rfl
  have hheld {c : Channel} (hc : r.captures c = true) :
      e'.held c = e.held c ++ written c (e.puts (.child which)) :=
    hg.held c (by rw [hw.captured, hc])
  constructor
  · intro c hc
    rw [written_append, h.held c hc, hchunks, hheld hc, List.append_assoc]
  · intro c
    rw [hchunks]
    exact h.fits c
  · intro c
    rw [hchunks, hreaders]
    exact h.unread c
  · intro hkept c rd hrd
    have hdestroyed : e.destroyed = false := by rwa [hg.same] at hkept
    rw [hreaders] at hrd
    rw [hchunks]
    refine (h.progress hdestroyed c rd hrd).mono (hg.dry ?_)
    rw [hw.captured, captures_of_reader hw hrd]

theorem read (h : Kept r log e) (hw : Wired r e) {c : Channel} {rd : Reader} {p : Pipe}
    {s : ReaderStep} (reader : e.readers.get c = some rd) (pipe : e.outlets.get c = .pipe p)
    (going : rd.finished = false) (stride : rd.Stride e.destroyed (e.closed c) p s) :
    Kept r log (e.afterReader c s) := by
  have hchannel := hw.channel c rd reader
  have hcontent : e.held c = p.content := by rw [Execution.held, pipe]
  have hother {d : Channel} (hd : d ≠ c) : (e.afterReader c s).chunks d = e.chunks d := by
    rw [chunks_afterReader, stride.chunks_other (by rwa [hchannel]), List.append_nil]
  constructor
  · intro d hd
    rw [h.held d hd]
    by_cases hdc : d = c
    · subst hdc
      have hflatten := stride.flatten_chunks
      rw [hchannel] at hflatten
      rw [chunks_afterReader, held_afterReader, List.flatten_append, List.append_assoc, hflatten,
        hcontent]
    · rw [hother hdc, held_afterReader_other e hdc]
  · intro d chunk hchunk
    rw [chunks_afterReader, List.mem_append] at hchunk
    rcases hchunk with hchunk | hchunk
    · exact h.fits d chunk hchunk
    · exact stride.chunk_fits chunk hchunk
  · intro d hnone
    by_cases hdc : d = c
    · rw [hdc, readers_afterReader] at hnone
      contradiction
    · rw [readers_afterReader_other e hdc] at hnone
      rw [hother hdc]
      exact h.unread d hnone
  · intro hkept d rd' hrd'
    obtain ⟨hdestroyed, hfree⟩ := Bool.or_eq_false_iff.mp
      (show (e.destroyed || s.reader.drain.cancelled) = false from hkept)
    by_cases hdc : d = c
    · subst hdc
      rw [readers_afterReader] at hrd'
      injection hrd' with hrd'
      subst hrd'
      have hprogress := h.progress hdestroyed d rd reader
      rw [hcontent] at hprogress
      rw [hdestroyed] at stride
      rw [chunks_afterReader, held_afterReader]
      exact hprogress.stride hchannel going stride hfree
    · rw [readers_afterReader_other e hdc] at hrd'
      rw [hother hdc, held_afterReader_other e hdc]
      exact h.progress hdestroyed d rd' hrd'

theorem flow (h : Kept r log e) (hw : Wired r e) (hf : Flow e m e') :
    Kept r (log ++ e.puts m) e' := by
  cases hf with
  | wrote goes => exact h.wrote hw goes
  | read c rd p s puts reader pipe going stride =>
    rw [puts, List.append_nil]
    exact h.read hw reader pipe going stride
  | aside puts aside =>
    rw [puts, List.append_nil]
    exact h.aside hw aside

end Kept

theorem Writes.kept {capacity : Capacity} {handle : Handle} {pid : Nat} {program : String}
    {child : Child} (h : (r.execution capacity handle pid program child).Writes log e) :
    Kept r log e := by
  induction h with
  | refl =>
    have hnone := readers_execution r capacity handle pid program child
    refine ⟨fun c _ => ?_, fun c chunk hchunk => ?_, fun _ _ => rfl, fun _ c rd hrd => ?_⟩
    · have hempty : (r.execution capacity handle pid program child).held c = [] := by
        rw [held, Runner.execution, PerChannel.get_ofFn]
        unfold Runner.outlet
        cases r.routing with
        | inherited => rfl
        | captured => cases r.listeners.onLine c <;> rfl
      rw [hempty]
      rfl
    · cases hchunk
    · rw [hnone] at hrd
      contradiction
  | move reached step ih => exact ih.flow reached.reaches.wired (step_flow step)

/-! ## What the tasks have still to write -/

/-- What a task has written and what it has still to write are all that it had to write, unless the
child was killed or a reader failed. -/
def Owed (child : Child) (log : List Put) (e : Execution) : Prop :=
  e.destroyed = false →
    (∀ c rd message, e.readers.get c = some rd → rd.drain.stop ≠ some (.failed message)) →
      ∀ task t₀, child.task? task = some t₀ → ∃ t, e.child.task? task = some t ∧
        ∀ c, t₀.output c = written c (putsOf task log) ++ t.output c

theorem putsOf_puts (e : Execution) (task which : Option Nat) :
    putsOf task (e.puts (.child which)) = if task = which then e.puts (.child which) else [] := by
  have htask : ∀ p ∈ e.puts (.child which), p.task = which := by
    intro p hp
    rw [puts] at hp
    split at hp
    · cases hp
    · split at hp
      · split at hp
        · rw [List.mem_singleton.mp hp]
        · cases hp
      · cases hp
  by_cases h : task = which
  · rw [if_pos h, putsOf, List.filter_eq_self]
    intro p hp
    rw [htask p hp, h, beq_self_eq_true]
  · rw [if_neg h, putsOf, List.filter_eq_nil_iff]
    intro p hp
    rw [htask p hp, beq_iff_eq]
    exact Ne.symm h

namespace Owed

variable {child : Child}

theorem aside (h : Owed child log e) (hw : Wired r e) (hw' : Wired r e') (ha : Aside e e') :
    Owed child log e' := by
  intro hkept hnone task t₀ ht₀
  have hchild : e'.child = e.child := by
    rcases ha.child with hsame | ⟨-, hdestroyed | ⟨cause, hrefused⟩⟩
    · exact hsame
    · rw [hkept] at hdestroyed
      contradiction
    · exact absurd hrefused (hw'.accepted cause)
  rw [hchild]
  refine h (ha.destroyed hkept) (fun c rd message hrd => ?_) task t₀ ht₀
  rcases ha.readers with hreaders | ⟨hphase, -⟩
  · exact hnone c rd message (by rw [hreaders]; exact hrd)
  · rw [(hw.unwired (by rw [hphase]; rfl) c).1] at hrd
    contradiction

/-- A pipe is broken only when its reader has stopped, and that has read to the end unless it
failed, when nobody writes any more. -/
theorem not_broken (hw : Wired r e) (hk : Kept r log e) (hkept : e.destroyed = false)
    (hnone : ∀ c rd message, e.readers.get c = some rd → rd.drain.stop ≠ some (.failed message))
    {c : Channel} (open_ : e.child.keeps c = true) : e.readable c ≠ some false := by
  intro hbroken
  have hwired : e.phase.wired = true := by
    cases hphase : e.phase.wired with
    | true => rfl
    | false => exact absurd hbroken (hw.unwired hphase c).2
  have hsome := hw.captured c
  rw [← hw.reads hwired c, hbroken] at hsome
  obtain ⟨rd, hrd⟩ := Option.isSome_iff_exists.mp hsome.symm
  have hfinished := hw.abandons c rd hrd
  rw [hbroken] at hfinished
  have hstop : rd.finished = true := by
    injection hfinished with hfinished
    simpa using hfinished.symm
  rw [Reader.finished] at hstop
  cases hk.progress hkept c rd hrd with
  | reading going =>
    rw [going] at hstop
    contradiction
  | last going =>
    rw [going] at hstop
    contradiction
  | ended dry =>
    have hclosed := dry.1
    rw [Execution.closed, open_] at hclosed
    contradiction
  | failed message stop => exact hnone c rd message hrd stop

theorem wrote (h : Owed child log e) (hw : Wired r e) (hk : Kept r log e) {which : Option Nat}
    {before after : Task} (hg : Goes e which before after e') :
    Owed child (log ++ e.puts (.child which)) e' := by
  intro hkept hnone task t₀ ht₀
  rw [hg.same] at hkept hnone
  obtain ⟨t, ht, hout⟩ := h hkept hnone task t₀ ht₀
  rw [hg.tasks, putsOf_append, putsOf_puts]
  by_cases htask : task = which
  · subst htask
    have hbefore : t = before := Option.some.inj (ht.symm.trans hg.found)
    subst hbefore
    rw [if_pos rfl, if_pos rfl]
    refine ⟨after, rfl, fun c => ?_⟩
    rcases hg.output with hall | ⟨d, hkeeps, hbroken⟩
    · rw [hout, hall, written_append, List.append_assoc]
    · have hopen : e.child.keeps d = true := Child.keeps_iff.mpr ⟨task, t, hg.found, hkeeps⟩
      exact absurd hbroken (not_broken hw hk hkept hnone hopen)
  · rw [if_neg htask, if_neg htask, List.append_nil]
    exact ⟨t, ht, hout⟩

theorem read (h : Owed child log e) {c : Channel} {rd : Reader} {s : ReaderStep}
    (reader : e.readers.get c = some rd) (going : rd.finished = false) :
    Owed child log (e.afterReader c s) := by
  intro hkept hnone
  refine h (Bool.or_eq_false_iff.mp hkept).1 fun d rd' message hrd' => ?_
  by_cases hd : d = c
  · subst hd
    rw [reader] at hrd'
    injection hrd' with hrd'
    intro hstop
    rw [Reader.finished, hrd', hstop] at going
    contradiction
  · exact hnone d rd' message (by rw [readers_afterReader_other e hd]; exact hrd')

theorem flow (h : Owed child log e) (hw : Wired r e) (hw' : Wired r e') (hk : Kept r log e)
    (hf : Flow e m e') : Owed child (log ++ e.puts m) e' := by
  cases hf with
  | wrote goes => exact h.wrote hw hk goes
  | read c rd p s puts reader pipe going stride =>
    rw [puts, List.append_nil]
    exact h.read reader going
  | aside puts aside =>
    rw [puts, List.append_nil]
    exact h.aside hw hw' aside

end Owed

theorem Writes.owed {capacity : Capacity} {handle : Handle} {pid : Nat} {program : String}
    {child : Child} (h : (r.execution capacity handle pid program child).Writes log e) :
    Owed child log e := by
  induction h with
  | refl =>
    intro _ _ task t₀ ht₀
    exact ⟨t₀, ht₀, fun c => rfl⟩
  | move reached step ih =>
    have hreaches := reached.reaches
    exact ih.flow hreaches.wired (hreaches.move step).wired reached.kept (step_flow step)

end Execution

end ToolRunner
