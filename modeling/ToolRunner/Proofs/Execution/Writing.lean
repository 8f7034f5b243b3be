import ToolRunner.Proofs.Execution.Calls

/-!
# What a child writes

A task of a child has something to write on each channel that it keeps open, and what it writes goes
to the outlet of the channel, as much at a time as the outlet takes. What one move of a task does is
said once (`Goes`): what it has written before it goes on and what it has still to write are what it
had to write, unless it writes to a pipe that nobody reads from. `Writes` are the runs of an
execution with all that was written in them, in the order in which it was written.
-/

namespace ToolRunner

/-- What acts write on a channel until they close it or do not go on. -/
def Act.output (channel : Channel) : List Act → Bytes
  | [] => []
  | .write c bytes :: acts => (if c = channel then bytes else []) ++ output channel acts
  | .close c :: acts => if c = channel then [] else output channel acts
  | .pause _ :: acts => output channel acts
  | .hang :: _ => []
  | .signal _ :: acts => output channel acts

/-- What a task has still to write on a channel. -/
def Task.output (t : Task) (channel : Channel) : Bytes :=
  if t.keeps channel then Act.output channel t.acts else []

theorem Task.output_of_not_keeps {t : Task} {channel : Channel} (h : t.keeps channel = false) :
    t.output channel = [] := by
  rw [output, h]
  rfl

theorem Task.output_congr {t t' : Task} {channel : Channel}
    (keeps : t'.keeps channel = t.keeps channel)
    (acts : t.keeps channel = true → Act.output channel t.acts = Act.output channel t'.acts) :
    t.output channel = t'.output channel := by
  unfold output
  rw [keeps]
  by_cases h : t.keeps channel = true
  · rw [if_pos h, if_pos h, acts h]
  · rw [if_neg h, if_neg h]

namespace Child

variable {c : Child} {which : Option Nat} {before : Task}

theorem task?_setTask (found : c.task? which = some before) (after : Task) (other : Option Nat) :
    (c.setTask which after).task? other = if other = which then some after else c.task? other := by
  by_cases ho : other = which
  · subst ho
    rw [if_pos rfl]
    cases other with
    | none => rfl
    | some i =>
      have hlt : i < c.background.length := (List.getElem?_eq_some_iff.mp found).1
      exact List.getElem?_set_self hlt
  · rw [if_neg ho]
    cases which with
    | none =>
      cases other with
      | none => exact absurd rfl ho
      | some j => rfl
    | some i =>
      cases other with
      | none => rfl
      | some j =>
        have hne : i ≠ j := fun hij => ho (by rw [hij])
        exact List.getElem?_set_ne hne

theorem task?_endTask (found : c.task? which = some before) (ending : Ending)
    (other : Option Nat) :
    (c.endTask which ending).task? other =
      if other = which then some { before with ended := true } else c.task? other := by
  by_cases ho : other = which
  · subst ho
    rw [if_pos rfl]
    cases other with
    | none =>
      have hmain : c.main = before := Option.some.inj found
      rw [← hmain]
      rfl
    | some i =>
      show (c.background.modify i _)[i]? = _
      rw [List.getElem?_modify_eq]
      show Option.map _ (c.task? (some i)) = _
      rw [found]
      rfl
  · rw [if_neg ho]
    cases which with
    | none =>
      cases other with
      | none => exact absurd rfl ho
      | some j => rfl
    | some i =>
      cases other with
      | none => rfl
      | some j =>
        have hne : i ≠ j := fun hij => ho (by rw [hij])
        exact List.getElem?_modify_ne _ _ hne

/-- An output is kept open by some task. -/
theorem keeps_iff {channel : Channel} :
    c.keeps channel = true ↔ ∃ which t, c.task? which = some t ∧ t.keeps channel = true := by
  rw [keeps, Bool.or_eq_true, List.any_eq_true]
  constructor
  · rintro (hmain | ⟨t, ht, hkeeps⟩)
    · exact ⟨none, c.main, rfl, hmain⟩
    · obtain ⟨i, hi⟩ := List.getElem?_of_mem ht
      exact ⟨some i, t, hi, hkeeps⟩
  · rintro ⟨which, t, hfound, hkeeps⟩
    cases which with
    | none =>
      have hmain : c.main = t := Option.some.inj hfound
      exact .inl (hmain ▸ hkeeps)
    | some i => exact .inr ⟨t, List.mem_of_getElem? hfound, hkeeps⟩

theorem keeps_of_kill {channel : Channel} (h : c.kill.keeps channel = true) :
    c.keeps channel = true := by
  have hmain : c.kill.main.keeps channel = false := Bool.and_false _
  rw [keeps, hmain, Bool.false_or] at h
  rw [keeps, Bool.or_eq_true]
  exact .inr h

end Child

/-- What an outlet takes of some bytes at once. -/
def Outlet.accepts (o : Outlet) (bytes : Bytes) : Bytes :=
  match o with
  | .pipe p => if p.readable then bytes.take p.room else []
  | .passed _ | .discarded => bytes

theorem Outlet.accepts_nil (o : Outlet) : o.accepts [] = [] := by
  cases o with
  | pipe p =>
    rw [accepts, List.take_nil]
    exact ite_self _
  | passed bytes => rfl
  | discarded => rfl

/-- Bytes that a task has written on a channel. -/
structure Put where
  task : Option Nat
  channel : Channel
  bytes : Bytes
deriving DecidableEq, Repr

def written (channel : Channel) (puts : List Put) : Bytes :=
  puts.flatMap fun p => if p.channel = channel then p.bytes else []

theorem written_append (channel : Channel) (puts more : List Put) :
    written channel (puts ++ more) = written channel puts ++ written channel more :=
  List.flatMap_append

def putsOf (task : Option Nat) (puts : List Put) : List Put := puts.filter (·.task == task)

theorem putsOf_append (task : Option Nat) (puts more : List Put) :
    putsOf task (puts ++ more) = putsOf task puts ++ putsOf task more := List.filter_append ..

namespace Execution

/-- What is written by a move. -/
def puts (e : Execution) : Move → List Put
  | .child which =>
    match e.child.task? which with
    | none => []
    | some t =>
      match t.acts with
      | .write channel bytes :: _ =>
        if t.keeps channel then [⟨which, channel, (e.outlets.get channel).accepts bytes⟩] else []
      | _ => []
  | _ => []

/-- An execution becomes another, and these are the bytes that are written on the way. -/
inductive Writes (e : Execution) : List Put → Execution → Prop where
  | refl : Writes e [] e
  | move {before after : Execution} {log : List Put} {m : Move} {t t' : Tracker}
      (reached : Writes e log before) (step : before.step m t = some (t', after)) :
      Writes e (log ++ before.puts m) after

theorem Writes.reaches {e e' : Execution} {log : List Put} (h : e.Writes log e') :
    e.Reaches e' := by
  induction h with
  | refl => exact .refl
  | move reached step ih => exact .move ih step

theorem Reaches.writes {e e' : Execution} (h : e.Reaches e') : ∃ log, e.Writes log e' := by
  induction h with
  | refl => exact ⟨[], .refl⟩
  | move reached step ih =>
    obtain ⟨log, hlog⟩ := ih
    exact ⟨_, hlog.move step⟩

/-- What is in the pipe of a channel. -/
def held (e : Execution) (channel : Channel) : Bytes :=
  match e.outlets.get channel with
  | .pipe p => p.content
  | _ => []

variable {e e' : Execution} {which : Option Nat} {before after : Task}

/-! ## What a move of a task writes -/

theorem puts_eq_nil (found : e.child.task? which = some before)
    (h : ∀ channel bytes acts, before.acts = .write channel bytes :: acts →
      before.keeps channel = false) : e.puts (.child which) = [] := by
  rw [puts, found]
  dsimp only
  split
  · rename_i channel bytes acts hacts
    rw [h channel bytes acts hacts]
    rfl
  · rfl

theorem written_puts (found : e.child.task? which = some before) {channel : Channel}
    {bytes : Bytes} {acts : List Act} (hacts : before.acts = .write channel bytes :: acts)
    (keeps : before.keeps channel = true) (d : Channel) :
    written d (e.puts (.child which)) =
      if channel = d then (e.outlets.get channel).accepts bytes else [] := by
  rw [puts, found]
  simp only [hacts, if_pos keeps, written, List.flatMap_singleton]

/-- What a task does in one move. -/
structure Goes (e : Execution) (which : Option Nat) (before after : Task) (e' : Execution) :
    Prop where
  found : e.child.task? which = some before
  tasks : ∀ other, e'.child.task? other = if other = which then some after else e.child.task? other
  keeps : ∀ c, after.keeps c = true → before.keeps c = true
  /-- It writes on a channel that it keeps open. -/
  open_ : ∀ c, written c (e.puts (.child which)) ≠ [] → before.keeps c = true
  /-- What it writes is in the pipe, where there is one. -/
  held : ∀ c, (e.readable c).isSome = true →
    e'.held c = e.held c ++ written c (e.puts (.child which))
  /-- What it does not write now is what it has still to write, unless a pipe is broken. -/
  output : (∀ c, before.output c = written c (e.puts (.child which)) ++ after.output c) ∨
    ∃ c, before.keeps c = true ∧ e.readable c = some false
  same : e' = { e with child := e'.child, outlets := e'.outlets, signals := e'.signals }

/-- The task ends. -/
theorem goes_ended (found : e.child.task? which = some before) (ending : Ending)
    (puts : ∀ c, written c (e.puts (.child which)) = [])
    (output : (∀ c, before.output c = []) ∨
      ∃ c, before.keeps c = true ∧ e.readable c = some false) :
    Goes e which before { before with ended := true }
      { e with child := e.child.endTask which ending } := by
  have hafter (c : Channel) : ({ before with ended := true } : Task).keeps c = false :=
    Bool.and_false _
  constructor
  · exact found
  · exact Child.task?_endTask found ending
  · intro c hkeeps
    rw [hafter] at hkeeps
    contradiction
  · intro c hne
    rw [puts] at hne
    exact absurd rfl hne
  · intro c _
    rw [puts]
    exact (List.append_nil _).symm
  · refine output.imp_left fun hnone c => ?_
    rw [hnone, puts, Task.output_of_not_keeps (hafter c)]
    rfl
  · rfl

/-- The task goes on without writing. -/
theorem goes_silent (found : e.child.task? which = some before) (signals : List Signal)
    (puts : ∀ c, written c (e.puts (.child which)) = [])
    (keeps : ∀ c, after.keeps c = true → before.keeps c = true)
    (output : ∀ c, before.output c = after.output c) :
    Goes e which before after
      { e with child := e.child.setTask which after, signals := signals } := by
  constructor
  · exact found
  · exact Child.task?_setTask found after
  · exact keeps
  · intro c hne
    rw [puts] at hne
    exact absurd rfl hne
  · intro c _
    rw [puts]
    exact (List.append_nil _).symm
  · refine .inl fun c => ?_
    rw [output, puts]
    rfl
  · rfl

theorem output_writeRest (channel : Channel) (bytes : Bytes) (acts : List Act) (c : Channel) :
    Act.output c (writeRest channel bytes acts) =
      (if channel = c then bytes else []) ++ Act.output c acts := by
  unfold writeRest
  by_cases hb : bytes.isEmpty = true
  · rw [if_pos hb, List.isEmpty_iff.mp hb, ite_self]
    rfl
  · rw [if_neg hb]
    rfl

/-- The task writes as much as the outlet takes, and goes on with the rest. -/
theorem goes_wrote (found : e.child.task? which = some before) {channel : Channel} {bytes : Bytes}
    {acts : List Act} (hacts : before.acts = .write channel bytes :: acts)
    (keeps : before.keeps channel = true) (rest : List Act)
    (hrest : ∀ c, (if channel = c then bytes else []) ++ Act.output c acts =
      (if channel = c then (e.outlets.get channel).accepts bytes else []) ++ Act.output c rest)
    (outlets : PerChannel Outlet)
    (held : ∀ c, (e.readable c).isSome = true →
      { e with outlets := outlets }.held c =
        e.held c ++ if channel = c then (e.outlets.get channel).accepts bytes else []) :
    Goes e which before { before with acts := rest }
      { e with
        child := e.child.setTask which { before with acts := rest }
        outlets := outlets } := by
  have hputs := written_puts found hacts keeps
  constructor
  · exact found
  · exact Child.task?_setTask found _
  · exact fun c hc => hc
  · intro c hne
    rw [hputs] at hne
    by_cases hc : channel = c
    · exact hc ▸ keeps
    · rw [if_neg hc] at hne
      exact absurd rfl hne
  · intro c hcaptured
    rw [hputs]
    exact held c hcaptured
  · refine .inl fun c => ?_
    rw [hputs]
    have hkeeps : ({ before with acts := rest } : Task).keeps c = before.keeps c := rfl
    unfold Task.output
    rw [hkeeps, hacts]
    cases hc : before.keeps c with
    | true => exact hrest c
    | false =>
      have hne : channel ≠ c := by
        intro heq
        rw [← heq, keeps] at hc
        contradiction
      rw [if_neg hne]
      rfl
  · rfl

/-- An outlet that is no pipe takes everything. -/
theorem goes_free (found : e.child.task? which = some before) {channel : Channel} {bytes : Bytes}
    {acts : List Act} (hacts : before.acts = .write channel bytes :: acts)
    (keeps : before.keeps channel = true) (outlets : PerChannel Outlet)
    (accepts : (e.outlets.get channel).accepts bytes = bytes)
    (uncaptured : e.readable channel = none)
    (other : ∀ c ≠ channel, outlets.get c = e.outlets.get c) :
    Goes e which before { before with acts := acts }
      { e with
        child := e.child.setTask which { before with acts := acts }
        outlets := outlets } := by
  refine goes_wrote found hacts keeps acts (fun c => by rw [accepts]) outlets ?_
  intro c hcaptured
  have hc : channel ≠ c := by
    rintro rfl
    rw [uncaptured] at hcaptured
    contradiction
  rw [if_neg hc, List.append_nil, Execution.held, other c (Ne.symm hc)]
  rfl

/-- A pipe takes what it has room for. -/
theorem goes_piped (found : e.child.task? which = some before) {channel : Channel} {bytes : Bytes}
    {acts : List Act} (hacts : before.acts = .write channel bytes :: acts)
    (keeps : before.keeps channel = true) {p : Pipe} (pipe : e.outlets.get channel = .pipe p)
    (readable : p.readable = true) :
    Goes e which before { before with acts := writeRest channel (bytes.drop p.room) acts }
      { e with
        child := e.child.setTask which
          { before with acts := writeRest channel (bytes.drop p.room) acts }
        outlets := e.outlets.set channel (.pipe (p.write bytes)) } := by
  have haccepts : (e.outlets.get channel).accepts bytes = bytes.take p.room := by
    rw [pipe, Outlet.accepts, if_pos readable]
  refine goes_wrote found hacts keeps _ ?_ _ ?_
  · intro c
    rw [output_writeRest, haccepts]
    by_cases hc : channel = c
    · simp only [if_pos hc]
      rw [← List.append_assoc, List.take_append_drop]
    · simp only [if_neg hc]
      rfl
  · intro c _
    rw [haccepts]
    by_cases hc : channel = c
    · subst hc
      rw [if_pos rfl, Execution.held, PerChannel.get_set_same, Execution.held, pipe]
      rfl
    · rw [if_neg hc, List.append_nil, Execution.held, PerChannel.get_set_other _ (Ne.symm hc)]
      rfl

theorem write_goes {channel : Channel} {bytes : Bytes} {acts : List Act}
    (found : e.child.task? which = some before) (running : before.ended = false)
    (hacts : before.acts = .write channel bytes :: acts)
    (h : e.write which before channel bytes acts = some e') :
    ∃ after, Goes e which before after e' := by
  have hkeeps : before.keeps channel = before.holds.get channel := by
    rw [Task.keeps, running]
    exact Bool.and_true _
  unfold write at h
  split at h
  · rename_i hnothing
    injection h with h
    subst h
    have hnil (hc : before.keeps channel = true) : bytes = [] := by
      rw [← hkeeps, hc] at hnothing
      exact List.isEmpty_iff.mp hnothing
    refine ⟨_, goes_silent found e.signals ?_ (fun c hc => hc) ?_⟩
    · intro c
      by_cases hc : before.keeps channel = true
      · rw [written_puts found hacts hc, hnil hc, Outlet.accepts_nil, ite_self]
      · rw [puts_eq_nil found]
        · rfl
        · intro d bytes' acts' hacts'
          rw [hacts] at hacts'
          injection hacts' with hwrite
          injection hwrite with hd
          rw [← hd]
          exact Bool.eq_false_iff.mpr hc
    · intro c
      refine Task.output_congr rfl fun hc => ?_
      have hskip : (if channel = c then bytes else []) = [] := by
        by_cases heq : channel = c
        · rw [if_pos heq, hnil (heq ▸ hc)]
        · rw [if_neg heq]
      rw [hacts, Act.output, hskip]
      rfl
  · rename_i hsomething
    have hholds : before.keeps channel = true := by
      rw [hkeeps]
      simp at hsomething
      exact hsomething.1
    split at h
    · rename_i houtlet
      injection h with h
      subst h
      have hnone : e.readable channel = none := by
        rw [readable, houtlet]
        rfl
      exact ⟨_, goes_free found hacts hholds _ (by rw [houtlet]; rfl) hnone fun _ _ => rfl⟩
    · rename_i passed houtlet
      injection h with h
      subst h
      have hnone : e.readable channel = none := by
        rw [readable, houtlet]
        rfl
      exact ⟨_, goes_free found hacts hholds _ (by rw [houtlet]; rfl) hnone
        fun c hc => PerChannel.get_set_other _ hc _⟩
    · rename_i p houtlet
      split at h
      · rename_i hbroken
        injection h with h
        subst h
        rw [Bool.not_eq_true'] at hbroken
        refine ⟨_, goes_ended found .killed ?_ (.inr ⟨channel, hholds, ?_⟩)⟩
        · intro c
          have haccepts : (e.outlets.get channel).accepts bytes = [] := by
            rw [houtlet, Outlet.accepts, hbroken]
            rfl
          rw [written_puts found hacts hholds, haccepts, ite_self]
        · rw [readable, houtlet, ← hbroken]
          rfl
      split at h
      · contradiction
      · rename_i hreadable hroom
        injection h with h
        subst h
        exact ⟨_, goes_piped found hacts hholds houtlet (by simpa using hreadable)⟩

/-- A move of the child is a move of one of its tasks, which has not ended. -/
theorem act_goes (h : e.act which = some e') : ∃ before after, Goes e which before after e' := by
  unfold act at h
  split at h
  · contradiction
  rename_i before found
  split at h
  · contradiction
  rename_i hrunning
  have hrunning := Bool.eq_false_iff.mpr hrunning
  refine ⟨before, ?_⟩
  have hkeeps (c : Channel) : before.keeps c = before.holds.get c := by
    rw [Task.keeps, hrunning]
    exact Bool.and_true _
  -- Where the next act is no write, nothing is written.
  have hsilent (hacts : ∀ channel bytes acts, before.acts ≠ .write channel bytes :: acts)
      (c : Channel) : written c (e.puts (.child which)) = [] := by
    rw [puts_eq_nil found fun channel bytes acts h => absurd h (hacts channel bytes acts)]
    rfl
  split at h
  · rename_i hacts
    injection h with h
    subst h
    refine ⟨_, goes_ended found _ (hsilent (by rw [hacts]; nofun)) (.inl fun c => ?_)⟩
    rw [Task.output, hacts]
    exact ite_self _
  · rename_i channel bytes acts hacts
    exact write_goes found hrunning hacts h
  · rename_i channel acts hacts
    injection h with h
    subst h
    have hafter (c : Channel) :
        ({ before with holds := before.holds.set channel false, acts := acts } : Task).keeps c =
          (!(channel == c) && before.keeps c) := by
      rw [hkeeps, Task.keeps, hrunning]
      by_cases hc : c = channel
      · rw [hc, PerChannel.get_set_same, beq_self_eq_true]
        rfl
      · rw [PerChannel.get_set_other _ hc, beq_false_of_ne (Ne.symm hc)]
        exact Bool.and_true _
    refine ⟨_, goes_silent found e.signals (hsilent (by rw [hacts]; nofun)) ?_ ?_⟩
    · intro c hc
      rw [hafter, Bool.and_eq_true] at hc
      exact hc.2
    · intro c
      by_cases hc : channel = c
      · have hclosed : Act.output c before.acts = [] := by
          rw [hacts, Act.output, if_pos hc]
        rw [Task.output, hclosed, ite_self, Task.output_of_not_keeps]
        rw [hafter, beq_iff_eq.mpr hc]
        rfl
      · refine Task.output_congr ?_ fun _ => ?_
        · rw [hafter, beq_false_of_ne hc]
          rfl
        · rw [hacts, Act.output, if_neg hc]
  · rename_i time acts hacts
    injection h with h
    subst h
    refine ⟨_, goes_silent found e.signals (hsilent (by rw [hacts]; nofun)) (fun c hc => hc) ?_⟩
    exact fun c => Task.output_congr rfl fun _ => by rw [hacts]; rfl
  · contradiction
  · rename_i s acts hacts
    injection h with h
    subst h
    refine ⟨_, goes_silent found _ (hsilent (by rw [hacts]; nofun)) (fun c hc => hc) ?_⟩
    exact fun c => Task.output_congr rfl fun _ => by rw [hacts]; rfl

namespace Goes

theorem child_keeps (h : Goes e which before after e') {c : Channel}
    (keeps : e'.child.keeps c = true) : e.child.keeps c = true := by
  obtain ⟨other, t, ht, hkeeps⟩ := Child.keeps_iff.mp keeps
  rw [h.tasks] at ht
  rw [Child.keeps_iff]
  by_cases ho : other = which
  · rw [if_pos ho] at ht
    injection ht with ht
    exact ⟨which, before, h.found, h.keeps c (ht ▸ hkeeps)⟩
  · rw [if_neg ho] at ht
    exact ⟨other, t, ht, hkeeps⟩

/-- Nothing is written on a channel that nobody keeps open. -/
theorem written_eq_nil (h : Goes e which before after e') {c : Channel}
    (closed : e.closed c = true) : written c (e.puts (.child which)) = [] := by
  refine Decidable.byContradiction fun hne => ?_
  have hkeeps : e.child.keeps c = true :=
    Child.keeps_iff.mpr ⟨which, before, h.found, h.open_ c hne⟩
  rw [Execution.closed, hkeeps] at closed
  contradiction

end Goes

end Execution

end ToolRunner
