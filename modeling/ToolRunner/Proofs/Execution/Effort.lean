import Mathlib.Algebra.GroupWithZero.Nat
import Mathlib.Algebra.Order.BigOperators.Group.List
import Mathlib.Algebra.Order.Group.Nat
import Mathlib.Data.List.Basic
import ToolRunner.Proofs.Execution.Flow
import ToolRunner.Session

/-!
# How many moves an execution has left

Every move of the supervisor, of a reader and of a task of the child uses something up: a phase, an
act, a byte that was written, read or given to listeners, or the end of a sleep, which somebody has
to bring about (`Execution.step_effort`). What there is to use up is bounded by the work that a
session sets aside for the execution (`effort_le_work`).
-/

namespace ToolRunner

/-! ## Readers -/

/-- A bound of the steps that a reader makes without bytes. One that sleeps has a step more where it
would be woken. -/
def ReaderPhase.effort (woken : Bool) : ReaderPhase → Nat
  | fresh => 3
  | reading => 2
  | asleep => if woken then 3 else 1

theorem ReaderPhase.effort_pos (woken : Bool) (phase : ReaderPhase) : 0 < phase.effort woken := by
  cases phase <;> cases woken <;> decide

namespace Reader

variable {r : Reader} {p : Pipe} {s : ReaderStep} {token closed woken : Bool}

/-- A bound of the steps that a reader makes with what it has taken out of the pipe. -/
def effort (r : Reader) (woken : Bool) : Nat :=
  if r.finished then 0
  else
    4 * r.unread.length + (if r.drain.line.bytes.isEmpty then 0 else 2) + r.phase.effort woken

/-- A bound of the steps that a reader makes until it sleeps or has stopped. -/
def pending (r : Reader) (closed : Bool) (p : Pipe) : Nat :=
  5 * p.content.length + r.effort (closed || !p.content.isEmpty)

theorem finished_cancel (h : r.finished = false) (p : Pipe) :
    (r.cancel p).reader.finished = true := by
  have hstop : r.drain.stop = none := by simpa [finished] using h
  show (Line.Drain.checkToken { r.drain with cancelled := true }).stop.isSome = true
  simp [Line.Drain.checkToken, hstop]

theorem effort_of_finished (h : r.finished = true) : r.effort woken = 0 := if_pos h

theorem effort_of_going (h : r.finished = false) : r.effort woken =
    4 * r.unread.length + (if r.drain.line.bytes.isEmpty then 0 else 2) + r.phase.effort woken :=
  if_neg (by rw [h]; exact Bool.false_ne_true)

theorem effort_le (r : Reader) (woken : Bool) : r.effort woken ≤ 4 * r.unread.length + 5 := by
  have hphase : r.phase.effort woken ≤ 3 := by
    cases r.phase <;> cases woken <;> decide
  unfold effort
  split
  · exact Nat.zero_le _
  · split <;> omega

/-- To be woken is to have two steps more. -/
theorem effort_woken_le (r : Reader) (woken other : Bool) :
    r.effort woken ≤ r.effort other + 2 := by
  have hphase : r.phase.effort woken ≤ r.phase.effort other + 2 := by
    cases r.phase <;> cases woken <;> cases other <;> decide
  unfold effort
  split
  · exact Nat.zero_le _
  · omega

theorem effort_deliver_le (woken : Bool) (r : Reader) (p : Pipe) (bytes : Array UInt8)
    (rest : Bytes) :
    (r.deliver p bytes rest).reader.effort woken ≤ 4 * rest.length + 3 := by
  unfold effort
  split
  · exact Nat.zero_le _
  · exact Nat.le_refl _

/-- Whatever a reader uses up, it is less than what it has. -/
theorem effort_consume (going : r.finished = false) (at_ : r.phase = .reading)
    (unread : r.unread ≠ []) : (r.consume p).reader.effort woken < r.effort woken := by
  have hpos : 0 < r.unread.length := List.length_pos_iff.mpr unread
  rw [effort_of_going going, at_]
  unfold consume
  split
  · rename_i line hmore
    have hafter : ({ r with drain := { r.drain with line := line }, unread := [] } :
        Reader).finished = false := going
    rw [effort_of_going hafter]
    simp only [at_, List.length_nil, ReaderPhase.effort]
    split <;> omega
  · rename_i bytes rest hline
    have hrest := Line.rest_lt_of_take_line hline
    have hdeliver := effort_deliver_le woken r p bytes rest
    simp only [ReaderPhase.effort]
    omega
  · rename_i bytes rest hsplit
    have hrest := Line.rest_lt_of_take_split hsplit
    have hdeliver := effort_deliver_le woken r p bytes rest
    simp only [ReaderPhase.effort]
    show (r.deliver p bytes rest).reader.effort woken < _
    omega

theorem pipe_consume (r : Reader) (p : Pipe) : (r.consume p).pipe = p := by
  unfold consume
  split <;> rfl

theorem effort_endInput (going : r.finished = false) (at_ : r.phase = .reading) :
    (r.endInput p).reader.effort woken < r.effort woken := by
  have hstop : ¬ r.drain.stop.isSome = true := by simpa [finished] using going
  rw [effort_of_going going, at_]
  unfold endInput
  split
  · rename_i hempty
    have hfinished : (r.stopped r.drain.endInput p).reader.finished = true := by
      show r.drain.endInput.stop.isSome = true
      rw [Line.Drain.endInput, if_neg hstop, if_pos hempty]
      rfl
    rw [effort_of_finished hfinished]
    exact Nat.succ_pos _
  · have hdeliver := effort_deliver_le woken r p r.drain.line.bytes []
    simp only [List.length_nil, ReaderPhase.effort] at hdeliver ⊢
    omega

theorem content_endInput (r : Reader) (p : Pipe) : (r.endInput p).pipe.content = p.content := by
  unfold endInput
  split <;> rfl

/-- What is read from the pipe is nearer to the listeners. -/
theorem pending_fill (going : r.finished = false) (at_ : r.phase = .reading)
    (unread : r.unread = []) (content : p.content ≠ []) :
    (r.fill p).reader.pending closed (r.fill p).pipe < r.pending closed p := by
  have hafter : (r.fill p).reader.finished = false := going
  have hphase : (r.fill p).reader.phase = .reading := at_
  have hline : (r.fill p).reader.drain.line = r.drain.line := rfl
  have hunread : (r.fill p).reader.unread.length = min Line.readSize p.content.length :=
    List.length_take
  have hcontent : (r.fill p).pipe.content.length = p.content.length - Line.readSize :=
    List.length_drop
  have hpos : 0 < p.content.length := List.length_pos_iff.mpr content
  have hsize : 0 < Line.readSize := by decide
  rw [pending, pending, effort_of_going hafter, effort_of_going going, hphase, at_, hline, hunread,
    hcontent, unread, List.length_nil]
  simp only [ReaderPhase.effort]
  omega

/-- Every step uses something up. -/
theorem step_pending (h : r.step token closed p = some s) :
    s.reader.pending closed s.pipe < r.pending closed p := by
  have hkept {s : ReaderStep} (content : s.pipe.content = p.content)
      (less : ∀ woken, s.reader.effort woken < r.effort woken) :
      s.reader.pending closed s.pipe < r.pending closed p := by
    rw [pending, pending, content]
    exact Nat.add_lt_add_left (less _) _
  unfold step at h
  split at h
  · contradiction
  rename_i hgoing
  have hgoing : r.finished = false := by simpa using hgoing
  have hcancel : (r.cancel p).reader.pending closed (r.cancel p).pipe < r.pending closed p := by
    refine hkept rfl fun woken => ?_
    rw [effort_of_finished (finished_cancel hgoing p), effort_of_going hgoing]
    exact Nat.add_pos_right _ (ReaderPhase.effort_pos woken r.phase)
  have hturned (phase : ReaderPhase)
      (less : phase.effort (closed || !p.content.isEmpty) <
        r.phase.effort (closed || !p.content.isEmpty)) :
      ({ r with phase := phase } : Reader).pending closed p < r.pending closed p := by
    have hafter : ({ r with phase := phase } : Reader).finished = false := hgoing
    rw [pending, pending, effort_of_going hafter, effort_of_going hgoing]
    exact Nat.add_lt_add_left (Nat.add_lt_add_left less _) _
  split at h
  · rename_i hphase
    injection h with h
    subst h
    split
    · exact hcancel
    · exact hturned .reading (by rw [hphase]; exact Nat.lt_succ_self 2)
  · rename_i hphase
    split at h
    · injection h with h
      subst h
      exact hcancel
    · split at h
      · rename_i hwoken
        injection h with h
        subst h
        exact hturned .reading (by rw [hphase, hwoken]; decide)
      · contradiction
  · rename_i hphase
    split at h
    · rename_i hunread
      injection h with h
      subst h
      exact hkept (congrArg _ (pipe_consume r p))
        fun woken => effort_consume hgoing hphase (by simpa using hunread)
    · rename_i hunread
      have hunread : r.unread = [] := by simpa using hunread
      split at h
      · rename_i hcontent
        injection h with h
        subst h
        exact pending_fill hgoing hphase hunread (by simpa using hcontent)
      · rename_i hcontent
        split at h
        · injection h with h
          subst h
          exact hkept (content_endInput r p) fun woken => effort_endInput hgoing hphase
        · rename_i hopen
          injection h with h
          subst h
          refine hturned .asleep ?_
          rw [hphase, Bool.eq_false_iff.mpr hopen, Bool.eq_false_iff.mpr hcontent]
          decide

end Reader

/-! ## Tasks -/

theorem sum_map_set {α : Type} {f : α → Nat} {l : List α} {i : Nat} {a : α}
    (found : l[i]? = some a) (b : α) :
    ((l.set i b).map f).sum + f a = (l.map f).sum + f b := by
  induction l generalizing i with
  | nil => contradiction
  | cons x l ih =>
    cases i with
    | zero =>
      obtain rfl : x = a := Option.some.inj found
      simp only [List.set_cons_zero, List.map_cons, List.sum_cons]
      omega
    | succ i =>
      have hrest := ih found
      simp only [List.set_cons_succ, List.map_cons, List.sum_cons]
      omega

theorem foldl_add_eq_sum {α : Type} (f : α → Nat) (l : List α) (n : Nat) :
    l.foldl (fun n a => n + f a) n = n + (l.map f).sum := by
  induction l generalizing n with
  | nil => rfl
  | cons a l ih => rw [List.foldl_cons, ih, List.map_cons, List.sum_cons, Nat.add_assoc]

/-- A bound of the moves of a task, and of those that its bytes lead to. -/
def Task.effort (t : Task) : Nat := if t.ended then 0 else (t.acts.map Session.actWork).sum + 8

theorem Task.effort_le_work (t : Task) : t.effort ≤ Session.taskWork t := by
  rw [Session.taskWork, foldl_add_eq_sum, effort]
  split <;> omega

theorem Task.effort_of_running {t : Task} (running : t.ended = false) :
    t.effort = (t.acts.map Session.actWork).sum + 8 :=
  if_neg (by rw [running]; exact Bool.false_ne_true)

namespace Child

variable {c : Child} {which : Option Nat} {before : Task}

def effort (c : Child) : Nat := c.main.effort + (c.background.map Task.effort).sum

theorem effort_setTask (found : c.task? which = some before) (after : Task) :
    (c.setTask which after).effort + before.effort = c.effort + after.effort := by
  cases which with
  | none =>
    obtain rfl : c.main = before := Option.some.inj found
    simp only [effort, setTask]
    omega
  | some i =>
    have hset := sum_map_set (f := Task.effort) found after
    simp only [effort, setTask]
    omega

theorem effort_endTask (found : c.task? which = some before) (ending : Ending) :
    (c.endTask which ending).effort + before.effort = c.effort := by
  have hended : ({ before with ended := true } : Task).effort = 0 := if_pos rfl
  cases which with
  | none =>
    obtain rfl : c.main = before := Option.some.inj found
    show ({ c.main with ended := true } : Task).effort + _ + _ = _
    rw [hended, Nat.zero_add, Nat.add_comm]
    rfl
  | some i =>
    have hset := effort_setTask found { before with ended := true }
    have hsame : c.endTask (some i) ending = c.setTask (some i) { before with ended := true } := by
      have hfound : c.background[i]? = some before := found
      rw [endTask, setTask, List.modify_eq_set_getElem?, hfound]
      rfl
    rw [hsame, hset, hended, Nat.add_zero]

/-- A task that keeps its outputs keeps those of the child. -/
theorem keeps_setTask (found : c.task? which = some before) {after : Task}
    (keeps : ∀ channel, after.keeps channel = before.keeps channel) (channel : Channel) :
    (c.setTask which after).keeps channel = c.keeps channel := by
  rw [Bool.eq_iff_iff, keeps_iff, keeps_iff]
  refine exists_congr fun other => ?_
  rw [task?_setTask found]
  by_cases hother : other = which
  · rw [if_pos hother, hother, found]
    simp [keeps]
  · rw [if_neg hother]

end Child

/-! ## Executions -/

/-- A bound of the moves of a supervisor with so many start and exit listeners. Wiring gives the
readers their first steps. -/
def Phase.effort (starts exits : Nat) : Phase → Nat
  | spawned => starts + exits + 15
  | wiring => starts + exits + 14
  | starting next => (starts - next) + exits + 7
  | waiting => exits + 6
  | reaping => exits + 5
  | joining .stdout => exits + 4
  | joining .stderr => exits + 3
  | releasing => exits + 2
  | notifying next => (exits - next) + 1
  | finished => 0
  | refused _ => 0

theorem Phase.effort_le (phase : Phase) (starts exits : Nat) :
    phase.effort starts exits ≤ starts + exits + 15 := by
  cases phase with
  | joining channel => cases channel <;> simp only [effort] <;> omega
  | _ => simp only [effort]; omega

namespace Execution

variable {e e' : Execution} {c : Channel} {t t' : Tracker} {m : Move}

/-- A bound of the steps that the reader of a channel makes until it sleeps or has stopped. -/
def channelEffort (e : Execution) (channel : Channel) : Nat :=
  5 * (e.held channel).length +
    ((e.readers.get channel).map
      (·.effort (e.closed channel || !(e.held channel).isEmpty))).getD 0

/-- A bound of the moves that are left of the supervisor, the readers and the child. -/
def effort (e : Execution) : Nat :=
  e.child.effort + (e.channelEffort .stdout + e.channelEffort .stderr) +
    e.phase.effort e.start.length e.exit.length

theorem channelEffort_of_reader {rd : Reader} {p : Pipe} (reader : e.readers.get c = some rd)
    (pipe : e.outlets.get c = .pipe p) : e.channelEffort c = rd.pending (e.closed c) p := by
  have hheld : e.held c = p.content := by rw [held, pipe]
  rw [channelEffort, reader, hheld]
  rfl

theorem channelEffort_congr (readers : e'.readers.get c = e.readers.get c)
    (held : e'.held c = e.held c) (closed : e'.closed c = e.closed c) :
    e'.channelEffort c = e.channelEffort c := by
  rw [channelEffort, readers, held, closed, channelEffort]

/-- More bytes, or the end of them, wake a reader. -/
theorem channelEffort_le (more : Nat) (readers : e'.readers.get c = e.readers.get c)
    (held : (e'.held c).length = (e.held c).length + more) :
    e'.channelEffort c ≤ e.channelEffort c + 5 * more + 2 := by
  rw [channelEffort, channelEffort, readers, held]
  cases e.readers.get c with
  | none =>
    simp only [Option.map_none, Option.getD_none]
    omega
  | some rd =>
    have hwoken := rd.effort_woken_le (e'.closed c || !(e'.held c).isEmpty)
      (e.closed c || !(e.held c).isEmpty)
    simp only [Option.map_some, Option.getD_some]
    omega

/-! ### The supervisor -/

/-- When only the supervisor goes on, what is left is less by what it has done. -/
theorem effort_lt_of_phase (child : e'.child = e.child) (outlets : e'.outlets = e.outlets)
    (readers : e'.readers = e.readers)
    (phase : e'.phase.effort e'.start.length e'.exit.length <
      e.phase.effort e.start.length e.exit.length) : e'.effort < e.effort := by
  have hsame (c : Channel) : e'.channelEffort c = e.channelEffort c := by
    refine channelEffort_congr (by rw [readers]) ?_ ?_
    · rw [held, outlets, held]
    · rw [closed, child, closed]
  rw [effort, effort, child, hsame, hsame]
  exact Nat.add_lt_add_left phase _

theorem effort_afterJoining (channel : Channel) (starts exits : Nat) :
    (afterJoining channel).effort starts exits < (Phase.joining channel).effort starts exits := by
  cases channel <;> exact Nat.lt_succ_self _

theorem effort_of_newReader {rd : Reader} (h : e.newReader c = .ok (some rd)) (woken : Bool) :
    rd.effort woken ≤ 3 := by
  unfold newReader at h
  split at h
  · unfold Reader.new at h
    split at h
    · contradiction
    · injection h with h
      injection h with h
      rw [← h]
      exact Nat.le_refl 3
  · injection h with h
    contradiction

/-- Readers that are wired have their first steps before them. -/
theorem channelEffort_wire {readers : PerChannel (Option Reader)}
    (wires : e.newReaders = .ok readers) (c : Channel) :
    ({ e with readers := readers, phase := .starting 0 } : Execution).channelEffort c ≤
      e.channelEffort c + 3 := by
  show 5 * (e.held c).length + ((readers.get c).map _).getD 0 ≤ _
  have hheld : 5 * (e.held c).length ≤ e.channelEffort c := Nat.le_add_right _ _
  cases hrd : readers.get c with
  | none => exact Nat.le_trans hheld (Nat.le_add_right _ 3)
  | some rd =>
    have hnew := (newReader_of_wires wires c).trans (congrArg _ hrd)
    exact Nat.add_le_add hheld (effort_of_newReader hnew _)

/-- A child that is killed has nothing left to do, but its end may wake the readers. -/
theorem effort_kill (killed : e'.child = e.child.kill) (outlets : e'.outlets = e.outlets)
    (readers : e'.readers = e.readers) :
    e'.child.effort + (e'.channelEffort .stdout + e'.channelEffort .stderr) ≤
      e.child.effort + (e.channelEffort .stdout + e.channelEffort .stderr) := by
  have hheld (c : Channel) : e'.held c = e.held c := by rw [held, outlets, held]
  have hreaders (c : Channel) : e'.readers.get c = e.readers.get c := by rw [readers]
  have hmain : e.child.task? none = some e.child.main := rfl
  have hkill : e'.child.effort + e.child.main.effort = e.child.effort := by
    rw [killed]
    exact Child.effort_endTask hmain .killed
  cases hended : e.child.main.ended with
  | true =>
    have hclosed (c : Channel) : e'.closed c = e.closed c := by
      rw [closed, killed, closed, Child.keeps, Child.keeps, Task.keeps, Task.keeps, hended]
      rfl
    rw [channelEffort_congr (hreaders _) (hheld _) (hclosed _),
      channelEffort_congr (hreaders _) (hheld _) (hclosed _)]
    omega
  | false =>
    have hmain := Task.effort_of_running hended
    have hstdout := channelEffort_le 0 (hreaders .stdout) (congrArg _ (hheld .stdout))
    have hstderr := channelEffort_le 0 (hreaders .stderr) (congrArg _ (hheld .stderr))
    omega

theorem effort_lt_of_kill (killed : e'.child = e.child.kill) (outlets : e'.outlets = e.outlets)
    (readers : e'.readers = e.readers)
    (phase : e'.phase.effort e'.start.length e'.exit.length <
      e.phase.effort e.start.length e.exit.length) : e'.effort < e.effort :=
  Nat.add_lt_add_of_le_of_lt (effort_kill killed outlets readers) phase

theorem supervise_effort (h : e.supervise t = some (t', e')) : e'.effort < e.effort := by
  cases supervise_change h with
  | registered id at_ =>
    exact effort_lt_of_phase rfl rfl rfl (by rw [at_]; exact Nat.lt_succ_self _)
  | wired readers at_ wires =>
    have hstdout := channelEffort_wire wires .stdout
    have hstderr := channelEffort_wire wires .stderr
    rw [effort, effort, at_]
    simp only [Phase.effort]
    omega
  | refused cause at_ wires =>
    exact effort_lt_of_kill rfl rfl rfl (by rw [at_]; exact Nat.succ_pos _)
  | startCalled next l at_ listener =>
    have hlt := (List.getElem?_eq_some_iff.mp listener).1
    refine effort_lt_of_phase rfl rfl rfl ?_
    show (e.start.set next _).length - (next + 1) + e.exit.length + 7 < _
    rw [at_, List.length_set, Phase.effort]
    omega
  | startsDone next at_ none_left =>
    refine effort_lt_of_phase rfl rfl rfl ?_
    rw [at_]
    simp only [Phase.effort]
    omega
  | reaped ending at_ status =>
    refine effort_lt_of_phase rfl rfl rfl ?_
    rcases at_ with at_ | at_ <;> rw [at_] <;> simp [Phase.effort]
  | skipped channel at_ unread =>
    exact effort_lt_of_phase rfl rfl rfl (by rw [at_]; exact effort_afterJoining channel _ _)
  | joined channel rd at_ reader finished =>
    exact effort_lt_of_phase rfl rfl rfl (by rw [at_]; exact effort_afterJoining channel _ _)
  | released at_ =>
    exact effort_lt_of_phase rfl rfl rfl (by rw [at_]; exact Nat.lt_succ_self _)
  | exitCalled next l at_ listener =>
    have hlt := (List.getElem?_eq_some_iff.mp listener).1
    refine effort_lt_of_phase rfl rfl rfl ?_
    show (e.exit.set next _).length - (next + 1) + 1 < _
    rw [at_, List.length_set, Phase.effort]
    omega
  | exitsDone next at_ none_left =>
    exact effort_lt_of_phase rfl rfl rfl (by rw [at_]; exact Nat.succ_pos _)
  | read m channel rd p s reader pipe going turn made => contradiction

theorem seeCancellation_effort (h : e.seeCancellation = some e') : e'.effort < e.effort := by
  cases seeCancellation_change h with
  | killed at_ destroyed =>
    exact effort_lt_of_kill rfl rfl rfl (by rw [at_]; exact Nat.lt_succ_self _)
  | read m channel rd p s reader pipe going turn made => contradiction

/-! ### Readers -/

theorem read_effort (h : e.read c (fun r p => r.step e.destroyed (e.closed c) p) = some e') :
    e'.effort < e.effort := by
  unfold read at h
  split at h
  · rename_i rd p hrd hp
    obtain ⟨s, hs, rfl⟩ := Option.map_eq_some_iff.mp h
    have hclosed : (e.afterReader c s).closed c = e.closed c := rfl
    have hafter : (e.afterReader c s).channelEffort c < e.channelEffort c := by
      rw [channelEffort_of_reader (readers_afterReader e c s) (PerChannel.get_set_same _ _ _),
        channelEffort_of_reader hrd hp, hclosed]
      exact Reader.step_pending hs
    have hother {d : Channel} (hd : d ≠ c) :
        (e.afterReader c s).channelEffort d = e.channelEffort d :=
      channelEffort_congr (readers_afterReader_other e hd s) (held_afterReader_other e hd s) rfl
    have hsum :
        (e.afterReader c s).channelEffort .stdout + (e.afterReader c s).channelEffort .stderr <
          e.channelEffort .stdout + e.channelEffort .stderr := by
      cases c with
      | stdout =>
        rw [hother (by decide : Channel.stderr ≠ .stdout)]
        exact Nat.add_lt_add_right hafter _
      | stderr =>
        rw [hother (by decide : Channel.stdout ≠ .stderr)]
        exact Nat.add_lt_add_left hafter _
    exact Nat.add_lt_add_right (Nat.add_lt_add_left hsum _) _
  · contradiction

/-! ### The child -/

section

variable {which : Option Nat} {task : Task} {acts : List Act} {channel : Channel} {bytes : Bytes}
variable {child : Child} {outlets : PerChannel Outlet} {signals : List Signal}

/-- An act of which no bytes come is worth more than the steps to which its task wakes readers. -/
theorem effort_lt_of_silent (less : child.effort + 5 ≤ e.child.effort)
    (held : ∀ c, { e with outlets := outlets }.held c = e.held c) :
    { e with child := child, outlets := outlets, signals := signals }.effort < e.effort := by
  have hchannel (c : Channel) :
      { e with child := child, outlets := outlets, signals := signals }.channelEffort c ≤
        e.channelEffort c + 5 * 0 + 2 :=
    channelEffort_le 0 rfl (congrArg List.length (held c))
  have hstdout := hchannel .stdout
  have hstderr := hchannel .stderr
  refine Nat.add_lt_add_right ?_ _
  show child.effort + _ < _
  omega

/-- A task that goes on has the act behind it. -/
theorem effort_proceed {act : Act} {after : Task} (found : e.child.task? which = some task)
    (running : task.ended = false) (hacts : task.acts = act :: acts)
    (ended : after.ended = task.ended) (rest : after.acts = acts) :
    (e.child.setTask which after).effort + Session.actWork act = e.child.effort := by
  have hset := Child.effort_setTask found after
  rw [Task.effort_of_running running, hacts, Task.effort_of_running (ended.trans running), rest,
    List.map_cons, List.sum_cons] at hset
  omega

theorem actWork_pos (act : Act) : 8 ≤ Session.actWork act := by
  cases act <;> simp [Session.actWork]

theorem effort_lt_of_proceed {act : Act} {after : Task} (found : e.child.task? which = some task)
    (running : task.ended = false) (hacts : task.acts = act :: acts)
    (ended : after.ended = task.ended) (rest : after.acts = acts)
    (held : ∀ c, { e with outlets := outlets }.held c = e.held c) :
    { e with child := e.child.setTask which after, outlets := outlets,
             signals := signals }.effort < e.effort := by
  have hset := effort_proceed found running hacts ended rest
  have hpos := actWork_pos act
  exact effort_lt_of_silent (by omega) held

theorem effort_lt_of_ended (found : e.child.task? which = some task) (running : task.ended = false)
    (ending : Ending) :
    { e with child := e.child.endTask which ending }.effort < e.effort := by
  have hend := Child.effort_endTask found ending
  rw [Task.effort_of_running running] at hend
  exact effort_lt_of_silent (by omega) fun _ => rfl

theorem sum_writeRest (channel : Channel) (bytes : Bytes) (acts : List Act) :
    ((writeRest channel bytes acts).map Session.actWork).sum ≤
      8 * bytes.length + 8 + (acts.map Session.actWork).sum := by
  unfold writeRest
  split
  · omega
  · exact Nat.le_refl _

/-- Bytes in a pipe have fewer moves before them than bytes that are still to be written. -/
theorem effort_lt_of_piped {p : Pipe} (found : e.child.task? which = some task)
    (running : task.ended = false) (hacts : task.acts = .write channel bytes :: acts)
    (nonempty : bytes ≠ []) (pipe : e.outlets.get channel = .pipe p) (room : p.room ≠ 0) :
    { e.proceed which task (writeRest channel (bytes.drop p.room) acts) with
      outlets := e.outlets.set channel (.pipe (p.write bytes)) }.effort < e.effort := by
  let after : Task := { task with acts := writeRest channel (bytes.drop p.room) acts }
  generalize he' : { e.proceed which task (writeRest channel (bytes.drop p.room) acts) with
    outlets := e.outlets.set channel (.pipe (p.write bytes)) } = e'
  have hlength : 0 < bytes.length := List.length_pos_iff.mpr nonempty
  have hchild : e'.child.effort + 8 * min p.room bytes.length ≤ e.child.effort := by
    have hset := Child.effort_setTask found after
    have hrest := sum_writeRest channel (bytes.drop p.room) acts
    have hafter : after.effort =
        ((writeRest channel (bytes.drop p.room) acts).map Session.actWork).sum + 8 :=
      Task.effort_of_running running
    rw [Task.effort_of_running running, hafter, hacts, List.map_cons, List.sum_cons,
      Session.actWork] at hset
    rw [List.length_drop] at hrest
    rw [← he']
    show (e.child.setTask which after).effort + _ ≤ _
    omega
  have hclosed (c : Channel) : e'.closed c = e.closed c := by
    have hsame (d : Channel) : after.keeps d = task.keeps d := rfl
    have hkeeps := Child.keeps_setTask found hsame c
    rw [← he', closed, closed, ← hkeeps]
    rfl
  have hheld (c : Channel) (hc : c ≠ channel) : e'.held c = e.held c := by
    rw [← he', held, PerChannel.get_set_other _ hc, held]
  have hreaders (c : Channel) : e'.readers.get c = e.readers.get c := by
    rw [← he']
    rfl
  have hown : e'.channelEffort channel ≤
      e.channelEffort channel + 5 * min p.room bytes.length + 2 := by
    refine channelEffort_le _ (hreaders channel) ?_
    rw [← he', held, PerChannel.get_set_same, held, pipe]
    simp
  have hother (c : Channel) (hc : c ≠ channel) : e'.channelEffort c = e.channelEffort c :=
    channelEffort_congr (hreaders c) (hheld c hc) (hclosed c)
  have hphase : e'.phase.effort e'.start.length e'.exit.length =
      e.phase.effort e.start.length e.exit.length := by
    rw [← he']
    rfl
  rw [effort, effort, hphase]
  cases channel with
  | stdout =>
    have hstderr := hother .stderr (by decide)
    omega
  | stderr =>
    have hstdout := hother .stdout (by decide)
    omega

theorem write_effort (found : e.child.task? which = some task) (running : task.ended = false)
    (hacts : task.acts = .write channel bytes :: acts)
    (h : e.write which task channel bytes acts = some e') : e'.effort < e.effort := by
  unfold write at h
  split at h
  · injection h with h
    subst h
    exact effort_lt_of_proceed found running hacts rfl rfl fun _ => rfl
  rename_i hsomething
  split at h
  · injection h with h
    subst h
    exact effort_lt_of_proceed found running hacts rfl rfl fun _ => rfl
  · rename_i before houtlet
    injection h with h
    subst h
    refine effort_lt_of_proceed found running hacts rfl rfl fun c => ?_
    by_cases hc : c = channel
    · rw [hc, held, PerChannel.get_set_same, held, houtlet]
    · rw [held, PerChannel.get_set_other _ hc, held]
  · rename_i p houtlet
    split at h
    · injection h with h
      subst h
      exact effort_lt_of_ended found running .killed
    split at h
    · contradiction
    · injection h with h
      subst h
      have hnonempty : bytes ≠ [] := by
        rintro rfl
        simp at hsomething
      exact effort_lt_of_piped found running hacts hnonempty houtlet ‹_›

theorem act_effort (h : e.act which = some e') : e'.effort < e.effort := by
  unfold act at h
  split at h
  · contradiction
  rename_i task found
  split at h
  · contradiction
  rename_i hrunning
  have running : task.ended = false := Bool.eq_false_iff.mpr hrunning
  split at h
  · injection h with h
    subst h
    exact effort_lt_of_ended found running _
  · exact write_effort found running ‹_› h
  · injection h with h
    subst h
    exact effort_lt_of_proceed found running ‹_› rfl rfl fun _ => rfl
  · injection h with h
    subst h
    exact effort_lt_of_proceed found running ‹_› rfl rfl fun _ => rfl
  · contradiction
  · injection h with h
    subst h
    exact effort_lt_of_proceed found running ‹_› rfl rfl fun _ => rfl

end

/-! ### All moves -/

/-- Every move of a party uses something up. -/
theorem step_effort (own : m.own = true) (h : e.step m t = some (t', e')) :
    e'.effort < e.effort := by
  cases m with
  | supervisor => exact supervise_effort h
  | cancellation => exact seeCancellation_effort (after_eq_of_map h)
  | child which => exact act_effort (after_eq_of_map h)
  | reader channel => exact read_effort (after_eq_of_map h)
  | destroy | readFailure | waitFailure => contradiction

theorem channelEffort_le_work (e : Execution) (channel : Channel) :
    e.channelEffort channel + 11 ≤ Session.channelWork e channel := by
  have hheld : ((e.outlets.get channel).pipe?.map (·.content.length)).getD 0 =
      (e.held channel).length := by
    rw [held]
    cases e.outlets.get channel <;> rfl
  rw [channelEffort, Session.channelWork, hheld]
  cases e.readers.get channel with
  | none =>
    simp only [Option.map_none, Option.getD_none]
    omega
  | some rd =>
    have hreader := rd.effort_le (e.closed channel || !(e.held channel).isEmpty)
    simp only [Option.map_some, Option.getD_some]
    omega

/-- A session sets enough work aside for every execution. -/
theorem effort_le_work (e : Execution) : e.effort ≤ Session.executionWork e := by
  have hmain := e.child.main.effort_le_work
  have hbackground : (e.child.background.map Task.effort).sum ≤
      (e.child.background.map Session.taskWork).sum :=
    List.sum_le_sum fun t _ => t.effort_le_work
  have hstdout := e.channelEffort_le_work .stdout
  have hstderr := e.channelEffort_le_work .stderr
  have hphase := e.phase.effort_le e.start.length e.exit.length
  rw [effort, Child.effort, Session.executionWork, foldl_add_eq_sum]
  omega

end Execution

end ToolRunner
