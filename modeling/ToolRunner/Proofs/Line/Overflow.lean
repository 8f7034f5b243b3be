import ToolRunner.Proofs.Line.Halting

/-!
# The largest cap

A reader with the largest word as its cap cannot count the bytes to search, and panics as soon as
bytes are at hand (`Overflows`). Until then, and at every other cap, it comes to what the reader of
`Drain.run` comes to (`Drain.runUpTo_of_overflows`, `Drain.runUpTo_of_not_overflows`).
-/

namespace ToolRunner.Line.Drain

variable {w : UInt64} {d : Drain (.ofWord w)} {r : Read} {script later : List Read}

theorem readUpTo_of_sound (h : ¬ (w = largest ∧ r.brings = true ∧ d.stop = none)) :
    d.readUpTo r = .ok (d.read r) := by
  refine if_neg fun hall => h ?_
  rw [Bool.and_eq_true, Bool.and_eq_true, Option.isNone_iff_eq_none, beq_iff_eq] at hall
  exact ⟨hall.2, hall.1.2, hall.1.1⟩

theorem readUpTo_of_overflow (hw : w = largest) (brings : r.brings = true) (going : d.stop = none) :
    d.readUpTo r = .error .overflow := by
  subst hw
  rw [readUpTo, going, brings]
  rfl

theorem brings_iff : r.brings = true ↔ ∃ bs, r = .bytes bs ∧ bs ≠ [] := by
  cases r with
  | bytes bs => simp [Read.brings]
  | failure => simp [Read.brings]
  | pending => simp [Read.brings]
  | cancel => simp [Read.brings]

/-- Some read of a script brings bytes while the reader goes on, and its cap is the largest word. -/
def Overflows (d : Drain (.ofWord w)) (script : List Read) : Prop :=
  w = largest ∧ ∃ now bs later, script = now ++ .bytes bs :: later ∧ bs ≠ [] ∧
    (now.foldl read d).stop = none

theorem not_overflows_nil (d : Drain (.ofWord w)) : ¬ d.Overflows [] := by
  intro ⟨_, now, bs, later, he, _⟩
  have hlength := congrArg List.length he
  simp at hlength

theorem overflows_cons :
    d.Overflows (r :: later) ↔
      (w = largest ∧ r.brings = true ∧ d.stop = none) ∨ (d.read r).Overflows later := by
  constructor
  · intro ⟨hw, now, bs, rest, he, present, going⟩
    cases now with
    | nil =>
      cases he
      exact .inl ⟨hw, brings_iff.mpr ⟨bs, rfl, present⟩, going⟩
    | cons first now =>
      cases he
      exact .inr ⟨hw, now, bs, rest, rfl, present, going⟩
  · intro h
    rcases h with ⟨hw, brings, going⟩ | ⟨hw, now, bs, rest, rfl, present, going⟩
    · obtain ⟨bs, rfl, present⟩ := brings_iff.mp brings
      exact ⟨hw, [], bs, later, rfl, present, going⟩
    · exact ⟨hw, r :: now, bs, rest, rfl, present, going⟩

theorem foldlM_readUpTo_of_overflows (h : d.Overflows script) :
    script.foldlM readUpTo d = .error .overflow := by
  induction script generalizing d with
  | nil => exact absurd h (not_overflows_nil d)
  | cons r later ih =>
    rw [List.foldlM_cons]
    by_cases hnow : w = largest ∧ r.brings = true ∧ d.stop = none
    · rw [readUpTo_of_overflow hnow.1 hnow.2.1 hnow.2.2]
      rfl
    · rw [readUpTo_of_sound hnow]
      exact ih ((overflows_cons.mp h).resolve_left hnow)

theorem foldlM_readUpTo_of_not_overflows (h : ¬ d.Overflows script) :
    script.foldlM readUpTo d = .ok (script.foldl read d) := by
  induction script generalizing d with
  | nil => rfl
  | cons r later ih =>
    rw [overflows_cons, not_or] at h
    rw [List.foldlM_cons, readUpTo_of_sound h.1]
    exact ih h.2

theorem not_overflows_of_ne (hw : w ≠ largest) (d : Drain (.ofWord w)) (script : List Read) :
    ¬ d.Overflows script := fun h => hw h.1

/-- A reader that has stopped does not count any more. -/
theorem not_overflows_of_stopped (h : d.stop.isSome = true) : ¬ d.Overflows script := by
  intro ⟨_, now, bs, later, _, _, going⟩
  obtain ⟨token, hnow⟩ := foldl_read_of_stopped h now
  rw [hnow] at going
  rw [going] at h
  contradiction

theorem runUpTo_of_overflows (h : d.checkToken.Overflows script) :
    d.runUpTo script = .error .overflow := by
  rw [runUpTo, foldlM_readUpTo_of_overflows h]
  rfl

theorem runUpTo_of_not_overflows (h : ¬ d.checkToken.Overflows script) :
    d.runUpTo script = .ok (d.run script) := by
  rw [runUpTo, foldlM_readUpTo_of_not_overflows h]
  rfl

theorem runUpTo_eq_overflow_iff :
    d.runUpTo script = .error .overflow ↔ d.checkToken.Overflows script := by
  constructor
  · intro h
    refine Classical.byContradiction fun hnot => ?_
    rw [runUpTo_of_not_overflows hnot] at h
    contradiction
  · exact runUpTo_of_overflows

end ToolRunner.Line.Drain
