import ToolRunner.Mode

/-!
# Pairs by channel

What there is once for each of the two output channels of a child.
-/

namespace ToolRunner

/-- One thing for each channel. -/
structure PerChannel (α : Type) where
  stdout : α
  stderr : α
deriving DecidableEq, Repr

namespace PerChannel

variable {α β : Type}

def ofFn (f : Channel → α) : PerChannel α := ⟨f .stdout, f .stderr⟩

def both (a : α) : PerChannel α := ⟨a, a⟩

def get (p : PerChannel α) : Channel → α
  | .stdout => p.stdout
  | .stderr => p.stderr

def set (p : PerChannel α) (channel : Channel) (a : α) : PerChannel α :=
  match channel with
  | .stdout => { p with stdout := a }
  | .stderr => { p with stderr := a }

@[simp] theorem get_ofFn (f : Channel → α) (c : Channel) : (ofFn f).get c = f c := by
  cases c <;> rfl

@[simp] theorem get_both (a : α) (c : Channel) : (both a).get c = a := by
  cases c <;> rfl

@[simp] theorem get_set_same (p : PerChannel α) (c : Channel) (a : α) : (p.set c a).get c = a := by
  cases c <;> rfl

theorem get_set_other (p : PerChannel α) {c d : Channel} (h : d ≠ c) (a : α) :
    (p.set c a).get d = p.get d := by
  cases c <;> cases d <;> first | rfl | exact absurd rfl h

end PerChannel

end ToolRunner
