import ToolRunner.Proofs.Line.Pieces

/-!
# A pass over the bytes at hand, in machine words

A pass counts the bytes that there is room for, and searches one byte more than these for a line
feed; both counts are words of 64 bits. `scan` is such a pass as a machine makes it, on a buffer of
which nothing is assumed. It does what `take` does to a line (`scan_eq`), and its counts are right
(`Counted`) but at one place: where the cap is the largest word and the line is empty, one byte more
than there is room for is too large for a word (`overflows_iff`, `counted_iff`).
-/

namespace ToolRunner.Line

open Bytes

/-- The cap as a word; zero counts as one. -/
def limit (w : UInt64) : UInt64 := if w = 0 then 1 else w

/-- The number of bytes that there is room for. -/
def room (w : UInt64) (buf : Array UInt8) : UInt64 := limit w - UInt64.ofNat buf.size

/-- The bytes at hand that are searched for a line feed: one more than there is room for. -/
def window (w : UInt64) (buf : Array UInt8) (atHand : Bytes) : Bytes :=
  atHand.take (room w buf + 1).toNat

/-- A count is below zero, or too large for a word. -/
def overflows (w : UInt64) (buf : Array UInt8) : Bool :=
  decide (limit w < UInt64.ofNat buf.size) || room w buf + 1 == 0

/-- What a pass does: the buffer goes on, or a line feed ended the line, or it is full. The bytes
that are left over come last. -/
inductive Scanned where
  | more (buf : Array UInt8) (rest : Bytes)
  | line (bytes : Array UInt8) (rest : Bytes)
  | split (bytes : Array UInt8) (rest : Bytes)
  /-- There is no such count, and the pass panics. -/
  | overflow
deriving DecidableEq, Repr

/-- A pass over bytes at hand. -/
def scan (w : UInt64) (buf : Array UInt8) (atHand : Bytes) : Scanned :=
  if overflows w buf then .overflow
  else
    match (window w buf atHand).idxOf? newline with
    | some pos => .line (buf ++ (atHand.take pos).toArray) (atHand.drop (pos + 1))
    | none =>
      let taken := buf ++ (atHand.take (room w buf).toNat).toArray
      let rest := atHand.drop (room w buf).toNat
      if limit w ≤ UInt64.ofNat taken.size then .split taken rest else .more taken rest

/-- What `take` does, without what is known of the line. -/
def Taken.scanned {cap : Cap} : Taken cap → Scanned
  | .more begun => .more begun.bytes []
  | .line bytes rest => .line bytes rest
  | .split bytes rest => .split bytes rest

/-- The counts of a pass are those of the numbers that they stand for, so that some byte at hand is
searched, and a line feed within the cap ends its line. -/
structure Counted (w : UInt64) (buf : Array UInt8) (atHand : Bytes) : Prop where
  difference : (room w buf).toNat + buf.size = (limit w).toNat
  sum : (room w buf + 1).toNat = (room w buf).toNat + 1
  searched : window w buf atHand ≠ []
  ends : ∀ run rest, atHand = run ++ newline :: rest → newline ∉ run →
    buf.size + run.length ≤ (limit w).toNat →
    scan w buf atHand = .line (buf ++ run.toArray) rest

/-! ## The words -/

section

variable {w : UInt64} {buf : Array UInt8}

theorem toNat_room (h : buf.size ≤ (limit w).toNat) :
    (room w buf).toNat = (limit w).toNat - buf.size := by
  have hsize : (UInt64.ofNat buf.size).toNat = buf.size :=
    UInt64.toNat_ofNat_of_lt' (Nat.lt_of_le_of_lt h (UInt64.toNat_lt _))
  rw [room, UInt64.toNat_sub_of_le _ _ (UInt64.le_iff_toNat_le.mpr (by rwa [hsize])), hsize]

theorem limit_le_iff {n : Nat} (h : n < UInt64.size) :
    limit w ≤ UInt64.ofNat n ↔ (limit w).toNat ≤ n := by
  rw [UInt64.le_iff_toNat_le, UInt64.toNat_ofNat_of_lt' h]

/-- The next word is the next number unless it is zero. -/
theorem toNat_add_one {v : UInt64} (h : v + 1 ≠ 0) : (v + 1).toNat = v.toNat + 1 := by
  have hlt := UInt64.toNat_lt v
  have hmod : (v + 1).toNat = (v.toNat + 1) % 2 ^ 64 := UInt64.toNat_add v 1
  by_cases hlast : v.toNat + 1 = 2 ^ 64
  · refine absurd (UInt64.toNat_inj.mp ?_) h
    rw [hmod, hlast]
    rfl
  · rw [hmod, Nat.mod_eq_of_lt (by omega)]

/-- The sum is too large for a word at the largest cap, while the line is empty. -/
theorem room_add_one_eq_zero_iff (begun : buf.size < (limit w).toNat) :
    room w buf + 1 = 0 ↔ w = largest ∧ buf = #[] := by
  have hroom := toNat_room (Nat.le_of_lt begun)
  have hlargest : largest.toNat = 2 ^ 64 - 1 := rfl
  constructor
  · intro hzero
    have hmod : ((room w buf).toNat + 1) % 2 ^ 64 = 0 := by
      rw [← UInt64.toNat_one, ← UInt64.toNat_add, hzero]
      rfl
    have hword := UInt64.toNat_lt (limit w)
    have hlimit : limit w = largest := UInt64.toNat_inj.mp (by omega)
    refine ⟨?_, Array.eq_empty_of_size_eq_zero (by omega)⟩
    by_cases hw : w = 0
    · rw [limit, if_pos hw] at hlimit
      exact absurd hlimit (by decide)
    · rwa [limit, if_neg hw] at hlimit
  · intro ⟨hw, hempty⟩
    rw [hw, hempty]
    rfl

/-- While a line leaves room, the difference is never below zero. -/
theorem overflows_iff (begun : buf.size < (limit w).toNat) :
    overflows w buf = true ↔ w = largest ∧ buf = #[] := by
  have hword : buf.size < UInt64.size := Nat.lt_trans begun (UInt64.toNat_lt (limit w))
  have hnot : ¬ limit w < UInt64.ofNat buf.size := by
    rw [UInt64.lt_iff_toNat_lt, UInt64.toNat_ofNat_of_lt' hword]
    exact Nat.lt_asymm begun
  rw [overflows, decide_eq_false hnot, Bool.false_or, beq_iff_eq, room_add_one_eq_zero_iff begun]

end

/-! ## The pass -/

section

theorem idxOf?_line {run rest : Bytes} (h : newline ∉ run) :
    (run ++ newline :: rest).idxOf? newline = some run.length := by
  induction run with
  | nil => simp [List.idxOf?_cons]
  | cons b run ih =>
    rw [List.mem_cons, not_or] at h
    have hb : (b == newline) = false := by simpa using Ne.symm h.1
    rw [List.cons_append, List.idxOf?_cons, hb, ih h.2]
    rfl

variable {w : UInt64} {buf : Array UInt8} {atHand : Bytes}

/-- A line feed among the bytes that are searched ends the line. -/
theorem scan_line {run : Bytes} (rest : Bytes) (sound : ¬ overflows w buf = true)
    (free : newline ∉ run) (within : run.length < (room w buf + 1).toNat) :
    scan w buf (run ++ newline :: rest) = .line (buf ++ run.toArray) rest := by
  obtain ⟨n, hn⟩ := Nat.exists_eq_add_of_lt within
  have hwindow : window w buf (run ++ newline :: rest) = run ++ newline :: rest.take n := by
    rw [window, hn, Nat.add_assoc, List.take_length_add_append, List.take_succ_cons]
  rw [scan, if_neg sound, hwindow, idxOf?_line free]
  simp [List.drop_append]

/-- Without one, bytes for which there is room are all taken. -/
theorem scan_more (sound : ¬ overflows w buf = true) (free : newline ∉ window w buf atHand)
    (fits : buf.size + atHand.length < (limit w).toNat) :
    scan w buf atHand = .more (buf ++ atHand.toArray) [] := by
  have hword : (limit w).toNat < UInt64.size := UInt64.toNat_lt (limit w)
  have hroom := @toNat_room w buf (by omega)
  have hsize : (buf ++ atHand.toArray).size = buf.size + atHand.length := by simp
  have hnot : ¬ limit w ≤ UInt64.ofNat (buf ++ atHand.toArray).size := by
    rw [hsize, limit_le_iff (Nat.lt_trans fits hword)]
    exact Nat.not_le_of_lt fits
  have hall : atHand.length ≤ (limit w).toNat - buf.size := by omega
  rw [scan, if_neg sound, List.idxOf?_eq_none_iff.mpr free]
  simp only [hroom, List.take_of_length_le hall, List.drop_eq_nil_of_le hall, if_neg hnot]

/-- Without one, bytes for which there is no room are left over. -/
theorem scan_split {run rest : Bytes} (sound : ¬ overflows w buf = true)
    (free : newline ∉ window w buf (run ++ rest))
    (full : buf.size + run.length = (limit w).toNat) :
    scan w buf (run ++ rest) = .split (buf ++ run.toArray) rest := by
  have hword := UInt64.toNat_lt (limit w)
  have hroom : (room w buf).toNat = run.length := by
    rw [toNat_room (by omega)]
    omega
  have hsize : (buf ++ run.toArray).size = (limit w).toNat := by
    rw [← full]
    simp
  have hfull : limit w ≤ UInt64.ofNat (buf ++ run.toArray).size := by
    rw [hsize]
    exact (limit_le_iff hword).mpr (Nat.le_refl _)
  rw [scan, if_neg sound, List.idxOf?_eq_none_iff.mpr free]
  simp only [hroom, List.take_left, List.drop_left, if_pos hfull]

end

section

variable {w : UInt64}

theorem size_ofWord (hw : w ≠ largest) : (Cap.ofWord w).size = (limit w).toNat := by
  have hlargest : largest.toNat = UInt64.size - 1 := rfl
  have hlt := UInt64.toNat_lt_size w
  have hne : w.toNat ≠ largest.toNat := fun h => hw (UInt64.toNat_inj.mp h)
  show max 1 (min w.toNat (largest.toNat - 1)) = _
  rw [Nat.min_eq_left (by omega)]
  by_cases hzero : w = 0
  · subst hzero
    rfl
  · have hpos : w.toNat ≠ 0 := fun h => hzero (UInt64.toNat_inj.mp h)
    rw [limit, if_neg hzero, Nat.max_eq_right (by omega)]

theorem size_lt_limit (hw : w ≠ largest) (line : Partial (.ofWord w)) :
    line.bytes.size < (limit w).toNat := by
  rw [← size_ofWord hw]
  exact line.room

theorem append_toArray_eq {bytes before : Array UInt8} {run : Bytes}
    (h : bytes.toList = before.toList ++ run) : bytes = before ++ run.toArray := by
  rw [← Array.toList_inj, h]
  simp

/-- A pass does what `take` does. -/
theorem scan_eq (hw : w ≠ largest) (line : Partial (.ofWord w)) (atHand : Bytes) :
    scan w line.bytes atHand = (take line atHand).scanned := by
  have hlt := size_lt_limit hw line
  have hcap := size_ofWord hw
  have hsound : ¬ overflows w line.bytes = true := fun h => hw ((overflows_iff hlt).mp h).1
  have hne0 : room w line.bytes + 1 ≠ 0 := fun h => hw ((room_add_one_eq_zero_iff hlt).mp h).1
  have hsum := toNat_add_one hne0
  rw [toNat_room (Nat.le_of_lt hlt)] at hsum
  have htakes := takes_take line atHand
  generalize take line atHand = taken at htakes ⊢
  cases htakes with
  | @more _ after free all =>
    have hbytes := append_toArray_eq all
    have hroom := after.room
    have hsize : after.bytes.size = line.bytes.size + atHand.length := by rw [hbytes]; simp
    rw [scan_more hsound (fun hmem => free (List.mem_of_mem_take hmem)) (by omega), ← hbytes]
    rfl
  | @line run rest bytes free all fits =>
    have hbytes := append_toArray_eq all
    have hsize : bytes.size = line.bytes.size + run.length := by rw [hbytes]; simp
    rw [scan_line rest hsound free (by omega), ← hbytes]
    rfl
  | @split run rest bytes free all full next =>
    have hbytes := append_toArray_eq all
    have hsize : bytes.size = line.bytes.size + run.length := by rw [hbytes]; simp
    -- The window is what fills the line, and the byte after that, if there is one.
    have hwindow : window w line.bytes (run ++ rest) = run ++ rest.take 1 := by
      have hcount : (room w line.bytes + 1).toNat = run.length + 1 := by omega
      rw [window, hcount, List.take_length_add_append]
    have hfree : newline ∉ window w line.bytes (run ++ rest) := by
      rw [hwindow, List.mem_append, not_or]
      refine ⟨free, fun hmem => next ?_⟩
      cases rest with
      | nil => contradiction
      | cons b rest => rw [List.mem_singleton.mp hmem]; rfl
    rw [scan_split hsound hfree (by omega), ← hbytes]
    rfl

end

/-! ## What the counts are -/

section

variable {w : UInt64} {buf : Array UInt8} {atHand : Bytes}

/-- A pass counts right unless the cap is the largest word and the line is empty. -/
theorem counted_iff (begun : buf.size < (limit w).toNat) (some : atHand ≠ []) :
    Counted w buf atHand ↔ ¬ (w = largest ∧ buf = #[]) := by
  have hroom := toNat_room (Nat.le_of_lt begun)
  constructor
  · intro h hlast
    have hsum := h.sum
    rw [(room_add_one_eq_zero_iff begun).mpr hlast] at hsum
    exact absurd hsum (Nat.zero_ne_add_one _)
  · intro hnot
    have hsum := toNat_add_one fun h => hnot ((room_add_one_eq_zero_iff begun).mp h)
    refine ⟨by omega, hsum, ?_, fun run rest hall free hfits => ?_⟩
    · rw [window, hsum, ne_eq, List.take_eq_nil_iff]
      simpa using some
    · rw [hall]
      exact scan_line rest (fun h => hnot ((overflows_iff begun).mp h)) free (by omega)

end

end ToolRunner.Line
