import Mathlib.Data.List.DropRight
import Mathlib.Data.List.Induction
import ToolRunner.Path

/-!
# The parts of paths

What is joined to a path is walked after the parts of the path, of which a slash at its end adds
none. Taking a path apart is the reverse: where a path ends with a name, the path above it and the
name have its parts, but for void ones between and after them.
-/

namespace ToolRunner.Path

open Bytes (splitOn joinWith)

variable {p q : Path} {part n : Bytes} {parts voids : List Bytes}

/-- Parts at which a walk stays where it is. -/
def AllVoid (parts : List Bytes) : Prop := ∀ part ∈ parts, isVoid part

theorem AllVoid.nil : AllVoid [] := nofun

theorem isVoid_ne_nil (h : isVoid n = false) : n ≠ [] := by
  rintro rfl
  cases h

theorem component?_name : component? part = some (.name n) ↔
    part = n ∧ isVoid n = false ∧ n ≠ dotdot := by
  unfold component?
  split
  · rename_i hv
    simp only [reduceCtorEq, false_iff, not_and]
    rintro rfl hname
    rw [hv] at hname
    cases hname
  · rename_i hv
    split
    · rename_i hup
      simp only [Option.some.injEq, reduceCtorEq, false_iff, not_and, not_not]
      rintro rfl _
      exact hup
    · rename_i hup
      simp only [Option.some.injEq, Component.name.injEq]
      constructor
      · rintro rfl
        exact ⟨rfl, by simpa using hv, hup⟩
      · exact And.left

theorem AllVoid.append (h : AllVoid parts) (h' : AllVoid voids) : AllVoid (parts ++ voids) :=
  List.forall_mem_append.mpr ⟨h, h'⟩

theorem filterMap_component?_void (h : AllVoid voids) : voids.filterMap component? = [] := by
  apply List.filterMap_eq_nil_iff.mpr
  intro part hpart
  simp [component?, h part hpart]

/-! ## Absolute paths -/

theorem isAbsolute_iff :
    isAbsolute p = true ↔ ∃ rest, rest ≠ [] ∧ splitOn slash p = [] :: rest := by
  cases p with
  | nil => simp [isAbsolute, splitOn]
  | cons b p =>
    by_cases hb : b = slash
    · subst hb
      simp [isAbsolute, splitOn, Bytes.splitOn_ne_nil]
    · simp only [isAbsolute, List.head?_cons, splitOn, if_neg hb]
      cases splitOn slash p <;> simp [hb]

/-- Where a path begins is told by its first part, if there is a second one. -/
theorem isAbsolute_congr {first : Bytes} {rest rest' : List Bytes}
    (hp : splitOn slash p = first :: rest) (hq : splitOn slash q = first :: rest')
    (hrest : rest ≠ []) (hrest' : rest' ≠ []) : isAbsolute q = isAbsolute p := by
  rw [Bool.eq_iff_iff, isAbsolute_iff, isAbsolute_iff]
  simp [hp, hq, hrest, hrest']

/-- Something stands before the first slash of a path that is not absolute. -/
theorem exists_first_part (hp : p ≠ []) (hrelative : isAbsolute p = false) :
    ∃ first rest, splitOn slash p = first :: rest ∧ first ≠ [] := by
  obtain ⟨first, rest, h⟩ := List.exists_cons_of_ne_nil (Bytes.splitOn_ne_nil slash p)
  refine ⟨first, rest, h, ?_⟩
  rintro rfl
  cases rest with
  | nil =>
    apply hp
    rw [← Bytes.joinWith_splitOn slash p, h]
    rfl
  | cons next rest =>
    rw [isAbsolute_iff.mpr ⟨_, by simp, h⟩] at hrelative
    cases hrelative

/-! ## What is in the parts -/

/-- Every byte of a path is in one of its parts, but for the slashes. -/
theorem exists_part_of_mem {b : UInt8} (hb : b ∈ p) (hslash : b ≠ slash) :
    ∃ part ∈ splitOn slash p, b ∈ part := by
  rw [← Bytes.joinWith_splitOn slash p, Bytes.mem_joinWith] at hb
  rcases hb with h | ⟨h, -⟩
  · exact h
  · exact absurd h hslash

theorem mem_of_mem_part {b : UInt8} (hpart : part ∈ splitOn slash p) (hb : b ∈ part) : b ∈ p := by
  rw [← Bytes.joinWith_splitOn slash p, Bytes.mem_joinWith]
  exact .inl ⟨part, hpart, hb⟩

theorem length_le_of_sublist (h : (splitOn slash q).Sublist (splitOn slash p)) :
    q.length ≤ p.length := by
  rw [← Bytes.joinWith_splitOn slash q, ← Bytes.joinWith_splitOn slash p]
  exact Bytes.length_joinWith_le h

/-! ## Joining -/

/-- The parts that are walked before what is joined to a path. -/
def below (p : Path) : List Bytes :=
  if p = [] then []
  else if p.getLast? = some slash then (splitOn slash p).dropLast
  else splitOn slash p

theorem splitOn_eq_below (p : Path) :
    splitOn slash p = below p ∨ splitOn slash p = below p ++ [[]] := by
  unfold below
  split
  · rename_i hp
    subst hp
    exact .inr rfl
  · split
    · rename_i hlast
      obtain ⟨init, rfl⟩ := List.getLast?_eq_some_iff.mp hlast
      right
      rw [Bytes.splitOn_append_sep]
      simp [splitOn]
    · exact .inl rfl

theorem splitOn_join (hq : isAbsolute q = false) :
    splitOn slash (join p q) = below p ++ splitOn slash q := by
  unfold join below
  rw [if_neg (by simp [hq])]
  split
  · rfl
  · split
    · rename_i hlast
      obtain ⟨init, rfl⟩ := List.getLast?_eq_some_iff.mp hlast
      rw [List.append_assoc, List.singleton_append, Bytes.splitOn_append_sep,
        Bytes.splitOn_append_sep]
      simp [splitOn]
    · rw [Bytes.splitOn_append_sep]

theorem join_eq_append (hp : p ≠ []) (hq : isAbsolute q = false) :
    join p q = p ++ q ∨ join p q = p ++ slash :: q := by
  unfold join
  rw [if_neg (by simp [hq]), if_neg hp]
  split
  · exact .inl rfl
  · exact .inr rfl

theorem isAbsolute_join (hq : isAbsolute q = false) :
    isAbsolute (join p q) = isAbsolute p := by
  cases p with
  | nil =>
    rw [join, if_neg (by simp [hq]), if_pos rfl, hq]
    rfl
  | cons b p => rcases join_eq_append (List.cons_ne_nil b p) hq with h | h <;> rw [h] <;> rfl

/-- A path that does not end with a slash has all its parts walked before what is joined to it. -/
theorem below_of_last {init : List Bytes} (hp : splitOn slash p = init ++ [n]) (hn : n ≠ []) :
    below p = splitOn slash p := by
  rcases splitOn_eq_below p with h | h
  · exact h.symm
  · rw [hp] at h
    exact absurd (List.append_inj' h rfl).2 (by simpa using hn)

/-- The last name of a path is walked before what is joined to it, and after it void parts only. -/
theorem below_of_parts {init : List Bytes} (hp : splitOn slash p = init ++ n :: voids)
    (hvoids : AllVoid voids) (hn : n ≠ []) :
    ∃ voids, below p = init ++ n :: voids ∧ AllVoid voids := by
  rcases splitOn_eq_below p with h | h
  · exact ⟨voids, by rw [← h, hp], hvoids⟩
  · rw [hp] at h
    rcases voids.eq_nil_or_concat with rfl | ⟨voids, last, rfl⟩
    · exact absurd (List.append_inj' h rfl).2 (by simpa using hn)
    · rw [List.concat_eq_append, ← List.cons_append, ← List.append_assoc] at h
      obtain ⟨hbelow, -⟩ := List.append_inj' h rfl
      refine ⟨voids, hbelow.symm, fun part hpart => hvoids part ?_⟩
      rw [List.concat_eq_append]
      exact List.mem_append_left _ hpart

/-! ## Taking apart -/

theorem dropVoidEnd_void (h : AllVoid voids) : dropVoidEnd voids = [] :=
  List.rdropWhile_eq_nil_iff.mpr h

theorem dropVoidEnd_append (hn : isVoid n = false) (h : AllVoid voids) :
    dropVoidEnd (parts ++ n :: voids) = parts ++ [n] := by
  have hall : ∀ part ∈ voids.reverse, isVoid part := fun part hpart =>
    h part (List.mem_reverse.mp hpart)
  have hreverse : (parts ++ n :: voids).reverse = voids.reverse ++ n :: parts.reverse := by simp
  rw [dropVoidEnd, hreverse, List.dropWhile_append_of_pos hall, List.dropWhile_cons,
    if_neg (by simp [hn])]
  simp

/-- Parts are void, or one of them is the last that is not. -/
theorem allVoid_or_last (parts : List Bytes) :
    AllVoid parts ∨
      ∃ kept n voids, parts = kept ++ n :: voids ∧ isVoid n = false ∧ AllVoid voids := by
  induction parts using List.reverseRecOn with
  | nil => exact .inl .nil
  | append_singleton parts last ih =>
    cases hlast : isVoid last with
    | false => exact .inr ⟨parts, last, [], rfl, hlast, .nil⟩
    | true =>
      have hsnoc : ∀ {voids}, AllVoid voids → AllVoid (voids ++ [last]) := fun h =>
        h.append (List.forall_mem_singleton.mpr hlast)
      rcases ih with hvoid | ⟨kept, n, voids, rfl, hn, hvoid⟩
      · exact .inl (hsnoc hvoid)
      · exact .inr ⟨kept, n, voids ++ [last], by simp, hn, hsnoc hvoid⟩

/-- There is one last part that is not void. -/
theorem last_unique {init init' : List Bytes} {n' : Bytes} (h : init ++ [n] = init' ++ n' :: voids)
    (hn : isVoid n = false) (hvoids : AllVoid voids) : init = init' ∧ n = n' := by
  rcases voids.eq_nil_or_concat with rfl | ⟨voids, last, rfl⟩
  · obtain ⟨hinit, hlast⟩ := List.append_inj' h rfl
    exact ⟨hinit, List.singleton_inj.mp hlast⟩
  · rw [List.concat_eq_append, ← List.cons_append, ← List.append_assoc] at h
    obtain ⟨-, hlast⟩ := List.append_inj' h rfl
    have hvoid : isVoid last := hvoids last (by simp)
    rw [← List.singleton_inj.mp hlast, hn] at hvoid
    cases hvoid

theorem fileName?_of_parts {init : List Bytes} (hp : splitOn slash p = init ++ [n])
    (hn : isVoid n = false) (hup : n ≠ dotdot) : fileName? p = some n := by
  have hname : component? n = some (.name n) := component?_name.mpr ⟨rfl, hn, hup⟩
  cases init with
  | nil =>
    have hrelative : ¬ isAbsolute p := by
      rw [isAbsolute_iff, hp]
      rintro ⟨rest, hrest, h⟩
      exact hrest (by simpa using (List.cons.inj h).2.symm)
    have hdot : n ≠ dot := by
      rintro rfl
      cases hn
    simp [fileName?, components, hp, firstComponent?, hrelative, hdot, hname]
  | cons first init => simp [fileName?, components, hp, hname]

/-- A file name is the last part that is not void. -/
theorem parts_of_fileName? (hname : fileName? p = some n) :
    ∃ init voids, splitOn slash p = init ++ n :: voids ∧ AllVoid voids ∧ isVoid n = false ∧
      n ≠ dotdot := by
  obtain ⟨first, rest, hp⟩ := List.exists_cons_of_ne_nil (Bytes.splitOn_ne_nil slash p)
  have hlast : ((firstComponent? p first).toList ++ rest.filterMap component?).getLast? =
      some (.name n) := by
    simp only [fileName?, components, hp] at hname
    split at hname
    · rename_i h
      cases hname
      exact h
    · cases hname
  rcases allVoid_or_last rest with hvoid | ⟨kept, m, voids, rfl, hm, hvoid⟩
  · rw [filterMap_component?_void hvoid, List.append_nil] at hlast
    have hfirst : component? first = some (.name n) := by
      unfold firstComponent? at hlast
      split at hlast
      · cases hlast
      · split at hlast
        · cases hlast
        · cases hc : component? first with
          | none => simp [hc] at hlast
          | some c => simpa [hc] using hlast
    obtain ⟨rfl, hn, hup⟩ := component?_name.mp hfirst
    exact ⟨[], rest, hp, hvoid, hn, hup⟩
  · have hmn : component? m = some (.name n) := by
      rw [List.filterMap_append, List.filterMap_cons, filterMap_component?_void hvoid] at hlast
      cases hc : component? m with
      | none =>
        unfold component? at hc
        rw [if_neg (by simp [hm])] at hc
        split at hc <;> cases hc
      | some c => simpa [hc] using hlast
    obtain ⟨rfl, hn, hup⟩ := component?_name.mp hmn
    exact ⟨first :: kept, voids, hp, hvoid, hn, hup⟩

/-- Above a name that stands below nothing but the first part is the root, or that part. -/
theorem below_top {first : Bytes} {rest : List Bytes} (hp : splitOn slash p = first :: rest)
    (hrest : rest ≠ []) (hq : q = if isAbsolute p then [slash] else first) :
    below q = [first] ∧ isAbsolute q = isAbsolute p := by
  cases habsolute : isAbsolute p with
  | true =>
    obtain ⟨_, -, h⟩ := isAbsolute_iff.mp habsolute
    obtain ⟨rfl, -⟩ := List.cons.inj (hp.symm.trans h)
    rw [habsolute, if_pos rfl] at hq
    subst hq
    exact ⟨rfl, rfl⟩
  | false =>
    rw [habsolute, if_neg (by simp)] at hq
    subst hq
    have hfirst : q ≠ [] := by
      rintro rfl
      rw [isAbsolute_iff.mpr ⟨_, hrest, hp⟩] at habsolute
      cases habsolute
    have hslash : slash ∉ q := Bytes.not_mem_of_mem_splitOn (hp ▸ List.mem_cons_self)
    have hparts : splitOn slash q = [] ++ [q] := Bytes.splitOn_of_not_mem hslash
    refine ⟨(below_of_last hparts hfirst).trans hparts, ?_⟩
    rw [Bool.eq_false_iff, ne_eq, isAbsolute_iff, hparts]
    rintro ⟨_, -, h⟩
    exact hfirst (List.cons.inj h).1

/-- Above a name that stands below others is the path of those others. -/
theorem below_joined {first : Bytes} {kept rest : List Bytes}
    (hp : splitOn slash p = first :: rest) (hkept : kept ++ [n] <+: rest) (hn : n ≠ [])
    (hq : q = joinWith [slash] (first :: (kept ++ [n]))) :
    below q = first :: (kept ++ [n]) ∧ isAbsolute q = isAbsolute p := by
  have hslash : ∀ part ∈ first :: (kept ++ [n]), slash ∉ part := by
    intro part hpart
    apply Bytes.not_mem_of_mem_splitOn
    rw [hp]
    exact (List.prefix_cons_inj first).mpr hkept |>.subset hpart
  have hparts : splitOn slash q = (first :: kept) ++ [n] := by
    rw [hq]
    exact Bytes.splitOn_joinWith (by simp) hslash
  have hrest : rest ≠ [] := by
    rintro rfl
    simp at hkept
  exact ⟨(below_of_last hparts hn).trans hparts,
    isAbsolute_congr hp hparts hrest (by simp)⟩

/-- The path above a name has the parts before it, but for void ones at their end. -/
theorem parts_of_parent? (hq : parent? p = some q) (hname : fileName? p = some n) :
    ∃ more voids, splitOn slash p = below q ++ (more ++ n :: voids) ∧ AllVoid more ∧
      AllVoid voids ∧ isVoid n = false ∧ n ≠ dotdot ∧ isAbsolute q = isAbsolute p := by
  obtain ⟨init, voids, hp, hvoids, hn, hup⟩ := parts_of_fileName? hname
  cases init with
  | nil =>
    have hrelative : isAbsolute p = false := by
      rw [Bool.eq_false_iff, ne_eq, isAbsolute_iff, hp]
      rintro ⟨rest, -, h⟩
      exact isVoid_ne_nil hn (List.cons.inj h).1
    simp only [parent?, hp, List.nil_append, dropVoidEnd_void hvoids, if_neg (isVoid_ne_nil hn),
      Option.some.injEq] at hq
    subst hq
    exact ⟨[], voids, hp, .nil, hvoids, hn, hup, hrelative.symm⟩
  | cons first init =>
    obtain ⟨x, xs, hx⟩ := List.exists_cons_of_ne_nil (show init ++ [n] ≠ [] by simp)
    simp only [parent?, hp, List.cons_append, dropVoidEnd_append hn hvoids, hx] at hq
    rw [← hx, List.dropLast_concat] at hq
    rcases allVoid_or_last init with hmore | ⟨kept, m, more, rfl, hm, hmore⟩
    · simp only [dropVoidEnd_void hmore, Option.some.injEq] at hq
      obtain ⟨hbelow, habsolute⟩ := below_top hp (by simp) hq.symm
      exact ⟨init, voids, by rw [hp, hbelow]; rfl, hmore, hvoids, hn, hup, habsolute⟩
    · obtain ⟨y, ys, hy⟩ := List.exists_cons_of_ne_nil (show kept ++ [m] ≠ [] by simp)
      simp only [dropVoidEnd_append hm hmore, hy, Option.some.injEq] at hq
      rw [← hy] at hq
      obtain ⟨hbelow, habsolute⟩ :=
        below_joined hp ⟨more ++ n :: voids, by simp⟩ (isVoid_ne_nil hm) hq.symm
      exact ⟨more, voids, by rw [hp, hbelow]; simp, hmore, hvoids, hn, hup, habsolute⟩

end ToolRunner.Path
