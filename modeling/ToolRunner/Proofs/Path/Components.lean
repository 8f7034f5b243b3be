import ToolRunner.Proofs.Path.Parts

/-!
# The components of paths

How a path is written makes no difference to its components (`components_congr`). To go up from a
name takes that component away and leaves the others (`components_of_fileName?`), and to join a name
adds it (`components_join`).
-/

namespace ToolRunner

/-- Some first parts make the beginning of what all parts make. -/
theorem Bytes.joinWith_prefix (sep : Bytes) (parts more : List Bytes) :
    joinWith sep parts <+: joinWith sep (parts ++ more) := by
  induction parts with
  | nil => exact List.nil_prefix
  | cons part parts ih =>
    cases parts with
    | nil =>
      cases more with
      | nil => exact List.prefix_refl _
      | cons next more => exact ⟨sep ++ joinWith sep (next :: more), (List.append_assoc ..).symm⟩
    | cons next parts =>
      show part ++ sep ++ joinWith sep (next :: parts) <+:
        part ++ sep ++ joinWith sep (next :: parts ++ more)
      exact (List.prefix_append_right_inj _).mpr ih

namespace Path

open Bytes (splitOn joinWith)

variable {p q : Path} {part n first : Bytes} {rest voids : List Bytes}

theorem firstComponent?_congr (h : isAbsolute q = isAbsolute p) (part : Bytes) :
    firstComponent? q part = firstComponent? p part := by
  rw [firstComponent?, firstComponent?, h]

theorem components_eq (hp : splitOn slash p = first :: rest) :
    components p = (firstComponent? p first).toList ++ rest.filterMap component? := by
  rw [components, hp]

/-- Void parts are no components. -/
theorem filterMap_component? (parts : List Bytes) :
    (parts.filter (!isVoid ·)).filterMap component? = parts.filterMap component? := by
  rw [List.filterMap_filter]
  refine List.filterMap_congr fun part _ => ?_
  cases hvoid : isVoid part <;> simp [component?, hvoid]

/-- Two paths that begin in the same way and have the same parts, but for void ones, have the same
components: slashes at the end, slashes in a row and a `.` inside make no difference. -/
theorem components_congr {rest' : List Bytes} (hp : splitOn slash p = first :: rest)
    (hq : splitOn slash q = first :: rest') (habsolute : isAbsolute q = isAbsolute p)
    (hrest : rest'.filter (!isVoid ·) = rest.filter (!isVoid ·)) :
    components q = components p := by
  rw [components_eq hp, components_eq hq, firstComponent?_congr habsolute,
    ← filterMap_component? rest, ← filterMap_component? rest', hrest]

/-- The components of a path are those of the parts that are walked before what is joined to it. -/
theorem components_of_below (hp : below p = first :: rest) :
    components p = (firstComponent? p first).toList ++ rest.filterMap component? := by
  rcases splitOn_eq_below p with h | h
  · exact components_eq (h.trans hp)
  · have hvoid : AllVoid [[]] := List.forall_mem_singleton.mpr rfl
    rw [hp, List.cons_append] at h
    rw [components_eq h, List.filterMap_append, filterMap_component?_void hvoid, List.append_nil]

theorem below_eq_nil (h : below p = []) : p = [] := by
  rcases splitOn_eq_below p with hp | hp
  · exact absurd (hp.trans h) (Bytes.splitOn_ne_nil slash p)
  · rw [← Bytes.joinWith_splitOn slash p, hp, h]
    rfl

/-- A path that begins with a name, after which void parts come only, is that name. -/
theorem components_of_first (hp : splitOn slash p = n :: voids) (hvoids : AllVoid voids)
    (hn : component? n = some (.name n)) : isAbsolute p = false ∧ components p = [.name n] := by
  obtain ⟨-, hvoid, -⟩ := component?_name.mp hn
  have hrelative : isAbsolute p = false := by
    rw [Bool.eq_false_iff, ne_eq, isAbsolute_iff, hp]
    rintro ⟨rest, -, h⟩
    exact isVoid_ne_nil hvoid (List.cons.inj h).1
  have hdot : n ≠ dot := by
    rintro rfl
    cases hvoid
  refine ⟨hrelative, ?_⟩
  rw [components_eq hp, filterMap_component?_void hvoids, firstComponent?, hrelative,
    if_neg Bool.false_ne_true, if_neg hdot, hn]
  rfl

/-! ## Going up -/

/-- What is written below a path, a name and void parts, adds the name to the components. -/
theorem components_append_name {more : List Bytes} (hq : below q = first :: rest)
    (hp : splitOn slash p = first :: rest ++ (more ++ n :: voids))
    (habsolute : isAbsolute q = isAbsolute p) (hmore : AllVoid more) (hvoids : AllVoid voids)
    (hn : component? n = some (.name n)) : components p = components q ++ [.name n] := by
  rw [List.cons_append] at hp
  rw [components_eq hp, components_of_below hq, firstComponent?_congr habsolute]
  simp only [List.filterMap_append, List.filterMap_cons, filterMap_component?_void hmore,
    filterMap_component?_void hvoids, hn, List.nil_append, List.append_assoc]

/-- Above a path that ends with a name there is one with the other components, which the path
begins with. -/
theorem components_of_fileName? (hname : fileName? p = some n) :
    ∃ q, parent? p = some q ∧ components p = components q ++ [.name n] ∧ q <+: p := by
  obtain ⟨init, voids, hp, hvoids, hn, hup⟩ := parts_of_fileName? hname
  have hcomponent : component? n = some (.name n) := component?_name.mpr ⟨rfl, hn, hup⟩
  cases init with
  | nil =>
    refine ⟨[], ?_, (components_of_first hp hvoids hcomponent).2, List.nil_prefix⟩
    simp only [parent?, hp, List.nil_append, dropVoidEnd_void hvoids, if_neg (isVoid_ne_nil hn)]
  | cons first init =>
    rw [List.cons_append] at hp
    have hprefix (parts more : List Bytes) (h : splitOn slash p = parts ++ more) :
        joinWith [slash] parts <+: p := by
      rw [← Bytes.joinWith_splitOn slash p, h]
      exact Bytes.joinWith_prefix [slash] parts more
    obtain ⟨x, xs, hx⟩ := List.exists_cons_of_ne_nil (show init ++ [n] ≠ [] by simp)
    rcases allVoid_or_last init with hmore | ⟨kept, m, more, rfl, hm, hmore⟩
    · -- The name stands right below the root or the first part.
      obtain ⟨hbelow, habsolute⟩ := below_top hp (by simp) rfl
      refine ⟨_, ?_, components_append_name hbelow hp habsolute hmore hvoids hcomponent, ?_⟩
      · simp only [parent?, hp, dropVoidEnd_append hn hvoids, hx]
        rw [← hx, List.dropLast_concat]
        simp only [dropVoidEnd_void hmore]
      · split
        · rename_i hroot
          obtain ⟨tail, rfl⟩ := List.head?_eq_some_iff.mp (eq_of_beq hroot)
          exact List.prefix_append [slash] tail
        · exact hprefix [first] _ hp
    · obtain ⟨y, ys, hy⟩ := List.exists_cons_of_ne_nil (show kept ++ [m] ≠ [] by simp)
      have hkept : kept ++ [m] <+: kept ++ m :: more ++ n :: voids :=
        ⟨more ++ n :: voids, by simp⟩
      obtain ⟨hbelow, habsolute⟩ := below_joined hp hkept (isVoid_ne_nil hm) rfl
      have hparts : splitOn slash p = first :: (kept ++ [m]) ++ (more ++ n :: voids) := by
        rw [hp]
        simp
      refine ⟨_, ?_, components_append_name hbelow hparts habsolute hmore hvoids hcomponent,
        hprefix _ _ hparts⟩
      simp only [parent?, hp, dropVoidEnd_append hn hvoids, hx]
      rw [← hx, List.dropLast_concat]
      simp only [dropVoidEnd_append hm hmore, hy]

/-! ## Joining a name -/

/-- Joining a name adds it to the components. -/
theorem components_join (hq : splitOn slash q = [n]) (hn : component? n = some (.name n)) :
    components (join p q) = components p ++ [.name n] := by
  obtain ⟨hrelative, hname⟩ := components_of_first hq .nil hn
  have hparts := splitOn_join (p := p) hrelative
  rw [hq] at hparts
  cases hbelow : below p with
  | nil =>
    obtain rfl := below_eq_nil hbelow
    rw [show join [] q = q by rw [join, if_neg (by simp [hrelative]), if_pos rfl]]
    exact hname
  | cons first rest =>
    rw [hbelow] at hparts
    have hsplit : splitOn slash (join p q) = first :: rest ++ ([] ++ n :: []) := hparts
    exact components_append_name hbelow hsplit (isAbsolute_join hrelative).symm .nil .nil hn

end Path

end ToolRunner
