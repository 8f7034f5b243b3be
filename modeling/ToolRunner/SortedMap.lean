/-!
# Maps in key order

Environment overrides and configured variables are listed in the order of their names, and of two
values given for a name the later one holds. `SortedMap` keeps its entries in strictly ascending
order, so that maps with the same entries are equal.
-/

namespace ToolRunner

open Std (TransOrd LawfulEqOrd ReflOrd TransCmp OrientedCmp)

/-- Entries with distinct keys in ascending order. -/
structure SortedMap (κ α : Type) [Ord κ] where
  toList : List (κ × α)
  sorted : toList.Pairwise fun a b => compare a.1 b.1 = .lt

namespace SortedMap

variable {κ α β : Type} [Ord κ]

instance [DecidableEq κ] [DecidableEq α] : DecidableEq (SortedMap κ α) := fun m n =>
  if h : m.toList = n.toList then
    .isTrue (by cases m; cases n; cases h; rfl)
  else .isFalse fun e => h (congrArg toList e)

theorem ext {m n : SortedMap κ α} (h : m.toList = n.toList) : m = n := by
  cases m; cases n; cases h; rfl

def empty : SortedMap κ α := ⟨[], .nil⟩

instance : EmptyCollection (SortedMap κ α) := ⟨empty⟩

instance : Inhabited (SortedMap κ α) := ⟨empty⟩

/-- Places an entry among sorted ones; an entry with the same key gives way. -/
def place (k : κ) (v : α) : List (κ × α) → List (κ × α)
  | [] => [(k, v)]
  | e :: es =>
    match compare k e.1 with
    | .lt => (k, v) :: e :: es
    | .eq => (k, v) :: es
    | .gt => e :: place k v es

theorem mem_place {k : κ} {v : α} {e : κ × α} {es : List (κ × α)} (h : e ∈ place k v es) :
    e = (k, v) ∨ e ∈ es := by
  induction es with
  | nil => simpa [place] using h
  | cons f fs ih =>
    simp only [place] at h
    split at h
    · simpa using h
    · rcases List.mem_cons.1 h with h | h
      · exact .inl h
      · exact .inr (List.mem_cons_of_mem _ h)
    · rcases List.mem_cons.1 h with h | h
      · exact .inr (h ▸ List.mem_cons_self)
      · rcases ih h with h | h
        · exact .inl h
        · exact .inr (List.mem_cons_of_mem _ h)

theorem place_sorted [TransOrd κ] [LawfulEqOrd κ] (k : κ) (v : α) {es : List (κ × α)}
    (h : es.Pairwise fun a b => compare a.1 b.1 = .lt) :
    (place k v es).Pairwise fun a b => compare a.1 b.1 = .lt := by
  induction es with
  | nil => simp [place]
  | cons e es ih =>
    obtain ⟨he, hes⟩ := List.pairwise_cons.1 h
    simp only [place]
    split
    · rename_i hk
      refine List.pairwise_cons.2 ⟨fun f hf => ?_, h⟩
      rcases List.mem_cons.1 hf with rfl | hf
      · exact hk
      · exact TransCmp.lt_trans hk (he f hf)
    · rename_i hk
      have hke : k = e.1 := LawfulEqOrd.eq_of_compare hk
      exact List.pairwise_cons.2 ⟨fun f hf => hke ▸ he f hf, hes⟩
    · rename_i hk
      refine List.pairwise_cons.2 ⟨fun f hf => ?_, ih hes⟩
      rcases mem_place hf with rfl | hf
      · exact OrientedCmp.lt_of_gt hk
      · exact he f hf

theorem place_after [TransOrd κ] {k : κ} (v : α) {es : List (κ × α)}
    (h : ∀ e ∈ es, compare e.1 k = .lt) : place k v es = es ++ [(k, v)] := by
  induction es with
  | nil => rfl
  | cons e es ih =>
    obtain ⟨he, hes⟩ := List.forall_mem_cons.mp h
    rw [place, OrientedCmp.gt_of_lt he]
    exact congrArg (e :: ·) (ih hes)

/-- The value of the first entry whose key is `k`. -/
def lookup (k : κ) : List (κ × α) → Option α
  | [] => none
  | e :: es => if compare k e.1 = .eq then some e.2 else lookup k es

def find? (m : SortedMap κ α) (k : κ) : Option α :=
  lookup k m.toList

def keys (m : SortedMap κ α) : List κ :=
  m.toList.map (·.1)

theorem lookup_place_of_ne [LawfulEqOrd κ] {k l : κ} (v : α) (es : List (κ × α)) (h : l ≠ k) :
    lookup l (place k v es) = lookup l es := by
  have hl : compare l k ≠ .eq := fun e => h (LawfulEqOrd.eq_of_compare e)
  induction es with
  | nil => simp [place, lookup, hl]
  | cons e es ih =>
    simp only [place]
    split
    · simp [lookup, hl]
    · rename_i hk
      have hke : k = e.1 := LawfulEqOrd.eq_of_compare hk
      simp [lookup, hl, ← hke]
    · simp only [lookup]
      split <;> simp_all

theorem lookup_place_self [TransOrd κ] (k : κ) (v : α) (es : List (κ × α)) :
    lookup k (place k v es) = some v := by
  induction es with
  | nil => simp [place, lookup]
  | cons e es ih =>
    simp only [place]
    split
    · simp [lookup]
    · simp [lookup]
    · rename_i hk
      simp [lookup, hk, ih]

theorem lookup_append (k : κ) (es fs : List (κ × α)) :
    lookup k (es ++ fs) = (lookup k es).or (lookup k fs) := by
  induction es with
  | nil => rfl
  | cons e es ih =>
    simp only [List.cons_append, lookup]
    split
    · rfl
    · exact ih

theorem lookup_eq_none [LawfulEqOrd κ] {k : κ} {es : List (κ × α)} (h : k ∉ es.map (·.1)) :
    lookup k es = none := by
  induction es with
  | nil => rfl
  | cons e es ih =>
    obtain ⟨hne, hnot⟩ := not_or.mp (mt List.mem_cons.mpr h)
    rw [lookup, if_neg fun he => hne (LawfulEqOrd.eq_of_compare he)]
    exact ih hnot

/-- Among entries with distinct keys the value of a key is that of its entry. -/
theorem lookup_eq_some_iff [LawfulEqOrd κ] {k : κ} {v : α} {es : List (κ × α)}
    (distinct : (es.map (·.1)).Nodup) : lookup k es = some v ↔ (k, v) ∈ es := by
  induction es with
  | nil => simp [lookup]
  | cons e es ih =>
    rw [List.map_cons, List.nodup_cons] at distinct
    rw [lookup, List.mem_cons]
    by_cases hk : k = e.1
    · subst hk
      have hnot : (e.1, v) ∉ es := fun hmem =>
        distinct.1 (List.mem_map.mpr ⟨(e.1, v), hmem, rfl⟩)
      rw [if_pos ReflOrd.compare_self]
      simp [hnot, Prod.ext_iff, eq_comm]
    · rw [if_neg fun h => hk (LawfulEqOrd.eq_of_compare h), ih distinct.2]
      simp [Prod.ext_iff, hk]

theorem nodup_keys [ReflOrd κ] (m : SortedMap κ α) : (m.toList.map (·.1)).Nodup := by
  refine List.pairwise_map.mpr (m.sorted.imp fun {a b} hlt heq => ?_)
  rw [heq, ReflOrd.compare_self] at hlt
  contradiction

theorem find?_eq_some_iff [LawfulEqOrd κ] {m : SortedMap κ α} {k : κ} {v : α} :
    m.find? k = some v ↔ (k, v) ∈ m.toList := lookup_eq_some_iff m.nodup_keys

variable [TransOrd κ] [LawfulEqOrd κ]

/-- The map with `k` set to `v`. -/
def insert (m : SortedMap κ α) (k : κ) (v : α) : SortedMap κ α :=
  ⟨place k v m.toList, place_sorted k v m.sorted⟩

/-- Sets the entries one after another, so that later ones win. -/
def insertAll (m : SortedMap κ α) (es : List (κ × α)) : SortedMap κ α :=
  es.foldl (fun m e => m.insert e.1 e.2) m

def ofList (es : List (κ × α)) : SortedMap κ α :=
  empty.insertAll es

@[simp] theorem find?_insert_self (m : SortedMap κ α) (k : κ) (v : α) :
    (m.insert k v).find? k = some v :=
  lookup_place_self k v m.toList

theorem find?_insert_of_ne (m : SortedMap κ α) {k l : κ} (v : α) (h : l ≠ k) :
    (m.insert k v).find? l = m.find? l :=
  lookup_place_of_ne v m.toList h

/-- The last value that is given for a key holds. -/
theorem find?_insertAll (m : SortedMap κ α) (es : List (κ × α)) (k : κ) :
    (m.insertAll es).find? k = (lookup k es.reverse).or (m.find? k) := by
  induction es generalizing m with
  | nil => rfl
  | cons e es ih =>
    show ((m.insert e.1 e.2).insertAll es).find? k = _
    rw [ih, List.reverse_cons, lookup_append, Option.or_assoc]
    by_cases hk : k = e.1
    · subst hk
      simp [lookup]
    · rw [find?_insert_of_ne m e.2 hk, lookup, if_neg fun h => hk (LawfulEqOrd.eq_of_compare h)]
      rfl

/-- All entries of the map are old or given. -/
theorem mem_insertAll {m : SortedMap κ α} {es : List (κ × α)} {e : κ × α}
    (h : e ∈ (m.insertAll es).toList) : e ∈ m.toList ∨ e ∈ es := by
  induction es generalizing m with
  | nil => exact .inl h
  | cons f es ih =>
    rcases ih (m := m.insert f.1 f.2) h with h | h
    · rcases mem_place h with rfl | h
      · exact .inr List.mem_cons_self
      · exact .inl h
    · exact .inr (List.mem_cons_of_mem _ h)

/-- Entries that come after all others in the order of the keys are added at the end. -/
theorem toList_insertAll {m : SortedMap κ α} {es : List (κ × α)}
    (h : (m.toList ++ es).Pairwise fun a b => compare a.1 b.1 = .lt) :
    (m.insertAll es).toList = m.toList ++ es := by
  induction es generalizing m with
  | nil => exact (List.append_nil _).symm
  | cons e es ih =>
    have hlt : ∀ f ∈ m.toList, compare f.1 e.1 = .lt := fun f hf =>
      (List.pairwise_append.1 h).2.2 f hf e List.mem_cons_self
    have hinsert : (m.insert e.1 e.2).toList = m.toList ++ [e] := place_after e.2 hlt
    show ((m.insert e.1 e.2).insertAll es).toList = _
    rw [ih (by rwa [hinsert, List.append_assoc]), hinsert, List.append_assoc, List.singleton_append]

theorem ofList_toList (m : SortedMap κ α) : ofList m.toList = m :=
  ext (toList_insertAll (m := empty) m.sorted)

end SortedMap

end ToolRunner
