import ToolRunner.Toml.Document

/-!
# No key twice

What a document says, it says once: in whatever is read from a document, no table has a key twice,
however deep it lies, and however its header, dotted keys and braces have contributed to it
(`Document.parse_distinct`).
-/

namespace ToolRunner.Toml

/-- No table inside a value has a key twice. -/
inductive Value.Distinct : Value → Prop where
  | text (content : String) : Distinct (.text content)
  | truth (b : Bool) : Distinct (.truth b)
  | number (written : String) : Distinct (.number written)
  | moment (written : String) : Distinct (.moment written)
  | array (ofTables : Bool) (items : List Value) (all : ∀ v ∈ items, Distinct v) :
      Distinct (.array ofTables items)
  | table (origin : Origin) (entries : List (String × Value)) (keys : (entries.map (·.1)).Nodup)
      (values : ∀ e ∈ entries, Distinct e.2) : Distinct (.table origin entries)

/-- No key stands twice among the entries, nor in any table inside them. -/
structure Entries.Distinct (entries : Entries) : Prop where
  keys : (entries.map (·.1)).Nodup
  values : ∀ e ∈ entries, e.2.Distinct

theorem Value.distinct_table_iff {origin : Origin} {entries : Entries} :
    (Value.table origin entries).Distinct ↔ entries.Distinct := by
  constructor
  · rintro (_ | _ | _ | _ | _ | ⟨_, _, keys, values⟩)
    exact ⟨keys, values⟩
  · exact fun h => .table origin entries h.keys h.values

theorem Value.distinct_array_iff {ofTables : Bool} {items : List Value} :
    (Value.array ofTables items).Distinct ↔ ∀ v ∈ items, v.Distinct := by
  constructor
  · rintro (_ | _ | _ | _ | ⟨_, _, all⟩)
    exact all
  · exact .array ofTables items

namespace Entries

variable {entries entries' : Entries} {key : String} {v : Value} {isDotted : Bool}

theorem distinct_nil : Distinct [] := ⟨List.nodup_nil, nofun⟩

theorem distinct_cons_iff {e : String × Value} :
    Distinct (e :: entries) ↔ e.1 ∉ entries.map (·.1) ∧ e.2.Distinct ∧ Distinct entries := by
  constructor
  · intro h
    obtain ⟨hkey, hkeys⟩ := List.nodup_cons.mp h.keys
    obtain ⟨hvalue, hvalues⟩ := List.forall_mem_cons.mp h.values
    exact ⟨hkey, hvalue, hkeys, hvalues⟩
  · rintro ⟨hkey, hvalue, h⟩
    exact ⟨List.nodup_cons.mpr ⟨hkey, h.keys⟩, List.forall_mem_cons.mpr ⟨hvalue, h.values⟩⟩

/-! ## Looking up a key -/

theorem find?_eq_some_iff (distinct : entries.Distinct) :
    entries.find? key = some v ↔ (key, v) ∈ entries := by
  induction entries with
  | nil => simp [find?]
  | cons e es ih =>
    obtain ⟨hkey, -, hrest⟩ := distinct_cons_iff.mp distinct
    have hmem : e.1 = key → (key, v) ∉ es := by
      rintro rfl hmem
      exact hkey (List.mem_map.mpr ⟨(e.1, v), hmem, rfl⟩)
    obtain ⟨k, w⟩ := e
    rw [find?, List.lookup_cons]
    by_cases hk : key = k
    · subst hk
      simp [hmem rfl, eq_comm]
    · rw [beq_false_of_ne hk]
      simp [hk, ← ih hrest, find?]

theorem find?_eq_none_iff (distinct : entries.Distinct) :
    entries.find? key = none ↔ ∀ v, (key, v) ∉ entries := by
  simp only [Option.eq_none_iff_forall_ne_some, ne_eq, find?_eq_some_iff distinct]

/-! ## Changes of entries -/

/-- A change of one value makes distinct values of distinct ones. -/
def Sparing (change : Option Value → Option Value) : Prop :=
  ∀ old new, (∀ v, old = some v → v.Distinct) → change old = some new → new.Distinct

/-- So does a change of a table. -/
def SparingTable (change : Origin → Entries → Option Entries) : Prop :=
  ∀ origin old new, Distinct old → change origin old = some new → Distinct new

/-- A change of one value adds its key at most. -/
theorem mem_keys_of_alter {change : Option Value → Option Value}
    (h : alter key change entries = some entries') {k : String}
    (mem : k ∈ entries'.map (·.1)) : k = key ∨ k ∈ entries.map (·.1) := by
  induction entries generalizing entries' with
  | nil =>
    obtain ⟨v, -, rfl⟩ := Option.map_eq_some_iff.mp h
    exact .inl (List.mem_singleton.mp mem)
  | cons e es ih =>
    unfold alter at h
    split at h
    · rename_i hkey
      obtain ⟨v, -, rfl⟩ := Option.map_eq_some_iff.mp h
      rcases List.mem_cons.mp mem with hk | hk
      · exact .inl hk
      · exact .inr (List.mem_cons_of_mem _ hk)
    · obtain ⟨fs, hfs, rfl⟩ := Option.map_eq_some_iff.mp h
      rcases List.mem_cons.mp mem with hk | hk
      · exact .inr (hk ▸ List.mem_cons_self)
      · exact (ih hfs hk).imp_right (List.mem_cons_of_mem _)

theorem distinct_alter {change : Option Value → Option Value} (sparing : Sparing change)
    (distinct : Distinct entries) (h : alter key change entries = some entries') :
    Distinct entries' := by
  induction entries generalizing entries' with
  | nil =>
    obtain ⟨v, hv, rfl⟩ := Option.map_eq_some_iff.mp h
    exact distinct_cons_iff.mpr ⟨List.not_mem_nil, sparing none v nofun hv, distinct_nil⟩
  | cons e es ih =>
    obtain ⟨hkey, hvalue, hrest⟩ := distinct_cons_iff.mp distinct
    unfold alter at h
    split at h
    · rename_i hsame
      obtain ⟨v, hv, rfl⟩ := Option.map_eq_some_iff.mp h
      refine distinct_cons_iff.mpr ⟨hsame ▸ hkey, sparing (some e.2) v ?_ hv, hrest⟩
      intro w hw
      injection hw with hw
      exact hw ▸ hvalue
    · rename_i hother
      obtain ⟨fs, hfs, rfl⟩ := Option.map_eq_some_iff.mp h
      refine distinct_cons_iff.mpr ⟨fun hmem => ?_, hvalue, ih hrest hfs⟩
      rcases mem_keys_of_alter hfs hmem with hsame | hmem
      · exact hother hsame
      · exact hkey hmem

theorem distinct_addNew {value : Value} (hv : value.Distinct) (distinct : Distinct entries)
    (h : addNew key value entries = some entries') : Distinct entries' := by
  refine distinct_alter ?_ distinct h
  intro old new _ hnew
  dsimp only at hnew
  split at hnew
  · contradiction
  · injection hnew with hnew
    exact hnew ▸ hv

theorem distinct_alterLast {change : Origin → Entries → Option Entries}
    (sparing : SparingTable change) {items items' : List Value}
    (distinct : ∀ v ∈ items, v.Distinct) (h : alterLast change items = some items') :
    ∀ v ∈ items', v.Distinct := by
  induction items using alterLast.induct generalizing items' with
  | case1 => cases h
  | case2 origin entries =>
    obtain ⟨es, hes, rfl⟩ := Option.map_eq_some_iff.mp h
    have htable := Value.distinct_table_iff.mp (distinct _ List.mem_cons_self)
    have hafter : (Value.table origin es).Distinct :=
      Value.distinct_table_iff.mpr (sparing origin entries es htable hes)
    simpa using hafter
  | case3 v hno => simp [alterLast] at h
  | case4 v w vs ih =>
    rw [alterLast] at h
    obtain ⟨vs', hvs, rfl⟩ := Option.map_eq_some_iff.mp h
    obtain ⟨hv, hrest⟩ := List.forall_mem_cons.mp distinct
    exact List.forall_mem_cons.mpr ⟨hv, ih hrest hvs⟩

/-- However deep the table lies that is changed, the whole stays distinct. -/
theorem distinct_alterBelow {path : List String} {change : Origin → Entries → Option Entries}
    (sparing : SparingTable change) : SparingTable (alterBelow isDotted path change) := by
  induction path with
  | nil => exact sparing
  | cons key path ih =>
    intro origin old new distinct h
    unfold alterBelow at h
    refine distinct_alter ?_ distinct h
    intro before after hbefore hafter
    dsimp only at hafter
    split at hafter
    · obtain ⟨es, hes, rfl⟩ := Option.map_eq_some_iff.mp hafter
      exact Value.distinct_table_iff.mpr (ih _ _ _ distinct_nil hes)
    · split at hafter
      · contradiction
      · obtain ⟨es, hes, rfl⟩ := Option.map_eq_some_iff.mp hafter
        have htable := Value.distinct_table_iff.mp (hbefore _ rfl)
        exact Value.distinct_table_iff.mpr (ih _ _ _ htable hes)
    · obtain ⟨items, hitems, rfl⟩ := Option.map_eq_some_iff.mp hafter
      have harray := Value.distinct_array_iff.mp (hbefore _ rfl)
      exact Value.distinct_array_iff.mpr (distinct_alterLast ih harray hitems)
    · contradiction

theorem distinct_addKey {path : List String} {value : Value} (hv : value.Distinct) :
    SparingTable (addKey path key value) := by
  intro origin old new distinct h
  refine distinct_alterBelow ?_ origin old new distinct h
  intro _ before after hbefore hafter
  dsimp only at hafter
  split at hafter
  · contradiction
  · exact distinct_addNew hv hbefore hafter

/-- A change of one value anywhere below. -/
theorem distinct_alterAt {path : List String} {change : Option Value → Option Value}
    (sparing : Sparing change) :
    SparingTable (alterBelow isDotted path fun _ es => es.alter key change) :=
  distinct_alterBelow fun _ _ _ hbefore hafter => distinct_alter sparing hbefore hafter

theorem distinct_openTable {path : List String} (distinct : Distinct entries)
    (h : openTable path key entries = some entries') : Distinct entries' := by
  refine distinct_alterAt ?_ .header entries entries' distinct h
  intro old new hold hnew
  dsimp only at hnew
  split at hnew
  · injection hnew with hnew
    exact hnew ▸ Value.distinct_table_iff.mpr distinct_nil
  · injection hnew with hnew
    exact hnew ▸ Value.distinct_table_iff.mpr (Value.distinct_table_iff.mp (hold _ rfl))
  · contradiction

theorem distinct_openItem {path : List String} (distinct : Distinct entries)
    (h : openItem path key entries = some entries') : Distinct entries' := by
  refine distinct_alterAt ?_ .header entries entries' distinct h
  have hfresh : (Value.table .header []).Distinct := Value.distinct_table_iff.mpr distinct_nil
  intro old new hold hnew
  dsimp only at hnew
  split at hnew
  · injection hnew with hnew
    subst hnew
    refine Value.distinct_array_iff.mpr ?_
    simpa using hfresh
  · injection hnew with hnew
    subst hnew
    have hitems := Value.distinct_array_iff.mp (hold _ rfl)
    refine Value.distinct_array_iff.mpr fun v hv => ?_
    rcases List.mem_append.mp hv with hv | hv
    · exact hitems v hv
    · exact List.mem_singleton.mp hv ▸ hfresh
  · contradiction

end Entries

/-! ## What is read -/

namespace Document

open Entries (distinct_nil distinct_addKey distinct_alterBelow distinct_openTable
  distinct_openItem)

variable {v : Value} {p p' : Progress} {cs rest : List Char} {fuel depth : Nat}

theorem distinct_scalar (h : Scalar.value? cs = some v) : v.Distinct := by
  unfold Scalar.value? at h
  split at h
  · injection h with h
    exact h ▸ .truth true
  split at h
  · injection h with h
    exact h ▸ .truth false
  split at h
  · injection h with h
    exact h ▸ .number _
  · obtain ⟨written, -, rfl⟩ := Option.map_eq_some_iff.mp h
    exact .moment written

theorem distinct_quoted {read : Option (String × List Char)}
    (h : read.map (Prod.map .text id) = some (v, rest)) : v.Distinct := by
  obtain ⟨⟨content, rest'⟩, -, heq⟩ := Option.map_eq_some_iff.mp h
  injection heq with heq
  exact heq ▸ .text content

theorem distinct_simpleValue (h : simpleValue cs = some (v, rest)) : v.Distinct := by
  unfold simpleValue at h
  split at h
  · exact distinct_quoted h
  · exact distinct_quoted h
  · exact distinct_quoted h
  · exact distinct_quoted h
  · obtain ⟨w, hw, heq⟩ := Option.map_eq_some_iff.mp h
    injection heq with heq
    exact heq ▸ distinct_scalar hw

/-! Each reader that calls the others does so in one of a few ways. -/

theorem value_cases (h : value (fuel + 1) depth cs = some (v, rest)) :
    (∃ depth cs, items fuel depth [] cs = some (v, rest)) ∨
      (∃ depth cs, pairs fuel depth [] cs = some (v, rest)) ∨
      simpleValue cs = some (v, rest) := by
  unfold value at h
  split at h
  · exact .inl ⟨_, _, h⟩
  · exact .inr (.inl ⟨_, _, h⟩)
  · exact .inr (.inr h)

theorem items_cases {before : List Value}
    (h : items (fuel + 1) depth before cs = some (v, rest)) :
    v = .array false before.reverse ∨
      ∃ w left right, value fuel depth left = some (w, right) ∧
        (v = .array false (w :: before).reverse ∨
          ∃ more, items fuel depth (w :: before) more = some (v, rest)) := by
  unfold items at h
  obtain ⟨start, -, h⟩ := Option.bind_eq_some_iff.mp h
  split at h
  · injection h with h
    injection h with h
    exact .inl h.symm
  · obtain ⟨⟨w, right⟩, hw, h⟩ := Option.bind_eq_some_iff.mp h
    obtain ⟨more, -, h⟩ := Option.bind_eq_some_iff.mp h
    refine .inr ⟨w, _, right, hw, ?_⟩
    split at h
    · exact .inr ⟨_, h⟩
    · injection h with h
      injection h with h
      exact .inl h.symm
    · contradiction

theorem pairs_cases {before : Entries}
    (h : pairs (fuel + 1) depth before cs = some (v, rest)) :
    v = .table .inline before ∨
      ∃ path name w left right after, value fuel depth left = some (w, right) ∧
        before.addKey path name w .inline = some after ∧
        (v = .table .inline after ∨ ∃ more, pairs fuel depth after more = some (v, rest)) := by
  unfold pairs at h
  obtain ⟨start, -, h⟩ := Option.bind_eq_some_iff.mp h
  split at h
  · injection h with h
    injection h with h
    exact .inl h.symm
  · obtain ⟨⟨⟨path, name⟩, beyond⟩, -, h⟩ := Option.bind_eq_some_iff.mp h
    obtain ⟨sign, -, h⟩ := Option.bind_eq_some_iff.mp h
    split at h
    · obtain ⟨left, -, h⟩ := Option.bind_eq_some_iff.mp h
      obtain ⟨⟨w, right⟩, hw, h⟩ := Option.bind_eq_some_iff.mp h
      obtain ⟨after, hafter, h⟩ := Option.bind_eq_some_iff.mp h
      obtain ⟨more, -, h⟩ := Option.bind_eq_some_iff.mp h
      refine .inr ⟨path, name, w, left, right, after, hw, hafter, ?_⟩
      split at h
      · exact .inr ⟨_, h⟩
      · injection h with h
        injection h with h
        exact .inl h.symm
      · contradiction
    · contradiction

/-- All three readers of values, by the number of steps that they may make. -/
theorem distinct_readers (fuel : Nat) :
    (∀ {depth cs v rest}, value fuel depth cs = some (v, rest) → v.Distinct) ∧
      (∀ {depth before cs v rest}, (∀ w ∈ before, w.Distinct) →
        items fuel depth before cs = some (v, rest) → v.Distinct) ∧
      ∀ {depth before cs v rest}, Entries.Distinct before →
        pairs fuel depth before cs = some (v, rest) → v.Distinct := by
  induction fuel with
  | zero =>
    refine ⟨?_, ?_, ?_⟩
    · intro depth cs v rest h
      cases h
    · intro depth before cs v rest _ h
      cases h
    · intro depth before cs v rest _ h
      cases h
  | succ fuel ih =>
    obtain ⟨hvalue, hitems, hpairs⟩ := ih
    refine ⟨?_, ?_, ?_⟩
    · intro depth cs v rest h
      rcases value_cases h with ⟨_, _, h⟩ | ⟨_, _, h⟩ | h
      · exact hitems (List.forall_mem_nil _) h
      · exact hpairs distinct_nil h
      · exact distinct_simpleValue h
    · intro depth before cs v rest hbefore h
      rcases items_cases h with rfl | ⟨w, left, right, hw, h⟩
      · exact Value.distinct_array_iff.mpr fun w hw => hbefore w (List.mem_reverse.mp hw)
      · have hall := List.forall_mem_cons.mpr ⟨hvalue hw, hbefore⟩
        rcases h with rfl | ⟨more, h⟩
        · exact Value.distinct_array_iff.mpr fun w hw => hall w (List.mem_reverse.mp hw)
        · exact hitems hall h
    · intro depth before cs v rest hbefore h
      rcases pairs_cases h with rfl | ⟨path, name, w, left, right, after, hw, hafter, h⟩
      · exact Value.distinct_table_iff.mpr hbefore
      · have hall := distinct_addKey (hvalue hw) .inline _ after hbefore hafter
        rcases h with rfl | ⟨more, h⟩
        · exact Value.distinct_table_iff.mpr hall
        · exact hpairs hall h

theorem distinct_pairLine (distinct : p.entries.Distinct) (h : pairLine p cs = some (p', rest)) :
    p'.entries.Distinct := by
  unfold pairLine at h
  obtain ⟨⟨⟨path, name⟩, beyond⟩, -, h⟩ := Option.bind_eq_some_iff.mp h
  dsimp only at h
  split at h
  · obtain ⟨⟨w, right⟩, hw, h⟩ := Option.bind_eq_some_iff.mp h
    obtain ⟨next, hnext, h⟩ := Option.bind_eq_some_iff.mp h
    injection h with h
    injection h with h
    subst h
    obtain ⟨entries, hentries, heq⟩ := Option.bind_eq_some_iff.mp hnext
    injection heq with heq
    subst heq
    refine distinct_alterBelow ?_ .header p.entries entries distinct hentries
    intro origin old new hold hnew
    exact distinct_addKey ((distinct_readers _).1 hw) origin old new hold hnew
  · contradiction

theorem distinct_line (distinct : p.entries.Distinct) (h : line p cs = some (p', rest)) :
    p'.entries.Distinct := by
  unfold line at h
  split at h
  · obtain ⟨⟨⟨path, name⟩, beyond⟩, -, h⟩ := Option.bind_eq_some_iff.mp h
    dsimp only at h
    split at h
    · obtain ⟨entries, hentries, h⟩ := Option.bind_eq_some_iff.mp h
      injection h with h
      injection h with h
      exact h ▸ distinct_openItem distinct hentries
    · contradiction
  · obtain ⟨⟨⟨path, name⟩, beyond⟩, -, h⟩ := Option.bind_eq_some_iff.mp h
    dsimp only at h
    split at h
    · obtain ⟨entries, hentries, h⟩ := Option.bind_eq_some_iff.mp h
      injection h with h
      injection h with h
      exact h ▸ distinct_openTable distinct hentries
    · contradiction
  · exact distinct_pairLine distinct h

theorem distinct_lines {entries : Entries} (distinct : p.entries.Distinct)
    (h : lines fuel p cs = some entries) : entries.Distinct := by
  induction fuel generalizing p cs with
  | zero => cases h
  | succ fuel ih =>
    unfold lines at h
    obtain ⟨start, -, h⟩ := Option.bind_eq_some_iff.mp h
    split at h
    · injection h with h
      exact h ▸ distinct
    · obtain ⟨⟨next, right⟩, hline, h⟩ := Option.bind_eq_some_iff.mp h
      dsimp only at h
      split at h
      · exact ih (distinct_line distinct hline) h
      · contradiction

/-- A document says nothing twice. -/
theorem parse_distinct {text : String} {entries : Entries} (h : parse text = some entries) :
    entries.Distinct :=
  distinct_lines distinct_nil h

end Document

end ToolRunner.Toml
