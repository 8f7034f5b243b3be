import Mathlib
import ToolRunner.Config.Load
import ToolRunner.Proofs.Toml.Keys

/-!
# What a config file states

Which documents are configurations, and of which settings, is said here by the values that a
document gives to the keys of its parts (`Conforms`, `States`), in whatever order it does so. A file
is loaded exactly if its document conforms, and as what that states; to state a standard value
besides, or to leave one out, makes no difference (`load_iff_conforms`).
-/

namespace ToolRunner

/-! ## Maps by their values -/

namespace SortedMap

variable {κ α : Type} [Ord κ] [Std.TransOrd κ] [Std.LawfulEqOrd κ]

/-- Maps that have the same values are the same. -/
theorem eq_of_find? {m n : SortedMap κ α}
    (same : ∀ k v, m.find? k = some v ↔ n.find? k = some v) : m = n := by
  have : Std.Irrefl fun a b : κ × α => compare a.1 b.1 = .lt :=
    ⟨fun a h => by rw [Std.ReflOrd.compare_self] at h; contradiction⟩
  have : Std.Antisymm fun a b : κ × α => compare a.1 b.1 = .lt :=
    ⟨fun a b hab hba => by rw [Std.OrientedCmp.gt_of_lt hab] at hba; contradiction⟩
  refine ext (m.sorted.eq_of_mem_iff n.sorted fun e => ?_)
  rw [← find?_eq_some_iff, ← find?_eq_some_iff, same]

/-- Of entries with distinct keys every one is in the map. -/
theorem find?_ofList_eq_some_iff {es : List (κ × α)} (distinct : (es.map (·.1)).Nodup) {k : κ}
    {v : α} : (ofList es).find? k = some v ↔ (k, v) ∈ es := by
  have hreverse : (es.reverse.map (·.1)).Nodup := by
    rwa [List.map_reverse, List.nodup_reverse]
  rw [ofList, find?_insertAll, show (empty : SortedMap κ α).find? k = none from rfl, Option.or_none,
    lookup_eq_some_iff hreverse, List.mem_reverse]

end SortedMap

namespace Config

open Toml (Value Entries Origin)
open Decode

variable {doc other : Entries} {name key : String} {v : Value} {s : Settings} {α : Type}

/-! ## Documents by what they give -/

def partNames : List String := ["sdk", "run", "env"]

/-- A document gives a key of a part a value. -/
def Gives (doc : Entries) (part key : String) (v : Value) : Prop :=
  ∃ origin entries, (part, .table origin entries) ∈ doc ∧ (key, v) ∈ entries

def isPlain : Value → Bool
  | .array .. | .table .. => false
  | _ => true

/-- The parts of a document are tables, where it has them, and choices are plain values. -/
structure Shaped (doc : Entries) : Prop where
  tables : ∀ part ∈ partNames, ∀ v, (part, v) ∈ doc → ∃ origin entries, v = .table origin entries
  mode : ∀ v, Gives doc "run" "mode" v → isPlain v = true
  routing : ∀ v, Gives doc "run" "routing" v → isPlain v = true

/-- A document has nothing but what a config file may have. -/
structure Conforms (doc : Entries) : Prop where
  parts : ∀ e ∈ doc, e.1 ∈ partNames
  sdk : ∀ key v, Gives doc "sdk" key v →
    key = "root" ∧ (∃ text, v = .text text) ∨ key = "usage_reporting" ∧ ∃ b, v = .truth b
  run : ∀ key v, Gives doc "run" key v →
    key = "mode" ∧ (v = .text "sync" ∨ v = .text "async") ∨
      key = "routing" ∧ (v = .text "captured" ∨ v = .text "inherited")
  env : ∀ key v, Gives doc "env" key v → ∃ text, v = .text text

/-- A setting is what the value means that a document gives, or the standard where it gives none. -/
structure Stated (doc : Entries) (part key : String) (Means : Value → α → Prop) (standard a : α) :
    Prop where
  given : ∀ v, Gives doc part key v → Means v a
  absent : (∀ v, ¬ Gives doc part key v) → a = standard

/-- What the values of each key mean. -/
def MeansRoot (v : Value) (root : Option Path) : Prop :=
  ∃ text, v = .text text ∧ root = some (Path.ofString text)

def MeansTruth (v : Value) (b : Bool) : Prop := v = .truth b

def MeansMode (v : Value) (m : Mode) : Prop := v = .text m.name

def MeansRouting (v : Value) (r : Routing) : Prop := v = .text r.name

/-- The settings are those that a document gives, with the standard in the place of absent ones. -/
structure States (doc : Entries) (s : Settings) : Prop where
  root : Stated doc "sdk" "root" MeansRoot none s.root
  usageReporting : Stated doc "sdk" "usage_reporting" MeansTruth false s.usageReporting
  mode : Stated doc "run" "mode" MeansMode .synchronous s.mode
  routing : Stated doc "run" "routing" MeansRouting .captured s.routing
  environment : ∀ name value,
    s.environment.find? name = some value ↔ Gives doc "env" name (.text value)

/-- The values that say what holds without them, with their parts and keys. -/
def standardValues : List (String × String × Value) :=
  [("sdk", "usage_reporting", .truth false), ("run", "mode", .text "sync"),
    ("run", "routing", .text "captured")]

/-- Another document gives the same values in some order, or leaves out or adds standard ones. -/
structure Restates (doc other : Entries) : Prop where
  parts : ∀ e ∈ other, e.1 ∈ partNames ∨ ∃ v, (e.1, v) ∈ doc
  kept : ∀ part key v, Gives doc part key v →
    Gives other part key v ∨ (part, key, v) ∈ standardValues
  added : ∀ part key v, Gives other part key v →
    Gives doc part key v ∨ (part, key, v) ∈ standardValues

/-- A variable and its value as an entry of a table. -/
def variableEntry (pair : String × String) : String × Value := (pair.1, .text pair.2)

/-- The entries of a part of a document; an absent part has none. -/
def entriesOf (doc : Entries) (part : String) : Entries :=
  match doc.find? part with
  | some (.table _ entries) => entries
  | _ => []

theorem gives_iff (distinct : doc.Distinct) :
    Gives doc name key v ↔ (key, v) ∈ entriesOf doc name := by
  constructor
  · rintro ⟨origin, entries, hpart, hmem⟩
    rwa [entriesOf, (Entries.find?_eq_some_iff distinct).mpr hpart]
  · intro hmem
    unfold entriesOf at hmem
    split at hmem
    · rename_i origin entries hfind
      exact ⟨origin, entries, (Entries.find?_eq_some_iff distinct).mp hfind, hmem⟩
    · contradiction

theorem distinct_entriesOf (distinct : doc.Distinct) (name : String) :
    (entriesOf doc name).Distinct := by
  unfold entriesOf
  split
  · rename_i origin entries hfind
    have hmem := (Entries.find?_eq_some_iff distinct).mp hfind
    exact Toml.Value.distinct_table_iff.mp (distinct.values _ hmem)
  · exact Entries.distinct_nil

theorem Gives.unique (distinct : doc.Distinct) {w : Value} (hv : Gives doc name key v)
    (hw : Gives doc name key w) : v = w := by
  rw [gives_iff distinct, ← Entries.find?_eq_some_iff (distinct_entriesOf distinct name)] at hv hw
  exact Option.some.inj (hv.symm.trans hw)

/-! ## Reading one value -/

namespace Decode

theorem text?_eq_some_iff {text : String} : text? v = some text ↔ v = .text text := by
  cases v <;> simp [text?]

theorem truth?_eq_some_iff {b : Bool} : truth? v = some b ↔ MeansTruth v b := by
  cases v <;> simp [truth?, MeansTruth]

theorem root?_eq_some_iff {root : Option Path} :
    (text? v).map (some ∘ Path.ofString) = some root ↔ MeansRoot v root := by
  rw [Option.map_eq_some_iff]
  exact exists_congr fun text => and_congr text?_eq_some_iff eq_comm

/-- A choice that is found under a name is the one of that name. -/
theorem eq_of_lookup {nameOf : α → String} {all : List α} {text : String} {a : α}
    (h : (all.map fun a => (nameOf a, a)).lookup text = some a) : text = nameOf a := by
  obtain ⟨before, after, hsplit, -⟩ := List.lookup_eq_some_iff.mp h
  have hmem : (text, a) ∈ all.map fun a => (nameOf a, a) := by
    rw [hsplit]
    exact List.mem_append_right _ List.mem_cons_self
  obtain ⟨b, -, heq⟩ := List.mem_map.mp hmem
  injection heq with htext hb
  rw [← htext, hb]

/-- A plain value is a choice as a text only. -/
theorem choice?_eq_some_iff {nameOf : α → String} {all : List α}
    (found : ∀ a, (all.map fun a => (nameOf a, a)).lookup (nameOf a) = some a)
    (plain : isPlain v = true) {a : α} :
    choice? (all.map fun a => (nameOf a, a)) v = some a ↔ v = .text (nameOf a) := by
  constructor
  · intro h
    cases v with
    | text content => exact congrArg Value.text (eq_of_lookup h)
    | array ofTables items => cases plain
    | table origin entries => cases plain
    | _ => cases h
  · rintro rfl
    exact found a

theorem mode?_eq_some_iff (plain : isPlain v = true) {m : Mode} :
    mode? v = some m ↔ MeansMode v m :=
  choice?_eq_some_iff (fun m => by cases m <;> rfl) plain

theorem routing?_eq_some_iff (plain : isPlain v = true) {r : Routing} :
    routing? v = some r ↔ MeansRouting v r :=
  choice?_eq_some_iff (fun r => by cases r <;> rfl) plain

/-- The pairs of a table of texts are its entries. -/
theorem texts?_eq_some_iff {origin : Origin} {entries : Entries} {pairs : List (String × String)} :
    texts? (.table origin entries) = some pairs ↔ entries = pairs.map variableEntry := by
  show entries.mapM (fun e => (text? e.2).map (e.1, ·)) = some pairs ↔ _
  induction entries generalizing pairs with
  | nil =>
    cases pairs <;> simp
  | cons e es ih =>
    rw [List.mapM_cons, Option.bind_eq_bind, Option.bind_eq_some_iff]
    constructor
    · rintro ⟨first, hfirst, hrest⟩
      obtain ⟨text, htext, rfl⟩ := Option.map_eq_some_iff.mp hfirst
      obtain ⟨rest, hes, hpairs⟩ := Option.bind_eq_some_iff.mp hrest
      injection hpairs with hpairs
      rw [← hpairs, List.map_cons, ← ih.mp hes, variableEntry, ← text?_eq_some_iff.mp htext]
    · intro heq
      obtain ⟨pair, rest, rfl, rfl, hes⟩ := List.map_eq_cons_iff.mp heq.symm
      exact ⟨pair, rfl, by rw [ih.mpr hes.symm]; rfl⟩

end Decode

/-! ## Reading a document -/

/-- A field is read exactly as what the document states. -/
theorem field_eq_some_iff (distinct : doc.Distinct) {read : Value → Option α}
    {Means : Value → α → Prop}
    (reads : ∀ v, Gives doc name key v → ∀ a, read v = some a ↔ Means v a)
    {standard a : α} :
    field (entriesOf doc name) key read standard = some a ↔
      Stated doc name key Means standard a := by
  have hpart := distinct_entriesOf distinct name
  unfold field
  cases hfind : (entriesOf doc name).find? key with
  | some v =>
    have hgives : Gives doc name key v :=
      (gives_iff distinct).mpr ((Entries.find?_eq_some_iff hpart).mp hfind)
    refine (reads v hgives a).trans ⟨fun hmeans => ⟨fun w hw => ?_, fun hnone => ?_⟩, fun h => ?_⟩
    · exact hgives.unique distinct hw ▸ hmeans
    · exact absurd hgives (hnone v)
    · exact h.given v hgives
  | none =>
    have hnone (v : Value) : ¬ Gives doc name key v := fun hgives =>
      (Entries.find?_eq_none_iff hpart).mp hfind v ((gives_iff distinct).mp hgives)
    constructor
    · intro h
      injection h with h
      exact ⟨fun v hv => absurd hv (hnone v), fun _ => h.symm⟩
    · exact fun h => congrArg some (h.absent hnone).symm

/-- A part that is absent is read like one that says nothing. -/
theorem part_eq (shaped : Shaped doc) (distinct : doc.Distinct) (mem : name ∈ partNames)
    {read : Value → Settings → Option Settings} {s : Settings}
    (origins : ∀ origin entries, read (.table origin entries) s = read (.table .header entries) s)
    (nothing : read (.table .header []) s = some s) :
    part doc name read s = read (.table .header (entriesOf doc name)) s := by
  unfold part entriesOf
  cases hfind : doc.find? name with
  | none => exact nothing.symm
  | some v =>
    obtain ⟨origin, entries, rfl⟩ :=
      shaped.tables name mem v ((Entries.find?_eq_some_iff distinct).mp hfind)
    exact origins origin entries

/-- The keys of a part are known ones. -/
theorem all_contains_iff (distinct : doc.Distinct) {names : List String} :
    (entriesOf doc name).all (names.contains ·.1) = true ↔
      ∀ key v, Gives doc name key v → key ∈ names := by
  rw [List.all_eq_true]
  constructor
  · intro h key v hgives
    simpa using h (key, v) ((gives_iff distinct).mp hgives)
  · rintro h ⟨key, v⟩ hmem
    simpa using h key v ((gives_iff distinct).mpr hmem)

/-- The fields of a table are its entries, where these have known keys only. -/
theorem fields?_eq_some_iff {names : List String} {required : Nat} {origin : Origin}
    {entries found : Entries} : fields? names required (.table origin entries) = some found ↔
      entries.all (names.contains ·.1) = true ∧ entries = found := by
  rw [fields?, Option.ite_none_right_eq_some, Option.some_inj]

theorem part_sdk_eq_some_iff (shaped : Shaped doc) (distinct : doc.Distinct) :
    part doc "sdk" sdk? {} = some s ↔
      (∀ key v, Gives doc "sdk" key v → key ∈ ["root", "usage_reporting"]) ∧
      ∃ root usageReporting, Stated doc "sdk" "root" MeansRoot none root ∧
        Stated doc "sdk" "usage_reporting" MeansTruth false usageReporting ∧
        s = { root, usageReporting } := by
  rw [part_eq shaped distinct (by simp [partNames]) (fun _ _ => rfl) rfl, sdk?]
  simp only [Option.bind_eq_bind, Option.bind_eq_some_iff, fields?_eq_some_iff,
    all_contains_iff distinct, and_assoc, exists_and_left, exists_eq_left',
    field_eq_some_iff distinct fun v _ a => root?_eq_some_iff,
    field_eq_some_iff distinct fun v _ a => truth?_eq_some_iff, Option.some.injEq, eq_comm (b := s)]

theorem part_run_eq_some_iff (shaped : Shaped doc) (distinct : doc.Distinct) {before : Settings} :
    part doc "run" run? before = some s ↔
      (∀ key v, Gives doc "run" key v → key ∈ ["mode", "routing"]) ∧
      ∃ mode routing, Stated doc "run" "mode" MeansMode before.mode mode ∧
        Stated doc "run" "routing" MeansRouting before.routing routing ∧
        s = { before with mode, routing } := by
  rw [part_eq shaped distinct (by simp [partNames]) (fun _ _ => rfl) rfl, run?]
  simp only [Option.bind_eq_bind, Option.bind_eq_some_iff, fields?_eq_some_iff,
    all_contains_iff distinct, and_assoc, exists_and_left, exists_eq_left',
    field_eq_some_iff distinct fun v hv a => mode?_eq_some_iff (shaped.mode v hv),
    field_eq_some_iff distinct fun v hv a => routing?_eq_some_iff (shaped.routing v hv),
    Option.some.injEq, eq_comm (b := s)]

theorem part_env_eq_some_iff (shaped : Shaped doc) (distinct : doc.Distinct) {before : Settings}
    (nothing : before.environment = ∅) :
    part doc "env" env? before = some s ↔
      ∃ pairs : List (String × String), entriesOf doc "env" = pairs.map variableEntry ∧
        s = { before with environment := .ofList pairs } := by
  have hempty : env? (.table .header []) before = some before := by
    show some { before with environment := .ofList [] } = some before
    rw [show SortedMap.ofList [] = before.environment from nothing.symm]
  rw [part_eq shaped distinct (by simp [partNames]) (fun _ _ => rfl) hempty, env?]
  simp only [Option.bind_eq_bind, Option.bind_eq_some_iff, texts?_eq_some_iff, Option.some.injEq,
    eq_comm (b := s)]

/-- What reading a document comes to: every part has known keys only, every field is read, and so is
every variable. -/
theorem settings?_eq_some_iff (shaped : Shaped doc) (distinct : doc.Distinct) :
    settings? doc = some s ↔
      (∀ e ∈ doc, e.1 ∈ partNames) ∧
      (∀ key v, Gives doc "sdk" key v → key ∈ ["root", "usage_reporting"]) ∧
      (∀ key v, Gives doc "run" key v → key ∈ ["mode", "routing"]) ∧
      Stated doc "sdk" "root" MeansRoot none s.root ∧
      Stated doc "sdk" "usage_reporting" MeansTruth false s.usageReporting ∧
      Stated doc "run" "mode" MeansMode .synchronous s.mode ∧
      Stated doc "run" "routing" MeansRouting .captured s.routing ∧
      ∃ pairs : List (String × String), entriesOf doc "env" = pairs.map variableEntry ∧
        s.environment = .ofList pairs := by
  have hparts : (doc.all (["sdk", "run", "env"].contains ·.1)) = true ↔
      ∀ e ∈ doc, e.1 ∈ partNames := by
    simp [List.all_eq_true, partNames]
  rw [settings?, Option.ite_none_right_eq_some, hparts]
  refine and_congr_right fun _ => ?_
  simp only [Option.bind_eq_bind, Option.bind_eq_some_iff]
  constructor
  · rintro ⟨s₁, hsdk, s₂, hrun, henv⟩
    obtain ⟨hkeys, root, usageReporting, hroot, husage, rfl⟩ :=
      (part_sdk_eq_some_iff shaped distinct).mp hsdk
    obtain ⟨hchoices, mode, routing, hmode, hrouting, rfl⟩ :=
      (part_run_eq_some_iff shaped distinct).mp hrun
    obtain ⟨pairs, hpairs, rfl⟩ := (part_env_eq_some_iff shaped distinct rfl).mp henv
    exact ⟨hkeys, hchoices, hroot, husage, hmode, hrouting, pairs, hpairs, rfl⟩
  · rintro ⟨hkeys, hchoices, hroot, husage, hmode, hrouting, pairs, hpairs, henv⟩
    refine ⟨_, (part_sdk_eq_some_iff shaped distinct).mpr ⟨hkeys, _, _, hroot, husage, rfl⟩,
      _, (part_run_eq_some_iff shaped distinct).mpr ⟨hchoices, _, _, hmode, hrouting, rfl⟩, ?_⟩
    refine (part_env_eq_some_iff shaped distinct rfl).mpr ⟨pairs, hpairs, ?_⟩
    rw [← henv]

/-! ## What a document states -/

theorem mem_map_variableEntry {pairs : List (String × String)} {value : String} :
    (name, .text value) ∈ pairs.map variableEntry ↔ (name, value) ∈ pairs := by
  simp [variableEntry]

theorem map_fst_variableEntry (pairs : List (String × String)) :
    (pairs.map variableEntry).map (·.1) = pairs.map (·.1) := List.map_map

/-- Entries whose values are texts are those of variables. -/
theorem exists_variables {entries : Entries}
    (texts : ∀ key v, (key, v) ∈ entries → ∃ text, v = .text text) :
    ∃ pairs : List (String × String), entries = pairs.map variableEntry := by
  have hrange : entries ∈ Set.range (List.map variableEntry) := by
    rw [Set.range_list_map]
    rintro ⟨key, v⟩ hmem
    obtain ⟨text, rfl⟩ := texts key v hmem
    exact ⟨(key, text), rfl⟩
  obtain ⟨pairs, hpairs⟩ := hrange
  exact ⟨pairs, hpairs.symm⟩

theorem environment_iff (distinct : doc.Distinct) {environment : SortedMap String String} :
    (∃ pairs : List (String × String), entriesOf doc "env" = pairs.map variableEntry ∧
        environment = .ofList pairs) ↔
      (∀ key v, Gives doc "env" key v → ∃ text, v = .text text) ∧
      ∀ name value, environment.find? name = some value ↔ Gives doc "env" name (.text value) := by
  simp only [gives_iff distinct]
  have hfind {pairs : List (String × String)}
      (hpairs : entriesOf doc "env" = pairs.map variableEntry) (name value : String) :
      (SortedMap.ofList pairs).find? name = some value ↔
        (name, .text value) ∈ entriesOf doc "env" := by
    have hkeys := (distinct_entriesOf distinct "env").keys
    rw [hpairs, map_fst_variableEntry] at hkeys
    rw [SortedMap.find?_ofList_eq_some_iff hkeys, hpairs, mem_map_variableEntry]
  constructor
  · rintro ⟨pairs, hpairs, rfl⟩
    refine ⟨fun key v hmem => ?_, hfind hpairs⟩
    rw [hpairs] at hmem
    obtain ⟨pair, -, heq⟩ := List.mem_map.mp hmem
    injection heq with _ hv
    exact ⟨pair.2, hv.symm⟩
  · rintro ⟨htexts, hsame⟩
    obtain ⟨pairs, hpairs⟩ := exists_variables htexts
    refine ⟨pairs, hpairs, SortedMap.eq_of_find? fun name value => ?_⟩
    rw [hsame, hfind hpairs]

theorem exists_meansMode_iff : (∃ m, MeansMode v m) ↔ v = .text "sync" ∨ v = .text "async" := by
  constructor
  · rintro ⟨m, h⟩
    cases m with
    | synchronous => exact .inl h
    | asynchronous => exact .inr h
  · rintro (rfl | rfl)
    · exact ⟨.synchronous, rfl⟩
    · exact ⟨.asynchronous, rfl⟩

theorem exists_meansRouting_iff :
    (∃ r, MeansRouting v r) ↔ v = .text "captured" ∨ v = .text "inherited" := by
  constructor
  · rintro ⟨r, h⟩
    cases r with
    | captured => exact .inl h
    | inherited => exact .inr h
  · rintro (rfl | rfl)
    · exact ⟨.captured, rfl⟩
    · exact ⟨.inherited, rfl⟩

/-- Where all given values mean something, there is a setting that is stated. -/
theorem exists_stated (Means : Value → α → Prop) (standard : α) (distinct : doc.Distinct)
    (fit : ∀ v, Gives doc name key v → ∃ a, Means v a) :
    ∃ a, Stated doc name key Means standard a := by
  by_cases hgiven : ∃ v, Gives doc name key v
  · obtain ⟨v, hv⟩ := hgiven
    obtain ⟨a, ha⟩ := fit v hv
    exact ⟨a, fun w hw => hv.unique distinct hw ▸ ha, fun hnone => absurd hv (hnone v)⟩
  · have hnone := not_exists.mp hgiven
    exact ⟨standard, fun v hv => absurd hv (hnone v), fun _ => rfl⟩

/-- A document is read as settings exactly if it conforms and states them. -/
theorem settings?_iff_states (shaped : Shaped doc) (distinct : doc.Distinct) :
    settings? doc = some s ↔ Conforms doc ∧ States doc s := by
  rw [settings?_eq_some_iff shaped distinct, environment_iff distinct]
  constructor
  · rintro ⟨hparts, hsdk, hrun, hroot, husage, hmode, hrouting, htexts, henv⟩
    refine ⟨⟨hparts, fun key v hv => ?_, fun key v hv => ?_, htexts⟩,
      ⟨hroot, husage, hmode, hrouting, henv⟩⟩
    · rcases List.mem_pair.mp (hsdk key v hv) with rfl | rfl
      · obtain ⟨text, htext, -⟩ := hroot.given v hv
        exact .inl ⟨rfl, text, htext⟩
      · exact .inr ⟨rfl, _, husage.given v hv⟩
    · rcases List.mem_pair.mp (hrun key v hv) with rfl | rfl
      · exact .inl ⟨rfl, exists_meansMode_iff.mp ⟨_, hmode.given v hv⟩⟩
      · exact .inr ⟨rfl, exists_meansRouting_iff.mp ⟨_, hrouting.given v hv⟩⟩
  · rintro ⟨hc, hs⟩
    refine ⟨hc.parts, fun key v hv => ?_, fun key v hv => ?_, hs.root, hs.usageReporting, hs.mode,
      hs.routing, hc.env, hs.environment⟩
    · rcases hc.sdk key v hv with ⟨rfl, -⟩ | ⟨rfl, -⟩ <;> simp
    · rcases hc.run key v hv with ⟨rfl, -⟩ | ⟨rfl, -⟩ <;> simp

/-- Whatever conforms states some settings. -/
theorem Conforms.exists_states (hc : Conforms doc) (distinct : doc.Distinct) :
    ∃ s, States doc s := by
  obtain ⟨root, hroot⟩ : ∃ root, Stated doc "sdk" "root" MeansRoot none root := by
    refine exists_stated _ _ distinct fun v hv => ?_
    rcases hc.sdk _ v hv with ⟨-, text, rfl⟩ | ⟨hkey, -⟩
    · exact ⟨_, text, rfl, rfl⟩
    · contradiction
  obtain ⟨usageReporting, husage⟩ :
      ∃ b, Stated doc "sdk" "usage_reporting" MeansTruth false b := by
    refine exists_stated _ _ distinct fun v hv => ?_
    rcases hc.sdk _ v hv with ⟨hkey, -⟩ | ⟨-, hb⟩
    · contradiction
    · exact hb
  obtain ⟨mode, hmode⟩ : ∃ m, Stated doc "run" "mode" MeansMode .synchronous m := by
    refine exists_stated _ _ distinct fun v hv => exists_meansMode_iff.mpr ?_
    rcases hc.run _ v hv with ⟨-, hnames⟩ | ⟨hkey, -⟩
    · exact hnames
    · contradiction
  obtain ⟨routing, hrouting⟩ : ∃ r, Stated doc "run" "routing" MeansRouting .captured r := by
    refine exists_stated _ _ distinct fun v hv => exists_meansRouting_iff.mpr ?_
    rcases hc.run _ v hv with ⟨hkey, -⟩ | ⟨-, hnames⟩
    · contradiction
    · exact hnames
  obtain ⟨pairs, hpairs⟩ := exists_variables fun key v hmem =>
    hc.env key v ((gives_iff distinct).mpr hmem)
  have henv := ((environment_iff distinct).mp ⟨pairs, hpairs, rfl⟩).2
  exact ⟨⟨root, usageReporting, mode, routing, .ofList pairs⟩,
    ⟨hroot, husage, hmode, hrouting, henv⟩⟩

/-! ## Documents that state the same -/

/-- A setting is stated all the same by a document that restates another, if the standard values of
its key mean the standard. -/
theorem Stated.restated {Means : Value → α → Prop} {standard a : α}
    (h : Stated doc name key Means standard a) (hr : Restates doc other)
    (distinct : other.Distinct)
    (standards : ∀ v, (name, key, v) ∈ standardValues → ∀ a, Means v a ↔ a = standard) :
    Stated other name key Means standard a := by
  have hstandard {v : Value} (hv : Gives doc name key v) (hmem : (name, key, v) ∈ standardValues) :
      a = standard := (standards v hmem a).mp (h.given v hv)
  constructor
  · intro v hv
    rcases hr.added name key v hv with hgiven | hmem
    · exact h.given v hgiven
    · -- A standard value is added only where the document gives none or a standard one itself.
      by_cases hgiven : ∃ w, Gives doc name key w
      · obtain ⟨w, hw⟩ := hgiven
        rcases hr.kept name key w hw with hkept | hmem'
        · exact hkept.unique distinct hv ▸ h.given w hw
        · exact (standards v hmem a).mpr (hstandard hw hmem')
      · exact (standards v hmem a).mpr (h.absent (not_exists.mp hgiven))
  · intro hnone
    by_cases hgiven : ∃ w, Gives doc name key w
    · obtain ⟨w, hw⟩ := hgiven
      rcases hr.kept name key w hw with hkept | hmem
      · exact absurd hkept (hnone w)
      · exact hstandard hw hmem
    · exact h.absent (not_exists.mp hgiven)

theorem States.restated (hs : States doc s) (hr : Restates doc other) (distinct : other.Distinct) :
    States other s := by
  constructor
  · exact hs.root.restated hr distinct (by simp [standardValues])
  · refine hs.usageReporting.restated hr distinct fun v hv b => ?_
    obtain rfl : v = .truth false := by simpa [standardValues] using hv
    simp [MeansTruth, eq_comm]
  · refine hs.mode.restated hr distinct fun v hv m => ?_
    obtain rfl : v = .text "sync" := by simpa [standardValues] using hv
    cases m <;> simp [MeansMode, Mode.name]
  · refine hs.routing.restated hr distinct fun v hv r => ?_
    obtain rfl : v = .text "captured" := by simpa [standardValues] using hv
    cases r <;> simp [MeansRouting, Routing.name]
  · intro name value
    rw [hs.environment]
    constructor
    · exact fun hv => (hr.kept _ _ _ hv).resolve_right (by simp [standardValues])
    · exact fun hv => (hr.added _ _ _ hv).resolve_right (by simp [standardValues])

theorem Conforms.restated (hc : Conforms doc) (hr : Restates doc other) : Conforms other := by
  constructor
  · intro e he
    rcases hr.parts e he with hknown | ⟨v, hv⟩
    · exact hknown
    · exact hc.parts (e.1, v) hv
  · intro key v hv
    rcases hr.added _ _ _ hv with hgiven | hmem
    · exact hc.sdk key v hgiven
    · obtain ⟨rfl, rfl⟩ : key = "usage_reporting" ∧ v = .truth false := by
        simpa [standardValues] using hmem
      exact .inr ⟨rfl, _, rfl⟩
  · intro key v hv
    rcases hr.added _ _ _ hv with hgiven | hmem
    · exact hc.run key v hgiven
    · have hcases : key = "mode" ∧ v = .text "sync" ∨ key = "routing" ∧ v = .text "captured" := by
        simpa [standardValues] using hmem
      exact hcases.imp (And.imp_right .inl) (And.imp_right .inl)
  · intro key v hv
    rcases hr.added _ _ _ hv with hgiven | hmem
    · exact hc.env key v hgiven
    · simp [standardValues] at hmem

/-! ## Loading -/

theorem load_eq {h : Host} {p : Path} {text : String}
    (read : h.files.readText h.directory p = .ok text)
    (parsed : Toml.Document.parse text = some doc) :
    Settings.load h p =
      match settings? doc with
      | some s => .ok s
      | none => .error (.toml "the document is no configuration") := by
  simp only [Settings.load, read, document, parsed]
  cases settings? doc <;> rfl

/-- A file whose document has tables as its parts and plain values as its choices is loaded exactly
if there is nothing in it but what may be there; the settings are then those that it states, with
the standard in the place of those that it does not state. Every other file is refused as a whole.
A document that states the same in another order, with standard values added or left out, is loaded
as the same settings. -/
theorem load_iff_conforms {h : Host} {p : Path} {text : String}
    (read : h.files.readText h.directory p = .ok text)
    (parsed : Toml.Document.parse text = some doc) (shaped : Shaped doc) :
    ((∃ s, Settings.load h p = .ok s) ↔ Conforms doc) ∧
    (∀ s, Settings.load h p = .ok s ↔ Conforms doc ∧ States doc s) ∧
    (¬ Conforms doc → ∃ message, Settings.load h p = .error (.toml message)) ∧
    ∀ (h' : Host) (p' : Path) (text' : String) (other : Entries),
      h'.files.readText h'.directory p' = .ok text' → Toml.Document.parse text' = some other →
      Shaped other → Restates doc other →
      ∀ s, Settings.load h p = .ok s → Settings.load h' p' = .ok s := by
  have hdistinct := Toml.Document.parse_distinct parsed
  have hload {h : Host} {p : Path} {text : String} {doc : Entries}
      (read : h.files.readText h.directory p = .ok text)
      (parsed : Toml.Document.parse text = some doc) (shaped : Shaped doc) (s : Settings) :
      Settings.load h p = .ok s ↔ Conforms doc ∧ States doc s := by
    rw [← settings?_iff_states shaped (Toml.Document.parse_distinct parsed), load_eq read parsed]
    cases settings? doc <;> simp
  have hiff := hload read parsed shaped
  refine ⟨?_, hiff, fun hnot => ?_, fun h' p' text' other read' parsed' shaped' hr s hs => ?_⟩
  · constructor
    · exact fun ⟨s, hs⟩ => ((hiff s).mp hs).1
    · intro hc
      obtain ⟨s, hs⟩ := hc.exists_states hdistinct
      exact ⟨s, (hiff s).mpr ⟨hc, hs⟩⟩
  · rw [load_eq read parsed]
    cases hsettings : settings? doc with
    | none => exact ⟨_, rfl⟩
    | some s => exact absurd ((settings?_iff_states shaped hdistinct).mp hsettings).1 hnot
  · obtain ⟨hc, hstates⟩ := (hiff s).mp hs
    exact (hload read' parsed' shaped' s).mpr
      ⟨hc.restated hr, hstates.restated hr (Toml.Document.parse_distinct parsed')⟩

/-- A machine whose one file is a config file of the given text. -/
def configured (text : String) : Host where
  files := FileTree.empty.put [defaultPath] (.file (Bytes.ofString text) false)
  directory := []
  environment := ∅
  accountHome := none

def briefText : String := "[run]\nrouting = \"inherited\"\n[env]\nA = \"1\"\n"

def briefDoc : Entries :=
  [("run", .table .header [("routing", .text "inherited")]),
    ("env", .table .header [("A", .text "1")])]

/-- The same in another order, with all standard values. -/
def fullText : String :=
  "[env]\nA = \"1\"\n[sdk]\nusage_reporting = false\n" ++
    "[run]\nmode = \"sync\"\nrouting = \"inherited\"\n"

def fullDoc : Entries :=
  [("env", .table .header [("A", .text "1")]),
    ("sdk", .table .header [("usage_reporting", .truth false)]),
    ("run", .table .header [("mode", .text "sync"), ("routing", .text "inherited")])]

theorem gives_briefDoc {part : String} : Gives briefDoc part key v ↔
    part = "run" ∧ key = "routing" ∧ v = .text "inherited" ∨
      part = "env" ∧ key = "A" ∧ v = .text "1" := by
  simp [Gives, briefDoc, or_and_right, exists_or, and_assoc]

theorem gives_fullDoc {part : String} : Gives fullDoc part key v ↔
    Gives briefDoc part key v ∨ part = "sdk" ∧ key = "usage_reporting" ∧ v = .truth false ∨
      part = "run" ∧ key = "mode" ∧ v = .text "sync" := by
  rw [gives_briefDoc]
  simp only [Gives, fullDoc, List.mem_cons, List.not_mem_nil, or_false, Prod.mk.injEq,
    Value.table.injEq, or_and_right, exists_or, and_assoc, exists_and_left, exists_eq_left]
  tauto

theorem shaped_briefDoc : Shaped briefDoc := by
  constructor
  · intro part _ v hmem
    simp only [briefDoc, List.mem_cons, Prod.mk.injEq, List.not_mem_nil, or_false] at hmem
    rcases hmem with ⟨-, rfl⟩ | ⟨-, rfl⟩ <;> exact ⟨_, _, rfl⟩
  · simp [gives_briefDoc]
  · simp [gives_briefDoc, isPlain]

theorem shaped_fullDoc : Shaped fullDoc := by
  constructor
  · intro part _ v hmem
    simp only [fullDoc, List.mem_cons, Prod.mk.injEq, List.not_mem_nil, or_false] at hmem
    rcases hmem with ⟨-, rfl⟩ | ⟨-, rfl⟩ | ⟨-, rfl⟩ <;> exact ⟨_, _, rfl⟩
  · simp [gives_fullDoc, gives_briefDoc, isPlain]
  · simp [gives_fullDoc, gives_briefDoc, isPlain]

theorem conforms_briefDoc : Conforms briefDoc := by
  constructor
  · simp [briefDoc, partNames]
  · simp [gives_briefDoc]
  · simp [gives_briefDoc]
  · simp [gives_briefDoc]

theorem fullDoc_restates : Restates briefDoc fullDoc := by
  constructor
  · simp [fullDoc, partNames]
  · exact fun part key v hv => .inl (gives_fullDoc.mpr (.inl hv))
  · intro part key v hv
    refine (gives_fullDoc.mp hv).imp_right ?_
    rintro (⟨rfl, rfl, rfl⟩ | ⟨rfl, rfl, rfl⟩) <;> simp [standardValues]

set_option maxRecDepth 1500 in
/-- Two files that state the same at different lengths are loaded as the same settings. -/
theorem load_iff_conforms_restated :
    (configured briefText).files.readText [] defaultPath = .ok briefText ∧
      Toml.Document.parse briefText = some briefDoc ∧ Shaped briefDoc ∧
      ∃ s, States briefDoc s ∧ Settings.load (configured briefText) defaultPath = .ok s ∧
        Settings.load (configured fullText) defaultPath = .ok s := by
  have hread : (configured briefText).files.readText [] defaultPath = .ok briefText := by cbv
  have hparse : Toml.Document.parse briefText = some briefDoc := by cbv
  have hread' : (configured fullText).files.readText [] defaultPath = .ok fullText := by cbv
  have hparse' : Toml.Document.parse fullText = some fullDoc := by cbv
  obtain ⟨hloads, hstates, -, hsame⟩ := load_iff_conforms hread hparse shaped_briefDoc
  obtain ⟨s, hs⟩ := hloads.mpr conforms_briefDoc
  exact ⟨hread, hparse, shaped_briefDoc, s, ((hstates s).mp hs).2, hs,
    hsame _ _ _ _ hread' hparse' shaped_fullDoc fullDoc_restates s hs⟩

end Config

end ToolRunner
