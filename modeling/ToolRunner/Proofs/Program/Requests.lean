import Mathlib.Data.List.TakeDrop
import ToolRunner.Proofs.Options.Reading
import ToolRunner.Proofs.Program.Variables

/-!
# The variables that a command line sets

A variable is given to `exec` as one text, whose name ends at the first equals sign; the text and
the variable tell each other (`pair?_eq_some_iff`). The options of `exec` may come in any order, and
the variables among them are read if each has an equals sign and a name before it. Of what is set
for a name, the last on the command line holds, and what is configured only where the command line
sets nothing. Nothing else that a request says has a part in that.
-/

namespace ToolRunner

/-! ## A variable as one text -/

namespace Options

variable {s : String} {v : String × String}

def joined (v : String × String) : String := v.1 ++ "=" ++ v.2

/-- The variable has a name, and one that ends before the first equals sign. -/
structure Named (v : String × String) : Prop where
  nonempty : v.1 ≠ ""
  plain : '=' ∉ v.1.toList

theorem toList_joined (v : String × String) :
    (joined v).toList = v.1.toList ++ '=' :: v.2.toList := by
  simp [joined]

theorem Named.toList_ne_nil (h : Named v) : v.1.toList ≠ [] :=
  mt String.toList_eq_nil_iff.mp h.nonempty

theorem pair?_joined (h : Named v) : pair? (joined v) = some v := by
  have hplain : ∀ c ∈ v.1.toList, (c != '=') = true := fun c hc =>
    bne_iff_ne.mpr fun heq => h.plain (heq ▸ hc)
  have hspan : (joined v).toList.span (· != '=') = (v.1.toList, '=' :: v.2.toList) := by
    rw [toList_joined, List.span_eq_takeWhile_dropWhile, List.takeWhile_append_of_pos hplain,
      List.dropWhile_append_of_pos hplain]
    simp
  obtain ⟨c, cs, hchars⟩ := List.exists_cons_of_ne_nil h.toList_ne_nil
  have hback : String.ofList (c :: cs) = v.1 := by rw [← hchars, String.ofList_toList]
  rw [pair?, hspan, hchars]
  simp only [hback, String.ofList_toList]

theorem pair?_eq_some_iff : pair? s = some v ↔ s = joined v ∧ Named v := by
  constructor
  · intro h
    have hchars := List.takeWhile_append_dropWhile (p := (· != '=')) (l := s.toList)
    have hplain := List.all_takeWhile (p := (· != '=')) (l := s.toList)
    have hrest := List.head?_dropWhile_not (· != '=') s.toList
    rw [pair?, List.span_eq_takeWhile_dropWhile] at h
    split at h
    · rename_i c cs d ds hspan
      obtain ⟨htake, hdrop⟩ := Prod.mk.inj hspan
      rw [htake, hdrop] at hchars
      rw [htake] at hplain
      rw [hdrop] at hrest
      cases h
      have hd : d = '=' := by simpa using hrest
      refine ⟨String.ext ?_, by simp, ?_⟩
      · simp [toList_joined, ← hchars, hd]
      · intro hmem
        simpa using List.all_eq_true.mp hplain '=' (by simpa using hmem)
    · cases h
  · rintro ⟨rfl, hv⟩
    exact pair?_joined hv

/-- A text is a variable if it has an equals sign and does not begin with one. -/
theorem pair?_isSome_iff : (pair? s).isSome ↔ '=' ∈ s.toList ∧ s.toList.head? ≠ some '=' := by
  constructor
  · intro h
    obtain ⟨v, hpair⟩ := Option.isSome_iff_exists.mp h
    obtain ⟨rfl, hv⟩ := pair?_eq_some_iff.mp hpair
    obtain ⟨c, cs, hchars⟩ := List.exists_cons_of_ne_nil hv.toList_ne_nil
    have hplain := hv.plain
    rw [hchars] at hplain
    rw [toList_joined, hchars]
    refine ⟨by simp, fun hhead => hplain ?_⟩
    rw [← Option.some.inj hhead]
    exact List.mem_cons_self
  · rintro ⟨hmem, hhead⟩
    obtain ⟨name, value, hchars, hname⟩ := List.eq_append_cons_of_mem hmem
    have hs : s = joined (String.ofList name, String.ofList value) := by
      apply String.ext
      simp [toList_joined, hchars]
    have hv : Named (String.ofList name, String.ofList value) := by
      refine ⟨fun hempty => hhead ?_, by simpa using hname⟩
      have hnil : name = [] := by simpa using congrArg String.toList hempty
      rw [hchars, hnil]
      rfl
    rw [hs, pair?_joined hv]
    rfl

theorem isSome_of_map_pair? {given : List (String × String)} {texts : List String}
    (h : texts.map pair? = given.map some) : ∀ text ∈ texts, (pair? text).isSome := by
  intro text htext
  have hmem : pair? text ∈ given.map some := h ▸ List.mem_map_of_mem htext
  obtain ⟨v, -, hv⟩ := List.mem_map.mp hmem
  rw [← hv]
  rfl

/-- Variables are told from texts if they are what the texts join. -/
theorem map_pair?_eq_iff {given : List (String × String)} {texts : List String} :
    texts.map pair? = given.map some ↔ given.map joined = texts ∧ ∀ v ∈ given, Named v := by
  induction given generalizing texts with
  | nil => simp [eq_comm]
  | cons v given ih =>
    cases texts with
    | nil => simp
    | cons text texts =>
      simp only [List.map_cons, List.cons.injEq, List.forall_mem_cons, ih, pair?_eq_some_iff,
        @eq_comm _ text]
      exact and_and_and_comm

end Options

/-! ## The options of `exec` -/

/-- An option of `exec`, given whole. -/
inductive ExecOption where
  | asynchronous
  | inherit
  | directory (p : Path)
  | pair (text : String)
  | line (text : String)

namespace ExecOption

open Options Invocation

def flag : ExecOption → Flag
  | asynchronous => switch "async"
  | inherit => switch "inherit"
  | directory _ => valued "cwd" .path
  | pair _ => ⟨"env", .repeated .pair, false⟩
  | line _ => valued "line" .text

def arg : ExecOption → Bytes
  | asynchronous => bare "async"
  | inherit => bare "inherit"
  | directory p => attached "cwd" p
  | pair text => attached "env" (Bytes.ofString text)
  | line text => attached "line" (Bytes.ofString text)

def read : ExecOption → Except Usage (Option Value)
  | asynchronous => .ok none
  | inherit => .ok none
  | directory p => .ok (some (.path p))
  | pair text => (Form.pair.readText text).map some
  | line text => .ok (some (.text text))

/-- The texts of all variables, in the order in which they are given. -/
def pairs (options : List ExecOption) : List String :=
  options.filterMap fun
    | pair text => some text
    | _ => none

/-- Only variables are given more than once, the directory has a name, and there is no line where
there are words. -/
structure Orderly (options : List ExecOption) (words : List String) : Prop where
  distinct : options.Pairwise fun o o' =>
    o.flag.name = o'.flag.name → (Target.flag o'.flag).isUnique = false
  directory : ∀ p, directory p ∈ options → p ≠ []
  line : ∀ text, line text ∈ options → words = []

/-- The arguments of `exec`: its options, and the words of the command after `--`, which may be
missing where there are none. -/
def arguments (options : List ExecOption) (dashes : Bool) (words : List String) : List Bytes :=
  options.map arg ++
    if dashes || !words.isEmpty then Options.dashes :: words.map Bytes.ofString else []

variable {o : ExecOption} {options : List ExecOption} {found entries : Found}

theorem flag?_flag (o : ExecOption) : execGrammar.flag? o.flag.name = some o.flag := by
  cases o <;> rfl

theorem equals_not_mem_flag (o : ExecOption) : '=' ∉ o.flag.name.toList := by
  cases o <;> simp [flag, switch, valued]

/-- An option that may be given at this place is read at once. -/
theorem step_arg (hdirectory : ∀ p, o = directory p → p ≠ [])
    (fresh : ((Target.flag o.flag).isUnique && found.has o.flag.name) = false) :
    step execGrammar (.ofFound found) o.arg =
      o.read.map fun v => .next (.ofFound (found ++ [(o.flag.name, v)])) := by
  have hflag := flag?_flag o
  have hname := equals_not_mem_flag o
  cases o with
  | asynchronous =>
    refine (step_bare rfl hflag (by decide) hname rfl found).trans ?_
    rw [show found.has asynchronous.flag.name = false from fresh]
    rfl
  | inherit =>
    refine (step_bare rfl hflag (by decide) hname rfl found).trans ?_
    rw [show found.has inherit.flag.name = false from fresh]
    rfl
  | directory p =>
    have hread : Form.path.read p = .ok (.path p) := if_neg (hdirectory p rfl)
    refine (step_attached rfl hflag hname rfl found p).trans ?_
    rw [fresh, hread]
    rfl
  | pair text =>
    have hread : Form.pair.read (Bytes.ofString text) = Form.pair.readText text := by
      simp [Form.read]
    refine (step_attached rfl hflag hname rfl found _).trans ?_
    rw [fresh, hread, read]
    cases Form.pair.readText text <;> rfl
  | line text =>
    have hread : Form.text.read (Bytes.ofString text) = .ok (.text text) := by
      simp [Form.read, Form.readText]
    refine (step_attached rfl hflag hname rfl found _).trans ?_
    rw [fresh, hread]
    rfl

/-- What the options are read as, with their names. -/
def readAll (options : List ExecOption) : Except Usage Found :=
  options.mapM fun o => o.read.map (o.flag.name, ·)

theorem readAll_cons (o : ExecOption) (options : List ExecOption) :
    readAll (o :: options) =
      o.read >>= fun v => (readAll options).map ((o.flag.name, v) :: ·) := by
  rw [readAll, List.mapM_cons]
  cases o.read with
  | error e => rfl
  | ok v => show (readAll options >>= _) = _; cases readAll options <;> rfl

/-- Options are read one after another, whatever comes after them. -/
theorem scan_args (hdirectory : ∀ p, directory p ∈ options → p ≠ [])
    (distinct : options.Pairwise fun o o' =>
      o.flag.name = o'.flag.name → (Target.flag o'.flag).isUnique = false)
    (fresh : ∀ o ∈ options, ((Target.flag o.flag).isUnique && found.has o.flag.name) = false)
    (rest : List Bytes) :
    scan execGrammar (.ofFound found) (options.map arg ++ rest) =
      readAll options >>= fun entries => scan execGrammar (.ofFound (found ++ entries)) rest := by
  induction options generalizing found with
  | nil => simp [readAll, bind, Except.bind, pure, Except.pure]
  | cons o options ih =>
    have hstep := step_arg (fun p hp => hdirectory p (hp ▸ List.mem_cons_self))
      (fresh o List.mem_cons_self)
    obtain ⟨hfirst, hlater⟩ := List.pairwise_cons.mp distinct
    rw [List.map_cons, List.cons_append, scan, hstep, readAll_cons]
    cases o.read with
    | error e => rfl
    | ok v =>
      have hfresh : ∀ o' ∈ options,
          ((Target.flag o'.flag).isUnique &&
            Found.has (found ++ [(o.flag.name, v)]) o'.flag.name) = false := by
        intro o' ho'
        have hbefore := fresh o' (List.mem_cons_of_mem _ ho')
        by_cases hsame : o.flag.name = o'.flag.name
        · rw [hfirst o' ho' hsame, Bool.false_and]
        · have hhas : Found.has (found ++ [(o.flag.name, v)]) o'.flag.name =
              found.has o'.flag.name := by simp [Found.has, hsame]
          rw [hhas, hbefore]
      have hrest := ih (fun p hp => hdirectory p (List.mem_cons_of_mem _ hp)) hlater hfresh
      show scan execGrammar (.ofFound (found ++ [(o.flag.name, v)])) (options.map arg ++ rest) =
        ((readAll options).map _ >>= _)
      rw [hrest]
      cases readAll options with
      | error e => rfl
      | ok entries => simp [Except.map, bind, Except.bind]

theorem names_readAll (h : readAll options = .ok entries) :
    entries.map (·.1) = options.map (·.flag.name) := by
  induction options generalizing entries with
  | nil =>
    cases h
    rfl
  | cons o options ih =>
    rw [readAll_cons] at h
    obtain ⟨v, -, h⟩ := Result.bind_eq_ok.mp h
    obtain ⟨later, hlater, rfl⟩ := Result.map_eq_ok.mp h
    rw [List.map_cons, List.map_cons, ih hlater]

theorem readText_pair {text : String} {v : Value} :
    Form.pair.readText text = .ok v ↔
      ∃ p, v = .pair p.1 p.2 ∧ pair? text = some p := by
  rw [Form.readText]
  cases hpair : pair? text with
  | none => simp
  | some p => simp [eq_comm]

/-- The variables that were read are those that were given, in their order. -/
theorem pairs_readAll (h : readAll options = .ok entries) :
    (pairs options).map pair? = (entries.pairs "env").map some := by
  induction options generalizing entries with
  | nil =>
    cases h
    rfl
  | cons o options ih =>
    rw [readAll_cons] at h
    obtain ⟨v, hv, h⟩ := Result.bind_eq_ok.mp h
    obtain ⟨later, hlater, rfl⟩ := Result.map_eq_ok.mp h
    have htail := ih hlater
    cases o with
    | pair text =>
      obtain ⟨_, htext, rfl⟩ := Result.map_eq_ok.mp hv
      obtain ⟨p, rfl, hpair⟩ := readText_pair.mp htext
      show pair? text :: (pairs options).map pair? =
        some p :: (Found.pairs later "env").map some
      rw [hpair, htail]
    | asynchronous | inherit | directory _ | line _ =>
      cases hv
      exact htail

/-- Options are read if every variable among them has a name. -/
theorem readAll_isOk_iff :
    (∃ entries, readAll options = .ok entries) ↔ ∀ text ∈ pairs options, (pair? text).isSome := by
  constructor
  · rintro ⟨entries, h⟩
    exact isSome_of_map_pair? (pairs_readAll h)
  · intro h
    induction options with
    | nil => exact ⟨[], rfl⟩
    | cons o options ih =>
      have hread : ∃ v, o.read = .ok v := by
        cases o with
        | pair text =>
          obtain ⟨p, hp⟩ := Option.isSome_iff_exists.mp (h text (by simp [pairs]))
          exact ⟨_, Result.map_eq_ok.mpr ⟨_, readText_pair.mpr ⟨p, rfl, hp⟩, rfl⟩⟩
        | asynchronous | inherit | directory _ | line _ => exact ⟨_, rfl⟩
      have hlater : ∀ text ∈ pairs options, (pair? text).isSome := by
        intro text htext
        refine h text ?_
        cases o <;> simp_all [pairs]
      obtain ⟨v, hv⟩ := hread
      obtain ⟨entries, hentries⟩ := ih hlater
      rw [readAll_cons, hv, hentries]
      exact ⟨_, rfl⟩

theorem argv_ne_flag (o : ExecOption) : o.flag.name ≠ "argv" := by
  cases o <;> simp [flag, switch, valued]

theorem eq_line_of_flag (h : o.flag.name = "line") : ∃ text, o = line text := by
  cases o with
  | line text => exact ⟨text, rfl⟩
  | asynchronous | inherit | directory _ | pair _ => simp [flag, switch, valued] at h

theorem has_eq_false_iff {name : String} : found.has name = false ↔ name ∉ found.map (·.1) := by
  rw [Found.has, List.any_eq_false, List.mem_map]
  grind

/-- The options and the words as they are found. -/
def withWords (entries : Found) (words : List String) : Found :=
  entries ++ words.map fun s => ("argv", some (.text s))

/-- Nothing is missing from orderly options and words, and no two of them exclude each other. -/
theorem check_withWords {words : List String} (orderly : Orderly options words)
    (h : readAll options = .ok entries) :
    check execGrammar (withWords entries words) false = .ok () := by
  have hnames : (withWords entries words).map (·.1) =
      options.map (·.flag.name) ++ words.map fun _ => "argv" := by
    rw [withWords, List.map_append, names_readAll h, List.map_map]
    rfl
  have hconflict : ((withWords entries words).has "line" &&
      (withWords entries words).has "argv") = false := by
    rw [Bool.and_eq_false_iff, has_eq_false_iff, has_eq_false_iff, hnames]
    cases words with
    | nil =>
      refine .inr fun hargv => ?_
      obtain ⟨o, -, ho⟩ := List.mem_map.mp (by simpa using hargv)
      exact argv_ne_flag o ho
    | cons word words =>
      refine .inl fun hline => ?_
      obtain ⟨o, hmem, ho⟩ : ∃ o ∈ options, o.flag.name = "line" := by simpa using hline
      obtain ⟨text, rfl⟩ := eq_line_of_flag ho
      exact List.cons_ne_nil _ _ (orderly.line text hmem)
  show (if (((withWords entries words).has "line" && (withWords entries words).has "argv") ||
    false) = true then _ else Except.ok ()) = _
  rw [hconflict]
  rfl

/-- The arguments are read as their options and their words. -/
theorem parse_arguments {words : List String} (orderly : Orderly options words) (dashes : Bool) :
    parse execGrammar (arguments options dashes words) =
      (readAll options).map (withWords · words) := by
  have hfresh : ∀ o ∈ options,
      ((Target.flag o.flag).isUnique && Found.has [] o.flag.name) = false := by
    simp [Found.has]
  rw [parse, arguments, show ({} : Progress) = .ofFound [] from rfl,
    scan_args orderly.directory orderly.distinct hfresh]
  cases hread : readAll options with
  | error e => rfl
  | ok entries =>
    have hcheck := check_withWords orderly hread
    show (scan execGrammar (.ofFound entries) _ >>= fun parsed =>
      finish execGrammar parsed.progress false) = .ok (withWords entries words)
    split
    · refine (finish_scan_words rfl rfl rfl entries words).trans ?_
      show (check execGrammar (withWords entries words) false).map _ = _
      rw [hcheck]
      rfl
    · rename_i hdashes
      obtain ⟨-, hwords⟩ : dashes = false ∧ words = [] := by simpa using hdashes
      subst hwords
      rw [withWords, List.map_nil, List.append_nil] at hcheck ⊢
      show (check execGrammar entries false >>= fun _ => Except.ok entries) = _
      rw [hcheck]
      rfl

/-- Words are no variables. -/
theorem pairs_withWords (entries : Found) (words : List String) :
    (withWords entries words).pairs "env" = entries.pairs "env" := by
  simp [withWords, Found.pairs, Found.values]

end ExecOption

/-! ## The request that they are -/

namespace Invocation

open Options ExecOption

variable {options : List ExecOption} {words : List String}

theorem step_command {name : String} (h : name ∈ mainGrammar.commands) :
    step mainGrammar {} (Bytes.ofString name) = .ok (.command name) := by
  have hname : commandName? mainGrammar (Bytes.ofString name) = some name := by
    rw [commandName?, Utf8.decode?_ofString, Option.filter_some_pos]
    simp [h]
  simp [step, hname]

/-- What comes after the name of a command is for the command to read. -/
theorem read_command {name : String} (h : name ∈ mainGrammar.commands) (args : List Bytes) :
    read (Bytes.ofString name :: args) =
      (readAction name args).map fun action => ⟨none, none, action⟩ := by
  have hhelp : name ≠ "help" := by
    rintro rfl
    exact absurd h (by decide)
  rw [read, scan, step_command h]
  show (if name = "help" then _ else _) = _
  rw [if_neg hhelp]
  cases readAction name args <;> rfl

theorem read_exec (args : List Bytes) :
    read (Bytes.ofString "exec" :: args) =
      (parse execGrammar args).map fun found => ⟨none, none, execAction found⟩ := by
  rw [read_command (by decide)]
  show ((parse execGrammar args).map execAction).map _ = _
  cases parse execGrammar args <;> rfl

/-- Orderly options and words are read if every variable among them has a name. -/
theorem read_arguments_isOk_iff (orderly : Orderly options words) (dashes : Bool) :
    (∃ i, read (Bytes.ofString "exec" :: arguments options dashes words) = .ok i) ↔
      ∀ text ∈ pairs options, (pair? text).isSome := by
  rw [read_exec, parse_arguments orderly, ← readAll_isOk_iff]
  cases readAll options <;> simp [Except.map]

/-- The variables of the request are those on the command line, in their order. -/
theorem environment_of_read (orderly : Orderly options words) {dashes : Bool} {i : Invocation}
    (h : read (Bytes.ofString "exec" :: arguments options dashes words) = .ok i) :
    ∃ r, i.action = .exec r ∧ (pairs options).map pair? = r.environment.map some := by
  rw [read_exec, parse_arguments orderly] at h
  obtain ⟨found, hfound, rfl⟩ := Result.map_eq_ok.mp h
  obtain ⟨entries, hentries, rfl⟩ := Result.map_eq_ok.mp hfound
  refine ⟨_, rfl, ?_⟩
  show _ = ((withWords entries words).pairs "env").map some
  rw [pairs_withWords, pairs_readAll hentries]

end Invocation

/-! ## What holds of what is set -/

namespace SortedMap

open Std

variable {name : String} {entries : List (String × String)}

/-- Entries of texts, as their bytes. -/
def encoded (entries : List (String × String)) : List (Bytes × Bytes) :=
  entries.map fun v => (Bytes.ofString v.1, Bytes.ofString v.2)

theorem lookup_encoded :
    lookup (Bytes.ofString name) (encoded entries) =
      (lookup name entries).map Bytes.ofString := by
  induction entries with
  | nil => rfl
  | cons v entries ih =>
    show (if compare (Bytes.ofString name) (Bytes.ofString v.1) = .eq then _ else _) = _
    by_cases heq : name = v.1
    · rw [heq, if_pos ReflOrd.compare_self, lookup, if_pos ReflOrd.compare_self]
      rfl
    · have hbytes : Bytes.ofString name ≠ Bytes.ofString v.1 := mt Bytes.ofString_inj.mp heq
      rw [if_neg (mt LawfulEqOrd.eq_of_compare hbytes), lookup,
        if_neg (mt LawfulEqOrd.eq_of_compare heq)]
      exact ih

theorem lookup_encoded_eq_none {key : Bytes} (h : ∀ s, Bytes.ofString s ≠ key) :
    lookup key (encoded entries) = none := by
  apply lookup_eq_none
  simp only [encoded, List.map_map, List.mem_map, not_exists, not_and]
  exact fun v _ => h v.1

end SortedMap

namespace Command

/-- The command sets a variable to the last value given for it, else to the configured one, and no
others. -/
structure SetsLast (c : Command) (given : List (String × String))
    (configured : SortedMap String String) : Prop where
  texts : ∀ name, c.overrides.find? (Bytes.ofString name) =
    ((SortedMap.lookup name given.reverse).or (configured.find? name)).map Bytes.ofString
  only : ∀ key, (∀ name, Bytes.ofString name ≠ key) → c.overrides.find? key = none

theorem Overrides.setsLast {c : Command} {r : ExecRequest} {s : Settings}
    (h : c.Overrides s r.overrides) : c.SetsLast r.environment s.environment := by
  have hreverse : r.overrides.reverse = SortedMap.encoded r.environment.reverse :=
    List.map_reverse.symm
  have hsettings : s.overrides = SortedMap.encoded s.environment.toList := rfl
  constructor
  · intro name
    rw [h, hreverse, hsettings, SortedMap.lookup_encoded, SortedMap.lookup_encoded, Option.map_or]
    rfl
  · intro key hkey
    rw [h, hreverse, hsettings, SortedMap.lookup_encoded_eq_none hkey,
      SortedMap.lookup_encoded_eq_none hkey]
    rfl

end Command

namespace ExecRequest

/-- A request has a command as soon as it has words. -/
theorem command_isOk_iff {r : ExecRequest} {s : Settings} :
    (∃ c, r.command s = .ok c) ↔ r.words ≠ [] := by
  rw [command]
  cases hwords : r.words with
  | nil => simp [throw, throwThe, MonadExceptOf.throw, bind, Except.bind]
  | cons word words => simp [Command.ofArgv, bind, Except.bind, pure, Except.pure]

end ExecRequest

/-! ## From the command line to the command -/

namespace Invocation

open Options ExecOption

/-- The variables of `exec` are read if each has an equals sign and a name before it, and then they
are what was given, to the letter; whatever has such a name can be given. A command has the last
value that is given for a name or else the configured one, and neither the directory, nor the words,
nor how the program is found has a part in that. -/
theorem read_exec_overrides {options : List ExecOption} {words : List String}
    (orderly : Orderly options words) (dashes : Bool) :
    ((∃ i, read (Bytes.ofString "exec" :: arguments options dashes words) = .ok i) ↔
        ∀ text ∈ pairs options, '=' ∈ text.toList ∧ text.toList.head? ≠ some '=') ∧
      (∀ i, read (Bytes.ofString "exec" :: arguments options dashes words) = .ok i →
        ∃ r, i.action = .exec r ∧ r.environment.map joined = pairs options ∧
          ∀ v ∈ r.environment, Named v) ∧
      (∀ given : List (String × String), (∀ v ∈ given, Named v) →
        given.map joined = pairs options →
        ∃ i r, read (Bytes.ofString "exec" :: arguments options dashes words) = .ok i ∧
          i.action = .exec r ∧ r.environment = given) ∧
      ∀ (config : Config) (r : ExecRequest),
        (r.words ≠ [] → ∃ c, r.command config.settings = .ok c) ∧
        (∀ c, r.command config.settings = .ok c →
          c.SetsLast r.environment config.settings.environment) ∧
        ∀ h p c, (Action.exec r).plan h config.settings = .ok p → p.command = .ok c →
          c.SetsLast r.environment config.settings.environment := by
  refine ⟨?_, ?_, ?_, fun config r => ⟨?_, ?_, ?_⟩⟩
  · rw [read_arguments_isOk_iff orderly]
    exact forall₂_congr fun _ _ => pair?_isSome_iff
  · intro i hread
    obtain ⟨r, haction, hpairs⟩ := environment_of_read orderly hread
    exact ⟨r, haction, map_pair?_eq_iff.mp hpairs⟩
  · intro given hnamed hgiven
    have hpairs := map_pair?_eq_iff.mpr ⟨hgiven, hnamed⟩
    obtain ⟨i, hread⟩ :=
      (read_arguments_isOk_iff orderly dashes).mpr (isSome_of_map_pair? hpairs)
    obtain ⟨r, haction, hrequest⟩ := environment_of_read orderly hread
    have hsame : r.environment.map some = given.map some := hrequest.symm.trans hpairs
    exact ⟨i, r, hread, haction, List.map_injective_iff.mpr (fun _ _ => Option.some.inj) hsame⟩
  · exact ExecRequest.command_isOk_iff.mpr
  · exact fun c hc => (ExecRequest.command_overrides_settings hc).setsLast
  · exact fun h p c hplan hc => (Action.plan_overrides hplan hc (by simp)).setsLast

def setsTwice : ExecRequest where
  asynchronous := false
  inherit := false
  directory := some (Path.ofString "/d")
  environment := [("P", "a=b"), ("P", "=c")]
  line := none
  argv := ["/x", "--env=Q=d"]

/-- A name that is set twice, a value with an equals sign in it, and a word that only looks like a
variable. -/
theorem read_exec_overrides_twice :
    read (["exec", "--env=P=a=b", "--cwd=/d", "--env=P==c", "--", "/x", "--env=Q=d"].map
        Bytes.ofString) = .ok ⟨none, none, .exec setsTwice⟩ ∧
      setsTwice.environment.map joined = ["P=a=b", "P==c"] ∧
      ∃ c, setsTwice.command Program.twoVariables.settings = .ok c ∧
        c.overrides.find? (Bytes.ofString "P") = some (Bytes.ofString "=c") ∧
        c.overrides.find? (Bytes.ofString "Q") = some (Bytes.ofString "configured") := by
  have orderly : Orderly [.pair "P=a=b", .directory (Path.ofString "/d"), .pair "P==c"]
      ["/x", "--env=Q=d"] := by
    refine ⟨by decide, ?_, by simp⟩
    intro p hp
    obtain rfl : p = Path.ofString "/d" := by simpa using hp
    decide +kernel
  have hread : read (Bytes.ofString "exec" ::
      arguments [.pair "P=a=b", .directory (Path.ofString "/d"), .pair "P==c"] false
        ["/x", "--env=Q=d"]) = .ok ⟨none, none, .exec setsTwice⟩ := rfl
  obtain ⟨-, hback, -, hcommand⟩ := read_exec_overrides orderly false
  obtain ⟨r, haction, hjoined, -⟩ := hback _ hread
  cases haction
  obtain ⟨hsome, hlast, -⟩ := hcommand Program.twoVariables setsTwice
  obtain ⟨c, hc⟩ := hsome (by decide)
  refine ⟨hread, hjoined, c, hc, ((hlast c hc).texts "P").trans ?_,
    ((hlast c hc).texts "Q").trans ?_⟩
  · decide +kernel
  · decide +kernel

/-- A text that begins with an equals sign is no variable, even if it has another one. -/
theorem read_exec_leading_equals :
    ¬ ((∃ i, read (["exec", "--env==a=b"].map Bytes.ofString) = .ok i) ↔
      ∀ text ∈ ["=a=b"], ∃ n, 0 < n ∧ text.toList[n]? = some '=') := by
  have orderly : Orderly [.pair "=a=b"] [] := ⟨by simp, by simp, by simp⟩
  intro h
  have hread := h.mpr (by simpa using ⟨2, by decide, by decide⟩)
  have hvariable := (read_arguments_isOk_iff orderly false).mp hread "=a=b" (by simp [pairs])
  exact absurd hvariable (by decide)

end Invocation

end ToolRunner
