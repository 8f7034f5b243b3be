import ToolRunner.Proofs.Options.Verbatim
import ToolRunner.Proofs.Program.Requests

/-!
# Words that are handed on

What comes after a lone `--` of `exec` and of `dev-server`, and the arguments of `app`, are words
for another program. None of them is read as an option, whatever it looks like. The arguments of
`app` need no lone `--` before them, and so `app` has a part in the first of them: it takes a lone
`--` away and gives help to those who ask for it, and it hands on every other
(`read_app_words_iff`).
-/

namespace ToolRunner.Invocation

open Options

/-! ## After a lone `--` -/

/-- A request that has nothing but words. -/
def ofWords (words : List String) : ExecRequest where
  asynchronous := false
  inherit := false
  directory := none
  environment := []
  line := none
  argv := words

theorem read_exec_words (words : List String) :
    read (Bytes.ofString "exec" :: dashes :: words.map Bytes.ofString) =
      .ok ⟨none, none, .exec (ofWords words)⟩ := by
  have orderly : ExecOption.Orderly [] words := ⟨.nil, by simp, by simp⟩
  have haction : execAction (ExecOption.withWords [] words) = .exec (ofWords words) := by
    simp [execAction, ExecOption.withWords, Found.has, Found.paths, Found.pairs, Found.texts,
      Found.values, ofWords]
  rw [read_exec]
  refine (congrArg _ (ExecOption.parse_arguments orderly true)).trans ?_
  show Except.ok (⟨none, none, execAction (ExecOption.withWords [] words)⟩ : Invocation) = _
  rw [haction]

theorem check_devServer {found : Found} (h : found.has "app-files" = true) :
    check devServerGrammar found false = .ok () := by
  have hmissing : (!found.has "app-files") = false := by rw [h]; rfl
  show (if (!found.has "app-files" || false) = true then _ else Except.ok ()) = _
  rw [hmissing]
  rfl

theorem read_devServer_words {files : List Path} (hfiles : files ≠ [])
    (hname : ∀ f ∈ files, f ≠ [] ∧ f.head? ≠ some Look.hyphen) (words : List String) :
    read (Bytes.ofString "dev-server" :: (files ++ dashes :: words.map Bytes.ofString)) =
      .ok ⟨none, none, .devServer { appFiles := files } words⟩ := by
  rw [read_command (by decide)]
  show ((parse devServerGrammar _).map devServerAction).map _ = _
  rw [parse_files_words rfl rfl rfl rfl rfl rfl hfiles hname, check_devServer]
  · simp [Except.map, devServerAction, Operands.files, Operands.texts, Found.paths, Found.texts,
      Found.integers, Found.values]
  · obtain ⟨file, files, rfl⟩ := List.exists_cons_of_ne_nil hfiles
    rfl

/-! ## The arguments of `app` -/

/-- What `app` does not hand on if it comes first: a lone `--`, and whatever asks for help. -/
inductive KeptBack : String → Prop where
  | dashes : KeptBack "--"
  | help : KeptBack "--help"
  | helpWith (value : String) : KeptBack ("--help=" ++ value)
  | letters (n : Nat) : KeptBack (String.ofList ('-' :: List.replicate (n + 1) 'h'))

theorem letter?_eq_none_iff {c : Char} : appGrammar.letter? c = none ↔ c ≠ 'h' := by
  simp [Grammar.letter?, appGrammar]

theorem request?_eq_none_iff {name : String} : appGrammar.request? name = none ↔ name ≠ "help" := by
  simp [Grammar.request?, appGrammar]

theorem foreign_of_not_keptBack {word : String} (h : ¬ KeptBack word) :
    appGrammar.Foreign (Look.of (Bytes.ofString word)) := by
  have hlook := Look.shows word
  generalize Look.of (Bytes.ofString word) = look at hlook
  cases hlook with
  | plain => trivial
  | dashes => exact absurd .dashes h
  | @bare name hne hname =>
    refine ⟨name, rfl, rfl, request?_eq_none_iff.mpr ?_⟩
    rintro rfl
    exact h .help
  | @attached name value hname =>
    refine ⟨name, rfl, rfl, request?_eq_none_iff.mpr ?_⟩
    rintro rfl
    exact h (.helpWith value)
  | @letters c cs hc =>
    refine .inr ?_
    by_contra hall
    have heq : c :: cs = List.replicate (cs.length + 1) 'h' := by
      refine List.eq_replicate_of_mem fun d hd => ?_
      by_contra hne
      exact hall ⟨d, hd, letter?_eq_none_iff.mpr hne⟩
    rw [heq] at h
    exact h (.letters cs.length)

/-- An argument that asks for help is not handed on. -/
theorem step_keptBack {word : String} (h : KeptBack word) (hne : word ≠ "--") :
    ∃ e, step appGrammar (.ofFound []) (Bytes.ofString word) = .error e := by
  rw [step_ofFound rfl, optionOrValue, if_neg (by simp [Progress.ofFound])]
  cases h with
  | dashes => exact absurd rfl hne
  | help =>
    have hlook : Look.of (Bytes.ofString "--help") = .long "help" none := by decide
    rw [hlook]
    exact ⟨.help, rfl⟩
  | helpWith value =>
    have hlook : Look.of (Bytes.ofString ("--help=" ++ value)) =
        .long "help" (some (Bytes.ofString value)) := by
      rw [← Look.of_attached (by decide), Look.attached_eq]
      rfl
    rw [hlook]
    exact ⟨.tooManyValues, rfl⟩
  | letters n =>
    have hknown : ((List.replicate (n + 1) 'h').any fun c => (appGrammar.letter? c).isNone) =
        false := by
      rw [List.any_eq_false]
      intro c hc
      rw [List.eq_of_mem_replicate hc]
      decide
    rw [List.replicate_succ] at hknown ⊢
    rw [Look.of_letters (by decide)]
    simp only [hknown, Bool.or_false, Bool.and_false]
    exact ⟨.help, rfl⟩

theorem read_app (args : List Bytes) :
    read (Bytes.ofString "app" :: args) =
      (parse appGrammar args).map fun found => ⟨none, none, .app (found.texts "args")⟩ := by
  rw [read_command (by decide)]
  show ((parse appGrammar args).map _).map _ = _
  cases parse appGrammar args <;> rfl

theorem texts_args (form : Form) (required verbatim : Bool) (words : List String) :
    (Operands.texts ⟨"args", form, required, verbatim⟩ words).texts "args" = words := by
  simp [Found.texts, Found.values, Operands.texts]

/-- A lone `--` before the arguments of `app` is taken away. -/
theorem read_app_dashes (words : List String) :
    read (Bytes.ofString "app" :: dashes :: words.map Bytes.ofString) =
      .ok ⟨none, none, .app words⟩ := by
  have hparse := finish_scan_words (g := appGrammar) rfl rfl rfl [] words
  rw [read_app]
  refine (congrArg _ hparse).trans ?_
  show Except.ok (⟨none, none, .app ((Operands.texts _ words).texts "args")⟩ : Invocation) = _
  rw [texts_args]

/-- The arguments of `app` are handed on as they are unless the first of them is kept back. -/
theorem read_app_words_iff {words : List String} :
    read (Bytes.ofString "app" :: words.map Bytes.ofString) = .ok ⟨none, none, .app words⟩ ↔
      ∀ word ∈ words.head?, ¬ KeptBack word := by
  constructor
  · rintro hread word hword hkept
    obtain ⟨words, rfl⟩ := List.head?_eq_some_iff.mp hword
    by_cases hdashes : word = "--"
    · -- Only the words after it are handed on, and they are fewer.
      subst hdashes
      have hsame : words = "--" :: words := by
        have hrest := (read_app_dashes words).symm.trans hread
        injection hrest with hrest
        injection hrest with _ _ hrest
        injection hrest
      exact absurd (congrArg List.length hsame) (by simp)
    · obtain ⟨e, he⟩ := step_keptBack hkept hdashes
      have herror : parse appGrammar ((word :: words).map Bytes.ofString) = .error e := by
        show (scan appGrammar (.ofFound []) _ >>= _) = _
        rw [List.map_cons, scan, he]
        rfl
      rw [read_app, herror] at hread
      cases hread
  · intro h
    rw [read_app, parse_verbatim rfl rfl rfl rfl rfl fun w hw => foreign_of_not_keptBack (h w hw)]
    show Except.ok (⟨none, none, .app ((Operands.texts _ words).texts "args")⟩ : Invocation) = _
    rw [texts_args]

/-- Whatever words follow a lone `--` of `exec` or `dev-server`, or are given to `app`, they are
handed on: none is dropped, moved, divided or read as an option. Only the first that is given to
`app` must not be a lone `--` nor begin as a call for help does. -/
theorem read_hands_on (words : List String) (file : Path) :
    read (Bytes.ofString "exec" :: dashes :: words.map Bytes.ofString) =
        .ok ⟨none, none, .exec (ofWords words)⟩ ∧
      (file ≠ [] → file.head? ≠ some Look.hyphen →
        read (Bytes.ofString "dev-server" :: file :: dashes :: words.map Bytes.ofString) =
          .ok ⟨none, none, .devServer { appFiles := [file] } words⟩) ∧
      ((∀ word ∈ words.head?,
          word ≠ "--" ∧ ¬ "-h".toList <+: word.toList ∧ ¬ "--help".toList <+: word.toList) →
        read (Bytes.ofString "app" :: words.map Bytes.ofString) =
          .ok ⟨none, none, .app words⟩) := by
  refine ⟨read_exec_words words, fun hne hplain => ?_, fun hfirst => ?_⟩
  · exact read_devServer_words (List.cons_ne_nil file []) (by simpa using ⟨hne, hplain⟩) words
  · refine read_app_words_iff.mpr fun word hword hkept => ?_
    obtain ⟨hdashes, hletter, hhelp⟩ := hfirst word hword
    cases hkept with
    | dashes => exact hdashes rfl
    | help => exact hhelp (by simp)
    | helpWith value => exact hhelp (by simp)
    | letters n => exact hletter (by simp [List.replicate_succ])

/-- Words that look like options, a lone `--` and nothing at all among them. -/
def lookalikes : List String := ["-x", "", "--", "--env=a=b", "-h", "--help", "=", "--"]

theorem read_hands_on_lookalikes :
    read (("exec" :: "--" :: lookalikes).map Bytes.ofString) =
        .ok ⟨none, none, .exec (ofWords lookalikes)⟩ ∧
      read (("dev-server" :: "app.yaml" :: "--" :: lookalikes).map Bytes.ofString) =
        .ok ⟨none, none, .devServer { appFiles := [Path.ofString "app.yaml"] } lookalikes⟩ ∧
      read (("app" :: lookalikes).map Bytes.ofString) = .ok ⟨none, none, .app lookalikes⟩ := by
  obtain ⟨hexec, hserver, happ⟩ := read_hands_on lookalikes (Path.ofString "app.yaml")
  exact ⟨hexec, hserver (by decide) (by decide), happ (by decide)⟩

end ToolRunner.Invocation
