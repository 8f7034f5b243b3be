import ToolRunner.Proofs.Options.Reading

/-!
# Operands that are handed on

Where operands are verbatim, the first of them may look like an option as long as it is none, and
from then on nothing is read (`scan_foreign`). What a text looks like is told from its characters
(`Look.shows`). Operands of another kind may come before a lone `--`; they end there
(`scan_plain_dashes`).
-/

namespace ToolRunner.Options

/-! ## How texts look -/

namespace Look

/-- What a text looks like as an argument. -/
inductive Shows : String → Look → Prop where
  | plain {s : String} (h : s = "-" ∨ s.toList.head? ≠ some '-') : Shows s .plain
  | dashes : Shows "--" .dashes
  | bare {name : String} (hne : name ≠ "") (h : '=' ∉ name.toList) :
      Shows ("--" ++ name) (.long name none)
  | attached {name value : String} (h : '=' ∉ name.toList) :
      Shows ("--" ++ name ++ "=" ++ value) (.long name (some (Bytes.ofString value)))
  | letters {c : Char} {cs : List Char} (hc : c ≠ '-') :
      Shows (String.ofList ('-' :: c :: cs)) (.letters (c :: cs) false)

theorem leadingText_ofString (s : String) : leadingText (Bytes.ofString s) = (s.toList, false) := by
  rw [leadingText, List.range_succ, List.reverse_append]
  simp

theorem bare_eq (name : String) : Options.bare name = Bytes.ofString ("--" ++ name) := by
  rw [Bytes.ofString_append]
  rfl

theorem attached_eq (name value : String) : Options.attached name (Bytes.ofString value) =
    Bytes.ofString ("--" ++ name ++ "=" ++ value) := by
  rw [Bytes.ofString_append, Bytes.ofString_append, ← bare_eq, Options.attached]
  simp only [List.append_assoc]
  rfl

/-- Only a hyphen begins with the byte of one. -/
theorem exists_cons_of_ne {c : Char} (hc : c ≠ '-') (cs : List Char) :
    ∃ b bs, Bytes.ofString (String.ofList (c :: cs)) = b :: bs ∧ b ≠ hyphen := by
  have hbytes : Bytes.ofString (String.ofList (c :: cs)) =
      String.utf8EncodeChar c ++ cs.flatMap String.utf8EncodeChar := by simp [Bytes.ofString]
  have hhyphen : hyphen ∉ String.utf8EncodeChar c := mt (Utf8.mem_utf8EncodeChar (by decide)).mp hc
  obtain ⟨b, bs, hchar⟩ := List.exists_cons_of_ne_nil (String.utf8EncodeChar_ne_nil (c := c))
  rw [hchar] at hhyphen hbytes
  exact ⟨b, _, hbytes, fun hb => hhyphen (hb ▸ List.mem_cons_self)⟩

theorem ofString_hyphen_cons (cs : List Char) :
    Bytes.ofString (String.ofList ('-' :: cs)) = hyphen :: Bytes.ofString (String.ofList cs) := by
  simp only [Bytes.ofString, String.toList_ofList, List.flatMap_cons]
  rfl

theorem of_plain {arg : Bytes} (h : arg.head? ≠ some hyphen) : of arg = .plain := by
  cases arg with
  | nil => rfl
  | cons b bs => exact if_pos fun hb => h (congrArg some hb)

theorem of_letters {c : Char} (hc : c ≠ '-') (cs : List Char) :
    of (Bytes.ofString (String.ofList ('-' :: c :: cs))) = .letters (c :: cs) false := by
  obtain ⟨b, bs, hbytes, hb⟩ := exists_cons_of_ne hc cs
  have hletters := leadingText_ofString (String.ofList (c :: cs))
  rw [hbytes, String.toList_ofList] at hletters
  rw [ofString_hyphen_cons, hbytes]
  simp only [of, hletters, if_pos hb, ne_eq, not_true_eq_false, if_false]

theorem shows_long {cs : List Char} (hne : cs ≠ []) :
    Shows ("--" ++ String.ofList cs) (of (Bytes.ofString ("--" ++ String.ofList cs))) := by
  by_cases hmem : '=' ∈ cs
  · obtain ⟨name, value, rfl, hname⟩ := List.eq_append_cons_of_mem hmem
    have hplain : '=' ∉ (String.ofList name).toList := by simpa using hname
    have hsplit : "--" ++ String.ofList (name ++ '=' :: value) =
        "--" ++ String.ofList name ++ "=" ++ String.ofList value := by
      apply String.ext
      simp
    rw [hsplit, ← attached_eq, of_attached hplain]
    exact .attached hplain
  · have hplain : '=' ∉ (String.ofList cs).toList := by simpa using hmem
    have hname : String.ofList cs ≠ "" := by simpa using hne
    rw [← bare_eq, of_bare hname hplain]
    exact .bare hname hplain

/-- The look of a text. -/
theorem shows (s : String) : Shows s (of (Bytes.ofString s)) := by
  obtain ⟨cs, rfl⟩ : ∃ cs, s = String.ofList cs := ⟨s.toList, String.ofList_toList.symm⟩
  rcases cs with _ | ⟨c, cs⟩
  · exact .plain (.inr (by simp))
  by_cases hc : c = '-'
  · subst hc
    rcases cs with _ | ⟨c, cs⟩
    · exact .plain (.inl rfl)
    by_cases hc : c = '-'
    · subst hc
      have hs : String.ofList ('-' :: '-' :: cs) = "--" ++ String.ofList cs := by
        apply String.ext
        simp
      by_cases hne : cs = []
      · subst hne
        exact .dashes
      · rw [hs]
        exact shows_long hne
    · rw [of_letters hc]
      exact .letters hc
  · obtain ⟨b, bs, hbytes, hb⟩ := exists_cons_of_ne hc cs
    rw [hbytes, of_plain (by simpa using hb)]
    exact .plain (.inr (by simpa using hc))

end Look

/-! ## Verbatim operands -/

section

variable {g : Grammar} {o : Operands}

/-- An argument of this look is none of the grammar's own: neither an option nor a lone `--`. -/
def Grammar.Foreign (g : Grammar) : Look → Prop
  | .plain => True
  | .dashes => False
  | .long name _ => ∃ n, name = some n ∧ g.flag? n = none ∧ g.request? n = none
  | .letters cs more => more = true ∨ ∃ c ∈ cs, g.letter? c = none

theorem operand_verbatim (ho : g.operands = some o) (hverbatim : o.verbatim = true)
    (found : Found) (arg : Bytes) :
    operand g (.ofFound found) arg = .ok (.next (.ofOperands found o [arg])) := by
  have hat : g.operandsAt (Progress.ofFound found).trailing = some o := ho
  rw [operand, hat]
  simp [Progress.addOperand, Progress.ofFound, Progress.ofOperands, hverbatim, Except.map]

/-- The first operand may look like an option. -/
theorem step_foreign (hg : g.commands = []) (ho : g.operands = some o)
    (hverbatim : o.verbatim = true) (found : Found) {arg : Bytes}
    (h : g.Foreign (Look.of arg)) :
    step g (.ofFound found) arg = .ok (.next (.ofOperands found o [arg])) := by
  have hoperand := operand_verbatim ho hverbatim found arg
  have hg' : g.isVerbatim = true := by simp [Grammar.isVerbatim, ho, hverbatim]
  rw [step_ofFound hg, optionOrValue, if_neg (by simp [Progress.ofFound])]
  cases hlook : Look.of arg with
  | plain => exact hoperand
  | dashes => simp [hlook, Grammar.Foreign] at h
  | long name value =>
    rw [hlook] at h
    obtain ⟨n, rfl, hflag, hrequest⟩ := h
    simp only [long, hflag, hrequest, hg', if_true]
    exact hoperand
  | letters cs more =>
    rw [hlook] at h
    have hany : (more || cs.any fun c => (g.letter? c).isNone) = true := by
      simpa [Grammar.Foreign] using h
    simp only [hg', hany, Bool.and_self, if_true]
    exact hoperand

/-- From the first operand on nothing is read. -/
theorem scan_foreign (hg : g.commands = []) (ho : g.operands = some o) (ht : g.trailing = none)
    (hverbatim : o.verbatim = true) (found : Found) {arg : Bytes}
    (h : g.Foreign (Look.of arg)) (args : List Bytes) :
    scan g (.ofFound found) (arg :: args) = .ok ⟨.ofOperands found o (arg :: args), none⟩ := by
  have hat : g.operandsAt true = some o := by simp [Grammar.operandsAt, ht, ho]
  rw [scan, step_foreign hg ho hverbatim found h]
  exact scan_further hat found [arg] args

/-- Verbatim operands are found as they were given. -/
theorem parse_verbatim (hg : g.commands = []) (ho : g.operands = some o) (ht : g.trailing = none)
    (hverbatim : o.verbatim = true) (htext : o.form = .text) {words : List String}
    (h : ∀ word ∈ words.head?, g.Foreign (Look.of (Bytes.ofString word))) :
    parse g (words.map Bytes.ofString) =
      (check g (o.texts words) false).map fun _ => o.texts words := by
  show (scan g (.ofFound []) _ >>= _) = _
  rcases words with _ | ⟨word, words⟩
  · exact finish_of_settle (settle_ofFound [])
  · rw [List.map_cons, scan_foreign hg ho ht hverbatim [] (h word rfl)]
    exact finish_of_settle (settle_texts htext [] (List.cons_ne_nil word words))

end

/-! ## Operands before a lone `--` -/

section

variable {g : Grammar} {o o' : Operands} {found : Found} {values : List Bytes}

/-- Operands that have been given in a row where an option may still follow. -/
def Progress.ofWaiting (found : Found) (o : Operands) (values : List Bytes) : Progress :=
  { Progress.ofOperands found o values with trailing := false }

/-- An argument that does not begin with a hyphen is an operand. -/
theorem step_plain (hg : g.commands = []) (ho : g.operands = some o) (hopen : o.verbatim = false)
    {arg : Bytes} (h : arg.head? ≠ some Look.hyphen) :
    step g (.ofFound found) arg = .ok (.next (.ofWaiting found o [arg])) := by
  have hat : g.operandsAt (Progress.ofFound found).trailing = some o := ho
  rw [step_ofFound hg, optionOrValue, if_neg (by simp [Progress.ofFound]), Look.of_plain h]
  show operand g (.ofFound found) arg = _
  rw [operand, hat]
  simp [Progress.addOperand, Progress.ofFound, Progress.ofWaiting, Progress.ofOperands, hopen,
    Except.map]

theorem step_waiting (arg : Bytes) (hopen : o.verbatim = false) :
    step g (.ofWaiting found o values) arg =
      match Look.of arg with
      | .plain => operand g (.ofWaiting found o values) arg
      | .dashes => .ok (.next (.ofOperands found o values))
      | _ => optionOrValue g (.ofWaiting found o values) arg := by
  have hhyphens : (Progress.ofWaiting found o values).openTarget.any (·.hyphens) = false := hopen
  have hstep : step g (.ofWaiting found o values) arg =
      optionOrValue g (.ofWaiting found o values) arg := rfl
  rw [hstep, optionOrValue, hhyphens]
  cases Look.of arg <;> rfl

theorem scan_waiting (ho : g.operands = some o) (hopen : o.verbatim = false) {args : List Bytes}
    (h : ∀ arg ∈ args, arg.head? ≠ some Look.hyphen) (rest : List Bytes) :
    scan g (.ofWaiting found o values) (args ++ dashes :: rest) =
      scan g (.ofOperands found o (values ++ args)) rest := by
  induction args generalizing values with
  | nil =>
    rw [List.append_nil, List.nil_append, scan, step_waiting _ hopen]
    rfl
  | cons arg args ih =>
    obtain ⟨hfirst, hrest⟩ := List.forall_mem_cons.mp h
    have hat : g.operandsAt (Progress.ofWaiting found o values).trailing = some o := ho
    have hstep : step g (.ofWaiting found o values) arg =
        .ok (.next (.ofWaiting found o (values ++ [arg]))) := by
      rw [step_waiting _ hopen, Look.of_plain hfirst]
      show operand g _ arg = _
      rw [operand, hat]
      simp [Progress.addOperand, Progress.ofWaiting, Progress.ofOperands, hopen, Except.map]
    rw [List.cons_append, scan, hstep]
    show scan g _ (args ++ dashes :: rest) = _
    rw [ih hrest, List.append_assoc]
    rfl

/-- Operands that do not begin with a hyphen go on to a lone `--`. -/
theorem scan_plain_dashes (hg : g.commands = []) (ho : g.operands = some o)
    (hopen : o.verbatim = false) {arg : Bytes} {args : List Bytes}
    (h : ∀ a ∈ arg :: args, a.head? ≠ some Look.hyphen) (rest : List Bytes) :
    scan g (.ofFound found) (arg :: args ++ dashes :: rest) =
      scan g (.ofOperands found o (arg :: args)) rest := by
  obtain ⟨hfirst, hrest⟩ := List.forall_mem_cons.mp h
  rw [List.cons_append, scan, step_plain hg ho hopen hfirst]
  exact scan_waiting ho hopen hrest rest

/-- The first operand of another kind: the ones before it are read. -/
theorem step_other (ho : g.operandsAt true = some o') (hother : o ≠ o') {read : List Value}
    (hne : values ≠ []) (hread : values.mapM o.form.read = .ok read) (arg : Bytes) :
    step g (.ofOperands found o values) arg =
      .ok (.next (.ofOperands (found ++ read.map fun v => (o.name, some v)) o' [arg])) := by
  have hpending : (Progress.ofOperands found o values).pending =
      some ⟨.operands o, values.reverse⟩ := rfl
  have htarget : Target.operands o ≠ .operands o' := fun h => hother (Target.operands.inj h)
  show operand g _ arg = _
  rw [operand, show (Progress.ofOperands found o values).trailing = true from rfl, ho]
  simp only [Progress.addOperand, hpending, if_neg htarget]
  rw [settle_operands (by rfl) hne hread]
  rfl

def Operands.files (o : Operands) (files : List Path) : Found :=
  files.map fun f => (o.name, some (.path f))

theorem mapM_read_files (ho : o.form = .path) {files : List Path} (h : ∀ f ∈ files, f ≠ []) :
    files.mapM o.form.read = .ok (files.map .path) := by
  have hread : (files.map id).mapM o.form.read = .ok (files.map .path) :=
    mapM_read fun f hf => by rw [ho]; exact if_neg (h f hf)
  rwa [List.map_id] at hread

/-- Files, and after a lone `--` texts: all are found as they were given. -/
theorem parse_files_words (hg : g.commands = []) (ho : g.operands = some o)
    (hopen : o.verbatim = false) (hpath : o.form = .path) (ho' : g.trailing = some o')
    (htext : o'.form = .text) {files : List Path} (hfiles : files ≠ [])
    (hname : ∀ f ∈ files, f ≠ [] ∧ f.head? ≠ some Look.hyphen) (words : List String) :
    parse g (files ++ dashes :: words.map Bytes.ofString) =
      (check g (o.files files ++ o'.texts words) false).map fun _ =>
        o.files files ++ o'.texts words := by
  have hat : g.operandsAt true = some o' := by simp [Grammar.operandsAt, ho']
  have hother : o ≠ o' := by
    rintro rfl
    rw [hpath] at htext
    cases htext
  have hread := mapM_read_files hpath fun f hf => (hname f hf).1
  have hplain : ∀ f ∈ files, f.head? ≠ some Look.hyphen := fun f hf => (hname f hf).2
  have hfound : (files.map Value.path).map (fun v => (o.name, some v)) = o.files files :=
    List.map_map
  show (scan g (.ofFound []) _ >>= _) = _
  obtain ⟨file, rest, rfl⟩ := List.exists_cons_of_ne_nil hfiles
  rw [scan_plain_dashes hg ho hopen hplain]
  -- The files wait for the first word, or for the end where there is none.
  rcases words with _ | ⟨word, words⟩
  · rw [List.map_nil, Operands.texts_nil, List.append_nil, ← hfound]
    exact finish_of_settle (settle_operands rfl hfiles hread)
  · rw [List.map_cons, scan, step_other hat hother hfiles hread, hfound]
    show (scan g (.ofOperands _ o' [Bytes.ofString word]) (words.map Bytes.ofString) >>= _) = _
    rw [scan_further hat]
    exact finish_of_settle (settle_texts htext _ (List.cons_ne_nil word words))

end

end ToolRunner.Options
