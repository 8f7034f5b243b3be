import Mathlib.Data.List.Induction
import ToolRunner.Tokens

/-!
# The division of a line into tokens

A line is its tokens and the blanks between them. There is exactly one way to see it so in which a
token begins with a character that is not blank, holds blanks inside quotes only, and ends with all
its quotes closed unless the line ends first (`Divides`). The tokens that a line is split into are
those of this division, so that nothing but blanks outside quotes is left out
(`split_eq_division`).
-/

namespace ToolRunner.Tokens

open ToolRunner.Text (isBlank)

def IsQuote (c : Char) : Prop := c = '"' ∨ c = '\''

instance (c : Char) : Decidable (IsQuote c) := inferInstanceAs (Decidable (_ ∨ _))

/-- Characters at whose end no quote is open: one that was opened outside quotes has been closed by
the next character that is equal to it. -/
inductive Closed : List Char → Prop where
  | nil : Closed []
  | plain {cs : List Char} {c : Char} (before : Closed cs) (plain : ¬ IsQuote c) :
      Closed (cs ++ [c])
  | quoted {cs inner : List Char} {q : Char} (before : Closed cs) (quote : IsQuote q)
      (inside : q ∉ inner) : Closed (cs ++ q :: inner ++ [q])

/-- Characters at whose end the quote `q` is open. -/
def Open (q : Char) (cs : List Char) : Prop :=
  ∃ before inner, Closed before ∧ IsQuote q ∧ q ∉ inner ∧ cs = before ++ q :: inner

/-- Characters that a token may consist of: the first one is not blank, and blanks are quoted. -/
structure Word (token : List Char) : Prop where
  first : ∃ c cs, token = c :: cs ∧ isBlank c = false
  quoted : ∀ before c after, token = before ++ c :: after → isBlank c = true → ∃ q, Open q before

def Blanks (cs : List Char) : Prop := ∀ c ∈ cs, isBlank c = true

/-- Tokens with what stands between them: `lead` comes first, and each of `parts` is a token and
what follows it. -/
structure Divides (line lead : List Char) (parts : List (List Char × List Char)) : Prop where
  whole : line = lead ++ parts.flatMap fun part => part.1 ++ part.2
  lead : Blanks lead
  gaps : ∀ part ∈ parts, Blanks part.2
  /-- Tokens that follow one another are kept apart. -/
  apart : ∀ part ∈ parts.dropLast, part.2 ≠ []
  words : ∀ part ∈ parts, Word part.1
  closed : ∀ part ∈ parts.dropLast, Closed part.1
  /-- A quote that is still open encloses all the rest of the line. -/
  unended : ∀ part ∈ parts.getLast?, (∃ q, Open q part.1) → part.2 = []

variable {line lead lead' token gap cs : List Char} {parts parts' : List (List Char × List Char)}
variable {c q : Char}

/-! ## The quote that is open -/

/-- The quote that is open after some characters. -/
def openAfter (cs : List Char) : Option Char := cs.foldl quoteAfter none

theorem openAfter_concat (cs : List Char) (c : Char) :
    openAfter (cs ++ [c]) = quoteAfter (openAfter cs) c := by
  simp [openAfter]

theorem quoteAfter_none (c : Char) :
    quoteAfter none c = if IsQuote c then some c else none := rfl

theorem quoteAfter_some (q c : Char) :
    quoteAfter (some q) c = if c = q then none else some q := rfl

theorem foldl_quoteAfter (h : q ∉ cs) : cs.foldl quoteAfter (some q) = some q := by
  induction cs with
  | nil => rfl
  | cons c cs ih =>
    obtain ⟨hc, hcs⟩ := List.ne_and_not_mem_of_not_mem_cons h
    rw [List.foldl_cons, quoteAfter_some, if_neg (Ne.symm hc)]
    exact ih hcs

theorem Closed.openAfter_eq (h : Closed cs) : openAfter cs = none := by
  induction h with
  | nil => rfl
  | plain before plain ih => rw [openAfter_concat, ih, quoteAfter_none, if_neg plain]
  | quoted before quote inside ih =>
    rw [openAfter_concat, openAfter, List.foldl_append, ← openAfter, ih, List.foldl_cons,
      quoteAfter_none, if_pos quote, foldl_quoteAfter inside, quoteAfter_some, if_pos rfl]

theorem Open.openAfter_eq (h : Open q cs) : openAfter cs = some q := by
  obtain ⟨before, inner, hbefore, hquote, hinside, rfl⟩ := h
  rw [openAfter, List.foldl_append, ← openAfter, hbefore.openAfter_eq, List.foldl_cons,
    quoteAfter_none, if_pos hquote, foldl_quoteAfter hinside]

/-- At the end of any characters no quote is open, or the one that is is known. -/
theorem closed_or_open (cs : List Char) : Closed cs ∨ ∃ q, Open q cs := by
  induction cs using List.reverseRecOn with
  | nil => exact .inl .nil
  | append_singleton cs c ih =>
    rcases ih with hclosed | ⟨q, before, inner, hbefore, hquote, hinside, rfl⟩
    · by_cases hc : IsQuote c
      · exact .inr ⟨c, cs, [], hclosed, hc, List.not_mem_nil, rfl⟩
      · exact .inl (.plain hclosed hc)
    · by_cases hc : c = q
      · subst hc
        exact .inl (.quoted hbefore hquote hinside)
      · refine .inr ⟨q, before, inner ++ [c], hbefore, hquote, ?_, by simp⟩
        simp [hinside, Ne.symm hc]

theorem openAfter_eq_none_iff : openAfter cs = none ↔ Closed cs := by
  refine ⟨fun h => (closed_or_open cs).resolve_right ?_, Closed.openAfter_eq⟩
  rintro ⟨q, hopen⟩
  rw [hopen.openAfter_eq] at h
  contradiction

instance (cs : List Char) : Decidable (Closed cs) := decidable_of_iff _ openAfter_eq_none_iff

theorem Open.not_closed (h : Open q cs) : ¬ Closed cs := by
  intro hclosed
  have hsome := h.openAfter_eq
  rw [hclosed.openAfter_eq] at hsome
  contradiction

/-! ## Divisions -/

namespace Divides

theorem nil : Divides [] [] [] where
  whole := rfl
  lead := nofun
  gaps := nofun
  apart := nofun
  words := nofun
  closed := nofun
  unended := nofun

/-- A blank in front belongs to what comes before the first token. -/
theorem blank (h : Divides cs lead parts) (hc : isBlank c = true) :
    Divides (c :: cs) (c :: lead) parts :=
  { h with
    whole := by rw [h.whole, List.cons_append]
    lead := List.forall_mem_cons.mpr ⟨hc, h.lead⟩ }

/-- A token that nothing follows. -/
theorem only (word : Word token) : Divides token [] [(token, [])] where
  whole := by simp
  lead := nofun
  gaps := by simp [Blanks]
  apart := by simp
  words := by simpa using word
  closed := by simp
  unended := by simp

/-- A token that a blank follows. -/
theorem cons (h : Divides cs lead parts) (word : Word token) (closed : Closed token)
    (hc : isBlank c = true) : Divides (token ++ c :: cs) [] ((token, c :: lead) :: parts) where
  whole := by simp [h.whole]
  lead := nofun
  gaps := List.forall_mem_cons.mpr ⟨List.forall_mem_cons.mpr ⟨hc, h.lead⟩, h.gaps⟩
  apart := by
    cases parts with
    | nil => simp
    | cons part parts => simpa using h.apart
  words := List.forall_mem_cons.mpr ⟨word, h.words⟩
  closed := by
    cases parts with
    | nil => simp
    | cons part parts => simpa [closed] using h.closed
  unended := by
    cases parts with
    | nil =>
      simp only [List.getLast?_singleton, Option.mem_def, Option.some.injEq, forall_eq']
      rintro ⟨q, hopen⟩
      exact absurd closed hopen.not_closed
    | cons part parts => simpa using h.unended

end Divides

/-- The tokens that the scan of a line gives are those of a division; where a token has begun, of
one whose first token begins so. -/
theorem splitFrom_divides (cs : List Char) :
    (∃ lead parts, Divides cs lead parts ∧ splitFrom none none cs = parts.map (·.1)) ∧
      ∀ token, Word token.reverse →
        ∃ parts, Divides (token.reverse ++ cs) [] parts ∧
          splitFrom (some token) (openAfter token.reverse) cs = parts.map (·.1) := by
  -- Both together, since a scan goes from between tokens into one and out of it again.
  induction cs with
  | nil =>
    refine ⟨⟨[], [], .nil, rfl⟩, fun token word => ⟨[(token.reverse, [])], ?_, rfl⟩⟩
    rw [List.append_nil]
    exact .only word
  | cons c cs ih =>
    obtain ⟨⟨lead, parts, hdivides, hsplit⟩, hwithin⟩ := ih
    constructor
    · by_cases hc : isBlank c = true
      · refine ⟨c :: lead, parts, hdivides.blank hc, ?_⟩
        rw [splitFrom, divides, hc]
        exact hsplit
      · have hword : Word [c] := by
          refine ⟨⟨c, [], rfl, by simpa using hc⟩, fun before d after heq hd => ?_⟩
          rw [List.singleton_eq_append_iff] at heq
          simp_all
        obtain ⟨parts, hparts, hsplit⟩ := hwithin [c] hword
        refine ⟨[], parts, hparts, ?_⟩
        rw [splitFrom, divides, if_neg (by simp [hc])]
        exact hsplit
    · intro token word
      by_cases hdiv : divides (openAfter token.reverse) c = true
      · obtain ⟨hc, hnone⟩ := Bool.and_eq_true_iff.mp hdiv
        rw [Option.isNone_iff_eq_none, openAfter_eq_none_iff] at hnone
        refine ⟨_, hdivides.cons word hnone hc, ?_⟩
        rw [splitFrom, if_pos hdiv, hnone.openAfter_eq, hsplit]
        rfl
      · have hword : Word (c :: token).reverse := by
          rw [List.reverse_cons]
          obtain ⟨d, ds, hfirst, hd⟩ := word.first
          refine ⟨⟨d, ds ++ [c], by rw [hfirst, List.cons_append], hd⟩, ?_⟩
          intro before b after heq hb
          rcases List.eq_nil_or_concat after with rfl | ⟨after, last, rfl⟩
          · obtain ⟨rfl, hlast⟩ := List.append_inj' heq rfl
            injection hlast with hlast
            subst hlast
            refine (closed_or_open _).resolve_left fun hclosed => hdiv ?_
            rw [divides, hb, hclosed.openAfter_eq]
            rfl
          · rw [List.concat_eq_append, ← List.cons_append, ← List.append_assoc] at heq
            exact word.quoted before b after (List.append_inj' heq rfl).1 hb
        obtain ⟨parts, hparts, hsplit⟩ := hwithin (c :: token) hword
        refine ⟨parts, by simpa using hparts, ?_⟩
        rw [splitFrom, if_neg hdiv, ← openAfter_concat, ← List.reverse_cons]
        exact hsplit

/-! ## There is no other division -/

/-- Blanks in front of what does not begin with one are told apart from it. -/
theorem blanks_append_inj {gap gap' rest rest' : List Char} (blanks : Blanks gap)
    (blanks' : Blanks gap') (first : ∀ c ∈ rest.head?, isBlank c = false)
    (first' : ∀ c ∈ rest'.head?, isBlank c = false) (h : gap ++ rest = gap' ++ rest') :
    gap = gap' ∧ rest = rest' := by
  have hgap {gap rest : List Char} (blanks : Blanks gap)
      (first : ∀ c ∈ rest.head?, isBlank c = false) : (gap ++ rest).takeWhile isBlank = gap := by
    rw [List.takeWhile_append_of_pos blanks]
    cases rest with
    | nil => simp
    | cons c cs => simp [first c rfl]
  have heq : gap = gap' := by rw [← hgap blanks first, h, hgap blanks' first']
  subst heq
  exact ⟨rfl, List.append_cancel_left h⟩

namespace Divides

theorem head_blank (h : Divides line lead parts) :
    ∀ c ∈ (parts.flatMap fun part => part.1 ++ part.2).head?, isBlank c = false := by
  cases parts with
  | nil => simp
  | cons part parts =>
    obtain ⟨c, cs, hfirst, hc⟩ := (h.words part List.mem_cons_self).first
    simp [hfirst, hc]

/-- What follows the first token and its gap is divided by the other parts. -/
theorem tail (h : Divides line lead ((token, gap) :: parts)) :
    Divides (parts.flatMap fun part => part.1 ++ part.2) [] parts where
  whole := rfl
  lead := nofun
  gaps part hpart := h.gaps part (List.mem_cons_of_mem _ hpart)
  apart part hpart := by
    cases parts with
    | nil => simp at hpart
    | cons first parts => exact h.apart part (by simpa using .inr hpart)
  words part hpart := h.words part (List.mem_cons_of_mem _ hpart)
  closed part hpart := by
    cases parts with
    | nil => simp at hpart
    | cons first parts => exact h.closed part (by simpa using .inr hpart)
  unended part hpart := by
    cases parts with
    | nil => simp at hpart
    | cons first parts => exact h.unended part (by simpa using hpart)

/-- Where the first token ends, no character follows that could be part of it. -/
theorem not_extended (h : Divides line lead ((token, gap) :: parts)) {more rest : List Char}
    (word : Word (token ++ c :: more))
    (heq : gap ++ parts.flatMap (fun part => part.1 ++ part.2) = c :: more ++ rest) : False := by
  cases gap with
  | nil =>
    -- Nothing keeps the token from the next one, so there is none.
    cases parts with
    | nil => simp at heq
    | cons part parts => exact h.apart (token, []) (by simp) rfl
  | cons b gap =>
    injection heq with hb heq
    subst hb
    have hblank := h.gaps (token, b :: gap) List.mem_cons_self b List.mem_cons_self
    have hopen := word.quoted token b more rfl hblank
    cases parts with
    | nil => exact absurd (h.unended (token, b :: gap) (by simp) hopen) (by simp)
    | cons part parts =>
      obtain ⟨q, hopen⟩ := hopen
      exact hopen.not_closed (h.closed (token, b :: gap) (by simp))

theorem unique_parts (h : Divides line [] parts) (h' : Divides line [] parts') :
    parts = parts' := by
  induction parts generalizing line parts' with
  | nil =>
    cases parts' with
    | nil => rfl
    | cons part parts' =>
      obtain ⟨c, cs, hfirst, -⟩ := (h'.words part List.mem_cons_self).first
      have heq := h'.whole
      simp [h.whole, hfirst] at heq
  | cons part parts ih =>
    obtain ⟨token, gap⟩ := part
    cases parts' with
    | nil =>
      obtain ⟨c, cs, hfirst, -⟩ := (h.words (token, gap) List.mem_cons_self).first
      have heq := h.whole
      simp [h'.whole] at heq
      simp [heq] at hfirst
    | cons part' parts' =>
      obtain ⟨token', gap'⟩ := part'
      have heq := h.whole.symm.trans h'.whole
      simp only [List.nil_append, List.flatMap_cons, List.append_assoc] at heq
      have hword := h.words (token, gap) List.mem_cons_self
      have hword' := h'.words (token', gap') List.mem_cons_self
      -- Of two first tokens neither is longer.
      have htoken : token = token' := by
        rcases List.append_eq_append_iff.mp heq with ⟨more, rfl, hmore⟩ | ⟨more, rfl, hmore⟩
        · cases more with
          | nil => simp
          | cons c more => exact (h.not_extended hword' hmore).elim
        · cases more with
          | nil => simp
          | cons c more => exact (h'.not_extended hword hmore).elim
      subst htoken
      obtain ⟨rfl, hrest⟩ := blanks_append_inj (h.gaps (token, gap) List.mem_cons_self)
        (h'.gaps (token, gap') List.mem_cons_self) h.tail.head_blank h'.tail.head_blank
        (List.append_cancel_left heq)
      rw [ih h.tail (hrest ▸ h'.tail)]

theorem unique (h : Divides line lead parts) (h' : Divides line lead' parts') :
    lead' = lead ∧ parts' = parts := by
  obtain ⟨rfl, hrest⟩ := blanks_append_inj h.lead h'.lead h.head_blank h'.head_blank
    (h.whole.symm.trans h'.whole)
  have hbody : Divides (parts.flatMap fun part => part.1 ++ part.2) [] parts :=
    { h with whole := rfl, lead := nofun }
  have hbody' : Divides (parts.flatMap fun part => part.1 ++ part.2) [] parts' :=
    { h' with whole := hrest, lead := nofun }
  exact ⟨rfl, (hbody.unique_parts hbody').symm⟩

end Divides

/-! ## What is kept -/

theorem divides_iff : divides (openAfter cs) c = true ↔ isBlank c = true ∧ Closed cs := by
  rw [divides, Bool.and_eq_true, Option.isNone_iff_eq_none, openAfter_eq_none_iff]

/-- The characters of a line without the blanks outside quotes, where `before` is what comes before
them in the line. -/
def kept (before : List Char) : List Char → List Char
  | [] => []
  | c :: cs =>
    if isBlank c = true ∧ Closed before then kept (before ++ [c]) cs
    else c :: kept (before ++ [c]) cs

theorem not_isQuote_of_isBlank (h : isBlank c = true) : ¬ IsQuote c := by
  rintro (rfl | rfl) <;> exact absurd h (by decide)

/-- The scan of a line keeps all but the blanks at which it ends a token or waits for one. -/
theorem flatten_splitFrom (before : List Char) (token : Option (List Char)) (cs : List Char) :
    (splitFrom token (openAfter before) cs).flatten =
      (token.map List.reverse).getD [] ++ kept before cs := by
  induction cs generalizing before token with
  | nil => cases token <;> simp [splitFrom, kept]
  | cons c cs ih =>
    rw [splitFrom, kept]
    by_cases hc : divides (openAfter before) c = true
    · obtain ⟨hblank, hclosed⟩ := divides_iff.mp hc
      have hnone : openAfter (before ++ [c]) = none :=
        (hclosed.plain (not_isQuote_of_isBlank hblank)).openAfter_eq
      have hrest := ih (before ++ [c]) none
      rw [hnone] at hrest
      rw [if_pos hc, if_pos ⟨hblank, hclosed⟩, hclosed.openAfter_eq, List.flatten_append, hrest]
      cases token <;> simp
    · rw [if_neg hc, if_neg (mt divides_iff.mpr hc), ← openAfter_concat, ih]
      cases token <;> simp

/-- A line has one division, its tokens are those of this division, and together they hold all of
the line, in order, but the blanks outside quotes. -/
theorem split_eq_division (line : String) :
    ∃ lead parts,
      (∀ lead' parts', Divides line.toList lead' parts' ↔ lead' = lead ∧ parts' = parts) ∧
      split line = parts.map (fun part => String.ofList part.1) ∧
      (split line).flatMap String.toList = kept [] line.toList := by
  obtain ⟨⟨lead, parts, hdivides, hsplit⟩, -⟩ := splitFrom_divides line.toList
  refine ⟨lead, parts, fun lead' parts' => ⟨hdivides.unique, ?_⟩, ?_, ?_⟩
  · rintro ⟨rfl, rfl⟩
    exact hdivides
  · rw [split, hsplit, List.map_map]
    rfl
  · have hkept := flatten_splitFrom [] none line.toList
    rw [Option.map_none, Option.getD_none, List.nil_append] at hkept
    rw [split, List.flatMap_map, ← hkept]
    simp [List.flatMap_def, openAfter]

/-- Quotes stay, also one that is never closed, and blanks inside them. -/
example : split " a=\"b c\"  'd \" " = ["a=\"b c\"", "'d \" "] := by decide +kernel

end ToolRunner.Tokens
