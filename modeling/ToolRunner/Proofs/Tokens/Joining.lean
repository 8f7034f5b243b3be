import ToolRunner.Proofs.Tokens.Division

/-!
# Tokens that are joined again

Blanks between two lines keep their tokens apart, unless the first line ends inside a quote, which
then takes the blanks in (`split_append`). All tokens of a line but the last one end outside quotes.
So they can be joined with any blanks and come out of the joined line as they were, also where the
last one has a quote that is never closed (`split_join`).
-/

namespace ToolRunner.Tokens

open ToolRunner.Text (isBlank)

/-- Text that keeps tokens apart: at least one blank and nothing else. -/
structure Separates (gap : String) : Prop where
  blanks : Blanks gap.toList
  nonempty : gap ≠ ""

instance (cs : List Char) : Decidable (Blanks cs) := List.decidableBAll _ cs

instance (gap : String) : Decidable (Separates gap) :=
  decidable_of_iff (Blanks gap.toList ∧ gap ≠ "") ⟨fun h => ⟨h.1, h.2⟩, fun h => ⟨h.1, h.2⟩⟩

/-- Tokens on one line, where `gap n` stands between those of the numbers `n` and `n + 1`. -/
def join (gap : Nat → String) : List String → String
  | [] => ""
  | [token] => token
  | token :: next :: rest => token ++ gap 0 ++ join (fun n => gap (n + 1)) (next :: rest)

variable {lead gap cs : List Char} {parts : List (List Char × List Char)}

/-! ## Blanks between two lines -/

/-- Blanks before the first token make no difference. -/
theorem splitFrom_blanks (blanks : Blanks gap) (cs : List Char) :
    splitFrom none none (gap ++ cs) = splitFrom none none cs := by
  induction gap with
  | nil => rfl
  | cons c gap ih =>
    obtain ⟨hc, hgap⟩ := List.forall_mem_cons.mp blanks
    have hdiv : divides none c = true := by rw [divides, hc]; rfl
    rw [List.cons_append, splitFrom, if_pos hdiv, ih hgap]
    rfl

/-- Where characters end outside quotes, the blanks after them end the token that has begun. -/
theorem splitFrom_append (token : Option (List Char)) (quote : Option Char) (rest : List Char)
    (closed : cs.foldl quoteAfter quote = none) (blanks : Blanks gap) (nonempty : gap ≠ []) :
    splitFrom token quote (cs ++ gap ++ rest) =
      splitFrom token quote cs ++ splitFrom none none rest := by
  induction cs generalizing token quote with
  | nil =>
    obtain ⟨c, gap, rfl⟩ := List.exists_cons_of_ne_nil nonempty
    obtain ⟨hc, hgap⟩ := List.forall_mem_cons.mp blanks
    have hquote : quote = none := closed
    have hdiv : divides none c = true := by rw [divides, hc]; rfl
    simp only [hquote, List.nil_append, List.cons_append, splitFrom, if_pos hdiv,
      splitFrom_blanks hgap]
  | cons c cs ih =>
    rw [List.cons_append, List.cons_append, splitFrom, splitFrom]
    by_cases hdiv : divides quote c = true
    · -- Outside quotes a blank opens none.
      obtain ⟨hc, hnone⟩ := Bool.and_eq_true_iff.mp hdiv
      rw [Option.isNone_iff_eq_none] at hnone
      subst hnone
      rw [List.foldl_cons, quoteAfter_none, if_neg (not_isQuote_of_isBlank hc)] at closed
      rw [if_pos hdiv, if_pos hdiv, ih none none closed, List.append_assoc]
    · rw [if_neg hdiv, if_neg hdiv]
      exact ih _ _ closed

theorem split_append {line between : String} (closed : Closed line.toList)
    (separates : Separates between) (rest : String) :
    split (line ++ between ++ rest) = split line ++ split rest := by
  have hne : between.toList ≠ [] := fun h => separates.nonempty (String.toList_eq_nil_iff.mp h)
  rw [split, String.toList_append, String.toList_append,
    splitFrom_append none none _ closed.openAfter_eq separates.blanks hne, List.map_append]
  rfl

/-! ## The tokens of a line -/

/-- The scan of a line gives the tokens of its division. -/
theorem splitFrom_eq_of_divides (h : Divides cs lead parts) :
    splitFrom none none cs = parts.map (·.1) := by
  obtain ⟨⟨lead', parts', hdivides, hsplit⟩, -⟩ := splitFrom_divides cs
  obtain ⟨-, rfl⟩ := h.unique hdivides
  exact hsplit

theorem split_word {token : String} (word : Word token.toList) : split token = [token] := by
  rw [split, splitFrom_eq_of_divides (.only word)]
  simp

theorem word_of_mem_split {line token : String} (h : token ∈ split line) : Word token.toList := by
  obtain ⟨⟨lead, parts, hdivides, hsplit⟩, -⟩ := splitFrom_divides line.toList
  rw [split, hsplit, List.map_map] at h
  obtain ⟨part, hpart, rfl⟩ := List.mem_map.mp h
  simpa using hdivides.words part hpart

/-- Only the last token of a line can have a quote that is still open. -/
theorem closed_of_mem_dropLast {line token : String} (h : token ∈ (split line).dropLast) :
    Closed token.toList := by
  obtain ⟨⟨lead, parts, hdivides, hsplit⟩, -⟩ := splitFrom_divides line.toList
  rw [split, hsplit, List.map_map, ← List.map_dropLast] at h
  obtain ⟨part, hpart, rfl⟩ := List.mem_map.mp h
  simpa using hdivides.closed part hpart

/-! ## Joining -/

/-- Words that are joined by blanks come out again. -/
theorem split_join_words {gap : Nat → String} {tokens : List String}
    (words : ∀ token ∈ tokens, Word token.toList)
    (closed : ∀ token ∈ tokens.dropLast, Closed token.toList)
    (separates : ∀ n, n + 1 < tokens.length → Separates (gap n)) :
    split (join gap tokens) = tokens := by
  induction tokens generalizing gap with
  | nil => rfl
  | cons token tokens ih =>
    obtain ⟨hword, hwords⟩ := List.forall_mem_cons.mp words
    cases tokens with
    | nil => exact split_word hword
    | cons next rest =>
      rw [List.dropLast_cons_cons] at closed
      obtain ⟨hclosed, hcloseds⟩ := List.forall_mem_cons.mp closed
      have hrest : split (join (fun n => gap (n + 1)) (next :: rest)) = next :: rest :=
        ih hwords hcloseds fun n hn => separates (n + 1) (Nat.succ_lt_succ hn)
      have hfirst := separates 0 (Nat.succ_lt_succ (Nat.succ_pos _))
      rw [join, split_append hclosed hfirst, split_word hword, hrest]
      rfl

theorem join_eq_intercalate (gap : String) (tokens : List String) :
    join (fun _ => gap) tokens = gap.intercalate tokens := by
  induction tokens with
  | nil => rfl
  | cons token tokens ih =>
    cases tokens with
    | nil => rfl
    | cons next rest => rw [join, ih, String.intercalate_cons_cons]

theorem separates_space : Separates " " := by decide

/-- The tokens of a line are still its tokens when they are joined by other blanks, whichever these
are between any two of them, and in particular when they are joined by spaces. Two lines of which
the first one ends outside quotes have, with blanks between them, the tokens of the first one and
then those of the second. -/
theorem split_join (line : String) :
    (∀ gap : Nat → String, (∀ n, n + 1 < (split line).length → Separates (gap n)) →
      split (join gap (split line)) = split line) ∧
    split (" ".intercalate (split line)) = split line ∧
    ∀ between rest, Closed line.toList → Separates between →
      split (line ++ between ++ rest) = split line ++ split rest := by
  have hjoin (gap : Nat → String) (h : ∀ n, n + 1 < (split line).length → Separates (gap n)) :
      split (join gap (split line)) = split line :=
    split_join_words (fun _ => word_of_mem_split) (fun _ => closed_of_mem_dropLast) h
  refine ⟨hjoin, ?_, fun between rest closed separates => split_append closed separates rest⟩
  rw [← join_eq_intercalate]
  exact hjoin _ fun _ _ => separates_space

/-- The last token has a quote that is never closed, and a line that ends outside quotes comes
before. -/
theorem split_join_unended :
    Separates "\t " ∧ Closed "a \"b c\"".toList ∧
      split "  a\t 'b \" c " = ["a", "'b \" c "] ∧
      split (join (fun _ => "\t ") ["a", "'b \" c "]) = ["a", "'b \" c "] ∧
      split ("a \"b c\"" ++ "\t " ++ "  a\t 'b \" c ") =
        split "a \"b c\"" ++ ["a", "'b \" c "] := by
  have hgap : Separates "\t " := by decide
  have hclosed : Closed "a \"b c\"".toList := by decide
  have hsplit : split "  a\t 'b \" c " = ["a", "'b \" c "] := by decide +kernel
  have hjoin := (split_join "  a\t 'b \" c ").1 (fun _ => "\t ") fun _ _ => hgap
  have happend := (split_join "a \"b c\"").2.2 "\t " "  a\t 'b \" c " hclosed hgap
  rw [hsplit] at hjoin happend
  exact ⟨hgap, hclosed, hsplit, hjoin, happend⟩

end ToolRunner.Tokens
