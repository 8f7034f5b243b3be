import ToolRunner.Proofs.Line.Fetch
import ToolRunner.Proofs.Text.Excerpt

/-!
# The pieces of a text

A reader looks for line feeds and counts bytes, so that a piece may end inside a character. Where
the stream is a text, every piece is an excerpt of it, by the places at which the pieces follow each
other (`Fetches.bytes_eq`). A character other than a line feed that no split cuts is in one piece as
a whole and in no other (`Unbroken.whole`), and of every character all bytes are in the pieces, none
of them twice (`Unbroken.sum_part`).
-/

namespace ToolRunner.Utf8

open Bytes

/-- The number of bytes of a character in a stretch. -/
def Span.part (s : Span) (c : Placed) : Nat := min c.stop s.stop - max c.start s.start

variable {s : Span} {c : Placed}

theorem Span.replaced_of_part (h : 0 < s.part c) (hholds : ¬ s.Holds c) :
    0 < s.orphans c ∨ s.Cuts c := by
  simp only [part, Holds, Cuts, orphans] at *
  split <;> omega

/-- A character stands where its bytes are. -/
theorem exists_of_mem_placedFrom {place : Nat} {cs : List Char} (h : c ∈ placedFrom place cs) :
    ∃ before after, cs = before ++ c.char :: after ∧
      c.start = place + (before.flatMap String.utf8EncodeChar).length := by
  induction cs generalizing place with
  | nil => simp [placedFrom] at h
  | cons ch cs ih =>
    rcases List.mem_cons.mp h with rfl | hmem
    · exact ⟨[], cs, rfl, rfl⟩
    · obtain ⟨before, after, rfl, hstart⟩ := ih hmem
      refine ⟨ch :: before, after, rfl, ?_⟩
      rw [hstart, List.flatMap_cons, List.length_append, String.length_utf8EncodeChar]
      omega

theorem newline_not_mem_utf8EncodeChar {ch : Char} (h : ch ≠ '\n') :
    newline ∉ String.utf8EncodeChar ch :=
  mt (mem_utf8EncodeChar (by decide)).mp h

/-- A character ends within its text, and has no line feed among its bytes unless it is one. -/
theorem stop_le_of_mem_placed {text : String} (h : c ∈ placed text) :
    c.stop ≤ (ofString text).length := by
  obtain ⟨before, after, hchars, hstart⟩ := exists_of_mem_placedFrom h
  rw [Placed.stop, hstart, ofString, hchars]
  simp only [List.flatMap_append, List.flatMap_cons, List.length_append,
    String.length_utf8EncodeChar]
  omega

theorem getElem?_ne_newline {text : String} (h : c ∈ placed text) (hchar : c.char ≠ '\n') {k : Nat}
    (low : c.start ≤ k) (high : k < c.stop) : (ofString text)[k]? ≠ some newline := by
  obtain ⟨before, after, hchars, hstart⟩ := exists_of_mem_placedFrom h
  rw [Nat.zero_add] at hstart
  have hlength := String.length_utf8EncodeChar c.char
  have hin : k - c.start < (String.utf8EncodeChar c.char).length := by
    rw [hlength]
    simp only [Placed.stop] at high
    omega
  rw [ofString, hchars, List.flatMap_append, List.flatMap_cons,
    List.getElem?_append_right (by omega), ← hstart, List.getElem?_append_left hin]
  exact fun hget => newline_not_mem_utf8EncodeChar hchar (List.mem_of_getElem? hget)

end ToolRunner.Utf8

namespace ToolRunner.Line

open Bytes Utf8

variable {cap : Cap}

/-! ## Where the pieces are in the stream -/

/-- Where pieces are that follow each other from a place on. -/
def spansFrom (place : Nat) : List Piece → List Span
  | [] => []
  | p :: ps => ⟨place, place + p.bytes.length⟩ :: spansFrom (place + p.written.length) ps

/-- The places at which the cap alone ended a piece. -/
def splitsFrom (place : Nat) : List Piece → List Nat
  | [] => []
  | p :: ps =>
    (if p.ended then [] else [place + p.bytes.length]) ++
      splitsFrom (place + p.written.length) ps

def spans (ps : List Piece) : List Span := spansFrom 0 ps

def splits (ps : List Piece) : List Nat := splitsFrom 0 ps

theorem written_cons (p : Piece) (ps : List Piece) : written (p :: ps) = p.written ++ written ps :=
  rfl

theorem length_written (p : Piece) :
    p.written.length = p.bytes.length + if p.ended then 1 else 0 := by
  rw [Piece.written, List.length_append]
  split <;> rfl

theorem spansFrom_append (place : Nat) (ps qs : List Piece) :
    spansFrom place (ps ++ qs) =
      spansFrom place ps ++ spansFrom (place + (written ps).length) qs := by
  induction ps generalizing place with
  | nil => simp [written, spansFrom]
  | cons p ps ih =>
    rw [List.cons_append, spansFrom, spansFrom, ih, written_cons, List.length_append,
      List.cons_append, Nat.add_assoc]

theorem start_ge_of_mem_spansFrom {place : Nat} {ps : List Piece} {s : Span}
    (h : s ∈ spansFrom place ps) : place ≤ s.start := by
  induction ps generalizing place with
  | nil => simp [spansFrom] at h
  | cons p ps ih =>
    rcases List.mem_cons.mp h with rfl | hmem
    · exact Nat.le_refl place
    · exact Nat.le_trans (Nat.le_add_right _ _) (ih hmem)

theorem stop_le_of_mem_spansFrom {place : Nat} {ps : List Piece} {s : Span}
    (h : s ∈ spansFrom place ps) : s.stop ≤ place + (written ps).length := by
  induction ps generalizing place with
  | nil => simp [spansFrom] at h
  | cons p ps ih =>
    rw [written_cons, List.length_append]
    rcases List.mem_cons.mp h with rfl | hmem
    · have hlength := length_written p
      simp only
      omega
    · have hstop := ih hmem
      omega

/-- Every piece is the stretch of the stream at its place. -/
theorem map_bytes_eq (before : Bytes) (ps : List Piece) :
    ps.map (·.bytes) = (spansFrom before.length ps).map (·.cut (before ++ written ps)) := by
  induction ps generalizing before with
  | nil => rfl
  | cons p ps ih =>
    have hcut : Span.cut ⟨before.length, before.length + p.bytes.length⟩
        (before ++ written (p :: ps)) = p.bytes := by
      rw [Span.cut, written_cons, Piece.written, List.append_assoc, ← List.append_assoc before,
        List.take_left' (by simp), List.drop_left]
    have hrest := ih (before ++ p.written)
    rw [List.length_append, List.append_assoc] at hrest
    rw [List.map_cons, spansFrom, List.map_cons, hcut, hrest]
    rfl

theorem cut_append {s : Span} {bs : Bytes} (h : s.stop ≤ bs.length) (after : Bytes) :
    s.cut (bs ++ after) = s.cut bs := by
  rw [Span.cut, List.take_append_of_le_length h, Span.cut]

theorem le_of_mem_splitsFrom {place n : Nat} {ps : List Piece} (h : n ∈ splitsFrom place ps) :
    place ≤ n := by
  induction ps generalizing place with
  | nil => simp [splitsFrom] at h
  | cons p ps ih =>
    rcases List.mem_append.mp h with hfirst | hlater
    · split at hfirst
      · simp at hfirst
      · rw [List.mem_singleton.mp hfirst]
        exact Nat.le_add_right _ _
    · exact Nat.le_trans (Nat.le_add_right _ _) (ih hlater)

/-- No split is inside a piece. -/
theorem splits_apart {place n : Nat} {ps : List Piece} {s : Span} (hn : n ∈ splitsFrom place ps)
    (hs : s ∈ spansFrom place ps) : n ≤ s.start ∨ s.stop ≤ n := by
  induction ps generalizing place with
  | nil => simp [spansFrom] at hs
  | cons p ps ih =>
    have hlength := length_written p
    have hsplit : n = place + p.bytes.length ∨ n ∈ splitsFrom (place + p.written.length) ps := by
      rcases List.mem_append.mp hn with hfirst | hlater
      · split at hfirst
        · simp at hfirst
        · exact .inl (List.mem_singleton.mp hfirst)
      · exact .inr hlater
    rcases hsplit with rfl | hlater
    · rcases List.mem_cons.mp hs with rfl | hmem
      · exact .inr (Nat.le_refl _)
      · have hstart := start_ge_of_mem_spansFrom hmem
        exact .inl (by omega)
    · rcases List.mem_cons.mp hs with rfl | hmem
      · have hbeyond := le_of_mem_splitsFrom hlater
        exact .inr (by simp only; omega)
      · exact ih hlater hmem

/-! ## Where the characters are in the pieces -/

/-- The bytes of a character from a place on are among what the pieces wrote, and none of them is a
line feed. -/
structure Unbroken (place : Nat) (ps : List Piece) (c : Placed) : Prop where
  plain : ∀ k, place ≤ k → c.start ≤ k → k < c.stop → (written ps)[k - place]? ≠ some newline
  within : c.stop ≤ place + (written ps).length

namespace Unbroken

variable {place : Nat} {p : Piece} {ps : List Piece} {c : Placed}

theorem later (h : Unbroken place (p :: ps) c) : Unbroken (place + p.written.length) ps c where
  plain := by
    intro k hplace low high
    have hk := h.plain k (by omega) low high
    rwa [written_cons, List.getElem?_append_right (by omega), Nat.sub_sub] at hk
  within := by
    have hwithin := h.within
    rw [written_cons, List.length_append] at hwithin
    omega

/-- The line feed that ends a piece is not in the character. -/
theorem apart (h : Unbroken place (p :: ps) c) (hended : p.ended = true) :
    place + p.bytes.length < c.start ∨ c.stop ≤ place + p.bytes.length := by
  rcases Nat.lt_or_ge (place + p.bytes.length) c.start with hbefore | hlow
  · exact .inl hbefore
  · refine .inr (Nat.le_of_not_lt fun hhigh => ?_)
    refine h.plain (place + p.bytes.length) (Nat.le_add_right _ _) hlow hhigh ?_
    rw [written_cons, Piece.written, hended]
    simp

/-- All bytes of the character from the place on are in the pieces, and none of them twice. -/
theorem sum_part (h : Unbroken place ps c) :
    ((spansFrom place ps).map (·.part c)).sum = c.stop - max c.start place := by
  induction ps generalizing place with
  | nil =>
    have hwithin := h.within
    simp only [written, List.flatMap_nil, List.length_nil] at hwithin
    simp only [spansFrom, List.map_nil, List.sum_nil]
    omega
  | cons p ps ih =>
    have hlength := length_written p
    rw [spansFrom, List.map_cons, List.sum_cons, ih h.later, Span.part]
    cases hended : p.ended with
    | true =>
      have hapart := h.apart hended
      rw [hended, if_pos rfl] at hlength
      simp only
      omega
    | false =>
      rw [hended, if_neg (by simp)] at hlength
      simp only
      omega

/-- A character that no split cuts is in one piece as a whole. -/
theorem whole (h : Unbroken place ps c) (hplace : place ≤ c.start)
    (hsplit : ∀ n ∈ splitsFrom place ps, ¬ (c.start < n ∧ n < c.stop)) :
    ∃ before s after, spansFrom place ps = before ++ s :: after ∧ s.Holds c ∧
      (∀ s' ∈ before, s'.stop ≤ c.start) ∧ ∀ s' ∈ after, c.stop ≤ s'.start := by
  have hpos : c.start < c.stop := Nat.lt_add_of_pos_right c.char.utf8Size_pos
  induction ps generalizing place with
  | nil =>
    have hwithin := h.within
    simp only [written, List.flatMap_nil, List.length_nil] at hwithin
    omega
  | cons p ps ih =>
    have hlength := length_written p
    rw [spansFrom]
    by_cases hin : c.stop ≤ place + p.bytes.length
    · refine ⟨[], _, _, rfl, ⟨hplace, hin⟩, by simp, fun s' hs' => ?_⟩
      have hstart := start_ge_of_mem_spansFrom hs'
      omega
    · have hnext : place + p.written.length ≤ c.start := by
        cases hended : p.ended with
        | true =>
          have hapart := h.apart hended
          rw [hended, if_pos rfl] at hlength
          omega
        | false =>
          have hcut := hsplit (place + p.bytes.length) (by simp [splitsFrom, hended])
          rw [hended, if_neg (by simp)] at hlength
          omega
      have hlater : ∀ n ∈ splitsFrom (place + p.written.length) ps,
          ¬ (c.start < n ∧ n < c.stop) :=
        fun n hn => hsplit n (List.mem_append_right _ hn)
      obtain ⟨before, s, after, hspans, hholds, hbefore, hafter⟩ := ih h.later hnext hlater
      refine ⟨⟨place, place + p.bytes.length⟩ :: before, s, after, ?_, hholds, ?_, hafter⟩
      · rw [hspans, List.cons_append]
      · refine List.forall_mem_cons.mpr ⟨?_, hbefore⟩
        simp only
        omega

end Unbroken

theorem unbroken_of_mem_placed {ps : List Piece} {text : String} {after : Bytes} {c : Placed}
    (hwritten : written ps = ofString text ++ after) (h : c ∈ placed text) (hchar : c.char ≠ '\n') :
    Unbroken 0 ps c where
  plain := by
    intro k _ low high
    have hin := Nat.lt_of_lt_of_le high (stop_le_of_mem_placed h)
    rw [hwritten, Nat.sub_zero, List.getElem?_append_left hin]
    exact getElem?_ne_newline h hchar low high
  within := by
    have hstop := stop_le_of_mem_placed h
    rw [hwritten, List.length_append]
    omega

/-! ## What a reader delivers of a text -/

/-- All pieces of a stream are stretches of it, and it ends with the last of them. -/
theorem Fetches.bytes_eq {reads rest : List Bytes} {ps : List Piece}
    (h : Fetches cap reads ps rest) (hend : rest.flatten = []) :
    ps.map (·.bytes) = (spans ps).map (·.cut reads.flatten) ∧
      (written ps = reads.flatten ∨ written ps = reads.flatten ++ [newline]) := by
  have hbytes := map_bytes_eq [] ps
  rcases h.flatten_eq with hall | ⟨-, earlier, tail, -, rfl, hall⟩
  · rw [hend, List.append_nil] at hall
    rw [hall]
    exact ⟨hbytes, .inl rfl⟩
  · have hwritten : written (earlier ++ [⟨tail, true⟩]) = reads.flatten ++ [newline] := by
      rw [hall]
      simp [written, Piece.written]
    refine ⟨hbytes.trans (List.map_congr_left fun s hs => ?_), .inr hwritten⟩
    have hstop : s.stop ≤ reads.flatten.length := by
      rw [spansFrom_append] at hs
      rw [hall, List.length_append]
      rcases List.mem_append.mp hs with hearlier | hlast
      · have hle := stop_le_of_mem_spansFrom hearlier
        simp only [List.length_nil] at hle
        omega
      · rw [List.mem_singleton.mp hlast]
        simp
    rw [List.nil_append, hwritten, cut_append hstop]

/-- Whatever the cap, and wherever the reads end, the listeners of a text get excerpts of it, of
which each begins where the one before ended. A character is replaced only if a split cuts it, and
then in every piece that has a part of it; all other characters but the line feeds are in one piece
as a whole and in no other. -/
theorem drain_excerpts (cap : Cap) (channel : Channel)
    {listeners : List (Registration String)} (hne : listeners ≠ [])
    (hquiet : ∀ r ∈ listeners, r.Quiet) {script : List Read} (hsteady : ∀ r ∈ script, r.Steady)
    {text : String} (htext : content script = ofString text) :
    ∃ d ps, drain cap channel listeners false script = .ok d ∧
      ps = pieces (.empty : Partial cap) (brought script) ∧ (∀ p ∈ ps, p.Fits cap) ∧
      (written ps = ofString text ∨ written ps = ofString text ++ [newline]) ∧
      d.listeners.map (·.received) =
        listeners.map (·.received ++ (spans ps).map (excerpt text)) ∧
      ∀ c ∈ placed text, c.char ≠ '\n' →
        ((spans ps).map (·.part c)).sum = c.char.utf8Size ∧
        ((∃ n ∈ splits ps, c.start < n ∧ n < c.stop) ∧
            (∀ s ∈ spans ps, 0 < s.part c → 0 < s.orphans c ∨ s.Cuts c) ∨
          ∃ before s after, spans ps = before ++ s :: after ∧ s.Holds c ∧
            ∀ s' ∈ before ++ after, s'.part c = 0) := by
  obtain ⟨ps, rest, hfetches, hend⟩ := @Fetches.exists_eof cap (brought script)
  obtain ⟨d, hd, hreceived, -⟩ := drain_steady cap channel hne hquiet hsteady
  have hrest := (fetch_eof_iff.mp hend).2
  obtain ⟨hbytes, hwritten⟩ := hfetches.bytes_eq hrest
  rw [flatten_brought hsteady, htext] at hbytes hwritten
  have htexts : ps.map (·.text) = (spans ps).map (excerpt text) := by
    have hdecoded := congrArg (List.map decode) hbytes
    rw [List.map_map, List.map_map] at hdecoded
    exact hdecoded.trans (List.map_congr_left fun s _ => decode_cut s text)
  have hps := hfetches.pieces_eq_of_eof hend
  rw [hps, htexts] at hreceived
  refine ⟨d, ps, hd, hps.symm, hfetches.fits, hwritten, hreceived, fun c hc hchar => ?_⟩
  have hunbroken : Unbroken 0 ps c := by
    rcases hwritten with hall | hall
    · exact unbroken_of_mem_placed (hall.trans (List.append_nil _).symm) hc hchar
    · exact unbroken_of_mem_placed hall hc hchar
  constructor
  · rw [spans, hunbroken.sum_part, Placed.stop]
    omega
  · by_cases hsplit : ∃ n ∈ splits ps, c.start < n ∧ n < c.stop
    · obtain ⟨n, hn, hlow, hhigh⟩ := hsplit
      refine .inl ⟨⟨n, hn, hlow, hhigh⟩, fun s hs hpart => s.replaced_of_part hpart ?_⟩
      rintro ⟨hstart, hstop⟩
      rcases splits_apart hn hs with hle | hle <;> omega
    · have hnone : ∀ n ∈ splits ps, ¬ (c.start < n ∧ n < c.stop) := fun n hn hin =>
        hsplit ⟨n, hn, hin⟩
      obtain ⟨before, s, after, hspans, hholds, hbefore, hafter⟩ :=
        hunbroken.whole (Nat.zero_le _) hnone
      refine .inr ⟨before, s, after, hspans, hholds, fun s' hs' => ?_⟩
      rw [Span.part]
      rcases List.mem_append.mp hs' with hmem | hmem
      · have hstop := hbefore s' hmem
        omega
      · have hstart := hafter s' hmem
        omega

/-- A euro sign of which two pieces have a part, and a read that ends inside a character that no
split cuts. -/
theorem drain_excerpts_euro :
    content [.bytes [0x61, 0xE2], .pending, .bytes [0x82, 0xAC, 0xC3], .bytes [0xA9]] =
      ofString "a€é" ∧
    ∃ d, drain (.ofWord 2) .stdout [.ofReaction fun _ => .quiet] false
        [.bytes [0x61, 0xE2], .pending, .bytes [0x82, 0xAC, 0xC3], .bytes [0xA9]] = .ok d ∧
      d.listeners.map (·.received) = [["a\uFFFD", "\uFFFD\uFFFD", "é"]] := by
  have htext : content [.bytes [0x61, 0xE2], .pending, .bytes [0x82, 0xAC, 0xC3],
      .bytes [0xA9]] = ofString "a€é" := by decide +kernel
  have hne : ([.ofReaction fun _ => .quiet] : List (Registration String)) ≠ [] := by simp
  obtain ⟨d, ps, hd, hps, -, -, hreceived, -⟩ :=
    drain_excerpts (.ofWord 2) .stdout hne
      (by simpa using Registration.quiet_ofReaction fun _ => rfl) (by simp [Read.Steady]) htext
  have hexcerpts : (spans ps).map (excerpt "a€é") = ["a\uFFFD", "\uFFFD\uFFFD", "é"] := by
    rw [hps]
    decide +kernel
  refine ⟨htext, d, hd, ?_⟩
  rw [hreceived, hexcerpts]
  rfl

end ToolRunner.Line
