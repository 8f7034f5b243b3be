import ToolRunner.Proofs.Line.Delivery

/-!
# Pieces fetched one by one

A reader asks for one piece after another. `fetch` is one such call: it uses up what is left of the
last read, and further reads, until a line feed, the cap or the end of the input ends the piece. The
calls of a stream lose, repeat and reorder nothing (`Fetches.flatten_eq`), the end of the input is
found when nothing is left and not before (`fetch_eof_iff`), and what a reader delivers is what
these calls give (`fetches_lose_nothing`).
-/

namespace ToolRunner.Line

open Bytes

variable {cap : Cap}

/-- What a call for the next piece gives, and what it leaves of the reads. -/
inductive Fetched where
  | piece (p : Piece) (rest : List Bytes)
  | eof

/-- A call for the next piece where a line has begun. The first of the reads is what is left of the
one at hand, which may be nothing. -/
def fetch (line : Partial cap) : List Bytes → Fetched
  | [] => if line.bytes.isEmpty then .eof else .piece ⟨line.bytes.toList, true⟩ []
  | read :: reads =>
    match take line read with
    | .more line => fetch line reads
    | .line bytes rest => .piece ⟨bytes.toList, true⟩ (rest :: reads)
    | .split bytes rest => .piece ⟨bytes.toList, false⟩ (rest :: reads)

/-- The pieces that calls give one after another, and what they leave of the reads. -/
inductive Fetches (cap : Cap) : List Bytes → List Piece → List Bytes → Prop
  | none (reads : List Bytes) : Fetches cap reads [] reads
  | next {reads rest last : List Bytes} {p : Piece} {ps : List Piece}
      (call : fetch (.empty : Partial cap) reads = .piece p rest)
      (later : Fetches cap rest ps last) : Fetches cap reads (p :: ps) last

/-- The bytes of a piece as the stream has them: with a line feed where it was ended. -/
def Piece.written (p : Piece) : Bytes := p.bytes ++ if p.ended then [newline] else []

def written (ps : List Piece) : Bytes := ps.flatMap Piece.written

/-- A piece is part of one line and no longer than the cap; the cap alone cuts a line. -/
structure Piece.Fits (cap : Cap) (p : Piece) : Prop where
  free : newline ∉ p.bytes
  le : p.bytes.length ≤ cap.size
  full : p.ended = false → p.bytes.length = cap.size

theorem Piece.Fits.written_ne_nil {p : Piece} (h : p.Fits cap) : p.written ≠ [] := by
  have hpos := cap.pos
  intro he
  rw [Piece.written, List.append_eq_nil_iff] at he
  cases hended : p.ended with
  | true => simp [hended] at he
  | false =>
    have hfull := h.full hended
    rw [he.1, List.length_nil] at hfull
    omega

/-! ## One call -/

/-- The end of the input is found when nothing has begun and nothing is left. -/
theorem fetch_eof_iff {line : Partial cap} {reads : List Bytes} :
    fetch line reads = .eof ↔ line.bytes.toList = [] ∧ reads.flatten = [] := by
  induction reads generalizing line with
  | nil => simp [fetch]
  | cons read reads ih =>
    have htake := takes_take line read
    rw [fetch]
    cases h : take line read with
    | more after =>
      rw [h] at htake
      cases htake with
      | more free all => simp [ih, all, and_assoc]
    | line bytes rest =>
      rw [h] at htake
      cases htake with
      | line run free all fits => simp
    | split bytes rest =>
      rw [h] at htake
      cases htake with
      | split run free all full next =>
        have hpos := cap.pos
        have hne : line.bytes.toList ++ run ≠ [] := by
          intro he
          rw [← Array.length_toList, all, he, List.length_nil] at full
          omega
        simp only [reduceCtorEq, List.flatten_cons, List.append_eq_nil_iff, false_iff]
        rintro ⟨hline, ⟨hrun, -⟩, -⟩
        exact hne (by rw [hline, hrun]; rfl)

/-- A call takes its piece off the reads, with the line feed that ends it, or else takes all that is
left, which the end of the input ends. -/
theorem fetch_piece {line : Partial cap} {reads rest : List Bytes} {p : Piece}
    (hline : newline ∉ line.bytes.toList)
    (h : fetch line reads = .piece p rest) :
    p.Fits cap ∧ (line.bytes.toList ++ reads.flatten = p.written ++ rest.flatten ∨
      rest = [] ∧ p.ended = true ∧ p.bytes ≠ [] ∧
        line.bytes.toList ++ reads.flatten = p.bytes) := by
  induction reads generalizing line with
  | nil =>
    rw [fetch] at h
    split at h
    · contradiction
    · rename_i hne
      injection h with hp hrest
      subst hp hrest
      have hroom : line.bytes.toList.length < cap.size := line.room
      refine ⟨⟨hline, Nat.le_of_lt hroom, nofun⟩, .inr ⟨rfl, rfl, ?_, by simp⟩⟩
      simpa using hne
  | cons read reads ih =>
    have hfree {run bytes : Bytes} (free : newline ∉ run) (all : bytes = line.bytes.toList ++ run) :
        newline ∉ bytes := by
      rw [all, List.mem_append, not_or]
      exact ⟨hline, free⟩
    have htake := takes_take line read
    rw [fetch] at h
    cases ht : take line read with
    | more after =>
      rw [ht] at h htake
      cases htake with
      | more free all =>
        have hnext := ih (hfree free all) h
        rwa [all, List.append_assoc] at hnext
    | line bytes left =>
      rw [ht] at h htake
      injection h with hp hrest
      subst hp hrest
      cases htake with
      | line run free all fits =>
        refine ⟨⟨hfree free all, fits, nofun⟩, .inl ?_⟩
        simp [Piece.written, all]
    | split bytes left =>
      rw [ht] at h htake
      injection h with hp hrest
      subst hp hrest
      cases htake with
      | split run free all full next =>
        refine ⟨⟨hfree free all, Nat.le_of_eq full, fun _ => full⟩, .inl ?_⟩
        simp [Piece.written, all]

theorem newline_not_mem_empty : newline ∉ (.empty : Partial cap).bytes.toList := by
  simp [Partial.empty]

/-- A call that gives a piece leaves less of the stream. -/
theorem fetch_rest_lt {reads rest : List Bytes} {p : Piece}
    (h : fetch (.empty : Partial cap) reads = .piece p rest) :
    rest.flatten.length < reads.flatten.length := by
  obtain ⟨hfits, hall | ⟨hrest, -, hne, hall⟩⟩ := fetch_piece newline_not_mem_empty h
  · have hlen := congrArg List.length hall
    have hpos := List.length_pos_iff.mpr hfits.written_ne_nil
    simp only [Partial.empty, List.nil_append, List.length_append] at hlen
    omega
  · have hpos := List.length_pos_iff.mpr hne
    simp only [Partial.empty, List.nil_append] at hall
    rw [hrest, hall]
    exact hpos

/-- The pieces of a stream are those of a call and of what the call leaves. -/
theorem pieces_eq_of_fetch {line : Partial cap} {reads : List Bytes} :
    pieces line reads =
      match fetch line reads with
      | .piece p rest => p :: pieces (.empty : Partial cap) rest
      | .eof => [] := by
  induction reads generalizing line with
  | nil =>
    rw [pieces_nil, lastPiece, fetch]
    split <;> rfl
  | cons read reads ih =>
    rw [pieces_cons, fetch]
    cases h : take line read with
    | more after =>
      rw [cut_of_more h]
      exact ih
    | line bytes rest =>
      rw [cut_of_line h, List.cons_append, ← pieces_cons]
    | split bytes rest =>
      rw [cut_of_split h, List.cons_append, ← pieces_cons]

/-! ## Calls one after another -/

namespace Fetches

variable {reads rest : List Bytes} {ps : List Piece}

theorem of_nil (h : Fetches cap [] ps rest) : ps = [] ∧ rest = [] := by
  cases h with
  | none => exact ⟨rfl, rfl⟩
  | next call later => simp [fetch, Partial.empty] at call

theorem fits (h : Fetches cap reads ps rest) : ∀ p ∈ ps, p.Fits cap := by
  induction h with
  | none => simp
  | next call later ih =>
    have hfits := (fetch_piece newline_not_mem_empty call).1
    simpa using ⟨hfits, ih⟩

/-- The pieces and what is left are the stream. Only a last piece that the end of the input ended
has no line feed there. -/
theorem flatten_eq (h : Fetches cap reads ps rest) :
    reads.flatten = written ps ++ rest.flatten ∨
      rest = [] ∧ ∃ earlier tail, tail ≠ [] ∧ ps = earlier ++ [⟨tail, true⟩] ∧
        reads.flatten = written earlier ++ tail := by
  induction h with
  | none reads => exact .inl rfl
  | @next reads mid last p ps call later ih =>
    obtain ⟨-, hall | ⟨hmid, hended, hne, hall⟩⟩ := fetch_piece newline_not_mem_empty call
    · replace hall : reads.flatten = p.written ++ mid.flatten := hall
      rcases ih with ih | ⟨hlast, earlier, tail, htail, hps, ih⟩
      · left
        rw [hall, ih, written, written, List.flatMap_cons, List.append_assoc]
      · right
        refine ⟨hlast, p :: earlier, tail, htail, by rw [hps]; rfl, ?_⟩
        rw [hall, ih, written, written, List.flatMap_cons, List.append_assoc]
    · -- The end of the input ended the piece, so that the next call finds nothing.
      subst hmid
      obtain ⟨hps, hlast⟩ := later.of_nil
      subst hps hlast
      refine .inr ⟨rfl, [], p.bytes, hne, ?_, hall⟩
      rw [← hended]
      rfl

/-- The end of the input is reached. -/
theorem exists_eof (reads : List Bytes) :
    ∃ ps rest, Fetches cap reads ps rest ∧ fetch (.empty : Partial cap) rest = .eof := by
  cases h : fetch (.empty : Partial cap) reads with
  | eof => exact ⟨[], reads, .none reads, h⟩
  | piece p mid =>
    have hlt := fetch_rest_lt h
    obtain ⟨ps, rest, hlater, hend⟩ := exists_eof mid
    exact ⟨p :: ps, rest, .next h hlater, hend⟩
termination_by reads.flatten.length
decreasing_by exact hlt

theorem pieces_eq (h : Fetches cap reads ps rest) :
    pieces (.empty : Partial cap) reads = ps ++ pieces (.empty : Partial cap) rest := by
  induction h with
  | none => rfl
  | next call later ih => rw [pieces_eq_of_fetch, call, List.cons_append, ← ih]

theorem pieces_eq_of_eof (h : Fetches cap reads ps rest)
    (hend : fetch (.empty : Partial cap) rest = .eof) :
    pieces (.empty : Partial cap) reads = ps := by
  have hnone : pieces (.empty : Partial cap) rest = [] := by rw [pieces_eq_of_fetch, hend]
  rw [h.pieces_eq, hnone, List.append_nil]

end Fetches

/-- However a stream is divided into reads, the pieces that calls for it give are the stream, cut at
line feeds and at the cap, and a reader delivers these pieces. -/
theorem fetches_lose_nothing (cap : Cap) (reads : List Bytes) :
    (∃ ps rest, Fetches cap reads ps rest ∧ fetch (.empty : Partial cap) rest = .eof) ∧
    (∀ ps rest, Fetches cap reads ps rest →
      (∀ p ∈ ps, newline ∉ p.bytes ∧ p.bytes.length ≤ cap.size ∧
        (p.ended = false → p.bytes.length = cap.size)) ∧
      (reads.flatten = written ps ++ rest.flatten ∨
        rest = [] ∧ written ps = reads.flatten ++ [newline] ∧
          ∃ earlier tail, tail ≠ [] ∧ ps = earlier ++ [⟨tail, true⟩] ∧
            reads.flatten = written earlier ++ tail) ∧
      (fetch (.empty : Partial cap) rest = .eof ↔ rest.flatten = [])) ∧
    ∀ channel listeners script, listeners ≠ [] → (∀ r ∈ listeners, r.Quiet) →
      (∀ r ∈ script, r.Steady) → brought script = reads →
      ∃ d ps rest, drain cap channel listeners false script = .ok d ∧
        Fetches cap reads ps rest ∧ fetch (.empty : Partial cap) rest = .eof ∧
        d.listeners.map (·.received) = listeners.map (·.received ++ ps.map (·.text)) := by
  refine ⟨Fetches.exists_eof reads, fun ps rest h => ⟨?_, ?_, ?_⟩, ?_⟩
  · intro p hp
    have hfits := h.fits p hp
    exact ⟨hfits.free, hfits.le, hfits.full⟩
  · rcases h.flatten_eq with hall | ⟨hrest, earlier, tail, htail, hps, hall⟩
    · exact .inl hall
    · refine .inr ⟨hrest, ?_, earlier, tail, htail, hps, hall⟩
      rw [hps, hall]
      simp [written, Piece.written]
  · rw [fetch_eof_iff]
    simp [Partial.empty]
  · intro channel listeners script hne hquiet hsteady hreads
    obtain ⟨ps, rest, hfetches, hend⟩ := Fetches.exists_eof reads
    obtain ⟨d, hd, hreceived, -⟩ := drain_steady cap channel hne hquiet hsteady
    rw [hreads, hfetches.pieces_eq_of_eof hend] at hreceived
    exact ⟨d, ps, rest, hd, hfetches, hend, hreceived⟩

/-- A line cut at the cap, an empty line, and a tail without a line feed. -/
theorem fetches_lose_nothing_tail :
    ∃ ps rest, Fetches (.ofWord 4) [[97, 98, 99], [100, 101, 10, 10], [102]] ps rest ∧
      fetch (.empty : Partial (.ofWord 4)) rest = .eof ∧
      written ps = [97, 98, 99, 100, 101, 10, 10, 102, 10] := by
  obtain ⟨⟨ps, rest, hfetches, hend⟩, hall, -⟩ :=
    fetches_lose_nothing (.ofWord 4) [[97, 98, 99], [100, 101, 10, 10], [102]]
  refine ⟨ps, rest, hfetches, hend, ?_⟩
  have hps : ps = pieces (.empty : Partial (.ofWord 4)) [[97, 98, 99], [100, 101, 10, 10], [102]] :=
    (hfetches.pieces_eq_of_eof hend).symm
  rw [hps]
  decide +kernel

end ToolRunner.Line
