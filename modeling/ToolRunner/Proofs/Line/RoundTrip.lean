import ToolRunner.Proofs.Line.Delivery
import ToolRunner.Proofs.Text.Decoding

/-!
# The lines of a stream reassemble to its text

Where every run of a stream is shorter than the cap, what the listeners get is the text of the
stream, cut at its line feeds: decoding line by line is decoding the stream as a whole, also where
it is malformed, and where the reads end makes no difference.
-/

namespace ToolRunner

theorem foldl_gathered (text : String) (lines : List String) :
    lines.foldl (fun text line => (text ++ line).push '\n') text = text ++ gathered lines := by
  induction lines generalizing text with
  | nil => simp [gathered]
  | cons line lines ih =>
    rw [gathered, List.foldl_cons, List.foldl_cons, ih, ih, Utf8.append_push, Utf8.append_push]
    simp [String.append_assoc]

theorem gathered_cons (line : String) (lines : List String) :
    gathered (line :: lines) = line.push '\n' ++ gathered lines := by
  rw [gathered, List.foldl_cons, foldl_gathered, String.empty_append]

namespace Bytes

theorem unended_mem_splitOn (before rest : Bytes) :
    unended before ∈ splitOn newline (before ++ newline :: rest) := by
  induction before using line_induction with
  | tail run h =>
    rw [unended_of_not_mem h, splitOn_line h]
    exact List.mem_cons_self
  | line run more h ih =>
    rw [unended_line, List.append_assoc, List.cons_append, splitOn_line h]
    exact List.mem_cons_of_mem _ ih

theorem unended_eq_nil_iff (bs : Bytes) :
    unended bs = [] ↔ bs = [] ∨ bs.getLast? = some newline := by
  induction bs using line_induction with
  | tail run h =>
    rw [unended_of_not_mem h]
    refine ⟨.inl, ?_⟩
    rintro (he | he)
    · exact he
    · exact absurd (List.mem_of_getLast? he) h
  | line run rest h ih =>
    rw [unended_line, ih]
    cases rest with
    | nil => simp
    | cons b rest => simp [List.getLast?_append]

end Bytes

namespace Line

open Bytes

variable {cap : Cap}

/-- Every run is shorter than the cap. -/
def Short (cap : Cap) (bs : Bytes) : Prop := ∀ run ∈ splitOn newline bs, run.length < cap.size

theorem short_tail {run : Bytes} (h : newline ∉ run) (hs : Short cap run) :
    run.length < cap.size :=
  hs run (by rw [splitOn_of_not_mem h]; simp)

theorem short_line {run rest : Bytes} (h : newline ∉ run)
    (hs : Short cap (run ++ newline :: rest)) : run.length < cap.size ∧ Short cap rest := by
  rw [Short, splitOn_line h] at hs
  exact ⟨hs run (by simp), fun r hr => hs r (by simp [hr])⟩

/-- A line feed cannot stray where no line is full. -/
theorem not_stray_of_short {before rest : Bytes} (h : Short cap (before ++ rest)) :
    ¬ Stray cap before rest := by
  rintro ⟨hne, hdvd, hhead⟩
  obtain ⟨more, rfl⟩ := List.head?_eq_some_iff.mp hhead
  have hlt := h _ (unended_mem_splitOn before more)
  exact hne (List.length_eq_zero_iff.mp (Nat.eq_zero_of_dvd_of_lt hdvd hlt))

theorem strays_of_short {reads : List Bytes} (h : Short cap reads.flatten) :
    strays cap [] reads = 0 := by
  rw [strays_eq_zero_iff]
  rintro now later _ rfl
  rw [List.flatten_append] at h
  exact not_stray_of_short h

theorem segments_short_tail {run : Bytes} (h : newline ∉ run) (hs : run.length < cap.size) :
    segments cap run = if run = [] then [] else [run] := by
  rw [segments_tail h]
  split
  · rename_i he
    rw [he, parts_nil]
  · rename_i hne
    exact parts_of_le hne (Nat.le_of_lt hs)

/-- The texts of the lines, each with its line feed, are the text of the stream, and a line feed
where the last line has none. -/
theorem gathered_segments {bs : Bytes} (hs : Short cap bs) :
    gathered ((segments cap bs).map Utf8.decode) =
      Utf8.decode bs ++ if unended bs = [] then "" else "\n" := by
  induction bs using line_induction with
  | tail run h =>
    rw [segments_short_tail h (short_tail h hs), unended_of_not_mem h]
    by_cases he : run = []
    · subst he
      rfl
    · rw [if_neg he, if_neg he, List.map_singleton, gathered_cons]
      apply String.ext
      simp [gathered]
  | line run rest h ih =>
    obtain ⟨hrun, hrest⟩ := short_line h hs
    rw [segments_short_line h (Nat.le_of_lt hrun), List.map_cons, gathered_cons, ih hrest,
      unended_line, Utf8.decode_line, String.append_assoc]

theorem length_segments {bs : Bytes} (hs : Short cap bs) :
    (segments cap bs).length = bs.count newline + if unended bs = [] then 0 else 1 := by
  induction bs using line_induction with
  | tail run h =>
    rw [segments_short_tail h (short_tail h hs), unended_of_not_mem h, List.count_eq_zero.mpr h]
    split <;> rfl
  | line run rest h ih =>
    obtain ⟨hrun, hrest⟩ := short_line h hs
    rw [segments_short_line h (Nat.le_of_lt hrun), List.length_cons, ih hrest, unended_line,
      List.count_append, List.count_cons_self, List.count_eq_zero.mpr h]
    omega

theorem newline_not_mem_segments {bs : Bytes} (hs : Short cap bs) :
    ∀ segment ∈ segments cap bs, newline ∉ segment := by
  induction bs using line_induction with
  | tail run h =>
    intro segment hm
    rw [segments_short_tail h (short_tail h hs)] at hm
    split at hm
    · simp at hm
    · rw [List.mem_singleton.mp hm]
      exact h
  | line run rest h ih =>
    obtain ⟨hrun, hrest⟩ := short_line h hs
    intro segment hm
    rw [segments_short_line h (Nat.le_of_lt hrun), List.mem_cons] at hm
    rcases hm with rfl | hm
    · exact h
    · exact ih hrest segment hm

/-- Every listener of a stream with lines below the cap gets the text of the stream, line by line,
wherever the reads end and however long the reader waits between them. -/
theorem drain_reassembles (cap : Cap) (channel : Channel)
    (listeners : List (Registration String)) (hne : listeners ≠ [])
    (hquiet : ∀ r ∈ listeners, r.Quiet) (script : List Read) (hsteady : ∀ r ∈ script, r.Steady)
    (hshort : ∀ run ∈ splitOn newline (content script), run.length < cap.size) :
    ∃ d texts, drain cap channel listeners false script = .ok d ∧
      d.listeners.map (·.received) = listeners.map (·.received ++ texts) ∧
      texts = (segments cap (content script)).map Utf8.decode ∧
      (∀ text ∈ texts, '\n' ∉ text.toList) ∧
      gathered texts = Utf8.decode (content script) ++
        (if content script = [] ∨ (content script).getLast? = some newline then "" else "\n") ∧
      d.report.lines = (content script).count newline +
        (if unended (content script) = [] then 0 else 1) ∧
      d.report.cancelled = false ∧
      ∀ channel message, .read channel message ∉ d.report.failures := by
  obtain ⟨d, hd, hreceived, hlines, hcancelled, hfailures⟩ :=
    drain_steady cap channel hne hquiet hsteady
  have hflat := flatten_brought hsteady
  have hpieces : (pieces (.empty : Partial cap) (brought script)).map (·.bytes) =
      segments cap (content script) := by
    have hstart : Follows (.empty : Partial cap) [] := follows_empty (by simp [unended])
    have h := pieces_eq_segments hstart (brought_ne_nil hsteady)
      (strays_of_short (by rw [hflat]; exact hshort))
    rwa [hflat] at h
  have htexts : (pieces (.empty : Partial cap) (brought script)).map (·.text) =
      (segments cap (content script)).map Utf8.decode := by
    rw [← hpieces, List.map_map]
    rfl
  refine ⟨d, _, hd, hreceived, htexts, ?_, ?_, ?_, hcancelled, hfailures⟩
  · intro text hm
    rw [htexts] at hm
    obtain ⟨segment, hseg, rfl⟩ := List.mem_map.mp hm
    exact Utf8.oneLine_decode (newline_not_mem_segments hshort segment hseg)
  · rw [htexts, gathered_segments hshort]
    simp only [unended_eq_nil_iff]
  · rw [hlines, ← length_segments hshort, ← hpieces, List.length_map]

/-- A character cut by a read, a carriage return, and a byte that begins no character. -/
theorem drain_reassembles_malformed :
    (∀ run ∈ splitOn newline [0xE6, 0x97, 0xA5, 13, 10, 0xFF, 10, 97],
      run.length < Cap.standard.size) ∧
    ∃ d, drain .standard .stdout [.ofReaction fun _ => .quiet] false
        [.bytes [0xE6, 0x97], .pending, .bytes [0xA5, 13, 10, 0xFF], .bytes [10, 97]] = .ok d ∧
      d.listeners.map (·.received) = [["日\r", "\uFFFD", "a"]] ∧ d.report.lines = 3 := by
  refine ⟨by decide, ?_⟩
  obtain ⟨d, texts, hd, hreceived, htexts, -, -, hlines, -⟩ :=
    drain_reassembles .standard .stdout [.ofReaction fun _ => .quiet] (by simp)
      (by simpa using Registration.quiet_ofReaction fun _ => rfl)
      [.bytes [0xE6, 0x97], .pending, .bytes [0xA5, 13, 10, 0xFF], .bytes [10, 97]]
      (by simp [Read.Steady]) (by decide)
  have hsegments : texts = ["日\r", "\uFFFD", "a"] := htexts.trans (by decide +kernel)
  refine ⟨d, hd, ?_, hlines.trans (by decide)⟩
  rw [hreceived, hsegments]
  rfl

end Line

end ToolRunner
