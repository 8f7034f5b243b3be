import Mathlib.Algebra.GroupWithZero.Nat
import ToolRunner.Proofs.Line.Delivery

/-!
# Full lines at the end of a read

The segments of a stream do not depend on its reads; what is delivered does, in one case. A line
that is full where a read ends is delivered before its line feed is seen, and the line feed then
ends an empty line of its own. `drain_segments_iff` says that this is the only difference, and how
many empty lines it makes.
-/

namespace ToolRunner.Line

open Bytes

variable {cap : Cap}

def endedRuns (bs : Bytes) : List Bytes := (splitOn newline bs).dropLast

theorem endedRuns_of_not_mem {run : Bytes} (h : newline ∉ run) : endedRuns run = [] := by
  rw [endedRuns, splitOn_of_not_mem h]
  rfl

theorem endedRuns_line {run : Bytes} (h : newline ∉ run) (rest : Bytes) :
    endedRuns (run ++ newline :: rest) = run :: endedRuns rest := by
  rw [endedRuns, splitOn_line h, List.dropLast_cons_of_ne_nil (splitOn_ne_nil _ _), endedRuns]

/-- An ended run of `n` bytes has `n / cap` segments, rounded up, and at least one; the last run has
as many as it takes. -/
theorem length_segments_eq (bs : Bytes) :
    (segments cap bs).length =
      ((endedRuns bs).map fun run => max 1 ((run.length + cap.size - 1) / cap.size)).sum +
        ((unended bs).length + cap.size - 1) / cap.size := by
  induction bs using line_induction with
  | tail run h =>
    rw [segments_tail h, endedRuns_of_not_mem h, unended_of_not_mem h, length_parts]
    simp
  | line run rest h ih =>
    rw [segments_line h, endedRuns_line h, unended_line, List.length_append, length_endedParts, ih,
      List.map_cons, List.sum_cons]
    omega

/-- A stream is delivered as its segments exactly if no read ends between a full line and its line
feed; each such read makes one more line, an empty one. -/
theorem drain_segments_iff (cap : Cap) (channel : Channel)
    (listeners : List (Registration String)) (hne : listeners ≠ [])
    (hquiet : ∀ r ∈ listeners, r.Quiet) (script : List Read) (hsteady : ∀ r ∈ script, r.Steady) :
    ∃ d texts, drain cap channel listeners false script = .ok d ∧
      d.listeners.map (·.received) = listeners.map (·.received ++ texts) ∧
      d.report.lines = texts.length ∧
      texts.length =
        ((endedRuns (content script)).map fun run =>
          max 1 ((run.length + cap.size - 1) / cap.size)).sum +
        ((unended (content script)).length + cap.size - 1) / cap.size +
        strays cap [] (brought script) ∧
      (texts = (segments cap (content script)).map Utf8.decode ↔
        ∀ now later, brought script = now ++ later → ¬ Stray cap now.flatten later.flatten) := by
  obtain ⟨d, hd, hreceived, hlines, -, -⟩ :=
    drain_steady cap channel hne hquiet hsteady
  have hflat := flatten_brought hsteady
  have hreads := brought_ne_nil hsteady
  have hstart : Follows (.empty : Partial cap) [] := follows_empty (by simp [unended])
  have hlength := length_pieces hstart hreads
  rw [Partial.empty, List.nil_append, hflat] at hlength
  refine ⟨d, _, hd, hreceived, by rw [hlines, List.length_map], ?_, ?_⟩
  · rw [List.length_map, ← length_segments_eq]
    exact hlength
  · constructor
    · intro htexts now later he
      have hsame := congrArg List.length htexts
      rw [List.length_map, List.length_map] at hsame
      have hzero : strays cap [] (brought script) = 0 := by
        have := hlength.symm.trans hsame
        omega
      by_cases hnow : now = []
      · subst hnow
        exact fun hs => hs.1 rfl
      · exact strays_eq_zero_iff.mp hzero now later hnow he
    · intro hno
      have hzero : strays cap [] (brought script) = 0 :=
        strays_eq_zero_iff.mpr fun now later _ he => hno now later he
      have hpieces := pieces_eq_segments hstart hreads hzero
      rw [Partial.empty, List.nil_append, hflat] at hpieces
      rw [← hpieces, List.map_map]
      rfl

/-- A full line that goes on in the next read makes no empty line. -/
theorem drain_segments_iff_between :
    ∃ d, drain (.ofWord 4) .stdout [.ofReaction fun _ => .quiet] false
        [.bytes [97, 98, 99, 100], .bytes [101, 10]] = .ok d ∧
      d.listeners.map (·.received) = [["abcd", "e"]] := by
  obtain ⟨d, texts, hd, hreceived, -, -, hiff⟩ :=
    drain_segments_iff (.ofWord 4) .stdout [.ofReaction fun _ => .quiet] (by simp)
      (by simpa using Registration.quiet_ofReaction fun _ => rfl)
      [.bytes [97, 98, 99, 100], .bytes [101, 10]] (by simp [Read.Steady])
  have hzero : strays (.ofWord 4) []
      (brought [.bytes [97, 98, 99, 100], .bytes [101, 10]]) = 0 := by decide +kernel
  have htexts : texts = ["abcd", "e"] := by
    refine (hiff.mpr fun now later he => ?_).trans (by decide +kernel)
    by_cases hnow : now = []
    · subst hnow
      exact fun hs => hs.1 rfl
    · exact strays_eq_zero_iff.mp hzero now later hnow he
  refine ⟨d, hd, ?_⟩
  rw [hreceived, htexts]
  rfl

/-- A full line and its line feed in two reads: the line feed becomes an empty line, though the
stream has one segment. -/
theorem drain_stray_line_feed :
    ∃ d, drain (.ofWord 4) .stdout [.ofReaction fun _ => .quiet] false
        [.bytes [97, 98, 99, 100], .bytes [10]] = .ok d ∧
      d.listeners.map (·.received) = [["abcd", ""]] ∧ d.report.lines = 2 ∧
      (segments (.ofWord 4) [97, 98, 99, 100, 10]).map Utf8.decode = ["abcd"] := by
  have hquiet : ∀ r ∈ [Registration.ofReaction fun (_ : String) => .quiet], r.Quiet := by
    simpa using Registration.quiet_ofReaction fun _ => rfl
  have hsteady : ∀ r ∈ [Read.bytes [97, 98, 99, 100], .bytes [10]], r.Steady := by
    simp [Read.Steady]
  obtain ⟨d, hd, hreceived, hlines, -, -⟩ :=
    drain_steady (.ofWord 4) .stdout (by simp) hquiet hsteady
  refine ⟨d, hd, ?_, ?_, by decide +kernel⟩
  · rw [hreceived]
    decide +kernel
  · rw [hlines]
    decide +kernel

end ToolRunner.Line
