import ToolRunner.Proofs.Execution.Turns
import ToolRunner.Proofs.Line.Account

/-!
# How far a reader has come with its stream

A reader of a pipe does in many steps, between which others move, what a reader of a scripted stream
does with the chunks that came out of the pipe (`Reader.Progress`). That holds as long as the token
is not cancelled; only when a read fails does the reader leave the stream.
-/

namespace ToolRunner

open Line

/-- The bytes that came out of the pipe of a channel, if an incident is of that kind. -/
def Incident.chunk? (channel : Channel) : Incident → Option Bytes
  | .read c bytes => if c = channel then some bytes else none
  | _ => none

/-- The chunks of a channel that come out of its pipe in a step. -/
def ReaderStep.chunks (s : ReaderStep) (channel : Channel) : List Bytes :=
  s.incidents.filterMap (Incident.chunk? channel)

namespace Reader

/-- What a reader does in one step, and under which conditions it does that. -/
inductive Stride (r : Reader) (token closed : Bool) (p : Pipe) : ReaderStep → Prop where
  | turned (phase : ReaderPhase) : Stride r token closed p ⟨{ r with phase := phase }, p, []⟩
  | cancelled (seen : token = true) : Stride r token closed p (r.cancel p)
  | used (line : Partial .standard) (more : take r.drain.line r.unread = .more line) :
      Stride r token closed p
        ⟨{ r with drain := { r.drain with line := line }, unread := [] }, p, []⟩
  | gave (bytes : Array UInt8) (rest : Bytes)
      (piece : (take r.drain.line r.unread).piece? = some (bytes, rest))
      (incidents : List Incident) (silent : ∀ c, incidents.filterMap (Incident.chunk? c) = []) :
      Stride r token closed p ⟨(r.deliver p bytes rest).reader, p, incidents⟩
  | filled (unread : r.unread = []) (content : p.content ≠ []) :
      Stride r token closed p (r.fill p)
  | ended (unread : r.unread = []) (content : p.content = []) (dry : closed = true)
      (line : r.drain.line.bytes.isEmpty = true) :
      Stride r token closed p (r.stopped r.drain.endInput p)
  | gaveLast (unread : r.unread = []) (content : p.content = []) (dry : closed = true)
      (line : ¬ r.drain.line.bytes.isEmpty = true) :
      Stride r token closed p (r.deliver p r.drain.line.bytes [])
  | failed (message : String) : Stride r token closed p (r.stopped (r.drain.fail message) p)

variable {r : Reader} {token closed : Bool} {p : Pipe} {s : ReaderStep}

theorem consume_stride (r : Reader) (token closed : Bool) (p : Pipe) :
    Stride r token closed p (r.consume p) := by
  unfold consume
  split
  · exact .used _ ‹_›
  · rename_i bytes rest htake
    exact .gave bytes rest (by rw [htake]; rfl) _ fun c => rfl
  · rename_i bytes rest htake
    exact .gave bytes rest (by rw [htake]; rfl) _ fun c => rfl

theorem step_stride (h : r.step token closed p = some s) : Stride r token closed p s := by
  cases (step_action h).2 with
  | turned phase => exact .turned phase
  | cancelled seen => exact .cancelled seen
  | consumed => exact consume_stride r token closed p
  | filled at_ unread content => exact .filled unread content
  | ended at_ unread content dry =>
    unfold endInput
    split
    · exact .ended unread content dry ‹_›
    · exact .gaveLast unread content dry ‹_›

theorem fail_stride {message : String} (h : r.fail token message p = some s) :
    Stride r token closed p s := by
  unfold fail at h
  split at h
  · injection h with h
    subst h
    exact .failed message
  · contradiction

/-! ## What comes out of the pipe -/

/-- What comes out of the pipe was in it before all that stays in it. -/
theorem Stride.flatten_chunks (h : Stride r token closed p s) :
    (s.chunks r.drain.channel).flatten ++ s.pipe.content = p.content := by
  cases h with
  | gave bytes rest piece incidents silent =>
    show (incidents.filterMap _).flatten ++ p.content = p.content
    rw [silent]
    rfl
  | filled unread content =>
    have hchunk : (r.fill p).chunks r.drain.channel = [p.content.take readSize] := by
      simp [fill, ReaderStep.chunks, Incident.chunk?]
    rw [hchunk, List.flatten_singleton]
    exact List.take_append_drop _ _
  | _ => rfl

theorem Stride.chunks_other (h : Stride r token closed p s) {c : Channel}
    (hc : c ≠ r.drain.channel) : s.chunks c = [] := by
  cases h with
  | gave bytes rest piece incidents silent => exact silent c
  | filled unread content =>
    simp [fill, ReaderStep.chunks, Incident.chunk?, Ne.symm hc]
  | _ => rfl

/-- A chunk is what one read brings. -/
theorem Stride.chunk_fits (h : Stride r token closed p s) {c : Channel} :
    ∀ chunk ∈ s.chunks c, chunk ≠ [] ∧ chunk.length ≤ readSize := by
  intro chunk hchunk
  cases h with
  | gave bytes rest piece incidents silent =>
    replace hchunk : chunk ∈ incidents.filterMap (Incident.chunk? c) := hchunk
    rw [silent] at hchunk
    cases hchunk
  | filled unread content =>
    have htake : chunk = p.content.take readSize := by
      by_cases hc : r.drain.channel = c
      · simpa [fill, ReaderStep.chunks, Incident.chunk?, hc] using hchunk
      · simp [fill, ReaderStep.chunks, Incident.chunk?, hc] at hchunk
    have hpos := List.length_pos_iff.mpr content
    subst htake
    constructor
    · refine List.length_pos_iff.mp ?_
      rw [List.length_take, readSize]
      omega
    · rw [List.length_take]
      omega
  | _ => cases hchunk

/-! ## How far the reader has come -/

/-- How far a reader has come with the chunks that came out of its pipe, where `dry` says that no
more can come. -/
inductive Progress (channel : Channel) (listeners : List (Registration String))
    (chunks : List Bytes) (dry : Prop) (r : Reader) : Prop where
  | reading (going : r.drain.stop = none) (free : r.drain.cancelled = false)
      (at_ : chunks.foldl Drain.consume (.start .standard channel listeners false) =
        r.drain.consume r.unread)
  /-- The line that the end of the input has ended was given. -/
  | last (going : r.drain.stop = none) (free : r.drain.cancelled = false)
      (unread : r.unread = []) (line : r.drain.line.bytes.isEmpty = true) (dry : dry)
      (at_ : (chunks.foldl Drain.consume (.start .standard channel listeners false)).endInput =
        r.drain)
  | ended (dry : dry) (stop : r.drain.stop = some .ended)
      (at_ : (chunks.foldl Drain.consume
        (.start .standard channel listeners false)).endInput.endInput = r.drain)
  | failed (message : String) (stop : r.drain.stop = some (.failed message))
      (told : .read channel message ∈ r.drain.failures.toList)

variable {channel : Channel} {listeners : List (Registration String)} {chunks : List Bytes}
variable {dry dry' : Prop}

theorem progress_start (channel : Channel) (listeners : List (Registration String)) (dry : Prop) :
    Progress channel listeners [] dry
      ⟨.start .standard channel listeners false, [], .fresh⟩ :=
  .reading rfl rfl (Drain.consume_nil _).symm

namespace Progress

theorem mono (h : Progress channel listeners chunks dry r) (himp : dry → dry') :
    Progress channel listeners chunks dry' r := by
  cases h with
  | reading going free at_ => exact .reading going free at_
  | last going free unread line hdry at_ => exact .last going free unread line (himp hdry) at_
  | ended hdry stop at_ => exact .ended (himp hdry) stop at_
  | failed message stop told => exact .failed message stop told

theorem fail (hchannel : r.drain.channel = channel) (going : r.drain.stop = none)
    (message : String) (p : Pipe) :
    Progress channel listeners chunks dry (r.stopped (r.drain.fail message) p).reader := by
  have hfail := Drain.fail_of_going going message
  refine .failed message ?_ ?_
  · show (r.drain.fail message).stop = _
    rw [hfail]
  · show _ ∈ (r.drain.fail message).failures.toList
    rw [hfail, Array.toList_push, hchannel]
    exact List.mem_append_right _ (List.mem_singleton_self _)

/-- A reader goes on while its token is free. -/
theorem stride_reading (hchannel : r.drain.channel = channel) (going : r.drain.stop = none)
    (free : r.drain.cancelled = false)
    (at_ : chunks.foldl Drain.consume (.start .standard channel listeners false) =
      r.drain.consume r.unread)
    (h : Stride r false closed p s) (kept : s.reader.drain.cancelled = false) :
    Progress channel listeners (chunks ++ s.chunks channel)
      (closed = true ∧ s.pipe.content = []) s.reader := by
  -- What has been used up is all that came out of the pipe, if nothing is unread.
  have hall (unread : r.unread = []) :
      chunks.foldl Drain.consume (.start .standard channel listeners false) = r.drain := by
    rw [at_, unread, Drain.consume_nil]
  have hsame {s : ReaderStep} (hnone : s.chunks channel = []) :
      chunks ++ s.chunks channel = chunks := by rw [hnone, List.append_nil]
  cases h with
  | turned phase =>
    rw [hsame rfl]
    exact .reading going free at_
  | cancelled seen => contradiction
  | used line more =>
    rw [hsame rfl]
    refine .reading going free ?_
    rw [at_, Drain.consume_of_more going more]
    exact (Drain.consume_nil _).symm
  | gave bytes rest piece incidents silent =>
    have hnone : ReaderStep.chunks ⟨(r.deliver p bytes rest).reader, p, incidents⟩ channel = [] :=
      silent channel
    rw [hsame hnone]
    refine .reading going kept ?_
    have htoken := Drain.checkToken_of_free kept
    rw [at_, Drain.consume_of_piece going piece]
    exact congrArg (Drain.consume · rest) htoken
  | filled unread content =>
    refine .reading going free ?_
    have hchunk : (r.fill p).chunks channel = [p.content.take readSize] := by
      simp [fill, ReaderStep.chunks, Incident.chunk?, hchannel]
    rw [hchunk, List.foldl_append, hall unread]
    rfl
  | ended unread content dry line =>
    have hend := Drain.endInput_of_empty going line
    have hstop : r.drain.endInput.stop = some .ended := by rw [hend]
    rw [hsame rfl]
    refine .ended ⟨dry, content⟩ hstop ?_
    rw [hall unread, Drain.endInput_of_stopped (by rw [hstop]; rfl)]
    rfl
  | gaveLast unread content dry line =>
    rw [hsame rfl]
    refine .last going kept rfl rfl ⟨dry, content⟩ ?_
    rw [hall unread, Drain.endInput_of_begun going line]
    exact Drain.checkToken_of_free kept
  | failed message => exact fail hchannel going message p

/-- When its last line has been given, a reader can only end. -/
theorem stride_last (hchannel : r.drain.channel = channel) (going : r.drain.stop = none)
    (free : r.drain.cancelled = false) (unread : r.unread = [])
    (line : r.drain.line.bytes.isEmpty = true) (dry : closed = true ∧ p.content = [])
    (at_ : (chunks.foldl Drain.consume (.start .standard channel listeners false)).endInput =
      r.drain)
    (h : Stride r false closed p s) :
    Progress channel listeners (chunks ++ s.chunks channel)
      (closed = true ∧ s.pipe.content = []) s.reader := by
  have hsame {s : ReaderStep} (hnone : s.chunks channel = []) :
      chunks ++ s.chunks channel = chunks := by rw [hnone, List.append_nil]
  cases h with
  | turned phase =>
    rw [hsame rfl]
    exact .last going free unread line dry at_
  | cancelled seen => contradiction
  | used line' more =>
    have hline : line' = r.drain.line := by
      rw [unread] at more
      injection more with more
      exact more.symm
    subst hline
    rw [hsame rfl]
    exact .last going free rfl line dry at_
  | gave bytes rest piece incidents silent =>
    rw [unread] at piece
    contradiction
  | filled unread content => exact absurd dry.2 content
  | ended unread content closed line =>
    have hend := Drain.endInput_of_empty going line
    rw [hsame rfl]
    refine .ended dry ?_ ?_
    · show r.drain.endInput.stop = some .ended
      rw [hend]
    · rw [at_]
      rfl
  | gaveLast unread content closed begun => exact absurd line begun
  | failed message => exact fail hchannel going message p

/-- A step of a reader that has not stopped, in which nobody cancels its token. -/
theorem stride (h : Progress channel listeners chunks (closed = true ∧ p.content = []) r)
    (hchannel : r.drain.channel = channel) (going : r.finished = false)
    (hs : Stride r false closed p s) (kept : s.reader.drain.cancelled = false) :
    Progress channel listeners (chunks ++ s.chunks channel)
      (closed = true ∧ s.pipe.content = []) s.reader := by
  cases h with
  | reading hstop free at_ => exact stride_reading hchannel hstop free at_ hs kept
  | last hstop free unread line dry at_ =>
    exact stride_last hchannel hstop free unread line dry at_ hs
  | ended dry stop at_ =>
    rw [finished, stop] at going
    contradiction
  | failed message stop told =>
    rw [finished, stop] at going
    contradiction

end Progress

/-! ## The whole stream -/

theorem reads_eq_singleton {chunk : Bytes} (h : chunk.length ≤ readSize) :
    Drain.reads chunk = [chunk] := by
  have hdrop : chunk.drop readSize = [] := List.drop_eq_nil_of_le h
  rw [Drain.reads]
  split
  · rfl
  · rename_i b rest hrest
    rw [hdrop] at hrest
    contradiction

theorem brought_chunks {chunks : List Bytes}
    (fits : ∀ chunk ∈ chunks, chunk ≠ [] ∧ chunk.length ≤ readSize) :
    brought (chunks.map .bytes) = chunks := by
  induction chunks with
  | nil => rfl
  | cons chunk chunks ih =>
    obtain ⟨⟨-, hle⟩, hrest⟩ := List.forall_mem_cons.mp fits
    rw [List.map_cons, brought, List.flatMap_cons, ← brought, ih hrest]
    exact congrArg (· ++ chunks) (reads_eq_singleton hle)

theorem foldl_read_chunks {cap : Cap} (d : Drain cap) {chunks : List Bytes}
    (fits : ∀ chunk ∈ chunks, chunk ≠ [] ∧ chunk.length ≤ readSize) :
    (chunks.map Read.bytes).foldl Drain.read d = chunks.foldl Drain.consume d := by
  induction chunks generalizing d with
  | nil => rfl
  | cons chunk chunks ih =>
    obtain ⟨⟨hne, hle⟩, hrest⟩ := List.forall_mem_cons.mp fits
    have hread : d.read (.bytes chunk) = d.consume chunk := by
      cases chunk with
      | nil => exact absurd rfl hne
      | cons b bs =>
        show (Drain.reads (b :: bs)).foldl Drain.consume d = _
        rw [reads_eq_singleton hle]
        rfl
    rw [List.map_cons, List.foldl_cons, hread, ih _ hrest]
    rfl

/-- A reader that has come to its end has drained the stream of its chunks. -/
theorem Progress.drain_eq (h : Progress channel listeners chunks dry r)
    (stop : r.drain.stop = some .ended) (hne : listeners ≠ [])
    (fits : ∀ chunk ∈ chunks, chunk ≠ [] ∧ chunk.length ≤ readSize) :
    Line.drain .standard channel listeners false (chunks.map .bytes) = .ok r.drain := by
  cases h with
  | reading going free at_ =>
    rw [going] at stop
    contradiction
  | last going free unread line dry at_ =>
    rw [going] at stop
    contradiction
  | ended dry stop at_ =>
    rw [Line.drain, if_neg (by simpa using hne), Drain.run, Drain.checkToken_of_free rfl,
      foldl_read_chunks _ fits, at_]
  | failed message failed told =>
    rw [failed] at stop
    cases stop

end Reader

end ToolRunner
