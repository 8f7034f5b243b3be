import ToolRunner.Proofs.Line.Halting

/-!
# How a reader stops

A reader is compared with one that reads the same stream undisturbed: no read fails, and nobody
cancels the token. As long as the reader goes on the two are level; when it stops at its token or at
a failed read, the undisturbed one goes on without it (`Trails`). So what the listeners have got is
how the lines of the undisturbed stream begin (`drain_stops`).
-/

namespace ToolRunner

/-- The same listener, but that it destroys nothing. -/
def Registration.calm {α : Type} (r : Registration α) : Registration α :=
  { r with respond := fun calls a => { r.respond calls a with destroys := false } }

theorem Registration.quiet_calm {α : Type} {rs : List (Registration α)} :
    ∀ r ∈ rs.map (·.calm), r.Quiet := by
  intro r hr
  obtain ⟨r', -, rfl⟩ := List.mem_map.mp hr
  exact fun _ _ => rfl

namespace Line

/-- Whether a read neither fails nor cancels. -/
def Read.proceeds : Read → Bool
  | bytes _ | pending => true
  | failure _ | cancel => false

/-- Some listener that has had some lines destroys what it is called for when it gets the next. -/
def Destroys (listeners : List (Registration String)) (before : List String) (text : String) :
    Prop :=
  ∃ r ∈ listeners, ((r.callAll before).reaction text).destroys = true

/-- Some listener does so at one of the lines. -/
def Destroyed (listeners : List (Registration String)) (texts : List String) : Prop :=
  ∃ before text, before ++ [text] <+: texts ∧ Destroys listeners before text

theorem not_destroyed_nil (listeners : List (Registration String)) : ¬ Destroyed listeners [] := by
  rintro ⟨before, text, hprefix, -⟩
  simp at hprefix

theorem destroyed_concat {listeners : List (Registration String)} {texts : List String}
    {text : String} :
    Destroyed listeners (texts ++ [text]) ↔
      Destroyed listeners texts ∨ Destroys listeners texts text := by
  constructor
  · rintro ⟨before, last, hprefix, hdestroys⟩
    rcases List.prefix_concat_iff.mp hprefix with heq | hprefix
    · obtain ⟨rfl, hlast⟩ := List.append_inj' heq rfl
      injection hlast with hlast
      subst hlast
      exact .inr hdestroys
    · exact .inl ⟨before, last, hprefix, hdestroys⟩
  · rintro (⟨before, last, hprefix, hdestroys⟩ | hdestroys)
    · exact ⟨before, last, hprefix.trans (List.prefix_append _ _), hdestroys⟩
    · exact ⟨texts, text, List.prefix_refl _, hdestroys⟩

variable {cap : Cap}

namespace Drain

variable {channel : Channel} {listeners : List (Registration String)} {cancelled : Bool}
variable {script : List Read} {texts more : List String} {d c : Drain cap}

/-! ## What the token and the stream have to do with the stop -/

/-- A reader heeds its token: once a listener has cancelled it, it has stopped there, and when it
stops at the token or at a failed read there is a reason. -/
structure Heeds (listeners : List (Registration String)) (cancelled : Bool) (script : List Read)
    (texts : List String) (d : Drain cap) : Prop where
  seen : Destroyed listeners texts → d.stop = some .cancelled
  last : ¬ Destroyed listeners texts.dropLast
  token : d.stop = some .cancelled → d.cancelled = true
  cause : d.cancelled = true → cancelled = true ∨ .cancel ∈ script ∨ Destroyed listeners texts
  error : ∀ message, d.stop = some (.failed message) → .failure message ∈ script

namespace Heeds

theorem not_destroyed (h : Heeds listeners cancelled script texts d) (going : d.stop = none) :
    ¬ Destroyed listeners texts := by
  intro hdestroyed
  have hstop := h.seen hdestroyed
  rw [going] at hstop
  contradiction

/-- The line at which a listener cancels is the last one. -/
theorem eq_of_destroys (h : Heeds listeners cancelled script texts d) {before : List String}
    {text : String} (hbefore : before ++ [text] <+: texts)
    (hdestroys : Destroys listeners before text) : texts = before ++ [text] := by
  rcases List.eq_nil_or_concat texts with rfl | ⟨init, last, rfl⟩
  · simp at hbefore
  · rw [List.concat_eq_append] at hbefore ⊢
    rcases List.prefix_concat_iff.mp hbefore with heq | hinit
    · exact heq.symm
    · refine absurd ⟨before, text, ?_, hdestroys⟩ h.last
      rwa [List.concat_eq_append, List.dropLast_concat]

theorem checkToken (h : Heeds listeners cancelled script texts d) :
    Heeds listeners cancelled script texts d.checkToken := by
  cases hstop : d.stop with
  | some stop => rwa [checkToken_of_stopped (by rw [hstop]; rfl)]
  | none =>
    cases htoken : d.cancelled with
    | false => rwa [checkToken_of_free htoken]
    | true =>
      rw [checkToken_of_cancelled hstop htoken]
      exact ⟨fun _ => rfl, h.last, fun _ => htoken, fun _ => h.cause htoken, nofun⟩

theorem deliver (h : Heeds listeners cancelled script texts d)
    (gave : d.Gave channel listeners texts) (going : d.stop = none) (bytes : Array UInt8) :
    Heeds listeners cancelled script (texts ++ [Utf8.decode bytes.toList])
      (d.deliver bytes).checkToken := by
  have hfree := h.not_destroyed going
  have hdestroyed : (dispatch (.line d.channel) d.listeners (Utf8.decode bytes.toList)).destroyed =
      true ↔ Destroys listeners texts (Utf8.decode bytes.toList) := by
    rw [dispatch, dispatchFrom_destroyed_iff, gave.listeners_eq, Destroys]
    constructor
    · rintro ⟨_, hmem, hdestroys⟩
      obtain ⟨r, hr, rfl⟩ := List.mem_map.mp hmem
      exact ⟨r, hr, hdestroys⟩
    · rintro ⟨r, hr, hdestroys⟩
      exact ⟨r.callAll texts, List.mem_map_of_mem hr, hdestroys⟩
  have hlast : ¬ Destroyed listeners (texts ++ [Utf8.decode bytes.toList]).dropLast := by
    rwa [List.dropLast_concat]
  have hgoing : (d.deliver bytes).stop = none := going
  cases htoken : (d.deliver bytes).cancelled with
  | false =>
    rw [checkToken_of_free htoken]
    have hnot : ¬ Destroys listeners texts (Utf8.decode bytes.toList) := by
      replace htoken : (d.cancelled || _) = false := htoken
      rw [Bool.or_eq_false_iff] at htoken
      rw [← hdestroyed, htoken.2]
      exact Bool.false_ne_true
    refine ⟨?_, hlast, ?_, ?_, ?_⟩
    · rw [destroyed_concat]
      rintro (hearlier | hnow)
      · exact absurd hearlier hfree
      · exact absurd hnow hnot
    · intro hstop
      rw [hgoing] at hstop
      contradiction
    · intro hcancelled
      rw [htoken] at hcancelled
      contradiction
    · intro message hstop
      rw [hgoing] at hstop
      contradiction
  | true =>
    rw [checkToken_of_cancelled hgoing htoken]
    refine ⟨fun _ => rfl, hlast, fun _ => htoken, fun _ => ?_, ?_⟩
    · replace htoken : (d.cancelled || _) = true := htoken
      rw [Bool.or_eq_true, hdestroyed] at htoken
      rw [destroyed_concat]
      rcases htoken with htoken | htoken
      · exact (h.cause htoken).imp_right (.imp_right .inl)
      · exact .inr (.inr (.inr htoken))
    · intro message hfailed
      cases hfailed

end Heeds

/-! ## Beside an undisturbed reader -/

/-- A reader and the undisturbed one beside it, which has given `more` lines than it. They are level
unless the reader has stopped at its token or at a failed read. -/
structure Trails (channel : Channel) (listeners : List (Registration String)) (cancelled : Bool)
    (script : List Read) (texts more : List String) (d c : Drain cap) : Prop where
  gave : d.Gave channel listeners texts
  clean : c.Gave channel (listeners.map (·.calm)) (texts ++ more)
  free : c.cancelled = false
  goes : c.stop = none ∨ c.stop = some .ended
  level : d.stop = none ∨ d.stop = some .ended → more = [] ∧ c.line = d.line ∧ c.stop = d.stop
  heeds : Heeds listeners cancelled script texts d

namespace Trails

theorem running (h : Trails channel listeners cancelled script texts more d c)
    (going : c.stop = none) : c.Running :=
  ⟨going, h.free, h.clean.quiet Registration.quiet_calm⟩

/-- The undisturbed reader goes on alone. -/
theorem ahead (h : Trails channel listeners cancelled script texts more d c)
    (halted : ¬ (d.stop = none ∨ d.stop = some .ended)) (going : c.stop = none) (ps : List Piece)
    (line : Partial cap) {stop : Option Stop} (hstop : stop = none ∨ stop = some .ended) :
    Trails channel listeners cancelled script texts (more ++ ps.map (·.text)) d
      { c.deliverAll ps with line := line, stop := stop } where
  gave := h.gave
  clean := by
    have hrun := (h.running going).deliverAll ps
    have hclean := h.clean.deliverAll going ps
    rw [List.append_assoc] at hclean
    refine hclean.stopAt hrun.going ?_ line
    rcases hstop with rfl | rfl <;> rfl
  free := ((h.running going).deliverAll ps).free
  goes := hstop
  level hd := absurd hd halted
  heeds := h.heeds

/-- A piece is given by both. -/
theorem deliver (h : Trails channel listeners cancelled script texts more d c)
    (going : d.stop = none) (bytes : Array UInt8) :
    Trails channel listeners cancelled script (texts ++ [Utf8.decode bytes.toList]) []
      (d.deliver bytes).checkToken (c.deliver bytes).checkToken := by
  obtain ⟨rfl, -, hstop⟩ := h.level (.inl going)
  have hc : c.stop = none := hstop.trans going
  have hrun := (h.running hc).deliver bytes
  have hclean := h.clean.deliver hc bytes
  rw [List.append_nil] at hclean
  rw [hrun.checkToken]
  refine ⟨(h.gave.deliver going bytes).checkToken, by rwa [List.append_nil], hrun.free,
    .inl hc, fun hd => ⟨rfl, ?_⟩, h.heeds.deliver h.gave going bytes⟩
  have hgoing : (d.deliver bytes).stop = none := going
  cases htoken : (d.deliver bytes).cancelled with
  | false =>
    rw [checkToken_of_free htoken]
    exact ⟨rfl, hstop⟩
  | true =>
    rw [checkToken_of_cancelled hgoing htoken] at hd
    rcases hd with hd | hd <;> cases hd

theorem consume {texts more : List String} {d c : Drain cap}
    (h : Trails channel listeners cancelled script texts more d c) (bs : Bytes) :
    ∃ texts more, Trails channel listeners cancelled script texts more (d.consume bs)
      (c.consume bs) := by
  cases hstop : d.stop with
  | none =>
    obtain ⟨-, hline, hsame⟩ := h.level (.inl hstop)
    have hc : c.stop = none := hsame.trans hstop
    rcases take_cases d.line bs with ⟨after, htake⟩ | ⟨bytes, rest, htake, hlt⟩
    · rw [consume_of_more hstop htake, consume_of_more hc (hline ▸ htake)]
      refine ⟨texts, more, h.gave.withLine after, h.clean.withLine after, h.free, h.goes, ?_, ?_⟩
      · intro hd
        exact ⟨(h.level hd).1, rfl, hsame⟩
      · exact ⟨h.heeds.seen, h.heeds.last, h.heeds.token, h.heeds.cause, h.heeds.error⟩
    · rw [consume_of_piece hstop htake, consume_of_piece hc (hline ▸ htake)]
      exact (h.deliver hstop bytes).consume rest
  | some stop =>
    rw [consume_of_stopped (by rw [hstop]; rfl)]
    rcases h.goes with hc | hc
    · have halted : ¬ (d.stop = none ∨ d.stop = some .ended) := by
        intro hd
        have hsame := (h.level hd).2.2
        rw [hc, hstop] at hsame
        contradiction
      rw [consume_eq (h.running hc)]
      have hgoing := ((h.running hc).deliverAll (cut c.line bs).1).going
      exact ⟨_, _, h.ahead halted hc _ _ (.inl hgoing)⟩
    · rw [consume_of_stopped (by rw [hc]; rfl)]
      exact ⟨texts, more, h⟩
termination_by bs.length

theorem endInput (h : Trails channel listeners cancelled script texts more d c) :
    ∃ texts more, Trails channel listeners cancelled script texts more d.endInput c.endInput := by
  cases hstop : d.stop with
  | none =>
    obtain ⟨rfl, hline, hsame⟩ := h.level (.inl hstop)
    have hc : c.stop = none := hsame.trans hstop
    by_cases hempty : d.line.bytes.isEmpty = true
    · rw [endInput_of_empty hstop hempty, endInput_of_empty hc (by rwa [hline])]
      refine ⟨texts, [], h.gave.stopAt hstop rfl d.line, h.clean.stopAt hc rfl c.line, h.free,
        .inr rfl, fun _ => ⟨rfl, hline, rfl⟩, ?_⟩
      have hfree := h.heeds.not_destroyed hstop
      exact ⟨fun hd => absurd hd hfree, h.heeds.last, nofun, h.heeds.cause, nofun⟩
    · rw [endInput_of_begun hstop hempty, endInput_of_begun hc (by rwa [hline]), hline]
      exact ⟨_, _, h.deliver hstop d.line.bytes⟩
  | some stop =>
    rw [endInput_of_stopped (by rw [hstop]; rfl)]
    rcases h.goes with hc | hc
    · have halted : ¬ (d.stop = none ∨ d.stop = some .ended) := by
        intro hd
        have hsame := (h.level hd).2.2
        rw [hc, hstop] at hsame
        contradiction
      have hrun := h.running hc
      by_cases hempty : c.line.bytes.isEmpty = true
      · rw [hrun.endInput_empty hempty]
        exact ⟨_, _, h.ahead halted hc [] .empty (.inr rfl)⟩
      · rw [hrun.endInput_line hempty]
        exact ⟨_, _, h.ahead halted hc [⟨c.line.bytes.toList, true⟩] .empty (.inl hc)⟩
    · rw [endInput_of_stopped (by rw [hc]; rfl)]
      exact ⟨texts, more, h⟩

theorem foldl_consume (h : Trails channel listeners cancelled script texts more d c)
    (reads : List Bytes) :
    ∃ texts more, Trails channel listeners cancelled script texts more
      (reads.foldl Drain.consume d) (reads.foldl Drain.consume c) := by
  induction reads generalizing texts more d c with
  | nil => exact ⟨texts, more, h⟩
  | cons read reads ih =>
    obtain ⟨_, _, hnext⟩ := h.consume read
    exact ih hnext

/-- A read that fails or cancels is one that the undisturbed reader does not have. -/
theorem read (h : Trails channel listeners cancelled script texts more d c) {r : Read}
    (hr : r ∈ script) :
    ∃ texts more, Trails channel listeners cancelled script texts more (d.read r)
      (if r.proceeds then c.read r else c) := by
  cases r with
  | bytes bs =>
    cases bs with
    | nil => exact h.endInput
    | cons b bs => exact h.foldl_consume (reads (b :: bs))
  | failure message =>
    refine ⟨texts, more, h.gave.fail message, h.clean, h.free, h.goes, ?_, ?_⟩
    · intro hd
      replace hd : (d.fail message).stop = none ∨ (d.fail message).stop = some .ended := hd
      show more = [] ∧ c.line = (d.fail message).line ∧ c.stop = (d.fail message).stop
      cases hstop : d.stop with
      | none =>
        rw [fail_of_going hstop] at hd
        rcases hd with hd | hd <;> cases hd
      | some stop =>
        rw [fail_of_stopped (by rw [hstop]; rfl)] at hd ⊢
        exact h.level hd
    · show Heeds listeners cancelled script texts (d.fail message)
      cases hstop : d.stop with
      | none =>
        rw [fail_of_going hstop]
        have hfree := h.heeds.not_destroyed hstop
        refine ⟨fun hd => absurd hd hfree, h.heeds.last, nofun, h.heeds.cause, ?_⟩
        intro text htext
        injection htext with htext
        injection htext with htext
        rwa [← htext]
      | some stop =>
        rw [fail_of_stopped (by rw [hstop]; rfl)]
        exact h.heeds
  | pending =>
    show ∃ texts more,
      Trails channel listeners cancelled script texts more d.checkToken c.checkToken
    rw [checkToken_of_free h.free]
    refine ⟨texts, more, h.gave.checkToken, h.clean, h.free, h.goes, ?_, h.heeds.checkToken⟩
    intro hd
    cases hstop : d.stop with
    | some stop =>
      rw [checkToken_of_stopped (by rw [hstop]; rfl)] at hd ⊢
      exact h.level hd
    | none =>
      cases htoken : d.cancelled with
      | false =>
        rw [checkToken_of_free htoken]
        exact h.level (.inl hstop)
      | true =>
        rw [checkToken_of_cancelled hstop htoken] at hd
        rcases hd with hd | hd <;> cases hd
  | cancel =>
    refine ⟨texts, more, h.gave.withToken true, h.clean, h.free, h.goes, h.level, ?_⟩
    exact ⟨h.heeds.seen, h.heeds.last, fun _ => rfl, fun _ => .inr (.inl hr), h.heeds.error⟩

theorem foldl_read (h : Trails channel listeners cancelled script texts more d c) {now : List Read}
    (hnow : ∀ r ∈ now, r ∈ script) :
    ∃ texts more, Trails channel listeners cancelled script texts more (now.foldl Drain.read d)
      ((now.filter Read.proceeds).foldl Drain.read c) := by
  induction now generalizing texts more d c with
  | nil => exact ⟨texts, more, h⟩
  | cons r now ih =>
    obtain ⟨hr, hrest⟩ := List.forall_mem_cons.mp hnow
    obtain ⟨_, _, hnext⟩ := h.read hr
    rw [List.foldl_cons, List.filter_cons]
    cases hproceeds : r.proceeds with
    | false =>
      rw [hproceeds] at hnext
      exact ih hnext hrest
    | true =>
      rw [hproceeds] at hnext
      exact ih hnext hrest

end Trails

theorem trails_start (cap : Cap) (channel : Channel) (listeners : List (Registration String))
    (cancelled : Bool) (script : List Read) :
    Trails channel listeners cancelled script [] []
      (start cap channel listeners cancelled).checkToken
      (start cap channel (listeners.map (·.calm)) false).checkToken := by
  have hheeds : Heeds listeners cancelled script [] (start cap channel listeners cancelled) :=
    ⟨fun hd => absurd hd (not_destroyed_nil listeners), not_destroyed_nil listeners, nofun,
      fun hcancelled => .inl hcancelled, nofun⟩
  rw [checkToken_of_free (d := start cap channel (listeners.map (·.calm)) false) rfl]
  refine ⟨(gave_start cap channel listeners cancelled).checkToken, gave_start _ _ _ _, rfl,
    .inl rfl, ?_, hheeds.checkToken⟩
  intro hd
  cases cancelled with
  | false => exact ⟨rfl, rfl, rfl⟩
  | true => rcases hd with hd | hd <;> cases hd

theorem trails_run (cap : Cap) (channel : Channel) (listeners : List (Registration String))
    (cancelled : Bool) (script : List Read) :
    ∃ texts more, Trails channel listeners cancelled script texts more
      ((start cap channel listeners cancelled).run script)
      ((start cap channel (listeners.map (·.calm)) false).run (script.filter Read.proceeds)) := by
  obtain ⟨_, _, hread⟩ := (trails_start cap channel listeners cancelled script).foldl_read
    fun _ hr => hr
  obtain ⟨_, _, hend⟩ := hread.endInput
  exact hend.endInput

end Drain

/-- A reader that comes to the end of a steady script has given the pieces of what it read, whoever
its listeners are. -/
theorem gave_of_ended {channel : Channel} {listeners : List (Registration String)}
    {cancelled : Bool} {script : List Read} {d : Drain cap} (hne : listeners ≠ [])
    (steady : ∀ r ∈ script, r.Steady)
    (drained : drain cap channel listeners cancelled script = .ok d)
    (ended : d.stop = some .ended) :
    d.Gave channel listeners ((pieces (.empty : Partial cap) (brought script)).map (·.text)) := by
  rw [drain, if_neg (by simpa using hne)] at drained
  injection drained with hrun
  subst hrun
  obtain ⟨texts, more, h⟩ := Drain.trails_run cap channel listeners cancelled script
  obtain ⟨rfl, -⟩ := h.level (.inr ended)
  have hproceeds : script.filter Read.proceeds = script := by
    refine List.filter_eq_self.mpr fun r hr => ?_
    have hsteady := steady r hr
    cases r with
    | bytes bs => rfl
    | pending => rfl
    | failure message => exact hsteady.elim
    | cancel => exact hsteady.elim
  have hcalm : listeners.map (·.calm) ≠ [] := by simpa using hne
  have hclean := h.clean.listeners_eq
  rw [hproceeds, Drain.run_eq (running_start Registration.quiet_calm) steady, List.append_nil]
    at hclean
  have htexts : texts = (pieces (.empty : Partial cap) (brought script)).map (·.text) :=
    Registration.callAll_injective hcalm (hclean.symm.trans (Drain.listeners_deliverAll _ _))
  exact htexts ▸ h.gave

/-- What is true of a reader that has given some lines and stopped, beside the undisturbed one,
which has given the whole of them. -/
structure Stopped (channel : Channel) (listeners : List (Registration String)) (cancelled : Bool)
    (script : List Read) (texts whole : List String) (d clean : Drain cap) : Prop where
  /-- Every listener has got the lines. -/
  listeners_eq : d.listeners = listeners.map (·.callAll texts)
  lines_eq : d.report.lines = texts.length
  /-- It stopped in one way, which alone the report shows. -/
  shown : ∃ stop, d.stop = some stop ∧ ∀ other : Stop, other.Shown channel d.report ↔ other = stop
  clean_listeners_eq : clean.listeners = (listeners.map (·.calm)).map (·.callAll whole)
  clean_ended : clean.stop = some .ended
  begins : texts <+: whole
  whole_of_ended : d.stop = some .ended → texts = whole
  cause_of_cancelled : d.report.cancelled = true →
    cancelled = true ∨ .cancel ∈ script ∨ Destroyed listeners texts
  cause_of_failed : ∀ message, d.stop = some (.failed message) → .failure message ∈ script
  /-- Nothing is given by a reader that was cancelled before it began. -/
  nil_of_cancelled : cancelled = true → texts = [] ∧ d.report.cancelled = true
  /-- The line at which a listener cancels is the last one. -/
  last_of_destroys : ∀ before text, before ++ [text] <+: texts → Destroys listeners before text →
    texts = before ++ [text] ∧ d.report.cancelled = true
  /-- Nothing comes after the stop. -/
  fixed_of_stopped : ∀ now later, script = now ++ later →
    ((Drain.start cap channel listeners cancelled).reached now).stop.isSome = true →
      d.listeners = ((Drain.start cap channel listeners cancelled).reached now).listeners ∧
      d.report = ((Drain.start cap channel listeners cancelled).reached now).report
  /-- From when the token is cancelled, one more line may come. -/
  le_of_cancelled : ∀ now later, script = now ++ later →
    ((Drain.start cap channel listeners cancelled).reached now).cancelled = true →
      d.report.lines ≤ ((Drain.start cap channel listeners cancelled).reached now).report.lines + 1
  /-- The line that has begun when a read fails, or when the reader is woken with its token
  cancelled, is given to nobody. -/
  dropped_of_halts : ∀ now r later, script = now ++ r :: later →
    r.halts ((Drain.start cap channel listeners cancelled).reached now).cancelled = true →
      d.listeners = ((Drain.start cap channel listeners cancelled).reached now).listeners

/-- A reader stops at the end of its input, at its token or at a failed read, and its report shows
which. Until then it gives what the undisturbed reader gives. -/
theorem drain_stops (cap : Cap) (channel : Channel) (listeners : List (Registration String))
    (hne : listeners ≠ []) (cancelled : Bool) (script : List Read) :
    ∃ d clean texts whole, drain cap channel listeners cancelled script = .ok d ∧
      drain cap channel (listeners.map (·.calm)) false (script.filter Read.proceeds) = .ok clean ∧
      Stopped channel listeners cancelled script texts whole d clean := by
  obtain ⟨texts, more, h⟩ := Drain.trails_run cap channel listeners cancelled script
  have hcalm : listeners.map (·.calm) ≠ [] := by simpa using hne
  obtain ⟨stop, hstop⟩ := Option.isSome_iff_exists.mp
    ((Drain.start cap channel listeners cancelled).stop_run script)
  refine ⟨_, _, texts, texts ++ more, if_neg (by simpa using hne), if_neg (by simpa using hcalm),
    ?_⟩
  exact {
    listeners_eq := h.gave.listeners_eq
    lines_eq := h.gave.lines_eq
    shown := ⟨stop, hstop, fun other => ⟨fun hother => hother.unique (h.gave.shown hstop),
      fun heq => heq ▸ h.gave.shown hstop⟩⟩
    clean_listeners_eq := h.clean.listeners_eq
    clean_ended := by
      refine h.goes.resolve_left fun hgoing => ?_
      have hstopped := (Drain.start cap channel (listeners.map (·.calm)) false).stop_run
        (script.filter Read.proceeds)
      rw [hgoing] at hstopped
      contradiction
    begins := List.prefix_append _ _
    whole_of_ended := by
      intro hended
      rw [(h.level (.inr hended)).1, List.append_nil]
    cause_of_cancelled := by
      intro hreport
      exact h.heeds.cause (h.heeds.token (Drain.report_cancelled_iff.mp hreport))
    cause_of_failed := h.heeds.error
    nil_of_cancelled := by
      rintro rfl
      obtain ⟨-, hreport⟩ :=
        @Drain.run_of_stopped cap (Drain.start cap channel listeners true) [] rfl script
      rw [List.nil_append] at hreport
      refine ⟨List.length_eq_zero_iff.mp ?_, by rw [hreport]; rfl⟩
      rw [← h.gave.lines_eq]
      exact congrArg (·.lines) hreport
    last_of_destroys := by
      intro before text hbefore hdestroys
      have hseen := h.heeds.seen ⟨before, text, hbefore, hdestroys⟩
      exact ⟨h.heeds.eq_of_destroys hbefore hdestroys, Drain.report_cancelled_iff.mpr hseen⟩
    fixed_of_stopped := by
      rintro now later rfl hstopped
      exact Drain.run_of_stopped hstopped later
    le_of_cancelled := by
      rintro now later rfl htoken
      exact Drain.lines_run_le htoken later
    dropped_of_halts := by
      rintro now r later rfl hhalts
      exact Drain.listeners_run_of_halts hhalts later }

/-- A listener that does nothing but note the lines. -/
def noting : Registration String := .ofReaction fun _ => .quiet

/-- The token is cancelled in the middle of the second line of three. -/
def cancelledInside : List Read := [.bytes [97, 10, 98], .cancel, .bytes [99, 10, 100]]

theorem drain_stops_one_further :
    [noting] ≠ [] ∧
    ∃ d clean texts whole, drain .standard .stdout [noting] false cancelledInside = .ok d ∧
      drain .standard .stdout ([noting].map (·.calm)) false (cancelledInside.filter Read.proceeds) =
        .ok clean ∧
      Stopped .stdout [noting] false cancelledInside texts whole d clean ∧
      d.report = ⟨.stdout, 2, true, []⟩ ∧ clean.report = ⟨.stdout, 3, false, []⟩ := by
  have hne : [noting] ≠ [] := by simp
  obtain ⟨d, clean, texts, whole, hd, hclean, hstopped⟩ :=
    drain_stops .standard .stdout [noting] hne false cancelledInside
  refine ⟨hne, d, clean, texts, whole, hd, hclean, hstopped, ?_, ?_⟩
  · have hreport : (drain .standard .stdout [noting] false cancelledInside).toOption.map
        (·.report) = some ⟨.stdout, 2, true, []⟩ := by decide +kernel
    rw [hd] at hreport
    exact Option.some.inj hreport
  · have hreport : (drain .standard .stdout ([noting].map (·.calm)) false
        (cancelledInside.filter Read.proceeds)).toOption.map (·.report) =
          some ⟨.stdout, 3, false, []⟩ := by decide +kernel
    rw [hclean] at hreport
    exact Option.some.inj hreport

end Line

end ToolRunner
