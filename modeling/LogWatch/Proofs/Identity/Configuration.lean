import LogWatch.Identity
import LogWatch.Proofs.Digest.Base
import LogWatch.Proofs.Identity.Canonical
import LogWatch.Proofs.Time.Limit

/-!
# What the identity of a configuration tells apart

The canonical text of a configuration holds the names of the log and of the machine, the filter,
the greatest number of events and the time limit, and leaves out the source.  The names and the
filter may hold line feeds, and the time limit is written down to 100 ns.  So the text determines
the settings as far as time limits are written, once the line feeds of the two names are known.

    c.SameSettings d ↔ c.canonicalText = d.canonicalText ∧ c.SameBreaks d
                                                                (sameSettings_iff_canonicalText)
-/

namespace LogWatch.Configuration

open LogWatch.Text LogWatch.Digest

/-- The configurations agree in all but the source; their time limits agree as they are written. -/
structure SameSettings (c d : Configuration) : Prop where
  filter : c.filter = d.filter
  timeLimit : c.timeLimit.SameTicks d.timeLimit
  maxMessages : c.maxMessages = d.maxMessages
  remoteMachine : c.remoteMachine = d.remoteMachine
  eventLog : c.eventLog = d.eventLog

/-- As many line feeds in the name of the log and as many in that of the machine. -/
def SameBreaks (c d : Configuration) : Prop :=
  lineBreaks c.eventLog = lineBreaks d.eventLog ∧
    lineBreaks c.remoteMachine = lineBreaks d.remoteMachine

/-- The lines of the canonical text, as long as no part holds a line feed. -/
def canonicalParts (c : Configuration) : List String :=
  [c.eventLog, c.filter, ofInt c.maxMessages.toInt, c.remoteMachine, c.timeLimit.toString,
    if c.hasMaximum then "True" else "False"]

theorem canonicalText_eq (c : Configuration) : c.canonicalText = canonicalLines c.canonicalParts :=
  rfl

theorem canonicalParts_eq_iff {c d : Configuration} :
    c.canonicalParts = d.canonicalParts ↔ c.SameSettings d := by
  constructor
  · intro h
    simp only [canonicalParts, List.cons.injEq] at h
    obtain ⟨hlog, hfilter, hmax, hmachine, hlimit, -⟩ := h
    exact ⟨hfilter, (Time.TimeLimit.toString_eq_iff _ _).mp hlimit,
      Int32.toInt_inj.mp (ofInt_injective hmax), hmachine, hlog⟩
  · intro h
    have hmaximum : c.hasMaximum = d.hasMaximum := by
      unfold hasMaximum
      rw [h.maxMessages]
    have hlimit := (Time.TimeLimit.toString_eq_iff _ _).mpr h.timeLimit
    simp only [canonicalParts, h.filter, hlimit, h.maxMessages, h.remoteMachine, h.eventLog,
      hmaximum]

/-! ## Line feeds in the parts -/

theorem lineBreaks_timeLimit (d : Time.TimeLimit) : lineBreaks d.toString = 0 := by
  apply lineBreaks_eq_zero
  rw [Time.TimeLimit.toString, String.toList_ofList]
  exact d.not_mem_text rfl (by decide) (by decide) (by decide)

theorem lineBreaks_canonicalParts (c : Configuration) :
    c.canonicalParts.map lineBreaks =
      [lineBreaks c.eventLog, lineBreaks c.filter, 0, lineBreaks c.remoteMachine, 0, 0] := by
  have hflag : lineBreaks (if c.hasMaximum then "True" else "False") = 0 := by
    split <;> decide
  simp only [canonicalParts, List.map_cons, List.map_nil, lineBreaks_ofInt, lineBreaks_timeLimit,
    hflag]

theorem lineBreaks_canonicalText (c : Configuration) :
    lineBreaks c.canonicalText =
      lineBreaks c.eventLog + lineBreaks c.filter + lineBreaks c.remoteMachine + 5 := by
  have hsum := lineBreaks_canonicalLines c.eventLog c.canonicalParts.tail
  rw [show c.eventLog :: c.canonicalParts.tail = c.canonicalParts from rfl,
    lineBreaks_canonicalParts] at hsum
  rw [c.canonicalText_eq, hsum]
  simp only [canonicalParts, List.sum_cons, List.sum_nil, List.tail_cons, List.length_cons,
    List.length_nil]
  omega

theorem sameSettings_iff_canonicalText (c d : Configuration) :
    c.SameSettings d ↔ c.canonicalText = d.canonicalText ∧ c.SameBreaks d := by
  constructor
  · intro h
    exact ⟨congrArg canonicalLines (canonicalParts_eq_iff.mpr h), by rw [h.eventLog],
      by rw [h.remoteMachine]⟩
  · rintro ⟨ht, hlog, hmachine⟩
    -- the filter has what is left of the line feeds of the whole text
    have hfilter : lineBreaks c.filter = lineBreaks d.filter := by
      have hc := c.lineBreaks_canonicalText
      have hd := d.lineBreaks_canonicalText
      rw [ht] at hc
      omega
    apply canonicalParts_eq_iff.mp
    apply canonicalLines_injective
    · rw [lineBreaks_canonicalParts, lineBreaks_canonicalParts, hlog, hfilter, hmachine]
    · exact ht

/-- The identity tells two canonical texts apart as far as their digests do. -/
theorem identity_eq_iff (c d : Configuration) :
    c.identity = d.identity ↔
      Sha256.ofString c.canonicalText = Sha256.ofString d.canonicalText := by
  constructor
  · intro h
    exact hex_injective (String.ofList_injective h)
  · intro h
    unfold identity
    rw [h]

/-- A line feed may stand at the end of the log's name or at the start of the filter. -/
theorem canonicalText_moveBreak (c : Configuration) (a b : String) :
    { c with eventLog := a ++ "\n" ++ b }.canonicalText =
      { c with eventLog := a, filter := b ++ "\n" ++ c.filter }.canonicalText := by
  apply String.toList_injective
  simp only [canonicalText_eq, canonicalParts, toList_canonicalLines_cons_cons,
    String.toList_append, List.append_assoc]
  simp [hasMaximum]

/-! ## Top theorem -/

/-- For configurations as they are made: the canonical text determines all five settings, the time
limit down to 100 ns, as soon as the line feeds in the trimmed names are known; so does the
identity, where SHA-256 does not collide on the two texts.  The source does not enter the text. -/
theorem identity_separates_settings (filter filter' : String) (limit limit' : Time.TimeLimit)
    (most most' : Int32) (machine machine' log log' : String) :
    let c := make filter limit most machine log
    let d := make filter' limit' most' machine' log'
    let same := filter = filter' ∧ limit.SameTicks limit' ∧ most = most' ∧
      trimmed machine = trimmed machine' ∧ trimmed log = trimmed log'
    (same ↔ c.canonicalText = d.canonicalText ∧ c.SameBreaks d) ∧
    ((Sha256.ofString c.canonicalText = Sha256.ofString d.canonicalText →
        c.canonicalText = d.canonicalText) →
      (same ↔ c.identity = d.identity ∧ c.SameBreaks d)) ∧
    (limit.HasWholeTicks → limit'.HasWholeTicks → (limit.SameTicks limit' ↔ limit = limit')) ∧
    ∀ path payload, (c.withLogFile path).canonicalText = c.canonicalText ∧
      (c.withPayload payload).canonicalText = c.canonicalText := by
  intro c d same
  have hsame : same ↔ c.canonicalText = d.canonicalText ∧ c.SameBreaks d := by
    rw [← sameSettings_iff_canonicalText]
    exact ⟨fun ⟨h1, h2, h3, h4, h5⟩ => ⟨h1, h2, h3, h4, h5⟩,
      fun ⟨h1, h2, h3, h4, h5⟩ => ⟨h1, h2, h3, h4, h5⟩⟩
  refine ⟨hsame, fun hsha => ?_, Time.TimeLimit.sameTicks_iff_eq, fun _ _ => ⟨rfl, rfl⟩⟩
  have hidentity : c.identity = d.identity ↔ c.canonicalText = d.canonicalText := by
    rw [identity_eq_iff]
    exact ⟨hsha, fun h => by rw [h]⟩
  rw [hidentity]
  exact hsame

/-- The errors of one log, for an hour and for two. -/
theorem identity_separates_hours :
    let two : Time.TimeLimit := ⟨7200 * 1000000000, by decide⟩
    let c := make "EntryType = Error" .hour 100 "db" " System "
    let d := make "EntryType = Error" two 100 "db" "System"
    Sha256.ofString c.canonicalText ≠ Sha256.ofString d.canonicalText ∧
      ¬(c.canonicalText = d.canonicalText ∧ c.SameBreaks d) ∧
      ¬(c.identity = d.identity ∧ c.SameBreaks d) := by
  intro two c d
  have hne : Sha256.ofString c.canonicalText ≠ Sha256.ofString d.canonicalText := by
    decide +kernel
  obtain ⟨htext, hidentity, hlimit, -⟩ := identity_separates_settings "EntryType = Error"
    "EntryType = Error" .hour two 100 100 "db" "db" " System " "System"
  have hlimits : ¬Time.TimeLimit.hour.SameTicks two := by
    rw [hlimit (by decide) (by decide)]
    decide
  refine ⟨hne, fun h => hlimits (htext.mpr h).2.1, fun h => hlimits ?_⟩
  exact ((hidentity fun hsha => absurd hsha hne).mpr h).2.1

/-- A line feed moved from the log's name to the filter, or a nanosecond more, leaves the identity
as it was. -/
theorem identity_eq_of_other_settings :
    let c := make "" .hour 0 "" "System\nIndex > 0"
    let d := make "Index > 0\n" .hour 0 "" "System"
    let longer := make "" ⟨3600 * 1000000000 + 1, by decide⟩ 0 "" "System\nIndex > 0"
    (c.canonicalText = d.canonicalText ∧ c.identity = d.identity ∧ c.filter ≠ d.filter ∧
        c.eventLog ≠ d.eventLog) ∧
      c.canonicalText = longer.canonicalText ∧ c.identity = longer.identity ∧
        c.timeLimit ≠ longer.timeLimit := by
  intro c d longer
  have hlog : trimmed "System\nIndex > 0" = "System" ++ "\n" ++ "Index > 0" := by decide +kernel
  have hc : c.canonicalText = d.canonicalText := by
    have hmove := canonicalText_moveBreak (make "" .hour 0 "" "") "System" "Index > 0"
    rw [← hlog] at hmove
    exact hmove.trans (by decide +kernel)
  have hl : c.canonicalText = longer.canonicalText := by decide +kernel
  refine ⟨⟨hc, ?_, by decide, by decide +kernel⟩, hl, ?_, by decide⟩
  · rw [identity_eq_iff, hc]
  · rw [identity_eq_iff, hl]

end LogWatch.Configuration
