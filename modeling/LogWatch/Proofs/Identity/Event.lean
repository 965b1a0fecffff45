import LogWatch.Proofs.Digest.Base
import LogWatch.Proofs.Identity.Canonical
import LogWatch.Proofs.Time.Text

/-!
# What the identity of an event tells apart

The canonical text of an event leaves out its index and its offset and nothing else, but the
category, the message and the source may hold line feeds themselves, and then the text does not
say where one ends and the next begins.  Together with the number of line feeds in the category
and in the source it determines all the rest.

    e.SameContent f ↔ e.canonicalText = f.canonicalText ∧ e.SameBreaks f
                                                                (sameContent_iff_canonicalText)
-/

namespace LogWatch

open LogWatch.Text LogWatch.Digest

namespace Event

/-- The events differ in nothing but index and offset. -/
structure SameContent (e f : Event) : Prop where
  category : e.category = f.category
  categoryNumber : e.categoryNumber = f.categoryNumber
  entryType : e.entryType = f.entryType
  errorLevel : e.errorLevel = f.errorLevel
  eventId : e.eventId = f.eventId
  instanceId : e.instanceId = f.instanceId
  message : e.message = f.message
  source : e.source = f.source
  instant : e.instant = f.instant

/-- As many line feeds in the category and as many in the source. -/
def SameBreaks (e f : Event) : Prop :=
  lineBreaks e.category = lineBreaks f.category ∧ lineBreaks e.source = lineBreaks f.source

/-- The lines of the canonical text, as long as no part holds a line feed. -/
def canonicalParts (e : Event) : List String :=
  [e.category, ofInt e.categoryNumber.toInt, e.entryType.name, ofInt e.errorLevel.toInt,
    ofInt e.eventId.toInt, ofInt e.instanceId.toInt, e.message, e.source, e.instant.toString]

theorem canonicalText_eq (e : Event) : e.canonicalText = canonicalLines e.canonicalParts := rfl

theorem canonicalParts_eq_iff {e f : Event} :
    e.canonicalParts = f.canonicalParts ↔ e.SameContent f := by
  constructor
  · intro h
    simp only [canonicalParts, List.cons.injEq, and_true] at h
    obtain ⟨h1, h2, h3, h4, h5, h6, h7, h8, h9⟩ := h
    exact ⟨h1, Int16.toInt_inj.mp (ofInt_injective h2), EntryType.name_injective h3,
      Int32.toInt_inj.mp (ofInt_injective h4), Int16.toInt_inj.mp (ofInt_injective h5),
      Int64.toInt_inj.mp (ofInt_injective h6), h7, h8, Time.Instant.toString_injective h9⟩
  · intro h
    simp only [canonicalParts, h.category, h.categoryNumber, h.entryType, h.errorLevel, h.eventId,
      h.instanceId, h.message, h.source, h.instant]

theorem SameContent.canonicalText_eq {e f : Event} (h : e.SameContent f) :
    e.canonicalText = f.canonicalText :=
  congrArg canonicalLines (canonicalParts_eq_iff.mpr h)

/-! ## Line feeds in the parts -/

theorem lineBreaks_name (t : EntryType) : lineBreaks t.name = 0 := by cases t <;> decide +kernel

theorem lineBreaks_instant (t : Time.Instant) : lineBreaks t.toString = 0 := by
  apply lineBreaks_eq_zero
  intro h
  rw [Time.Instant.toString, String.toList_ofList] at h
  exact absurd (t.noBlanks_text _ h) (by decide)

theorem lineBreaks_canonicalParts (e : Event) :
    e.canonicalParts.map lineBreaks =
      [lineBreaks e.category, 0, 0, 0, 0, 0, lineBreaks e.message, lineBreaks e.source, 0] := by
  simp only [canonicalParts, List.map_cons, List.map_nil, lineBreaks_ofInt, lineBreaks_name,
    lineBreaks_instant]

theorem lineBreaks_canonicalText (e : Event) :
    lineBreaks e.canonicalText =
      lineBreaks e.category + lineBreaks e.message + lineBreaks e.source + 8 := by
  have hsum := lineBreaks_canonicalLines e.category e.canonicalParts.tail
  rw [show e.category :: e.canonicalParts.tail = e.canonicalParts from rfl,
    lineBreaks_canonicalParts] at hsum
  rw [e.canonicalText_eq, hsum]
  simp only [canonicalParts, List.sum_cons, List.sum_nil, List.tail_cons, List.length_cons,
    List.length_nil]
  omega

theorem sameContent_iff_canonicalText (e f : Event) :
    e.SameContent f ↔ e.canonicalText = f.canonicalText ∧ e.SameBreaks f := by
  constructor
  · intro h
    exact ⟨h.canonicalText_eq, by rw [h.category], by rw [h.source]⟩
  · rintro ⟨ht, hc, hs⟩
    -- the message has what is left of the line feeds of the whole text
    have hm : lineBreaks e.message = lineBreaks f.message := by
      have he := e.lineBreaks_canonicalText
      have hf := f.lineBreaks_canonicalText
      rw [ht] at he
      omega
    apply canonicalParts_eq_iff.mp
    apply canonicalLines_injective
    · rw [lineBreaks_canonicalParts, lineBreaks_canonicalParts, hc, hm, hs]
    · exact ht

/-- The hash tells two canonical texts apart as far as their digests do. -/
theorem hash_eq_iff (e f : Event) :
    e.identity.hash = f.identity.hash ↔
      Sha256.ofString e.canonicalText = Sha256.ofString f.canonicalText := by
  constructor
  · intro h
    exact base64_injective (String.ofList_injective h)
  · intro h
    unfold identity
    rw [h]

/-- A line feed may stand at the end of the message or at the start of the source. -/
theorem canonicalText_moveBreak (e : Event) (a b : String) :
    { e with message := a ++ "\n" ++ b }.canonicalText =
      { e with message := a, source := b ++ "\n" ++ e.source }.canonicalText := by
  apply String.toList_injective
  simp only [canonicalText_eq, canonicalParts, toList_canonicalLines_cons_cons,
    String.toList_append, List.append_assoc]
  simp [instant]

/-! ## Top theorem -/

/-- The canonical text determines everything but the index and the offset as soon as the line
feeds of the category and of the source are known; so does the hash, where SHA-256 does not
collide on the two texts. -/
theorem identity_separates (e f : Event) :
    (e.SameContent f ↔ e.canonicalText = f.canonicalText ∧ e.SameBreaks f) ∧
    ((Sha256.ofString e.canonicalText = Sha256.ofString f.canonicalText →
        e.canonicalText = f.canonicalText) →
      (e.SameContent f ↔ e.identity.hash = f.identity.hash ∧ e.SameBreaks f)) := by
  refine ⟨sameContent_iff_canonicalText e f, fun hsha => ?_⟩
  have hhash : e.identity.hash = f.identity.hash ↔ e.canonicalText = f.canonicalText := by
    rw [hash_eq_iff]
    exact ⟨hsha, fun h => by rw [h]⟩
  rw [hhash]
  exact sameContent_iff_canonicalText e f

def started : Event := { message := "started", source := "Spooler", index := 7 }

def stopped : Event := { message := "stopped", source := "Spooler", index := 8 }

/-- Two messages of one service, told apart by their hashes. -/
theorem identity_separates_messages :
    Sha256.ofString started.canonicalText ≠ Sha256.ofString stopped.canonicalText ∧
      (started.SameContent stopped ↔
        started.identity.hash = stopped.identity.hash ∧ started.SameBreaks stopped) := by
  have hne : Sha256.ofString started.canonicalText ≠ Sha256.ofString stopped.canonicalText := by
    decide +kernel
  exact ⟨hne, (identity_separates started stopped).2 fun h => absurd h hne⟩

/-- A line feed moved from the message to the source leaves the identity as it was. -/
theorem identity_eq_of_moved_break :
    let e : Event := { message := "a\nb", source := "c" }
    let f : Event := { message := "a", source := "b\nc" }
    e.canonicalText = f.canonicalText ∧ e.identity = f.identity ∧ ¬e.SameContent f := by
  have ht := canonicalText_moveBreak { source := "c" } "a" "b"
  refine ⟨ht, ?_, fun h => absurd h.message (by decide)⟩
  unfold identity
  rw [show ({ message := "a\nb", source := "c" } : Event).canonicalText = _ from ht]
  rfl

end Event
end LogWatch
