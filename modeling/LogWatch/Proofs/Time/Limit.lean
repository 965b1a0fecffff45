import LogWatch.Proofs.Text.Decimal
import LogWatch.Proofs.Text.Lines
import LogWatch.Time.Limit

/-!
# What the text of a time limit shows

The text of a time limit shows its sign and its length in units of 100 ns, and nothing more: what
lies below 100 ns is not written.

    d.text = e.text ↔ d.SameTicks e                                             (text_eq_iff)
-/

namespace LogWatch.Time.TimeLimit

open LogWatch.Text

/-- The limits differ, if at all, in what lies below 100 ns. -/
structure SameTicks (d e : TimeLimit) : Prop where
  sign : d.nanos < 0 ↔ e.nanos < 0
  ticks : d.nanos.natAbs / 100 = e.nanos.natAbs / 100

/-- The limit is a whole number of units of 100 ns. -/
def HasWholeTicks (d : TimeLimit) : Prop := d.nanos % 100 = 0

instance (d : TimeLimit) : Decidable d.HasWholeTicks := inferInstanceAs (Decidable (_ = _))

theorem sameTicks_iff_eq {d e : TimeLimit} (hd : d.HasWholeTicks) (he : e.HasWholeTicks) :
    d.SameTicks e ↔ d = e := by
  constructor
  · rintro ⟨hs, ht⟩
    have hnanos : d.nanos = e.nanos := by
      unfold HasWholeTicks at hd he
      omega
    cases d
    cases e
    cases hnanos
    rfl
  · rintro rfl
    exact ⟨Iff.rfl, rfl⟩

/-! ## The parts of the text -/

/-- What stands before the first colon, without the sign. -/
def hoursText (days hours : Nat) : List Char := daysText days ++ paddedDigits 2 hours

/-- What stands after the last colon. -/
def secondsText (seconds ticks : Nat) : List Char := paddedDigits 2 seconds ++ ticksText ticks

/-- A time limit without its sign. -/
def unsignedText (seconds ticks : Nat) : List Char :=
  hoursText (seconds / 86400) (seconds % 86400 / 3600) ++ ':' ::
    (paddedDigits 2 (seconds % 3600 / 60) ++ ':' :: secondsText (seconds % 60) ticks)

theorem text_eq (d : TimeLimit) :
    d.text = (if d.nanos < 0 then ['-'] else []) ++
      unsignedText (d.nanos.natAbs / nanosPerSecond) (d.nanos.natAbs % nanosPerSecond / 100) := by
  unfold text unsignedText hoursText secondsText
  simp only [List.append_assoc, List.cons_append]

theorem not_mem_hoursText {c : Char} (hd : c.isDigit = false) (hp : c ≠ '.') (days hours : Nat) :
    c ∉ hoursText days hours := by
  have := not_mem_digits hd days
  have := not_mem_paddedDigits hd 2 hours
  unfold hoursText daysText
  split <;> simp_all

theorem not_mem_secondsText {c : Char} (hd : c.isDigit = false) (hp : c ≠ '.')
    (seconds ticks : Nat) : c ∉ secondsText seconds ticks := by
  have := not_mem_paddedDigits hd 2 seconds
  have := not_mem_paddedDigits hd 7 ticks
  unfold secondsText ticksText
  split <;> simp_all

/-- Days are told by the point after them. -/
theorem hoursText_injective {days hours days' hours' : Nat}
    (h : hoursText days hours = hoursText days' hours') : days = days' ∧ hours = hours' := by
  have point (n : Nat) : '.' ∉ digits n := not_mem_digits rfl n
  have lone (n : Nat) : '.' ∉ paddedDigits 2 n := not_mem_paddedDigits rfl 2 n
  unfold hoursText daysText at h
  by_cases h0 : days = 0 <;> by_cases h0' : days' = 0
  · rw [if_pos h0, if_pos h0', List.nil_append, List.nil_append] at h
    exact ⟨h0.trans h0'.symm, paddedDigits_injective h⟩
  · rw [if_pos h0, if_neg h0', List.nil_append] at h
    exact absurd (by simp [h]) (lone hours)
  · rw [if_neg h0, if_pos h0', List.nil_append] at h
    exact absurd (by simp [← h]) (lone hours')
  · rw [if_neg h0, if_neg h0', List.append_assoc, List.append_assoc, List.singleton_append,
      List.singleton_append] at h
    obtain ⟨hdays, hhours⟩ := append_cons_inj_of_not_mem (point days) (point days') h
    exact ⟨digits_injective hdays, paddedDigits_injective hhours⟩

/-- A fraction is told by the point before it. -/
theorem secondsText_injective {seconds ticks seconds' ticks' : Nat}
    (h : secondsText seconds ticks = secondsText seconds' ticks') :
    seconds = seconds' ∧ ticks = ticks' := by
  have lone (n : Nat) : '.' ∉ paddedDigits 2 n := not_mem_paddedDigits rfl 2 n
  unfold secondsText ticksText at h
  by_cases h0 : ticks = 0 <;> by_cases h0' : ticks' = 0
  · rw [if_pos h0, if_pos h0', List.append_nil, List.append_nil] at h
    exact ⟨paddedDigits_injective h, h0.trans h0'.symm⟩
  · rw [if_pos h0, if_neg h0', List.append_nil] at h
    exact absurd (by simp [h]) (lone seconds)
  · rw [if_neg h0, if_pos h0', List.append_nil] at h
    exact absurd (by simp [← h]) (lone seconds')
  · rw [if_neg h0, if_neg h0'] at h
    obtain ⟨hseconds, hticks⟩ := append_cons_inj_of_not_mem (lone seconds) (lone seconds') h
    exact ⟨paddedDigits_injective hseconds, paddedDigits_injective hticks⟩

theorem unsignedText_injective {seconds ticks seconds' ticks' : Nat}
    (h : unsignedText seconds ticks = unsignedText seconds' ticks') :
    seconds = seconds' ∧ ticks = ticks' := by
  have colon (days hours : Nat) : ':' ∉ hoursText days hours :=
    not_mem_hoursText rfl (by decide) days hours
  have colon' (n : Nat) : ':' ∉ paddedDigits 2 n := not_mem_paddedDigits rfl 2 n
  unfold unsignedText at h
  obtain ⟨hhours, h⟩ := append_cons_inj_of_not_mem (colon _ _) (colon _ _) h
  obtain ⟨hminutes, hseconds⟩ := append_cons_inj_of_not_mem (colon' _) (colon' _) h
  obtain ⟨h1, h2⟩ := hoursText_injective hhours
  have h3 := paddedDigits_injective hminutes
  obtain ⟨h4, h5⟩ := secondsText_injective hseconds
  exact ⟨by omega, h5⟩

theorem hyphen_not_mem_unsignedText (seconds ticks : Nat) : '-' ∉ unsignedText seconds ticks := by
  have hours := not_mem_hoursText (c := '-') rfl (by decide)
  have minutes := not_mem_paddedDigits (c := '-') rfl 2
  have secs := not_mem_secondsText (c := '-') rfl (by decide)
  unfold unsignedText
  simp [hours, minutes, secs]

theorem hyphen_mem_text_iff (d : TimeLimit) : '-' ∈ d.text ↔ d.nanos < 0 := by
  have hrest := hyphen_not_mem_unsignedText
  rw [text_eq]
  by_cases hd : d.nanos < 0 <;> simp [hd, hrest]

theorem text_eq_iff (d e : TimeLimit) : d.text = e.text ↔ d.SameTicks e := by
  have hn : nanosPerSecond = 1000000000 := rfl
  constructor
  · intro h
    have hsign : d.nanos < 0 ↔ e.nanos < 0 := by
      rw [← hyphen_mem_text_iff, h, hyphen_mem_text_iff]
    rw [text_eq, text_eq] at h
    simp only [hsign] at h
    obtain ⟨hs, ht⟩ := unsignedText_injective (List.append_cancel_left h)
    rw [hn] at hs ht
    exact ⟨hsign, by omega⟩
  · rintro ⟨hs, ht⟩
    have hsec : d.nanos.natAbs / nanosPerSecond = e.nanos.natAbs / nanosPerSecond := by
      rw [hn]
      omega
    have htick : d.nanos.natAbs % nanosPerSecond / 100 = e.nanos.natAbs % nanosPerSecond / 100 := by
      rw [hn]
      omega
    rw [text_eq, text_eq, hsec, htick]
    simp only [hs]

theorem toString_eq_iff (d e : TimeLimit) : d.toString = e.toString ↔ d.SameTicks e := by
  rw [← text_eq_iff]
  exact String.ofList_inj

/-- Signs, digits, points and colons. -/
theorem not_mem_text {c : Char} (hd : c.isDigit = false) (hp : c ≠ '.') (hc : c ≠ ':')
    (hm : c ≠ '-') (d : TimeLimit) : c ∉ d.text := by
  have hours := not_mem_hoursText hd hp
  have minutes := not_mem_paddedDigits hd 2
  have secs := not_mem_secondsText hd hp
  rw [text_eq]
  unfold unsignedText
  split <;> simp [hours, minutes, secs, hc, hm]

end LogWatch.Time.TimeLimit
