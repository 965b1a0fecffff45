import LogWatch.Proofs.Text.Lines
import LogWatch.Proofs.Time.Text

/-!
# The one text of an instant

The instants are exactly what a clock of UTC can show in the years -262143 to 262142: any
existing date, any time of the day with any nanosecond, and a second 60 at the end of any
minute.  No two of them have the same text, and the text of each is a line of its own that
trimming leaves as it is.

    shown.Representable ↔ ∃ t : Instant, t.face = shown           (Shown.representable_iff)
    s.toString = t.toString ↔ s = t                       (Instant.rendering_unambiguous)
-/

namespace LogWatch.Time

open LogWatch.Text

/-- What a clock of UTC can show at some instant. -/
structure Shown.Representable (shown : Shown) : Prop where
  exists_date : shown.date.Exists
  year_bounds : -262143 ≤ shown.date.year ∧ shown.date.year ≤ 262142
  hour_le : shown.hour ≤ 23
  minute_le : shown.minute ≤ 59
  /-- Any minute may end in a leap second. -/
  second_le : shown.second ≤ 60
  nano_lt : shown.nano < nanosPerSecond

/-- What a clock of UTC shows at the instant. -/
def Instant.face (t : Instant) : Shown := (Timestamp.ofInstant t).face

/-! ## The range of years -/

theorem Date.le_year_ofDayNumber (year n : Int) :
    year ≤ (ofDayNumber n).year ↔ daysBeforeYear year - daysBeforeYear 1970 ≤ n := by
  have hyear : (ofDayNumber n).year = yearOfDay (n + daysBeforeYear 1970) := rfl
  rw [hyear, le_yearOfDay]
  omega

/-- A second is in the range of instants if its year is. -/
theorem inRange_iff_year {second : Int} :
    (firstSecond ≤ second ∧ second ≤ lastSecond) ↔
      -262143 ≤ (Date.ofDayNumber (second / secondsPerDay)).year ∧
        (Date.ofDayNumber (second / secondsPerDay)).year ≤ 262142 := by
  have hfirst : daysBeforeYear (-262143) - daysBeforeYear 1970 = -96465292 := rfl
  have hend : daysBeforeYear 262143 - daysBeforeYear 1970 = 95026237 := rfl
  have hleast := Date.le_year_ofDayNumber (-262143) (second / secondsPerDay)
  have hnext := Date.le_year_ofDayNumber 262143 (second / secondsPerDay)
  rw [hfirst] at hleast
  rw [hend] at hnext
  unfold secondsPerDay at *
  unfold firstSecond lastSecond
  omega

/-! ## What a clock shows -/

theorem Instant.representable_face (t : Instant) : t.face.Representable := by
  obtain ⟨-, -, hhour, hminute, hsecond⟩ := (Timestamp.ofInstant t).face_bounds
  refine ⟨Date.exists_ofDayNumber _, ?_, hhour, hminute, hsecond, Nat.mod_lt _ (by decide)⟩
  rw [face, t.year_face]
  exact inRange_iff_year.mp t.inRange

/-- A day and a second of it are read off their sum again. -/
theorem day_and_clock (day : Int) {clock : Nat} (h : clock < 86400) :
    (day * secondsPerDay + clock) / secondsPerDay = day ∧
      ((day * secondsPerDay + clock) % secondsPerDay).toNat = clock := by
  unfold secondsPerDay
  omega

/-- Some instant shows the clock that way: second 60 is a leap second of the minute. -/
theorem Shown.Representable.exists_instant {shown : Shown} (h : shown.Representable) :
    ∃ t : Instant, t.face = shown := by
  obtain ⟨date, hour, minute, second, nano⟩ := shown
  obtain ⟨hdate, hyear, hhour, hminute, hsecond, hnano⟩ := h
  dsimp only at hdate hyear hhour hminute hsecond hnano
  unfold nanosPerSecond at hnano
  obtain ⟨hday, hclock⟩ := day_and_clock date.dayNumber
    (show hour * 3600 + minute * 60 + min second 59 < 86400 by omega)
  have hsame := Date.ofDayNumber_dayNumber hdate
  have hrange := inRange_iff_year.mpr (show _ ∧ _ by rw [hday, hsame]; exact hyear)
  let t : Instant :=
    { second := date.dayNumber * secondsPerDay + (hour * 3600 + minute * 60 + min second 59 : Nat)
      nano := if second = 60 then nano + nanosPerSecond else nano
      inRange := hrange
      nano_lt := by unfold nanosPerSecond; split <;> omega
      leap := by unfold nanosPerSecond secondsPerDay; split <;> omega }
  have hleap : t.isLeap = decide (second = 60) := by
    simp only [Instant.isLeap, t, nanosPerSecond]
    split <;> simp <;> omega
  have hfraction : t.nano % nanosPerSecond = nano := by
    simp only [t, nanosPerSecond]
    split <;> omega
  refine ⟨t, ?_⟩
  have hshown : (Timestamp.ofInstant t).shownSecond = t.second := by
    simp [Timestamp.shownSecond, Timestamp.ofInstant]
  have hinstant : (Timestamp.ofInstant t).instant = t := rfl
  simp only [Instant.face, Timestamp.face, hshown, hinstant, hleap, hfraction, t, hday, hsame,
    hclock, Shown.mk.injEq, true_and, and_true, decide_eq_true_eq]
  split <;> omega

/-- The instants are what a clock of UTC can show in the range of years. -/
theorem Shown.representable_iff (shown : Shown) :
    shown.Representable ↔ ∃ t : Instant, t.face = shown := by
  constructor
  · exact fun h => h.exists_instant
  · rintro ⟨t, rfl⟩
    exact t.representable_face

/-! ## The text -/

namespace Instant

theorem noBlanks_toString (t : Instant) : NoBlanks t.toString.toList := by
  rw [toString, String.toList_ofList]
  exact t.noBlanks_text

theorem linesOf_toString (t : Instant) : linesOf t.toString = [t.toString] := by
  have hline := lines_of_onOneLine t.noBlanks_text.onOneLine t.text_ne_nil
  simp only [linesOf, toString, String.toList_ofList, hline, List.map_cons, List.map_nil]

theorem trimmed_toString (t : Instant) : trimmed t.toString = t.toString := by
  rw [trimmed, trim_eq_self t.noBlanks_toString, String.ofList_toList]

/-- Every time of the range of years, leap seconds included, is that of an instant; two instants
have equal texts only if they are equal; and a text is one line, with no blank in it or around
it. -/
theorem rendering_unambiguous :
    (∀ shown : Shown, shown.Representable ↔ ∃ t : Instant, t.face = shown) ∧
    (∀ s t : Instant, s.toString = t.toString ↔ s = t) ∧
    ∀ t : Instant, NoBlanks t.toString.toList ∧ linesOf t.toString = [t.toString] ∧
      trimmed t.toString = t.toString :=
  ⟨Shown.representable_iff,
    fun _ _ => ⟨toString_injective, fun h => h ▸ rfl⟩,
    fun t => ⟨t.noBlanks_toString, t.linesOf_toString, t.trimmed_toString⟩⟩

/-- The leap second that ends the range has a text of its own. -/
example : toString ⟨lastSecond, 1000000000, by decide, by decide, by decide⟩ =
    "+262142-12-31T23:59:60Z" := by decide +kernel

end Instant

end LogWatch.Time
