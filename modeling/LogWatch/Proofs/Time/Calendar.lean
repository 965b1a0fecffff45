import LogWatch.Time.Calendar

/-!
# Day numbers and dates

Every day number is the number of the date that `Date.ofDayNumber` gives it, and that date
exists.  Every date that exists is the date of its day number.

    (Date.ofDayNumber n).dayNumber = n                       (Date.dayNumber_ofDayNumber)
    (Date.ofDayNumber n).Exists                              (Date.exists_ofDayNumber)
    d.Exists → Date.ofDayNumber d.dayNumber = d              (Date.ofDayNumber_dayNumber)
-/

namespace LogWatch.Time

def daysInYear (leap : Bool) : Nat := if leap then 366 else 365

theorem daysBeforeYear_succ (year : Int) :
    daysBeforeYear (year + 1) = daysBeforeYear year + daysInYear (isLeap year) := by
  have hl : isLeap year = true ↔ year % 4 = 0 ∧ (year % 100 ≠ 0 ∨ year % 400 = 0) := by
    simp [isLeap]
  unfold daysBeforeYear daysInYear
  split
  · next h => have := hl.1 h; omega
  · next h =>
    have h' : ¬(year % 4 = 0 ∧ (year % 100 ≠ 0 ∨ year % 400 = 0)) := fun c => h (hl.2 c)
    omega

/-- The mean length of a year is 146097/400 days, so the guess is at most one year off. -/
theorem yearOfDay_spec (n : Int) :
    daysBeforeYear (yearOfDay n) ≤ n ∧ n < daysBeforeYear (yearOfDay n + 1) := by
  unfold yearOfDay
  simp only
  split
  · next h =>
    refine ⟨?_, by simpa using h⟩
    unfold daysBeforeYear at *
    omega
  · next h =>
    split
    · next h2 =>
      refine ⟨h2, ?_⟩
      unfold daysBeforeYear at *
      omega
    · next h2 => exact ⟨by omega, by omega⟩

theorem daysBeforeYear_mono {a b : Int} (h : a ≤ b) : daysBeforeYear a ≤ daysBeforeYear b := by
  unfold daysBeforeYear
  omega

/-- The year of a day is the last that begins on or before it. -/
theorem le_yearOfDay {n year : Int} : year ≤ yearOfDay n ↔ daysBeforeYear year ≤ n := by
  obtain ⟨hle, hlt⟩ := yearOfDay_spec n
  constructor
  · intro h
    exact Int.le_trans (daysBeforeYear_mono h) hle
  · intro h
    rcases Int.lt_or_le (yearOfDay n) year with hyear | hyear
    · have := daysBeforeYear_mono (show yearOfDay n + 1 ≤ year from hyear)
      omega
    · exact hyear

theorem yearOfDay_eq {n year : Int} (hle : daysBeforeYear year ≤ n)
    (hlt : n < daysBeforeYear (year + 1)) : yearOfDay n = year := by
  have hleast := le_yearOfDay.mpr hle
  have hmost : ¬(year + 1 ≤ yearOfDay n) := fun h => by have := le_yearOfDay.mp h; omega
  omega

theorem daysBeforeMonth_year (leap : Bool) : daysBeforeMonth leap 13 = daysInYear leap := by
  cases leap <;> rfl

theorem daysInMonth_le (leap : Bool) (month : Nat) : daysInMonth leap month ≤ 31 := by
  unfold daysInMonth
  split <;> first | omega | (split <;> omega)

/-- Counting down from a month that begins too late, the month found holds the day. -/
theorem monthOfDay_spec (leap : Bool) (n month : Nat) (h : n < daysBeforeMonth leap (month + 1)) :
    1 ≤ monthOfDay leap n month ∧ monthOfDay leap n month ≤ max 1 month ∧
      daysBeforeMonth leap (monthOfDay leap n month) ≤ n ∧
      n < daysBeforeMonth leap (monthOfDay leap n month + 1) := by
  induction month with
  | zero => cases leap <;> simp [daysBeforeMonth, daysInMonth] at h
  | succ month ih =>
    unfold monthOfDay
    split
    · next hm => exact ⟨by omega, by omega, hm, h⟩
    · next hm =>
      obtain ⟨h1, h2, h3, h4⟩ := ih (by omega)
      exact ⟨h1, by omega, h3, h4⟩

theorem daysBeforeMonth_mono (leap : Bool) {a b : Nat} (h : a ≤ b) :
    daysBeforeMonth leap a ≤ daysBeforeMonth leap b := by
  induction h with
  | refl => exact Nat.le_refl _
  | step _ ih => exact Nat.le_trans ih (Nat.le_add_right _ _)

theorem monthOfDay_eq {leap : Bool} {n month : Nat} (hm : 1 ≤ month ∧ month ≤ 12)
    (hle : daysBeforeMonth leap month ≤ n) (hlt : n < daysBeforeMonth leap (month + 1)) :
    monthOfDay leap n 12 = month := by
  have hyear := daysBeforeMonth_mono leap (show month + 1 ≤ 12 + 1 by omega)
  obtain ⟨-, -, hfound, hnext⟩ := monthOfDay_spec leap n 12 (by omega)
  rcases Nat.lt_trichotomy (monthOfDay leap n 12) month with h | h | h
  · have := daysBeforeMonth_mono leap (show monthOfDay leap n 12 + 1 ≤ month from h)
    omega
  · exact h
  · have := daysBeforeMonth_mono leap (show month + 1 ≤ monthOfDay leap n 12 from h)
    omega

theorem month_of_daysInMonth_pos {leap : Bool} {month : Nat} (h : 0 < daysInMonth leap month) :
    1 ≤ month ∧ month ≤ 12 := by
  unfold daysInMonth at h
  split at h <;> omega

namespace Date

/-- Where a day falls in its year. -/
theorem ofDayNumber_spec (n : Int) :
    ∃ rest : Nat, n + daysBeforeYear 1970 = daysBeforeYear (ofDayNumber n).year + rest ∧
      1 ≤ (ofDayNumber n).month ∧ (ofDayNumber n).month ≤ 12 ∧
      daysBeforeMonth (isLeap (ofDayNumber n).year) (ofDayNumber n).month ≤ rest ∧
      rest < daysBeforeMonth (isLeap (ofDayNumber n).year) ((ofDayNumber n).month + 1) ∧
      (ofDayNumber n).day =
        rest - daysBeforeMonth (isLeap (ofDayNumber n).year) (ofDayNumber n).month + 1 := by
  obtain ⟨h1, h2⟩ := yearOfDay_spec (n + daysBeforeYear 1970)
  rw [daysBeforeYear_succ] at h2
  obtain ⟨m1, m2, m3, m4⟩ := monthOfDay_spec (isLeap (yearOfDay (n + daysBeforeYear 1970)))
    (n + daysBeforeYear 1970 - daysBeforeYear (yearOfDay (n + daysBeforeYear 1970))).toNat 12
    (by rw [daysBeforeMonth_year]; omega)
  exact ⟨_, by simp only [ofDayNumber]; omega, m1, Nat.le_trans m2 (by decide), m3, m4, rfl⟩

theorem dayNumber_ofDayNumber (n : Int) : (ofDayNumber n).dayNumber = n := by
  obtain ⟨rest, hn, -, -, hle, -, hday⟩ := ofDayNumber_spec n
  unfold dayNumber
  rw [hday]
  omega

theorem exists_ofDayNumber (n : Int) : (ofDayNumber n).Exists := by
  obtain ⟨rest, -, -, -, hle, hlt, hday⟩ := ofDayNumber_spec n
  rw [daysBeforeMonth] at hlt
  exact ⟨by omega, by omega⟩

/-- A date that exists is the date of its day number. -/
theorem ofDayNumber_dayNumber {d : Date} (h : d.Exists) : ofDayNumber d.dayNumber = d := by
  obtain ⟨h1, hlast⟩ := h
  have hmonth := month_of_daysInMonth_pos (Nat.lt_of_lt_of_le h1 hlast)
  have hnext : daysBeforeMonth (isLeap d.year) (d.month + 1) =
      daysBeforeMonth (isLeap d.year) d.month + daysInMonth (isLeap d.year) d.month := rfl
  have hyear := daysBeforeMonth_mono (isLeap d.year) (show d.month + 1 ≤ 13 by omega)
  rw [daysBeforeMonth_year] at hyear
  have hn : d.dayNumber + daysBeforeYear 1970 =
      daysBeforeYear d.year + daysBeforeMonth (isLeap d.year) d.month + d.day - 1 := by
    unfold dayNumber
    omega
  have hfound : yearOfDay (d.dayNumber + daysBeforeYear 1970) = d.year :=
    yearOfDay_eq (by omega) (by rw [daysBeforeYear_succ]; omega)
  have hrest : (d.dayNumber + daysBeforeYear 1970 - daysBeforeYear d.year).toNat =
      daysBeforeMonth (isLeap d.year) d.month + (d.day - 1) := by omega
  have hmonthFound : monthOfDay (isLeap d.year)
      (daysBeforeMonth (isLeap d.year) d.month + (d.day - 1)) 12 = d.month :=
    monthOfDay_eq hmonth (by omega) (by omega)
  have hday : daysBeforeMonth (isLeap d.year) d.month + (d.day - 1) -
      daysBeforeMonth (isLeap d.year) d.month + 1 = d.day := by omega
  simp only [ofDayNumber, hfound, hrest, hmonthFound, hday]

theorem ofDayNumber_month_lt (n : Int) : (ofDayNumber n).month < 100 := by
  obtain ⟨rest, -, -, hm, -⟩ := ofDayNumber_spec n
  omega

theorem ofDayNumber_day_lt (n : Int) : (ofDayNumber n).day < 100 := by
  have := daysInMonth_le (isLeap (ofDayNumber n).year) (ofDayNumber n).month
  have := (exists_ofDayNumber n).2
  omega

end Date
end LogWatch.Time
