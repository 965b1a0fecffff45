/-!
# The calendar

Dates of the proleptic Gregorian calendar, for years of either sign.  The day number of
a date counts from 1970-01-01; `Date.ofDayNumber` is its inverse on dates that exist.
-/

namespace LogWatch.Time

structure Date where
  year : Int
  month : Nat
  day : Nat
  deriving DecidableEq, Repr

/-! ## Algorithm -/

/-- Every fourth year, save the centuries that 400 does not divide. -/
def isLeap (year : Int) : Bool := year % 4 == 0 && (year % 100 != 0 || year % 400 == 0)

/-- Days from the start of year 0 to the start of a year. -/
def daysBeforeYear (year : Int) : Int :=
  365 * year + (year + 3) / 4 - (year + 99) / 100 + (year + 399) / 400

def daysInMonth (leap : Bool) : Nat → Nat
  | 1 => 31
  | 2 => if leap then 29 else 28
  | 3 => 31
  | 4 => 30
  | 5 => 31
  | 6 => 30
  | 7 => 31
  | 8 => 31
  | 9 => 30
  | 10 => 31
  | 11 => 30
  | 12 => 31
  | _ => 0

/-- Days of a year before its month with this number. -/
def daysBeforeMonth (leap : Bool) : Nat → Nat
  | 0 => 0
  | month + 1 => daysBeforeMonth leap month + daysInMonth leap month

namespace Date

/-- The date exists: its month has that day. -/
def Exists (d : Date) : Prop := 1 ≤ d.day ∧ d.day ≤ daysInMonth (isLeap d.year) d.month

instance (d : Date) : Decidable d.Exists := inferInstanceAs (Decidable (_ ∧ _))

/-- Days since 1970-01-01. -/
def dayNumber (d : Date) : Int :=
  daysBeforeYear d.year - daysBeforeYear 1970 + daysBeforeMonth (isLeap d.year) d.month + d.day - 1

end Date

/-- The year in which a day falls, the day counted from the start of year 0.  The quotient
by the mean length of a year is at most one year off. -/
def yearOfDay (n : Int) : Int :=
  let guess := n * 400 / 146097
  if n < daysBeforeYear guess then guess - 1
  else if daysBeforeYear (guess + 1) ≤ n then guess + 1
  else guess

/-- The month in which a day of a year falls, the day counted from zero: the last month,
counting down from `month`, that begins on or before it. -/
def monthOfDay (leap : Bool) (n : Nat) : Nat → Nat
  | 0 => 1
  | month + 1 =>
    if daysBeforeMonth leap (month + 1) ≤ n then month + 1 else monthOfDay leap n month

/-- The date of a day number. -/
def Date.ofDayNumber (n : Int) : Date :=
  let n := n + daysBeforeYear 1970
  let year := yearOfDay n
  let rest := (n - daysBeforeYear year).toNat
  let month := monthOfDay (isLeap year) rest 12
  ⟨year, month, rest - daysBeforeMonth (isLeap year) month + 1⟩

end LogWatch.Time
