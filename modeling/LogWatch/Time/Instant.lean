import LogWatch.Time.Calendar

/-!
# Instants and timestamps

An instant is a point of UTC with nanoseconds, from the first second of year -262143 to
the last of year 262142.  A leap second is kept as second 59 of its minute with 10^9 more
nanoseconds: it comes after the rest of that second and before the next one.  A timestamp is
an instant together with the offset, in minutes, of the clock that showed it.
-/

namespace LogWatch.Time

/-- The first second of year -262143, counted from 1970. -/
def firstSecond : Int := -8334601228800

/-- The last second of year 262142, counted from 1970. -/
def lastSecond : Int := 8210266876799

def nanosPerSecond : Nat := 1000000000

def secondsPerDay : Int := 86400

/-- A point of UTC: seconds since 1970-01-01T00:00:00Z and nanoseconds of the second. -/
structure Instant where
  second : Int
  nano : Nat
  inRange : firstSecond ≤ second ∧ second ≤ lastSecond
  nano_lt : nano < 2 * nanosPerSecond
  /-- Only the last second of a minute can be a leap second. -/
  leap : nanosPerSecond ≤ nano → second % 60 = 59
  deriving DecidableEq

namespace Instant

/-- The instant, if these numbers are one. -/
def ofSecond? (second : Int) (nano : Nat) : Option Instant :=
  if h : (firstSecond ≤ second ∧ second ≤ lastSecond) ∧ nano < 2 * nanosPerSecond ∧
      (nanosPerSecond ≤ nano → second % 60 = 59) then
    some ⟨second, nano, h.1, h.2.1, h.2.2⟩
  else none

/-- 1970-01-01T00:00:00Z. -/
def epoch : Instant := ⟨0, 0, by decide, by decide, by decide⟩

/-- The first instant there is. -/
def first : Instant := ⟨firstSecond, 0, by decide, by decide, by decide⟩

/-- The last instant that is no leap second. -/
def last : Instant := ⟨lastSecond, 999999999, by decide, by decide, by decide⟩

/-- A leap second. -/
def isLeap (t : Instant) : Bool := nanosPerSecond ≤ t.nano

/-- By second, then by nanosecond. -/
def Before (s t : Instant) : Prop := s.second < t.second ∨ s.second = t.second ∧ s.nano < t.nano

instance : LT Instant := ⟨Before⟩

instance : LE Instant := ⟨fun s t => ¬ t < s⟩

instance (s t : Instant) : Decidable (s < t) := inferInstanceAs (Decidable (_ ∨ _))

instance (s t : Instant) : Decidable (s ≤ t) := inferInstanceAs (Decidable (¬ _))

end Instant

/-- An instant as a clock shows it that runs `offset` minutes ahead of UTC. -/
structure Timestamp where
  instant : Instant
  offset : Int
  /-- Clocks differ from UTC by less than a day. -/
  offset_lt : offset.natAbs < 1440
  /-- The time that the clock shows is in the range of years too. -/
  shown : firstSecond ≤ instant.second + offset * 60 ∧ instant.second + offset * 60 ≤ lastSecond
  deriving DecidableEq

namespace Timestamp

/-- The timestamp whose clock shows `second` and `nano`, if there is one. -/
def ofShown? (second : Int) (nano : Nat) (offset : Int) : Option Timestamp :=
  match Instant.ofSecond? (second - offset * 60) nano with
  | none => none
  | some t =>
    if h : offset.natAbs < 1440 ∧
        (firstSecond ≤ t.second + offset * 60 ∧ t.second + offset * 60 ≤ lastSecond) then
      some ⟨t, offset, h.1, h.2⟩
    else none

/-- An instant as a clock of UTC shows it. -/
def ofInstant (t : Instant) : Timestamp :=
  ⟨t, 0, by decide, by simpa using t.inRange⟩

/-- The second that the clock shows, counted from 1970-01-01T00:00:00 of the clock. -/
def shownSecond (t : Timestamp) : Int := t.instant.second + t.offset * 60

end Timestamp

/-! ## Lemmas -/

namespace Instant

theorem ofSecond?_eq (t : Instant) : ofSecond? t.second t.nano = some t := by
  rw [ofSecond?, dif_pos ⟨t.inRange, t.nano_lt, t.leap⟩]

theorem lt_iff {s t : Instant} :
    s < t ↔ s.second < t.second ∨ s.second = t.second ∧ s.nano < t.nano := Iff.rfl

theorem le_iff {s t : Instant} :
    s ≤ t ↔ s.second < t.second ∨ s.second = t.second ∧ s.nano ≤ t.nano := by
  show ¬ t < s ↔ _
  rw [lt_iff]
  omega

end Instant

theorem Timestamp.ofShown?_eq (t : Timestamp) :
    ofShown? t.shownSecond t.instant.nano t.offset = some t := by
  have e : t.shownSecond - t.offset * 60 = t.instant.second := by
    rw [shownSecond]
    omega
  rw [ofShown?, e, Instant.ofSecond?_eq]
  exact dif_pos ⟨t.offset_lt, t.shown⟩

end LogWatch.Time
