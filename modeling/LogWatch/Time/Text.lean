import LogWatch.Text.Reader
import LogWatch.Time.Instant

/-!
# Times as text

A time is written `YYYY-MM-DDThh:mm:ss`, then the fewest of 0, 3, 6 or 9 digits of the
second's fraction that are exact, then `Z` or the offset as `+hh:mm` or `-hh:mm`.  A year
outside 0 to 9999 has a sign and at least four digits; a leap second is second 60.

Three layouts are taken back: `relaxed` for events, with blanks between the parts; `strict`
for what is written, but with four-digit years only; and `legacy` for `YYYY-MM-DD hh:mm:ssZ`,
the layout of old records.
-/

namespace LogWatch.Time

open LogWatch.Text

/-! ## Writing -/

def yearText (year : Int) : List Char :=
  if 0 ≤ year ∧ year ≤ 9999 then paddedDigits 4 year.toNat
  else (if year < 0 then '-' else '+') :: paddedDigits 4 year.natAbs

def dateText (d : Date) : List Char :=
  yearText d.year ++ '-' :: paddedDigits 2 d.month ++ '-' :: paddedDigits 2 d.day

/-- `second` is the second of the day; `leap` adds one to the second of the minute. -/
def clockText (second : Nat) (leap : Bool) : List Char :=
  paddedDigits 2 (second / 3600) ++ ':' :: paddedDigits 2 (second / 60 % 60) ++
    ':' :: paddedDigits 2 (second % 60 + if leap then 1 else 0)

/-- The fraction of a second, of nanoseconds below 10^9. -/
def fractionText (nano : Nat) : List Char :=
  if nano = 0 then []
  else if nano % 1000000 = 0 then '.' :: paddedDigits 3 (nano / 1000000)
  else if nano % 1000 = 0 then '.' :: paddedDigits 6 (nano / 1000)
  else '.' :: paddedDigits 9 nano

def offsetText (offset : Int) : List Char :=
  if offset = 0 then ['Z']
  else
    (if offset < 0 then '-' else '+') ::
      (paddedDigits 2 (offset.natAbs / 60) ++ ':' :: paddedDigits 2 (offset.natAbs % 60))

namespace Timestamp

def text (t : Timestamp) : List Char :=
  let day := t.shownSecond / secondsPerDay
  let second := (t.shownSecond % secondsPerDay).toNat
  dateText (Date.ofDayNumber day) ++ 'T' :: clockText second t.instant.isLeap ++
    fractionText (t.instant.nano % nanosPerSecond) ++ offsetText t.offset

def toString (t : Timestamp) : String := String.ofList t.text

end Timestamp

/-- The one text of an instant, used in identities and in records. -/
def Instant.text (t : Instant) : List Char := (Timestamp.ofInstant t).text

def Instant.toString (t : Instant) : String := String.ofList t.text

/-! ## Reading -/

namespace Layout

open Reader

/-- A point and digits, as nanoseconds: digits past the ninth are dropped. -/
def fraction : Reader Nat := fun cs =>
  match cs with
  | '.' :: rest =>
    let run := rest.takeWhile Char.isDigit
    if run.isEmpty then none
    else some (natOfDigits (padEnd 9 '0' (run.take 9)), rest.drop run.length)
  | _ => some (0, cs)

/-- A year with a sign and any number of digits, or with one to four digits. -/
def year : Reader Int := do
  blanks
  match ← get with
  | '-' :: rest =>
    set rest
    return -(← wholeNumber)
  | '+' :: rest =>
    set rest
    return (← wholeNumber)
  | _ => return (← number 1 4)

/-- Blanks, then one digit or two. -/
def shortNumber : Reader Nat := do
  blanks
  number 1 2

/-- A plus sign, a hyphen or a minus sign: tells whether the offset is behind UTC. -/
def sign : Reader Bool := do
  let c ← one fun c => c == '+' || c == '-' || c == '\u2212'
  return c != '+'

/-- An offset in minutes: `Z`, or a sign, two digits, a separator and two digits up to 59. -/
def offset (separator : Reader Unit) : Reader Int := fun cs =>
  match cs with
  | 'Z' :: rest => some (0, rest)
  | 'z' :: rest => some (0, rest)
  | cs => offsetNumber.run cs
where
  offsetNumber : Reader Int := do
    let behind ← sign
    let hours ← number 2 2
    separator
    let minutes ← number 2 2
    guard (minutes ≤ 59)
    let total : Int := hours * 60 + minutes
    return if behind then -total else total

/-- `UTC` in any case. -/
def utc : Reader Unit := do
  let _ ← one fun c => c == 'U' || c == 'u'
  let _ ← one fun c => c == 'T' || c == 't'
  let _ ← one fun c => c == 'C' || c == 'c'

/-- Between the date and the time stands `T`, `t` or a space. -/
def dateEnd : Reader Unit := do
  let _ ← one fun c => c == 'T' || c == 't' || c == ' '

end Layout

/-- What a clock shows, as it was read. -/
structure Shown where
  date : Date
  hour : Nat
  minute : Nat
  second : Nat
  nano : Nat

namespace Shown

/-- The second since 1970 and the nanoseconds, if such a time exists.  Second 60 stands for a
leap second, in any minute. -/
def resolve? (s : Shown) : Option (Int × Nat) :=
  if s.date.Exists ∧ s.hour ≤ 23 ∧ s.minute ≤ 59 ∧ s.second ≤ 60 then
    let clock := s.hour * 3600 + s.minute * 60 + min s.second 59
    let nano := if s.second = 60 then s.nano + nanosPerSecond else s.nano
    let second := s.date.dayNumber * secondsPerDay + clock
    if firstSecond ≤ second ∧ second ≤ lastSecond then some (second, nano) else none
  else none

end Shown

open Reader Layout in
/-- The layout of an event's time: blanks may stand before every number and separator. -/
def relaxed : Reader (Shown × Int) := do
  let year ← year
  blanks
  exactly '-'
  let month ← shortNumber
  blanks
  exactly '-'
  let day ← shortNumber
  dateEnd
  let hour ← shortNumber
  blanks
  exactly ':'
  let minute ← shortNumber
  blanks
  exactly ':'
  let second ← shortNumber
  let nano ← fraction
  blanks
  let offset ← (do utc; return 0) <|> offset (skip fun c => c == ':' || isBlank c)
  blanks
  return (⟨⟨year, month, day⟩, hour, minute, second, nano⟩, offset)

open Reader Layout in
/-- The layout that is written, with a year of four digits. -/
def strict : Reader (Shown × Int) := do
  let year ← number 4 4
  exactly '-'
  let month ← number 2 2
  exactly '-'
  let day ← number 2 2
  dateEnd
  let hour ← number 2 2
  exactly ':'
  let minute ← number 2 2
  exactly ':'
  let second ← number 2 2
  let nano ← fraction
  let offset ← offset (exactly ':')
  return (⟨⟨year, month, day⟩, hour, minute, second, nano⟩, offset)

open Reader Layout in
/-- The layout of old records: UTC, whole seconds, blanks before the numbers only. -/
def legacy : Reader (Shown × Int) := do
  let year ← year
  exactly '-'
  let month ← shortNumber
  exactly '-'
  let day ← shortNumber
  let hour ← shortNumber
  exactly ':'
  let minute ← shortNumber
  exactly ':'
  let second ← shortNumber
  exactly 'Z'
  return (⟨⟨year, month, day⟩, hour, minute, second, 0⟩, 0)

def Timestamp.read? (layout : Reader (Shown × Int)) (cs : List Char) : Option Timestamp := do
  let (shown, offset) ← layout.whole cs
  let (second, nano) ← shown.resolve?
  ofShown? second nano offset

/-- The time of an event, from its text. -/
def Timestamp.readRelaxed? (s : String) : Option Timestamp := read? relaxed s.toList

/-- A time in the layout that is written. -/
def Timestamp.readStrict? (s : String) : Option Timestamp := read? strict s.toList

/-- The time of a record: as written, or in the layout of old records. -/
def Instant.readRecord? (s : String) : Option Instant :=
  match Timestamp.readStrict? s with
  | some t => some t.instant
  | none => (Timestamp.read? legacy s.toList).map (·.instant)

end LogWatch.Time
