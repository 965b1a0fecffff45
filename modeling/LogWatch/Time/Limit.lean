import LogWatch.Text.Blank
import LogWatch.Text.Decimal
import LogWatch.Text.Range
import LogWatch.Time.Instant

/-!
# Time limits

A time limit is a span of either sign, in nanoseconds, of at most 2^63 - 1 milliseconds.
It is written `[-][d.]hh:mm:ss[.fffffff]`, in units of 100 ns, and read from that layout
with the seconds or the fraction left out, or from a number of days.
-/

namespace LogWatch.Time

open LogWatch.Text

/-- The longest time limit, in nanoseconds. -/
def longestLimit : Nat := 9223372036854775807 * 1000000

structure TimeLimit where
  nanos : Int
  inRange : nanos.natAbs ≤ longestLimit
  deriving DecidableEq

namespace TimeLimit

def ofNanos? (n : Int) : Option TimeLimit :=
  if h : n.natAbs ≤ longestLimit then some ⟨n, h⟩ else none

def hour : TimeLimit := ⟨3600 * 1000000000, by decide⟩

/-- Whole seconds, toward zero. -/
def seconds (d : TimeLimit) : Int := d.nanos.tdiv nanosPerSecond

/-- What is left beside the whole seconds, with the sign of the limit. -/
def subsecond (d : TimeLimit) : Int := d.nanos.tmod nanosPerSecond

def neg (d : TimeLimit) : TimeLimit := ⟨-d.nanos, by simpa using d.inRange⟩

/-! ## Writing -/

/-- The days, unless there are none. -/
def daysText (days : Nat) : List Char := if days = 0 then [] else digits days ++ ['.']

/-- The fraction in units of 100 ns, unless it is zero. -/
def ticksText (ticks : Nat) : List Char := if ticks = 0 then [] else '.' :: paddedDigits 7 ticks

def text (d : TimeLimit) : List Char :=
  let seconds := d.nanos.natAbs / nanosPerSecond
  let ticks := d.nanos.natAbs % nanosPerSecond / 100
  (if d.nanos < 0 then ['-'] else []) ++ daysText (seconds / 86400) ++
    paddedDigits 2 (seconds % 86400 / 3600) ++ ':' :: paddedDigits 2 (seconds % 3600 / 60) ++
    ':' :: paddedDigits 2 (seconds % 60) ++ ticksText ticks

def toString (d : TimeLimit) : String := String.ofList d.text

/-! ## Reading -/

/-- What stands before and after the first `c`, if there is one. -/
def splitAt? (c : Char) (cs : List Char) : Option (List Char × List Char) :=
  match cs.dropWhile (· != c) with
  | [] => none
  | _ :: after => some (cs.takeWhile (· != c), after)

/-- A number of 64 bits with an optional sign. -/
def part? (cs : List Char) : Option Int64 := (readInt? cs).bind int64?

/-- The fraction of a second in nanoseconds: at most nine digits, or none. -/
def fraction? (cs : List Char) : Option Nat :=
  if cs.length ≤ 9 ∧ cs.all Char.isDigit then some (natOfDigits (padEnd 9 '0' cs)) else none

/-- Seconds with an optional fraction: whole seconds and nanoseconds. -/
def secondsPart? (cs : List Char) : Option (Int64 × Nat) := do
  let (whole, fraction) := (splitAt? '.' cs).getD (cs, [])
  let whole ← part? whole
  let nanos ← fraction? fraction
  guard (whole ≤ 59)
  return (whole, nanos)

/-- Hours, minutes and perhaps seconds, colons between them: whole seconds and nanoseconds.  The
parts have no lower bound, and their sum is one of 64 bits: where it leaves them it wraps, unless
the program is built to stop there. -/
def clock? (cs : List Char) : Option (Int64 × Nat) := do
  let (hours, rest) ← splitAt? ':' cs
  let (minutes, seconds) := (splitAt? ':' rest).getD (rest, ['0'])
  let hours ← part? hours
  let minutes ← part? minutes
  let (seconds, nanos) ← secondsPart? seconds
  guard (hours ≤ 23 ∧ minutes ≤ 59)
  return (hours * 3600 + minutes * 60 + seconds, nanos)

/-- Days and the clock behind them.  A point before the first colon ends the days. -/
def daysPart? (cs : List Char) : Option (Int64 × List Char) :=
  match splitAt? '.' cs with
  | some (days, clock) => if days.contains ':' then some (0, cs) else (part? days).map (·, clock)
  | none => some (0, cs)

/-- So many days and seconds.  The seconds of the days fit 64 bits on their own, and so does the
sum. -/
def whole? (days seconds : Int64) : Option TimeLimit := do
  let daySeconds ← int64? (days.toInt * 86400)
  let total ← int64? (daySeconds.toInt + seconds.toInt)
  ofNanos? (total.toInt * nanosPerSecond)

/-- So many days and what a clock tells. -/
def daysAndClock? (days : Int64) (clock : List Char) : Option (TimeLimit × Nat) := do
  let (seconds, nanos) ← clock? clock
  return (← whole? days seconds, nanos)

/-- The limit in whole seconds, and the nanoseconds behind them. -/
def parts? (cs : List Char) : Option (TimeLimit × Nat) :=
  if cs.contains ':' then do
    let (days, clock) ← daysPart? cs
    daysAndClock? days clock
  else do
    let days ← part? cs
    return (← ofNanos? (days.toInt * 86400 * nanosPerSecond), 0)

/-- Why a text is not read. -/
inductive Fault
  /-- It is no time limit, or one whose whole seconds are out of range. -/
  | invalid
  /-- The whole seconds are in range, and the nanoseconds behind them lead out of it.  The program
  does not refuse such a text, it ends there. -/
  | overflow
  deriving DecidableEq

/-- A limit and some nanoseconds more. -/
def plus (d : TimeLimit) (nanos : Nat) : Except Fault TimeLimit :=
  match ofNanos? (d.nanos + nanos) with
  | some sum => .ok sum
  | none => .error .overflow

/-- A time limit without a sign before it. -/
def unsigned (cs : List Char) : Except Fault TimeLimit :=
  match parts? cs with
  | some (whole, nanos) => whole.plus nanos
  | none => .error .invalid

/-- A time limit from its text, with blanks around it and a hyphen before it. -/
def read (s : String) : Except Fault TimeLimit :=
  match trim s.toList with
  | '-' :: cs => (unsigned cs).map neg
  | cs => unsigned cs

end TimeLimit

/-! ## The window that a limit opens -/

/-- The instant a limit earlier, if it exists.  The limit's whole seconds and its rest are
taken away together.  Inside a leap second a move that stays in it, or in the second before,
only changes the nanoseconds; any other move starts from the ordinary second that the leap
second adjoins on the side moved to. -/
def Instant.minus? (t : Instant) (d : TimeLimit) : Option Instant :=
  let seconds := -d.seconds
  let nanos := -d.subsecond
  let step (second : Int) (nano : Int) :=
    let total := (second + seconds) * nanosPerSecond + nano + nanos
    ofSecond? (total / nanosPerSecond) (total % nanosPerSecond).toNat
  if t.isLeap then
    if seconds > 0 ∨ (nanos > 0 ∧ t.nano + nanos ≥ 2 * nanosPerSecond) then
      step t.second (t.nano - nanosPerSecond)
    else if seconds < 0 then step (t.second + 1) (t.nano - nanosPerSecond)
    else ofSecond? t.second (t.nano + nanos).toNat
  else step t.second t.nano

/-- Where the window of the last `d` before `now` begins; past the end of the range of
instants it begins at that end. -/
def windowStart (now : Instant) (d : TimeLimit) : Instant :=
  (now.minus? d).getD (if 0 < d.nanos then .first else .last)

end LogWatch.Time
