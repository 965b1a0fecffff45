import LogWatch.Json.Basic
import LogWatch.Text.Range

/-!
# The value of a JSON number

A number without point and exponent is an integer if it fits 64 bits, unsigned or signed;
`-0` and every other number is a double, which is computed in three steps.  The leading digits
that fit an unsigned word of 64 bits give a significand, the digits that no longer fit only
count toward the power of ten, and the significand is then multiplied or divided by that power.
A product beyond the doubles is out of range; quotients reach zero.
-/

namespace LogWatch.Json

open LogWatch.Text

inductive Number.Value
  | int (n : Int)
  | float (x : Float)
  | outOfRange

namespace Number

def wordLimit : Nat := 0x10000000000000000

/-- Appends digits to a number as long as it stays a word; gives the digits left over. -/
def absorb (n : Nat) : List Char → Nat × List Char
  | [] => (n, [])
  | c :: rest =>
    let m := n * 10 + digitValue c
    if m < wordLimit then absorb m rest else (n, c :: rest)

/-- The double of `10^n`. -/
def powerOfTen (n : Nat) : Float := Float.ofScientific 1 false n

/-- `x * 10^e`, dividing by at most 10^308 at a time; `none` beyond the doubles. -/
def scale? : Nat → Float → Int → Option Float
  | 0, x, _ => some x
  | steps + 1, x, e =>
    if 0 ≤ e then
      if x == 0 then some x
      else if 308 < e then none
      else
        let y := x * powerOfTen e.toNat
        if y.isInf then none else some y
    else if -308 ≤ e then some (x / powerOfTen (-e).toNat)
    else if x == 0 then some x
    else scale? steps (x / powerOfTen 308) (e + 308)

/-- The double of a significand and a power of ten.  Three steps of 308 bring any word to
zero. -/
def floatOf (negative : Bool) (significand : Nat) (e : Int) : Value :=
  match scale? 4 (Float.ofNat significand) e with
  | some x => .float (if negative then -x else x)
  | none => .outOfRange

def value (n : Number) : Value :=
  let (significand, spare) := absorb 0 n.whole
  match n.fraction, n.exponent with
  | [], none =>
    if !spare.isEmpty then floatOf n.negative significand spare.length
    else if !n.negative then .int significand
    else if 0 < significand ∧ 2 * significand ≤ wordLimit then .int (-significand)
    else floatOf true significand 0
  | fraction, exponent =>
    let (all, unused) := absorb significand fraction
    let e := spare.length - (fraction.length - unused.length : Nat) + exponent.getD 0
    floatOf n.negative all e

end Number
end LogWatch.Json
