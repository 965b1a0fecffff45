import LogWatch.Text.Decimal

/-!
# The shortest decimal of a floating point number

A finite double is m * 2^q.  The reals that round to it form an interval, whose ends belong
to it exactly when m is even.  On the grid of decimals with n digits only the two neighbours
of the value can be the nearest; the first n from 1 to 17 for which one of them lies in the
interval gives the decimal, the nearer of two, an even last digit at equal distance.

A decimal is written positionally when its point falls among its digits, up to four zeros
before them or up to the sixteenth place, and otherwise with an exponent, which always has a
sign.
-/

namespace LogWatch.Text.Shortest

/-- A positive number m * 2^q with the ends of the interval that rounds to it.  All three
mantissas are in units of 2^(q - 2). -/
structure Binary where
  value : Nat
  low : Nat
  high : Nat
  /-- The ends themselves round to the value. -/
  closed : Bool
  /-- The exponent of the units. -/
  exponent : Int

/-- The parts of a positive finite double. -/
def Binary.ofBits (bits : UInt64) : Binary :=
  let stored := (bits.toNat >>> 52) % 2048
  let fraction := bits.toNat % (1 <<< 52)
  let m := if stored = 0 then fraction else fraction + (1 <<< 52)
  let q : Int := (if stored = 0 then 1 else stored : Nat) - 1075
  let narrow := fraction = 0 ∧ 1 < stored
  { value := 4 * m
    low := if narrow then 4 * m - 1 else 4 * m - 2
    high := 4 * m + 2
    closed := m % 2 = 0
    exponent := q - 2 }

/-- A nonnegative rational number. -/
structure Ratio where
  num : Nat
  den : Nat

/-- `n * 2^e / 10^k`. -/
def Ratio.scaled (n : Nat) (e k : Int) : Ratio :=
  ⟨n * Nat.pow 2 e.toNat * Nat.pow 10 (-k).toNat, Nat.pow 2 (-e).toNat * Nat.pow 10 k.toNat⟩

/-- How many places stand before the point: the least k with the number below 10^k. -/
def places (b : Binary) : Int :=
  let r := Ratio.scaled b.value b.exponent 0
  if r.den ≤ r.num then (digits (r.num / r.den)).length
  else 1 - (digits ((r.den - 1) / r.num)).length

/-- The whole number `d`, in units of 10^k, rounds to the value. -/
def readsBack (b : Binary) (k : Int) (d : Nat) : Bool :=
  let low := Ratio.scaled b.low b.exponent k
  let high := Ratio.scaled b.high b.exponent k
  if b.closed then low.num ≤ d * low.den && d * high.den ≤ high.num
  else low.num < d * low.den && d * high.den < high.num

/-- The number of units of 10^k nearest to the value, of those that read back. -/
def nearest? (b : Binary) (k : Int) : Option Nat :=
  let r := Ratio.scaled b.value b.exponent k
  let down := r.num / r.den
  let rest := r.num % r.den
  match readsBack b k down, readsBack b k (down + 1) with
  | true, true =>
    if 2 * rest < r.den then some down
    else if r.den < 2 * rest then some (down + 1)
    else if down % 2 = 0 then some down
    else some (down + 1)
  | true, false => some down
  | false, true => some (down + 1)
  | false, false => none

/-- A decimal `d * 10^k` that reads back, from grids of `17 - fuel` digits on. -/
def search (b : Binary) (places : Int) : Nat → Nat × Int
  | 0 =>
    let r := Ratio.scaled b.value b.exponent (places - 17)
    (r.num / r.den, places - 17)
  | fuel + 1 =>
    let k := places - (17 - fuel : Nat)
    match nearest? b k with
    | some d => (d, k)
    | none => search b places fuel

/-- The digits without the zeros at their end, and the exponent with those zeros in it. -/
def stripZeros (d : Nat) (k : Int) : List Char × Int :=
  let zeros := ((digits d).reverse.takeWhile (· == '0')).length
  ((digits d).take ((digits d).length - zeros), k + zeros)

/-- An exponent with its sign. -/
def exponentText (e : Int) : List Char := 'e' :: (if e < 0 then '-' else '+') :: digits e.natAbs

/-- Digits and an exponent as text. -/
def layout (ds : List Char) (k : Int) : List Char :=
  let point := ds.length + k
  if 0 ≤ k ∧ point ≤ 16 then ds ++ List.replicate k.toNat '0' ++ ['.', '0']
  else if 0 < point ∧ point ≤ 16 then ds.take point.toNat ++ '.' :: ds.drop point.toNat
  else if -5 < point ∧ point ≤ 0 then '0' :: '.' :: List.replicate (-point).toNat '0' ++ ds
  else
    match ds with
    | [] => []
    | [d] => d :: exponentText (point - 1)
    | d :: more => d :: '.' :: more ++ exponentText (point - 1)

/-- The text of a finite double. -/
def text (x : Float) : List Char :=
  let bits := x.toBits
  let sign := if bits.toNat >>> 63 = 1 then ['-'] else []
  let magnitude := bits.toNat % (1 <<< 63)
  if magnitude = 0 then sign ++ ['0', '.', '0']
  else
    let b := Binary.ofBits magnitude.toUInt64
    let (d, k) := search b (places b) 17
    let (ds, k) := stripZeros d k
    sign ++ layout ds k

end LogWatch.Text.Shortest
