/-!
# Decimal numbers

Numbers are written without leading zeros (`-` before a negative one), or padded with
zeros to a width.  They are read from a run of ASCII digits, of any length, with an
optional sign.

    natOfDigits (digits n) = n                          (natOfDigits_digits)
-/

namespace LogWatch.Text

def digitValue (c : Char) : Nat := c.toNat - '0'.toNat

def digitChar (n : Nat) : Char := Char.ofNat ('0'.toNat + n)

/-- The decimal digits of a number, the highest first; `0` has one digit. -/
def digits (n : Nat) : List Char :=
  if n < 10 then [digitChar n] else digits (n / 10) ++ [digitChar (n % 10)]

/-- The number that a run of digits stands for. -/
def natOfDigits (cs : List Char) : Nat := cs.foldl (fun n c => n * 10 + digitValue c) 0

def signedDigits (n : Int) : List Char := if n < 0 then '-' :: digits n.natAbs else digits n.natAbs

/-- Filled up at the front to a width. -/
def padStart (width : Nat) (fill : Char) (cs : List Char) : List Char :=
  List.replicate (width - cs.length) fill ++ cs

/-- Filled up at the end to a width. -/
def padEnd (width : Nat) (fill : Char) (cs : List Char) : List Char :=
  cs ++ List.replicate (width - cs.length) fill

/-- The digits of a number, filled up with zeros to a width. -/
def paddedDigits (width n : Nat) : List Char := padStart width '0' (digits n)

/-- A number from one digit or more, and nothing else. -/
def readNat? (cs : List Char) : Option Nat :=
  if cs.isEmpty || !cs.all Char.isDigit then none else some (natOfDigits cs)

/-- A number with an optional sign, `+` or `-`. -/
def readInt? : List Char → Option Int
  | '+' :: cs => (readNat? cs).map fun n => (n : Int)
  | '-' :: cs => (readNat? cs).map fun n => -(n : Int)
  | cs => (readNat? cs).map fun n => (n : Int)

def ofNat (n : Nat) : String := String.ofList (digits n)

def ofInt (n : Int) : String := String.ofList (signedDigits n)

/-! ## Lemmas -/

theorem digitChar_toNat : ∀ n, n < 10 → (digitChar n).toNat = 48 + n := by decide

theorem digitValue_digitChar (n : Nat) (h : n < 10) : digitValue (digitChar n) = n := by
  have e : '0'.toNat = 48 := rfl
  rw [digitValue, digitChar_toNat n h, e]
  omega

theorem isDigit_digitChar : ∀ n, n < 10 → (digitChar n).isDigit = true := by decide

theorem digits_all_isDigit (n : Nat) : (digits n).all Char.isDigit = true := by
  induction n using Nat.strongRecOn with
  | _ n ih =>
    rw [digits]
    split
    · next h => simp [isDigit_digitChar n h]
    · next h =>
      rw [List.all_append, ih (n / 10) (by omega)]
      simp [isDigit_digitChar (n % 10) (by omega)]

theorem digits_ne_nil (n : Nat) : digits n ≠ [] := by
  rw [digits]
  split <;> simp

theorem natOfDigits_concat (cs : List Char) (c : Char) :
    natOfDigits (cs ++ [c]) = natOfDigits cs * 10 + digitValue c := by
  simp [natOfDigits]

theorem natOfDigits_digits (n : Nat) : natOfDigits (digits n) = n := by
  induction n using Nat.strongRecOn with
  | _ n ih =>
    rw [digits]
    split
    · next h => simp [natOfDigits, digitValue_digitChar n h]
    · next h =>
      rw [natOfDigits_concat, ih (n / 10) (by omega), digitValue_digitChar (n % 10) (by omega)]
      omega

theorem readNat?_digits (n : Nat) : readNat? (digits n) = some n := by
  have h : (digits n).isEmpty = false := by simp [digits_ne_nil n]
  rw [readNat?, h, digits_all_isDigit n, natOfDigits_digits]
  rfl

end LogWatch.Text
