import LogWatch.Digest.Base
import LogWatch.Digest.Sha256
import LogWatch.Proofs.Text.Lines

/-!
# Bytes as text, one text for each list of bytes

    base64Bytes (base64 bytes) = bytes                           (base64Bytes_base64)
    base64 a = base64 b → a = b                                  (base64_injective)
    hex a = hex b → a = b                                        (hex_injective)

Base64 has no blanks, and a digest is never empty.
-/

namespace LogWatch.Digest

open LogWatch.Text

/-- The number that a sign stands for. -/
def base64Value (c : Char) : Nat :=
  if c.isUpper then c.toNat - 'A'.toNat
  else if c.isLower then c.toNat - 'a'.toNat + 26
  else if c.isDigit then c.toNat - '0'.toNat + 52
  else if c = '+' then 62
  else 63

theorem base64Value_base64Sign : ∀ n, n < 64 → base64Value (base64Sign n) = n := by decide

theorem base64Sign_ne_equals : ∀ n, n < 64 → base64Sign n ≠ '=' := by decide

theorem isBlank_base64Sign : ∀ n, n < 64 → isBlank (base64Sign n) = false := by decide

theorem isHexDigit_hexSign :
    ∀ n, n < 16 → ((hexSign n).isDigit || ('A' ≤ hexSign n && hexSign n ≤ 'F')) = true := by
  decide

theorem hexSign_injective :
    ∀ m, m < 16 → ∀ n, n < 16 → hexSign m = hexSign n → m = n := by
  decide

theorem noBlanks_base64 (bytes : List UInt8) : NoBlanks (base64 bytes) := by
  have sign {n : Nat} (h : n < 64) := isBlank_base64Sign n h
  have equals : isBlank '=' = false := by decide
  fun_induction base64 bytes with
  | case1 => exact .nil
  | case2 a n =>
    have := a.toNat_lt
    exact .cons (sign (by omega)) (.cons (sign (by omega)) (.cons equals (.cons equals .nil)))
  | case3 a b n =>
    have := a.toNat_lt
    have := b.toNat_lt
    exact .cons (sign (by omega)) (.cons (sign (by omega))
      (.cons (sign (by omega)) (.cons equals .nil)))
  | case4 a b c rest n ih =>
    have := a.toNat_lt
    have := b.toNat_lt
    have := c.toNat_lt
    exact .cons (sign (by omega)) (.cons (sign (by omega))
      (.cons (sign (by omega)) (.cons (sign (by omega)) ih)))

theorem base64_ne_nil {bytes : List UInt8} (h : bytes ≠ []) : base64 bytes ≠ [] := by
  fun_cases base64 bytes <;> simp_all

/-- The bytes that the signs stand for, four signs at a time; `=` tells how long the last group
is. -/
def base64Bytes : List Char → List UInt8
  | p :: q :: r :: s :: rest =>
    let n := base64Value p * 64 + base64Value q
    if r = '=' then [.ofNat (n / 16)]
    else
      let n := n * 64 + base64Value r
      if s = '=' then [.ofNat (n / 1024), .ofNat (n / 4)]
      else
        let n := n * 64 + base64Value s
        .ofNat (n / 65536) :: .ofNat (n / 256) :: .ofNat n :: base64Bytes rest
  | _ => []

theorem ofNat_eq_of_mod {n : Nat} {a : UInt8} (h : n % 256 = a.toNat) : UInt8.ofNat n = a :=
  UInt8.toNat_inj.mp ((UInt8.toNat_ofNat' ..).trans h)

/-- The signs give back the number of each group. -/
theorem base64Bytes_base64 (bytes : List UInt8) : base64Bytes (base64 bytes) = bytes := by
  have value {n : Nat} (h : n < 64) := base64Value_base64Sign n h
  have sign {n : Nat} (h : n < 64) := base64Sign_ne_equals n h
  fun_induction base64 bytes with
  | case1 => rfl
  | case2 a n =>
    have := a.toNat_lt
    have hn : n / 64 * 64 + n % 64 = n := by omega
    have ha : UInt8.ofNat (n / 16) = a := ofNat_eq_of_mod (by omega)
    rw [base64Bytes, value (by omega), value (by omega), if_pos rfl, hn, ha]
  | case3 a b n =>
    have := a.toNat_lt
    have := b.toNat_lt
    have hlast : n % 64 < 64 := by omega
    have hn : (n / 4096 * 64 + n / 64 % 64) * 64 + n % 64 = n := by omega
    have ha : UInt8.ofNat (n / 1024) = a := ofNat_eq_of_mod (by omega)
    have hb : UInt8.ofNat (n / 4) = b := ofNat_eq_of_mod (by omega)
    simp only [base64Bytes, value (show n / 4096 < 64 by omega),
      value (show n / 64 % 64 < 64 by omega), value hlast, if_neg (sign hlast), if_true, hn, ha, hb]
  | case4 a b c rest n ih =>
    have := a.toNat_lt
    have := b.toNat_lt
    have := c.toNat_lt
    have hthird : n / 64 % 64 < 64 := by omega
    have hlast : n % 64 < 64 := by omega
    have hn : ((n / 262144 * 64 + n / 4096 % 64) * 64 + n / 64 % 64) * 64 + n % 64 = n := by omega
    have ha : UInt8.ofNat (n / 65536) = a := ofNat_eq_of_mod (by omega)
    have hb : UInt8.ofNat (n / 256) = b := ofNat_eq_of_mod (by omega)
    have hc : UInt8.ofNat n = c := ofNat_eq_of_mod (by omega)
    simp only [base64Bytes, value (show n / 262144 < 64 by omega),
      value (show n / 4096 % 64 < 64 by omega), value hthird, value hlast, if_neg (sign hthird),
      if_neg (sign hlast), hn, ha, hb, hc, ih]

theorem base64_injective {a b : List UInt8} (h : base64 a = base64 b) : a = b := by
  rw [← base64Bytes_base64 a, h, base64Bytes_base64 b]

theorem hex_cons (a : UInt8) (rest : List UInt8) :
    hex (a :: rest) = hexSign (a.toNat / 16) :: hexSign (a.toNat % 16) :: hex rest := rfl

theorem hex_injective {a b : List UInt8} (h : hex a = hex b) : a = b := by
  induction a generalizing b with
  | nil =>
    cases b with
    | nil => rfl
    | cons y b => simp [hex] at h
  | cons x a ih =>
    cases b with
    | nil => simp [hex] at h
    | cons y b =>
      have := x.toNat_lt
      have := y.toNat_lt
      rw [hex_cons, hex_cons, List.cons.injEq, List.cons.injEq] at h
      obtain ⟨hhigh, hlow, hrest⟩ := h
      have h1 := hexSign_injective _ (by omega) _ (by omega) hhigh
      have h2 := hexSign_injective _ (by omega) _ (by omega) hlow
      rw [UInt8.toNat_inj.mp (show x.toNat = y.toNat by omega), ih hrest]

/-! ## Digests -/

theorem Sha256.length_bigEndian (size n : Nat) : (Sha256.bigEndian size n).length = size := by
  induction size with
  | zero => rfl
  | succ size ih => simp [Sha256.bigEndian, ih]

theorem Sha256.length_digest (message : List UInt8) : (Sha256.digest message).length = 32 := by
  unfold Sha256.digest Sha256.State.bytes
  simp [Sha256.length_bigEndian]

theorem Sha256.ofString_ne_nil (s : String) : Sha256.ofString s ≠ [] := by
  intro h
  have := Sha256.length_digest s.toUTF8.data.toList
  rw [show Sha256.digest s.toUTF8.data.toList = [] from h] at this
  simp at this

end LogWatch.Digest
