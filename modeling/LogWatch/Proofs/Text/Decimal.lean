import LogWatch.Text.Decimal
import Mathlib.Algebra.Group.Nat.Defs
import Mathlib.Data.List.Induction

/-!
# Digits filled up to a width

A number that fits its width is written with exactly that many digits and reads back.  What is read
as a number is a run of digits, and the number is their value.

    n < 10 ^ width → (paddedDigits width n).length = width           (length_paddedDigits)
    natOfDigits (paddedDigits width n) = n                           (natOfDigits_paddedDigits)
    readNat? cs = some n ↔ IsNumber cs ∧ n = natOfDigits cs          (readNat?_eq_some_iff)
-/

namespace LogWatch.Text

theorem natOfDigits_append (cs ds : List Char) :
    natOfDigits (cs ++ ds) = natOfDigits cs * 10 ^ ds.length + natOfDigits ds := by
  induction ds using List.reverseRecOn with
  | nil => simp [natOfDigits]
  | append_singleton ds d ih =>
    rw [← List.append_assoc, natOfDigits_concat, natOfDigits_concat, ih, List.length_append,
      List.length_singleton, Nat.pow_succ, Nat.add_mul, Nat.mul_assoc, Nat.add_assoc]

theorem natOfDigits_zeros (n : Nat) : natOfDigits (List.replicate n '0') = 0 := by
  induction n with
  | zero => rfl
  | succ n ih => rw [List.replicate_succ', natOfDigits_concat, ih]; rfl

theorem digitValue_lt {c : Char} (h : c.isDigit = true) : digitValue c < 10 := by
  have hle := (Char.isDigit_iff_toNat.mp h).2
  have hzero : '0'.toNat = 48 := rfl
  have hnine : '9'.toNat = 57 := rfl
  unfold digitValue
  omega

theorem length_digits_pos (n : Nat) : 0 < (digits n).length :=
  List.length_pos_iff.mpr (digits_ne_nil n)

theorem length_digits_le (width n : Nat) (hw : 0 < width) (h : n < 10 ^ width) :
    (digits n).length ≤ width := by
  induction n using Nat.strongRecOn generalizing width with
  | _ n ih =>
    rw [digits]
    split
    · exact hw
    · next hn =>
      -- a number of two digits or more needs a width of at least two
      obtain ⟨w, rfl⟩ : ∃ w, width = w + 1 := ⟨width - 1, by omega⟩
      have hw1 : w ≠ 0 := by rintro rfl; omega
      rw [Nat.pow_succ] at h
      have := ih (n / 10) (by omega) w (by omega) (by omega)
      simpa using this

theorem paddedDigits_all_isDigit (width n : Nat) :
    (paddedDigits width n).all Char.isDigit = true := by
  unfold paddedDigits padStart
  rw [List.all_append, digits_all_isDigit]
  simp [List.all_replicate]

theorem natOfDigits_paddedDigits (width n : Nat) : natOfDigits (paddedDigits width n) = n := by
  unfold paddedDigits padStart
  rw [natOfDigits_append, natOfDigits_zeros, natOfDigits_digits]
  omega

theorem length_paddedDigits (width n : Nat) (hw : 0 < width) (h : n < 10 ^ width) :
    (paddedDigits width n).length = width := by
  have := length_digits_le width n hw h
  unfold paddedDigits padStart
  rw [List.length_append, List.length_replicate]
  omega

theorem length_paddedDigits_pos (width n : Nat) : 0 < (paddedDigits width n).length := by
  have := length_digits_pos n
  unfold paddedDigits padStart
  rw [List.length_append]
  omega

theorem isDigit_of_mem_digits {n : Nat} {c : Char} (h : c ∈ digits n) : c.isDigit = true :=
  List.all_eq_true.mp (digits_all_isDigit n) c h

theorem isDigit_of_mem_paddedDigits {width n : Nat} {c : Char} (h : c ∈ paddedDigits width n) :
    c.isDigit = true :=
  List.all_eq_true.mp (paddedDigits_all_isDigit width n) c h

theorem not_mem_digits {c : Char} (h : c.isDigit = false) (n : Nat) : c ∉ digits n := by
  intro hm
  rw [isDigit_of_mem_digits hm] at h
  contradiction

theorem not_mem_paddedDigits {c : Char} (h : c.isDigit = false) (width n : Nat) :
    c ∉ paddedDigits width n := by
  intro hm
  rw [isDigit_of_mem_paddedDigits hm] at h
  contradiction

theorem paddedDigits_injective {width m n : Nat} (h : paddedDigits width m = paddedDigits width n) :
    m = n := by
  rw [← natOfDigits_paddedDigits width m, h, natOfDigits_paddedDigits]

theorem natOfDigits_padEnd (width : Nat) (cs : List Char) :
    natOfDigits (padEnd width '0' cs) = natOfDigits cs * 10 ^ (width - cs.length) := by
  unfold padEnd
  rw [natOfDigits_append, natOfDigits_zeros, List.length_replicate, Nat.add_zero]

theorem natOfDigits_lt {cs : List Char} (h : ∀ c ∈ cs, c.isDigit = true) :
    natOfDigits cs < 10 ^ cs.length := by
  induction cs using List.reverseRecOn with
  | nil => exact Nat.one_pos
  | append_singleton cs c ih =>
    have hrest := ih fun d hd => h d (List.mem_append_left _ hd)
    have hlast := digitValue_lt (h c (by simp))
    rw [natOfDigits_concat, List.length_append, List.length_singleton, Nat.pow_succ]
    omega

theorem digits_injective {m n : Nat} (h : digits m = digits n) : m = n := by
  rw [← natOfDigits_digits m, h, natOfDigits_digits]

theorem isSignedDigit_of_mem_signedDigits {n : Int} {c : Char} (h : c ∈ signedDigits n) :
    c = '-' ∨ c.isDigit = true := by
  unfold signedDigits at h
  split at h
  · rcases List.mem_cons.mp h with h | h
    · exact .inl h
    · exact .inr (isDigit_of_mem_digits h)
  · exact .inr (isDigit_of_mem_digits h)

theorem signedDigits_injective {m n : Int} (h : signedDigits m = signedDigits n) : m = n := by
  -- a hyphen is no digit, so the signs agree
  have hyphen : ∀ (k l : Nat), '-' :: digits k ≠ digits l := fun k l he => by
    have := isDigit_of_mem_digits (n := l) (c := '-') (by simp [← he])
    exact absurd this (by decide)
  unfold signedDigits at h
  split at h
  · split at h
    · have := digits_injective (List.cons.inj h).2
      omega
    · exact absurd h (hyphen _ _)
  · split at h
    · exact absurd h.symm (hyphen _ _)
    · have := digits_injective h
      omega

theorem exists_digits_cons (n : Nat) : ∃ c cs, digits n = c :: cs ∧ c.isDigit = true := by
  obtain ⟨c, cs, h⟩ := List.exists_cons_of_ne_nil (digits_ne_nil n)
  exact ⟨c, cs, h, isDigit_of_mem_digits (h ▸ List.mem_cons_self)⟩

/-- No digits stand behind a leading zero. -/
theorem eq_nil_of_digits_eq_zero_cons {n : Nat} {cs : List Char} (h : digits n = '0' :: cs) :
    cs = [] := by
  induction n using Nat.strongRecOn generalizing cs with
  | _ n ih =>
    rw [digits] at h
    split at h
    · exact (List.cons.inj h).2.symm
    · next hn =>
      obtain ⟨c, ds, hds, -⟩ := exists_digits_cons (n / 10)
      rw [hds, List.cons_append] at h
      obtain ⟨rfl, -⟩ := List.cons.inj h
      obtain rfl := ih (n / 10) (by omega) hds
      -- the number without its last digit would be zero
      have hzero : n / 10 = 0 := by
        rw [← natOfDigits_digits (n / 10), hds]
        rfl
      omega

theorem readInt?_signedDigits (n : Int) : readInt? (signedDigits n) = some n := by
  unfold signedDigits
  split
  next h =>
    simp only [readInt?, readNat?_digits, Option.bind_eq_bind, Option.bind_some,
      Option.pure_def, Option.map_some, Option.some.injEq]
    omega
  next h =>
    obtain ⟨c, cs, hc, hdigit⟩ := exists_digits_cons n.natAbs
    have hread := readNat?_digits n.natAbs
    rw [hc] at hread ⊢
    rw [readInt?]
    · simp only [hread, Option.bind_eq_bind, Option.bind_some, Option.pure_def, Option.map_some,
        Option.some.injEq]
      omega
    -- a digit is no sign
    · rintro _ ⟨⟩
      contradiction
    · rintro _ ⟨⟩
      contradiction

theorem ofInt_injective {m n : Int} (h : ofInt m = ofInt n) : m = n :=
  signedDigits_injective (String.ofList_injective h)

/-- One digit or more. -/
def IsNumber (cs : List Char) : Prop := cs ≠ [] ∧ ∀ c ∈ cs, c.isDigit = true

theorem IsNumber.not_mem {cs : List Char} (h : IsNumber cs) {c : Char} (hc : c.isDigit = false) :
    c ∉ cs := fun hm => by simp [h.2 c hm] at hc

theorem readNat?_eq_some_iff {cs : List Char} {n : Nat} :
    readNat? cs = some n ↔ IsNumber cs ∧ n = natOfDigits cs := by
  have htest : (cs.isEmpty || !cs.all Char.isDigit) = true ↔ ¬IsNumber cs := by
    unfold IsNumber
    rw [Bool.or_eq_true, List.isEmpty_iff, Bool.not_eq_true', Bool.eq_false_iff, ne_eq,
      List.all_eq_true, not_and_or, not_not]
  unfold readNat?
  split
  · next h => simp [htest.mp h]
  · next h => rw [Option.some_inj, and_iff_right (not_not.mp (mt htest.mpr h)), eq_comm]

/-- Without a sign there is nothing to read but the digits. -/
theorem readInt?_of_no_sign {cs : List Char} (hp : '+' ∉ cs) (hm : '-' ∉ cs) :
    readInt? cs = (readNat? cs).map Nat.cast := by
  unfold readInt?
  split
  · simp at hp
  · simp at hm
  · cases readNat? cs <;> rfl

end LogWatch.Text
