import LogWatch.Identity
import LogWatch.Proofs.Text.Decimal
import LogWatch.Proofs.Text.Lines
import Mathlib.Algebra.GroupWithZero.Nat

/-!
# Canonical lines

Lines that are joined by line feeds come apart in only one way once it is known how many line
feeds each of them holds.

    xs.map lineBreaks = ys.map lineBreaks →
      canonicalLines xs = canonicalLines ys → xs = ys               (canonicalLines_injective)
-/

namespace LogWatch

open LogWatch.Text

/-- The number of line feeds in a text. -/
def lineBreaks (s : String) : Nat := s.toList.count '\n'

theorem toList_canonicalLines_cons_cons (x y : String) (xs : List String) :
    (canonicalLines (x :: y :: xs)).toList =
      x.toList ++ '\n' :: (canonicalLines (y :: xs)).toList := by
  unfold canonicalLines
  simp [String.intercalate_cons_cons]

theorem canonicalLines_injective {xs ys : List String}
    (hb : xs.map lineBreaks = ys.map lineBreaks) (h : canonicalLines xs = canonicalLines ys) :
    xs = ys := by
  induction xs generalizing ys with
  | nil => exact (List.map_eq_nil_iff.mp hb.symm).symm
  | cons x xs ih =>
    obtain ⟨y, ys, rfl, hxy, hrest⟩ : ∃ y ys', ys = y :: ys' ∧ lineBreaks x = lineBreaks y ∧
        xs.map lineBreaks = ys'.map lineBreaks := by
      cases ys with
      | nil => simp at hb
      | cons y ys =>
        obtain ⟨h1, h2⟩ := List.cons.inj hb
        exact ⟨y, ys, rfl, h1, h2⟩
    have hl := congrArg String.toList h
    cases xs with
    | nil =>
      obtain rfl : ys = [] := List.map_eq_nil_iff.mp hrest.symm
      simpa [canonicalLines] using h
    | cons x' xs =>
      cases ys with
      | nil => simp at hrest
      | cons y' ys =>
        rw [toList_canonicalLines_cons_cons, toList_canonicalLines_cons_cons] at hl
        obtain ⟨hx, htail⟩ := append_cons_inj_of_count hxy hl
        rw [String.toList_injective hx, ih hrest (String.toList_injective htail)]

theorem lineBreaks_canonicalLines (x : String) (xs : List String) :
    lineBreaks (canonicalLines (x :: xs)) = ((x :: xs).map lineBreaks).sum + xs.length := by
  induction xs generalizing x with
  | nil => simp [canonicalLines]
  | cons y xs ih =>
    have htail := ih y
    unfold lineBreaks at htail ⊢
    rw [toList_canonicalLines_cons_cons, List.count_append, List.count_cons_self, htail]
    simp only [List.map_cons, List.sum_cons, List.length_cons]
    omega

/-! ## Parts on one line -/

theorem lineBreaks_eq_zero {s : String} (h : '\n' ∉ s.toList) : lineBreaks s = 0 :=
  List.count_eq_zero.mpr h

theorem lineBreaks_ofInt (n : Int) : lineBreaks (ofInt n) = 0 := by
  apply lineBreaks_eq_zero
  intro h
  rw [ofInt, String.toList_ofList] at h
  rcases isSignedDigit_of_mem_signedDigits h with h | h <;> exact absurd h (by decide)

end LogWatch
