import LogWatch.Time.Instant
import Mathlib.Order.Defs.LinearOrder

/-! # The order of instants -/

namespace LogWatch.Time.Instant

/-- By second, then by nanosecond; a leap second comes after the rest of its second. -/
instance : LinearOrder Instant where
  le_refl t := by
    rw [le_iff]
    omega
  le_trans r s t h h' := by
    rw [le_iff] at *
    omega
  lt_iff_le_not_ge s t := by
    rw [lt_iff, le_iff, le_iff]
    omega
  le_antisymm s t h h' := by
    rw [le_iff] at h h'
    obtain ⟨second, nano, _, _, _⟩ := s
    obtain ⟨second', nano', _, _, _⟩ := t
    obtain rfl : second = second' := by dsimp only at h h'; omega
    obtain rfl : nano = nano' := by dsimp only at h h'; omega
    rfl
  le_total s t := by
    rw [le_iff, le_iff]
    omega
  toDecidableLE s t := inferInstance
  toDecidableLT s t := inferInstance

end LogWatch.Time.Instant
