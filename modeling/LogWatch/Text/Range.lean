/-!
# Numbers that fit a word

A number read from a text becomes a word of 16, 32 or 64 bits only if it lies in the
word's range; it never wraps.
-/

namespace LogWatch.Text

def int16? (n : Int) : Option Int16 :=
  if Int16.minValue.toInt ≤ n ∧ n ≤ Int16.maxValue.toInt then some (Int16.ofInt n) else none

def int32? (n : Int) : Option Int32 :=
  if Int32.minValue.toInt ≤ n ∧ n ≤ Int32.maxValue.toInt then some (Int32.ofInt n) else none

def int64? (n : Int) : Option Int64 :=
  if Int64.minValue.toInt ≤ n ∧ n ≤ Int64.maxValue.toInt then some (Int64.ofInt n) else none

/-! ## Lemmas -/

theorem int16?_toInt (x : Int16) : int16? x.toInt = some x := by
  rw [int16?, if_pos ⟨x.minValue_le_toInt, x.toInt_le⟩, Int16.ofInt_toInt]

theorem int32?_toInt (x : Int32) : int32? x.toInt = some x := by
  rw [int32?, if_pos ⟨x.minValue_le_toInt, x.toInt_le⟩, Int32.ofInt_toInt]

theorem int64?_toInt (x : Int64) : int64? x.toInt = some x := by
  rw [int64?, if_pos ⟨x.minValue_le_toInt, x.toInt_le⟩, Int64.ofInt_toInt]

theorem int64?_eq_some_iff {n : Int} {x : Int64} : int64? n = some x ↔ x.toInt = n := by
  constructor
  · intro h
    unfold int64? at h
    split at h
    · next hn =>
      rw [← Option.some.inj h, Int64.toInt_ofInt_of_le hn.1 (Int.lt_add_one_of_le hn.2)]
    · cases h
  · rintro rfl
    exact int64?_toInt x

end LogWatch.Text
