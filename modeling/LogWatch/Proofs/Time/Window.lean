import LogWatch.Proofs.Time.Order
import LogWatch.Time.Limit

/-!
# The start of a window

On a clock without leap seconds an instant is a number of nanoseconds, and a window starts at the
difference of two numbers, or at an end of the range of instants if the difference is beyond it.
So the start moves with the clock.  Both ends are instants themselves: no instant lies before the
first, and a leap second lies after the last.

    windowStart now d = .ofNanos (now.nanos - d.nanos)        (windowStart_eq)
    m ≤ n → ofNanos m ≤ ofNanos n                             (ofNanos_mono)
    n < first.nanos → ofNanos n = first                       (ofNanos_of_lt_first)
    last.nanos < n → ofNanos n = last                         (ofNanos_of_last_lt)
-/

namespace LogWatch.Time

namespace Instant

/-- The nanoseconds since 1970, if no second was a leap second. -/
def nanos (t : Instant) : Int := t.second * nanosPerSecond + t.nano

/-- The instant of a number of nanoseconds, or the end of the range that lies nearest. -/
def ofNanos (n : Int) : Instant :=
  (ofSecond? (n / nanosPerSecond) (n % nanosPerSecond).toNat).getD (if n < 0 then first else last)

theorem nano_lt_of_not_isLeap {t : Instant} (h : ¬ t.isLeap = true) : t.nano < nanosPerSecond := by
  simpa [isLeap] using h

theorem nanos_le_nanos {s t : Instant} (hs : ¬ s.isLeap = true) (h : s ≤ t) :
    s.nanos ≤ t.nanos := by
  have hs := nano_lt_of_not_isLeap hs
  rw [le_iff] at h
  unfold nanos
  simp only [nanosPerSecond] at *
  omega

/-- Where a number of nanoseconds lies: before the range, in it, or after it. -/
theorem ofNanos_cases (n : Int) :
    (n / nanosPerSecond < firstSecond ∧ ofNanos n = first) ∨
      (lastSecond < n / nanosPerSecond ∧ ofNanos n = last) ∨
      (ofNanos n).second = n / nanosPerSecond ∧ (ofNanos n).nano = (n % nanosPerSecond).toNat := by
  unfold ofNanos ofSecond?
  split
  · exact .inr (.inr ⟨rfl, rfl⟩)
  · next hout =>
    have hnano : (n % nanosPerSecond).toNat < nanosPerSecond := by
      simp only [nanosPerSecond]
      omega
    by_cases hneg : n < 0
    · refine .inl ⟨?_, by simp [hneg]⟩
      simp only [nanosPerSecond, firstSecond, lastSecond] at *
      omega
    · refine .inr (.inl ⟨?_, by simp [hneg]⟩)
      simp only [nanosPerSecond, firstSecond, lastSecond] at *
      omega

theorem first_le (t : Instant) : first ≤ t := by
  have h := t.inRange
  rw [le_iff]
  simp only [first]
  omega

theorem ofNanos_le_last (n : Int) : ofNanos n ≤ last := by
  rw [le_iff]
  obtain ⟨-, h⟩ | ⟨-, h⟩ | ⟨hs, hn⟩ := ofNanos_cases n
  · rw [h]
    decide
  · rw [h]
    decide
  · have h := (ofNanos n).inRange
    simp only [last, nanosPerSecond] at *
    omega

theorem ofNanos_mono {m n : Int} (h : m ≤ n) : ofNanos m ≤ ofNanos n := by
  have hdiv : m / nanosPerSecond ≤ n / nanosPerSecond :=
    Int.ediv_le_ediv (by decide) h
  obtain ⟨-, hm⟩ | ⟨hm, -⟩ | ⟨hms, hmn⟩ := ofNanos_cases m
  · rw [hm]
    exact first_le _
  · obtain ⟨hn, -⟩ | ⟨-, hn⟩ | ⟨hns, -⟩ := ofNanos_cases n
    · simp only [firstSecond, lastSecond] at hm hn
      omega
    · rw [hn]
      exact ofNanos_le_last m
    · have hrange := (ofNanos n).inRange
      omega
  · obtain ⟨hn, -⟩ | ⟨-, hn⟩ | ⟨hns, hnn⟩ := ofNanos_cases n
    · have hrange := (ofNanos m).inRange
      omega
    · rw [hn]
      exact ofNanos_le_last m
    · rw [le_iff, hms, hmn, hns, hnn]
      simp only [nanosPerSecond] at *
      omega

theorem ofNanos_of_lt_first {n : Int} (h : n < first.nanos) : ofNanos n = first := by
  obtain ⟨-, hn⟩ | ⟨hn, -⟩ | ⟨hs, -⟩ := ofNanos_cases n
  · exact hn
  · simp only [nanos, first, nanosPerSecond, firstSecond, lastSecond] at *
    omega
  · have hrange := (ofNanos n).inRange
    simp only [nanos, first, nanosPerSecond, firstSecond] at *
    omega

theorem ofNanos_of_last_lt {n : Int} (h : last.nanos < n) : ofNanos n = last := by
  obtain ⟨hn, -⟩ | ⟨-, hn⟩ | ⟨hs, -⟩ := ofNanos_cases n
  · simp only [nanos, last, nanosPerSecond, firstSecond, lastSecond] at *
    omega
  · exact hn
  · have hrange := (ofNanos n).inRange
    simp only [nanos, last, nanosPerSecond, lastSecond] at *
    omega

theorem first_lt_iff {t : Instant} : first < t ↔ t ≠ first :=
  ⟨ne_of_gt, fun h => lt_of_le_of_ne (first_le t) h.symm⟩

/-- Only the leap second that ends the range is later than the last instant. -/
theorem last_lt_iff {t : Instant} : last < t ↔ t.second = lastSecond ∧ t.isLeap = true := by
  have hrange := t.inRange
  have hleap : t.isLeap = true ↔ 999999999 < t.nano := decide_eq_true_iff
  rw [lt_iff, hleap]
  simp only [last]
  omega

end Instant

/-! ## Windows -/

theorem TimeLimit.nanos_eq (d : TimeLimit) :
    d.nanos = d.seconds * nanosPerSecond + d.subsecond := by
  unfold seconds subsecond
  rw [Int.mul_comm]
  exact (Int.mul_tdiv_add_tmod _ _).symm

theorem windowStart_eq {now : Instant} (h : ¬ now.isLeap = true) (d : TimeLimit) :
    windowStart now d = .ofNanos (now.nanos - d.nanos) := by
  have htotal : (now.second + -d.seconds) * nanosPerSecond + now.nano + -d.subsecond =
      now.nanos - d.nanos := by
    rw [d.nanos_eq]
    unfold Instant.nanos
    simp only [nanosPerSecond]
    omega
  have hrange := now.inRange
  have hnano := Instant.nano_lt_of_not_isLeap h
  unfold windowStart Instant.minus?
  rw [if_neg h]
  dsimp only
  rw [htotal]
  unfold Instant.ofNanos Instant.ofSecond?
  split
  · rfl
  · next hout =>
    have hmod : ((now.nanos - d.nanos) % nanosPerSecond).toNat < nanosPerSecond := by
      simp only [nanosPerSecond]
      omega
    -- The difference is beyond the end of the range to which the limit moves.
    have hsign : 0 < d.nanos ↔ now.nanos - d.nanos < 0 := by
      unfold Instant.nanos at *
      simp only [nanosPerSecond, firstSecond, lastSecond] at *
      omega
    simp only [hsign, Option.getD_none]

/-- As time goes on a window starts later, and so it does with a shorter limit. -/
theorem windowStart_mono {now later : Instant} {shorter longer : TimeLimit}
    (hn : ¬ now.isLeap = true) (hl : ¬ later.isLeap = true) (h : now ≤ later)
    (hd : shorter.nanos ≤ longer.nanos) :
    windowStart now longer ≤ windowStart later shorter := by
  have hnanos := Instant.nanos_le_nanos hn h
  rw [windowStart_eq hn, windowStart_eq hl]
  exact Instant.ofNanos_mono (by omega)

end LogWatch.Time
