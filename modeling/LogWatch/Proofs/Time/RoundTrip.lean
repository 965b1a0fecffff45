import LogWatch.Proofs.Text.Reader
import LogWatch.Proofs.Time.Grammar
import LogWatch.Proofs.Time.Limit

/-!
# Time limits written and read back

The text of a time limit is of the layout that is read, and the sum of its parts is the limit
without what lies below 100 ns.  So it is read as that limit, and a whole number of units of
100 ns is read back as it was.

    Documented d.text d.wholeTicks                                          (documented_text)
    read d.toString = .ok d.wholeTicks                                      (read_toString)
-/

namespace LogWatch.Time.TimeLimit

open LogWatch.Text

/-- The limit in whole units of 100 ns, toward zero. -/
def wholeTicks (d : TimeLimit) : TimeLimit where
  nanos := d.nanos.tdiv 100 * 100
  inRange := by
    rw [Int.natAbs_mul, Int.natAbs_tdiv]
    exact (Nat.div_mul_le_self _ _).trans d.inRange

theorem tdiv_ticks (n : Int) : n.tdiv 100 * 100 =
    if n < 0 then -((n.natAbs / 100 * 100 : Nat) : Int) else (n.natAbs / 100 * 100 : Nat) := by
  rw [Int.tdiv_eq_ediv, show Int.sign 100 = 1 from rfl]
  split <;> omega

theorem wholeTicks_eq_self {d : TimeLimit} (h : d.HasWholeTicks) : d.wholeTicks = d := by
  have hnanos : d.nanos.tdiv 100 * 100 = d.nanos := by
    rw [tdiv_ticks]
    unfold HasWholeTicks at h
    omega
  cases d
  simpa [wholeTicks] using hnanos

/-! ## The parts of the text -/

theorem isNumber_digits (n : Nat) : IsNumber (digits n) :=
  ⟨digits_ne_nil n, fun _ => isDigit_of_mem_digits⟩

theorem isNumber_paddedDigits (width n : Nat) : IsNumber (paddedDigits width n) :=
  ⟨List.length_pos_iff.mp (length_paddedDigits_pos width n), fun _ => isDigit_of_mem_paddedDigits⟩

variable {seconds ticks : Nat}

theorem secondsText_written (hs : seconds ≤ 59) (ht : ticks < 10 ^ 7) :
    SecondsText (secondsText seconds ticks) (seconds * nanosPerSecond + ticks * 100) := by
  have hvalue := natOfDigits_paddedDigits 2 seconds
  have hseconds := isNumber_paddedDigits 2 seconds
  unfold secondsText ticksText
  by_cases h0 : ticks = 0
  · have hwhole := SecondsText.whole hseconds (by omega)
    rw [hvalue] at hwhole
    simpa [h0] using hwhole
  · have hlen := length_paddedDigits 7 ticks (by decide) ht
    have hfraction := SecondsText.fraction hseconds (by omega) (isNumber_paddedDigits 7 ticks)
      (by omega)
    rw [hvalue, natOfDigits_paddedDigits, hlen] at hfraction
    rw [if_neg h0]
    exact hfraction

/-- What stands behind the days. -/
def clockText (seconds ticks : Nat) : List Char :=
  paddedDigits 2 (seconds % 86400 / 3600) ++ ':' ::
    (paddedDigits 2 (seconds % 3600 / 60) ++ ':' :: secondsText (seconds % 60) ticks)

theorem clockText_written (seconds : Nat) (ht : ticks < 10 ^ 7) :
    ClockText (clockText seconds ticks) (seconds % 86400 * nanosPerSecond + ticks * 100) := by
  have hhours := natOfDigits_paddedDigits 2 (seconds % 86400 / 3600)
  have hminutes := natOfDigits_paddedDigits 2 (seconds % 3600 / 60)
  have hrest : SecondsText (secondsText (seconds % 60) ticks) _ :=
    secondsText_written (by omega) ht
  have hclock := ClockText.seconds (isNumber_paddedDigits 2 (seconds % 86400 / 3600)) (by omega)
    (isNumber_paddedDigits 2 (seconds % 3600 / 60)) (by omega) hrest
  have hsum : (seconds % 86400 / 3600 * 3600 + seconds % 3600 / 60 * 60) * nanosPerSecond +
      (seconds % 60 * nanosPerSecond + ticks * 100) =
        seconds % 86400 * nanosPerSecond + ticks * 100 := by
    simp only [nanosPerSecond]
    omega
  rw [hhours, hminutes, hsum] at hclock
  exact hclock

/-- Without days there is no point before the clock. -/
theorem spanText_written (seconds : Nat) (ht : ticks < 10 ^ 7) :
    SpanText (unsignedText seconds ticks) (seconds * nanosPerSecond + ticks * 100) := by
  have hclock := clockText_written seconds ht
  have hsum : seconds / 86400 * 86400 * nanosPerSecond +
      (seconds % 86400 * nanosPerSecond + ticks * 100) =
        seconds * nanosPerSecond + ticks * 100 := by
    simp only [nanosPerSecond]
    omega
  unfold unsignedText hoursText daysText
  by_cases h0 : seconds / 86400 = 0
  · simp only [h0, Nat.zero_mul, Nat.zero_add] at hsum
    rw [if_pos h0, List.nil_append, ← hsum]
    exact .clock hclock
  · have hspan := SpanText.daysClock (isNumber_digits (seconds / 86400)) hclock
    rw [natOfDigits_digits, hsum] at hspan
    rw [if_neg h0, List.append_assoc, List.append_assoc]
    exact hspan

/-! ## The text -/

theorem documented_text (d : TimeLimit) : Documented d.text d.wholeTicks := by
  have hticks : d.nanos.natAbs % nanosPerSecond / 100 < 10 ^ 7 := by
    simp only [nanosPerSecond]
    omega
  have hspan := spanText_written (d.nanos.natAbs / nanosPerSecond) hticks
  have hsum : d.nanos.natAbs / nanosPerSecond * nanosPerSecond +
      d.nanos.natAbs % nanosPerSecond / 100 * 100 = d.nanos.natAbs / 100 * 100 := by
    simp only [nanosPerSecond]
    omega
  have hnanos : d.wholeTicks.nanos = _ := tdiv_ticks d.nanos
  rw [hsum] at hspan
  rw [text_eq]
  by_cases hneg : d.nanos < 0
  · rw [if_pos hneg] at hnanos ⊢
    exact .hyphen hspan hnanos
  · rw [if_neg hneg] at hnanos ⊢
    exact .plain hspan hnanos

theorem noBlanks_text (d : TimeLimit) : NoBlanks d.text := by
  intro c hc
  by_contra hblank
  have hdigit : c.isDigit = false := by
    by_contra h
    exact hblank (isBlank_of_isDigit (by simpa using h))
  refine d.not_mem_text hdigit ?_ ?_ ?_ hc <;> rintro rfl <;> exact hblank (by decide)

theorem read_toString (d : TimeLimit) : read d.toString = .ok d.wholeTicks := by
  have htrim : trim d.toString.toList = d.text := by
    rw [toString, String.toList_ofList, trim_eq_self d.noBlanks_text]
  have hdocumented := d.documented_text
  rw [← htrim] at hdocumented
  exact (read_eq_ok hdocumented.plain_body).mpr hdocumented

/-! ## Top theorem -/

/-- The text of every limit is read, as the limit without what lies below 100 ns, toward zero.  So a
whole number of units of 100 ns is read back as it was, and no two such limits share a text. -/
theorem reads_back_whole_ticks (d : TimeLimit) :
    read d.toString = .ok d.wholeTicks ∧
      (d.HasWholeTicks → read d.toString = .ok d) ∧
      ∀ e : TimeLimit, d.HasWholeTicks → e.HasWholeTicks → d.toString = e.toString → d = e := by
  have hback {e : TimeLimit} (h : e.HasWholeTicks) : read e.toString = .ok e := by
    rw [read_toString, wholeTicks_eq_self h]
  refine ⟨d.read_toString, hback, fun e hd he htext => ?_⟩
  have hsame := hback hd
  rw [htext, hback he] at hsame
  exact (Except.ok.inj hsame).symm

/-- The longest limits of both signs. -/
theorem reads_back_longest_limits :
    let d : TimeLimit := ⟨longestLimit, by decide⟩
    d.HasWholeTicks ∧ d.neg.HasWholeTicks ∧ read d.toString = .ok d ∧
      read d.neg.toString = .ok d.neg ∧ d.toString ≠ d.neg.toString := by
  intro d
  have hd : d.HasWholeTicks := by decide
  have hneg : d.neg.HasWholeTicks := by decide
  obtain ⟨-, hback, hinjective⟩ := reads_back_whole_ticks d
  obtain ⟨-, hback', -⟩ := reads_back_whole_ticks d.neg
  have hne : d ≠ d.neg := by decide
  exact ⟨hd, hneg, hback hd, hback' hneg, fun h => hne (hinjective d.neg hd hneg h)⟩

end LogWatch.Time.TimeLimit
