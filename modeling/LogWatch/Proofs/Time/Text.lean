import LogWatch.Proofs.Text.Lines
import LogWatch.Proofs.Text.Reader
import LogWatch.Proofs.Time.Calendar
import LogWatch.Time.Text

/-!
# Written times read back

The reader of events takes back every time that is written, whatever its year, its fraction
and its offset.  The reader of records takes back the text of an instant exactly when the year
of the instant has four digits; the text of any other year is in neither of its layouts.

    Timestamp.read? relaxed t.text = some t                       (Timestamp.read?_relaxed_text)
    Instant.readRecord? t.toString = if t.HasPlainYear then some t else none
                                                                  (Instant.readRecord?_toString)
    s.text = t.text → s = t                                       (Instant.text_injective)
-/

namespace LogWatch.Time

open LogWatch.Text

/-- What the clock of a timestamp shows. -/
def Timestamp.face (t : Timestamp) : Shown :=
  let second := (t.shownSecond % secondsPerDay).toNat
  ⟨Date.ofDayNumber (t.shownSecond / secondsPerDay), second / 3600, second / 60 % 60,
    second % 60 + if t.instant.isLeap then 1 else 0, t.instant.nano % nanosPerSecond⟩

/-- The year in which a clock of UTC shows the instant. -/
def Instant.year (t : Instant) : Int := (Date.ofDayNumber (t.second / secondsPerDay)).year

/-- The year is written with four digits and no sign. -/
def Instant.HasPlainYear (t : Instant) : Prop := 0 ≤ t.year ∧ t.year ≤ 9999

instance (t : Instant) : Decidable t.HasPlainYear := inferInstanceAs (Decidable (_ ∧ _))

/-! ## The parts of a time -/

namespace Layout

open Reader

/-- A class that holds the digits and the point. -/
def isFraction (c : Char) : Bool := c.isDigit || c == '.'

theorem fraction_digits {width n : Nat} (hw : 0 < width) (h9 : width ≤ 9) (h : n < 10 ^ width)
    {rest : List Char} (hr : StopsAt Char.isDigit rest) :
    fraction ('.' :: paddedDigits width n ++ rest) = some (n * 10 ^ (9 - width), rest) := by
  have hlen := length_paddedDigits width n hw h
  have hrun : (paddedDigits width n ++ rest).takeWhile Char.isDigit = paddedDigits width n :=
    takeWhile_append_of_stopsAt (paddedDigits_all_isDigit width n) hr
  have hne : (paddedDigits width n).isEmpty = false := by
    rw [List.isEmpty_eq_false_iff, ← List.length_pos_iff]
    omega
  have hdrop : (paddedDigits width n ++ rest).drop (paddedDigits width n).length = rest :=
    List.drop_left
  rw [List.cons_append]
  unfold fraction
  simp only [hrun, hne, hdrop]
  rw [List.take_of_length_le (by omega), natOfDigits_padEnd, natOfDigits_paddedDigits, hlen]
  rfl

theorem fraction_fractionText {nano : Nat} (h : nano < nanosPerSecond) {rest : List Char}
    (hr : StopsAt isFraction rest) : fraction (fractionText nano ++ rest) = some (nano, rest) := by
  have hd : StopsAt Char.isDigit rest := fun c hc => by
    have := hr c hc
    simp only [isFraction, Bool.or_eq_false_iff] at this
    exact this.1
  unfold nanosPerSecond at h
  unfold fractionText
  split
  · next h0 =>
    subst h0
    cases rest with
    | nil => rfl
    | cons c rest =>
      have hc : c ≠ '.' := by
        have := stopsAt_cons.mp hr
        simp only [isFraction, Bool.or_eq_false_iff, beq_eq_false_iff_ne] at this
        exact this.2
      unfold fraction
      simp [hc]
  · have hread {width n : Nat} (hw : 0 < width) (h9 : width ≤ 9)
        (hn : n * 10 ^ (9 - width) = nano) (hlt : n < 10 ^ width) :
        fraction ('.' :: paddedDigits width n ++ rest) = some (nano, rest) := by
      rw [fraction_digits hw h9 hlt hd, hn]
    split
    · exact hread (by decide) (by decide) (by omega) (by omega)
    · split
      · exact hread (by decide) (by decide) (by omega) (by omega)
      · exact hread (by decide) (by decide) (by omega) (by omega)

theorem sign_cons_minus (rest : List Char) : sign ('-' :: rest) = some (true, rest) := rfl

theorem sign_cons_plus (rest : List Char) : sign ('+' :: rest) = some (false, rest) := rfl

/-- A separator that takes the colon before the minutes of an offset. -/
def TakesColon (separator : Reader Unit) : Prop :=
  ∀ n rest, separator (':' :: (paddedDigits 2 n ++ rest)) = some ((), paddedDigits 2 n ++ rest)

theorem takesColon_exactly : TakesColon (exactly ':') := fun _ _ => exactly_cons _ _

theorem takesColon_skip : TakesColon (skip fun c => c == ':' || isBlank c) := by
  intro n rest
  obtain ⟨c, hc, hd⟩ := head_paddedDigits 2 n rest
  have hstop : StopsAt (fun c => c == ':' || isBlank c) (paddedDigits 2 n ++ rest) := by
    intro d hm
    rw [hc] at hm
    cases hm
    have hne : c ≠ ':' := ne_of_test hd rfl
    simp [hne, isBlank_of_isDigit hd]
  have hcolon : [':'].all (fun c => c == ':' || isBlank c) = true := by decide
  have hdrop := dropWhile_append_of_stopsAt hcolon hstop
  simpa [skip] using hdrop

/-- A sign and the hours and minutes after it. -/
theorem offsetNumber_digits {separator : Reader Unit} (hs : TakesColon separator) {c : Char}
    {behind : Bool} (hsign : ∀ rest, sign (c :: rest) = some (behind, rest)) {n : Nat}
    (h : n < 1440) (rest : List Char) :
    offset.offsetNumber separator
        (c :: (paddedDigits 2 (n / 60) ++ ':' :: (paddedDigits 2 (n % 60) ++ rest))) =
      some (if behind then -(n : Int) else n, rest) := by
  have hh : n / 60 < 10 ^ 2 := by omega
  have hm : n % 60 < 10 ^ 2 := by omega
  have hlast : n % 60 ≤ 59 := by omega
  have htotal : ((n / 60 : Nat) : Int) * 60 + ((n % 60 : Nat) : Int) = n := by omega
  unfold offset.offsetNumber
  rw [bind_of_eq_some (hsign _),
    bind_of_eq_some (number_paddedDigits (by decide) (Nat.le_refl 2) hh _),
    bind_of_eq_some (hs _ _),
    bind_of_eq_some (number_paddedDigits (by decide) (Nat.le_refl 2) hm _),
    bind_of_eq_some ((guard_apply _ _).trans (if_pos hlast)), pure_apply]
  rw [htotal]

theorem offset_offsetText {separator : Reader Unit} (hs : TakesColon separator) {o : Int}
    (h : o.natAbs < 1440) (rest : List Char) :
    offset separator (offsetText o ++ rest) = some (o, rest) := by
  unfold offsetText
  split
  · next h0 => subst h0; rfl
  · split
    · have hread := offsetNumber_digits hs sign_cons_minus h rest
      have hvalue : -(o.natAbs : Int) = o := by omega
      rw [if_pos rfl, hvalue] at hread
      simp only [List.cons_append, List.append_assoc]
      exact hread
    · have hread := offsetNumber_digits hs sign_cons_plus h rest
      have hvalue : (o.natAbs : Int) = o := by omega
      rw [if_neg Bool.false_ne_true, hvalue] at hread
      simp only [List.cons_append, List.append_assoc]
      exact hread

/-- No part of `UTC` begins like a written offset. -/
theorem utc_offsetText (o : Int) (rest : List Char) : utc (offsetText o ++ rest) = none := by
  unfold offsetText
  split
  · rfl
  · split <;> rfl

theorem stopsAt_offsetText (o : Int) (rest : List Char) :
    StopsAt isFraction (offsetText o ++ rest) ∧ StopsAt isBlank (offsetText o ++ rest) := by
  unfold offsetText
  split
  · exact ⟨stopsAt_cons.mpr (by decide), stopsAt_cons.mpr (by decide)⟩
  · split <;> exact ⟨stopsAt_cons.mpr (by decide), stopsAt_cons.mpr (by decide)⟩

theorem blanks_cons {c : Char} (h : isBlank c = false) (rest : List Char) :
    blanks (c :: rest) = some ((), c :: rest) :=
  blanks_of_stopsAt (stopsAt_cons.mpr h)

section

variable {rest : List Char} (hr : StopsAt Char.isDigit rest)

include hr

theorem year_minus (n : Nat) : year ('-' :: (paddedDigits 4 n ++ rest)) = some (-(n : Int), rest) := by
  have hblank := blanks_cons (show isBlank '-' = false by decide)
  unfold year
  simp only [bind_apply, hblank, Option.bind_some, get_apply, set_apply,
    wholeNumber_paddedDigits 4 n hr, pure_apply]

theorem year_plus (n : Nat) : year ('+' :: (paddedDigits 4 n ++ rest)) = some ((n : Int), rest) := by
  have hblank := blanks_cons (show isBlank '+' = false by decide)
  unfold year
  simp only [bind_apply, hblank, Option.bind_some, get_apply, set_apply,
    wholeNumber_paddedDigits 4 n hr, pure_apply]

end

theorem year_unsigned {n : Nat} (h : n < 10000) (rest : List Char) :
    year (paddedDigits 4 n ++ rest) = some ((n : Int), rest) := by
  have hnumber := number_paddedDigits (by decide) (show 1 ≤ 4 by decide) h rest
  obtain ⟨c, hc, hd⟩ := head_paddedDigits 4 n rest
  obtain ⟨tail, htail⟩ := List.head?_eq_some_iff.mp hc
  have hminus : c ≠ '-' := ne_of_test hd rfl
  have hplus : c ≠ '+' := ne_of_test hd rfl
  unfold year
  simp only [bind_apply, blanks_paddedDigits, Option.bind_some, get_apply]
  rw [htail] at hnumber ⊢
  simp only [List.cons.injEq, hminus, hplus, false_and, false_implies, implies_true, bind_apply,
    hnumber, Option.bind_some, pure_apply]

theorem year_yearText (y : Int) {rest : List Char} (hr : StopsAt Char.isDigit rest) :
    year (yearText y ++ rest) = some (y, rest) := by
  unfold yearText
  split
  · next h =>
    rw [year_unsigned (by omega), Int.toNat_of_nonneg h.1]
  · split
    · next hneg =>
      rw [List.cons_append, year_minus hr, Int.ofNat_natAbs_of_nonpos (Int.le_of_lt hneg), Int.neg_neg]
    · next hneg =>
      rw [List.cons_append, year_plus hr, Int.natAbs_of_nonneg (Int.not_lt.mp hneg)]

theorem shortNumber_paddedDigits {n : Nat} (h : n < 100) (rest : List Char) :
    shortNumber (paddedDigits 2 n ++ rest) = some (n, rest) := by
  unfold shortNumber
  simp only [bind_apply, blanks_paddedDigits, Option.bind_some,
    number_paddedDigits (by decide) (show 1 ≤ 2 by decide) h]

theorem dateEnd_cons (rest : List Char) : dateEnd ('T' :: rest) = some ((), rest) := rfl

end Layout

/-! ## Whole times -/

open Reader Layout

namespace Timestamp

variable (t : Timestamp)

theorem face_bounds :
    t.face.date.month < 100 ∧ t.face.date.day < 100 ∧ t.face.hour ≤ 23 ∧ t.face.minute ≤ 59 ∧
      t.face.second ≤ 60 := by
  have hs : (t.shownSecond % secondsPerDay).toNat < 86400 := by unfold secondsPerDay; omega
  refine ⟨Date.ofDayNumber_month_lt _, Date.ofDayNumber_day_lt _, ?_, ?_, ?_⟩
  · simp only [face]; omega
  · simp only [face]; omega
  · simp only [face]; split <;> omega

/-- The text in terms of what the clock shows. -/
theorem text_eq_face :
    t.text = yearText t.face.date.year ++ '-' :: (paddedDigits 2 t.face.date.month ++
      '-' :: (paddedDigits 2 t.face.date.day ++ 'T' :: (paddedDigits 2 t.face.hour ++
      ':' :: (paddedDigits 2 t.face.minute ++ ':' :: (paddedDigits 2 t.face.second ++
      (fractionText t.face.nano ++ offsetText t.offset)))))) := by
  simp only [text, dateText, clockText, face, List.append_assoc, List.cons_append]

theorem relaxed_text : relaxed t.text = some ((t.face, t.offset), []) := by
  obtain ⟨hmonth, hday, hhour, hminute, hsecond⟩ := t.face_bounds
  have hnano : t.face.nano < nanosPerSecond := Nat.mod_lt _ (by decide)
  have hminus := blanks_cons (show isBlank '-' = false by decide)
  have hcolon := blanks_cons (show isBlank ':' = false by decide)
  obtain ⟨hf, hb⟩ := stopsAt_offsetText t.offset []
  have hutc := utc_offsetText t.offset []
  have hoffset := offset_offsetText takesColon_skip t.offset_lt []
  rw [List.append_nil] at hf hb hutc hoffset
  rw [text_eq_face]
  unfold relaxed
  rw [bind_of_eq_some (year_yearText _ (stopsAt_cons.mpr (by decide))), bind_of_eq_some (hminus _),
    bind_of_eq_some (exactly_cons _ _), bind_of_eq_some (shortNumber_paddedDigits hmonth _),
    bind_of_eq_some (hminus _), bind_of_eq_some (exactly_cons _ _),
    bind_of_eq_some (shortNumber_paddedDigits hday _), bind_of_eq_some (dateEnd_cons _),
    bind_of_eq_some (shortNumber_paddedDigits (by omega) _), bind_of_eq_some (hcolon _),
    bind_of_eq_some (exactly_cons _ _), bind_of_eq_some (shortNumber_paddedDigits (by omega) _),
    bind_of_eq_some (hcolon _), bind_of_eq_some (exactly_cons _ _),
    bind_of_eq_some (shortNumber_paddedDigits (by omega) _),
    bind_of_eq_some (fraction_fractionText hnano hf), bind_of_eq_some (blanks_of_stopsAt hb),
    bind_of_eq_some ((orElse_of_eq_none (bind_of_eq_none hutc _) _).trans hoffset),
    bind_of_eq_some (blanks_of_stopsAt (stopsAt_nil isBlank)), pure_apply]

/-- The strict reader takes every character that may end a date. -/
theorem strict_face {c : Char} (hc : ∀ rest, dateEnd (c :: rest) = some ((), rest))
    (h : 0 ≤ t.face.date.year ∧ t.face.date.year ≤ 9999) :
    strict (paddedDigits 4 t.face.date.year.toNat ++ '-' :: (paddedDigits 2 t.face.date.month ++
      '-' :: (paddedDigits 2 t.face.date.day ++ c :: (paddedDigits 2 t.face.hour ++
      ':' :: (paddedDigits 2 t.face.minute ++ ':' :: (paddedDigits 2 t.face.second ++
      (fractionText t.face.nano ++ offsetText t.offset))))))) = some ((t.face, t.offset), []) := by
  obtain ⟨hmonth, hday, hhour, hminute, hsecond⟩ := t.face_bounds
  have hnano : t.face.nano < nanosPerSecond := Nat.mod_lt _ (by decide)
  obtain ⟨hf, -⟩ := stopsAt_offsetText t.offset []
  have hoffset := offset_offsetText takesColon_exactly t.offset_lt []
  rw [List.append_nil] at hf hoffset
  have hyear : ((t.face.date.year.toNat : Nat) : Int) = t.face.date.year := by omega
  have hfour : t.face.date.year.toNat < 10 ^ 4 := by omega
  have two {n : Nat} (hn : n < 100) (rest : List Char) :
      number 2 2 (paddedDigits 2 n ++ rest) = some (n, rest) :=
    number_paddedDigits (by decide) (Nat.le_refl 2) hn rest
  unfold strict
  rw [bind_of_eq_some (number_paddedDigits (by decide) (Nat.le_refl 4) hfour _),
    bind_of_eq_some (exactly_cons _ _), bind_of_eq_some (two hmonth _),
    bind_of_eq_some (exactly_cons _ _), bind_of_eq_some (two hday _),
    bind_of_eq_some (hc _), bind_of_eq_some (two (by omega) _),
    bind_of_eq_some (exactly_cons _ _), bind_of_eq_some (two (by omega) _),
    bind_of_eq_some (exactly_cons _ _), bind_of_eq_some (two (by omega) _),
    bind_of_eq_some (fraction_fractionText hnano hf), bind_of_eq_some hoffset, pure_apply, hyear]

theorem strict_text (h : 0 ≤ t.face.date.year ∧ t.face.date.year ≤ 9999) :
    strict t.text = some ((t.face, t.offset), []) := by
  rw [text_eq_face, yearText, if_pos h]
  exact t.strict_face dateEnd_cons h

/-- A year that is not written plainly begins with a sign, which is no digit. -/
theorem strict_text_eq_none (h : ¬(0 ≤ t.face.date.year ∧ t.face.date.year ≤ 9999)) :
    strict t.text = none := by
  have hsign : ∃ c rest, t.text = c :: rest ∧ c.isDigit = false := by
    rw [text_eq_face, yearText, if_neg h]
    split
    · exact ⟨'-', _, rfl, by decide⟩
    · exact ⟨'+', _, rfl, by decide⟩
  obtain ⟨c, rest, hc, hd⟩ := hsign
  rw [hc]
  unfold strict
  exact bind_of_eq_none (number_of_stopsAt (by decide) (stopsAt_cons.mpr hd)) _

/-- Old records have no `T` between the date and the time. -/
theorem legacy_text_eq_none : legacy t.text = none := by
  obtain ⟨hmonth, hday, -⟩ := t.face_bounds
  have hstuck (rest : List Char) : shortNumber ('T' :: rest) = none := by
    unfold shortNumber
    rw [bind_of_eq_some (blanks_cons (by decide) _)]
    exact number_of_stopsAt (by decide) (stopsAt_cons.mpr (by decide))
  rw [text_eq_face]
  unfold legacy
  rw [bind_of_eq_some (year_yearText _ (stopsAt_cons.mpr (by decide))),
    bind_of_eq_some (exactly_cons _ _), bind_of_eq_some (shortNumber_paddedDigits hmonth _),
    bind_of_eq_some (exactly_cons _ _), bind_of_eq_some (shortNumber_paddedDigits hday _)]
  exact bind_of_eq_none (hstuck _) _

/-- A whole number of minutes between the clocks leaves a leap second at the end of its minute. -/
theorem shownSecond_of_isLeap (h : nanosPerSecond ≤ t.instant.nano) : t.shownSecond % 60 = 59 := by
  have := t.instant.leap h
  unfold shownSecond
  omega

theorem face_clock :
    t.face.hour * 3600 + t.face.minute * 60 + min t.face.second 59 =
      (t.shownSecond % secondsPerDay).toNat := by
  have hleap := t.shownSecond_of_isLeap
  simp only [face, Instant.isLeap, decide_eq_true_eq]
  unfold secondsPerDay
  split
  · next h => have := hleap h; omega
  · omega

theorem face_nano :
    (if t.face.second = 60 then t.face.nano + nanosPerSecond else t.face.nano) =
      t.instant.nano := by
  have hleap := t.shownSecond_of_isLeap
  have hlt := t.instant.nano_lt
  simp only [face, Instant.isLeap, decide_eq_true_eq]
  unfold secondsPerDay
  by_cases h : nanosPerSecond ≤ t.instant.nano
  · have := hleap h
    rw [if_pos h, if_pos (by omega), Nat.mod_eq_sub_mod h, Nat.mod_eq_of_lt (by omega)]
    omega
  · rw [if_neg h, if_neg (by omega), Nat.mod_eq_of_lt (by omega)]

/-- What the clock shows stands for the time. -/
theorem resolve?_face : t.face.resolve? = some (t.shownSecond, t.instant.nano) := by
  obtain ⟨-, -, hhour, hminute, hsecond⟩ := t.face_bounds
  have hday : t.face.date.dayNumber = t.shownSecond / secondsPerDay := Date.dayNumber_ofDayNumber _
  have hclock : t.face.date.dayNumber * secondsPerDay +
      (t.face.hour * 3600 + t.face.minute * 60 + min t.face.second 59 : Nat) = t.shownSecond := by
    rw [hday, face_clock]
    unfold secondsPerDay
    omega
  unfold Shown.resolve?
  rw [if_pos ⟨Date.exists_ofDayNumber _, hhour, hminute, hsecond⟩]
  rw [face_nano]
  simp only [hclock]
  exact if_pos t.shown

theorem read?_relaxed_text : read? relaxed t.text = some t := by
  unfold read?
  rw [whole_eq_some t.relaxed_text]
  simp only [Option.bind_eq_bind, Option.bind_some, resolve?_face, ofShown?_eq]

theorem text_injective {s t : Timestamp} (h : s.text = t.text) : s = t := by
  have hs := s.read?_relaxed_text
  rw [h, read?_relaxed_text] at hs
  exact (Option.some.inj hs).symm

end Timestamp

namespace Instant

theorem text_injective {s t : Instant} (h : s.text = t.text) : s = t :=
  congrArg Timestamp.instant (Timestamp.text_injective h)

theorem toString_injective {s t : Instant} (h : s.toString = t.toString) : s = t :=
  text_injective (String.ofList_injective h)

theorem year_face (t : Instant) : (Timestamp.ofInstant t).face.date.year = t.year := by
  simp only [Timestamp.face, Timestamp.shownSecond, Timestamp.ofInstant, year]
  simp

/-- A record gives back exactly the instants of four-digit years. -/
theorem readRecord?_toString (t : Instant) :
    readRecord? t.toString = if t.HasPlainYear then some t else none := by
  have hyear := t.year_face
  unfold readRecord? Timestamp.readStrict? toString
  rw [String.toList_ofList]
  by_cases h : t.HasPlainYear
  · have hread : Timestamp.read? strict t.text = some (Timestamp.ofInstant t) := by
      unfold Timestamp.read?
      rw [text, whole_eq_some (Timestamp.strict_text _ (by rw [hyear]; exact h))]
      simp only [Option.bind_eq_bind, Option.bind_some, Timestamp.resolve?_face,
        Timestamp.ofShown?_eq]
    rw [hread, if_pos h]
    rfl
  · have hstrict : Timestamp.read? strict t.text = none := by
      unfold Timestamp.read?
      rw [text, whole_eq_none (Timestamp.strict_text_eq_none _ (by rw [hyear]; exact h))]
      rfl
    have hlegacy : Timestamp.read? legacy t.text = none := by
      unfold Timestamp.read?
      rw [text, whole_eq_none (Timestamp.legacy_text_eq_none _)]
      rfl
    rw [hstrict, hlegacy, if_neg h]
    rfl

end Instant

/-! ## A written time has no blanks -/

theorem noBlanks_yearText (y : Int) : NoBlanks (yearText y) := by
  unfold yearText
  split
  · exact noBlanks_paddedDigits _ _
  · exact .cons (by split <;> decide) (noBlanks_paddedDigits _ _)

theorem noBlanks_fractionText (nano : Nat) : NoBlanks (fractionText nano) := by
  unfold fractionText
  split
  · exact .nil
  · split
    · exact .cons (by decide) (noBlanks_paddedDigits _ _)
    · split
      · exact .cons (by decide) (noBlanks_paddedDigits _ _)
      · exact .cons (by decide) (noBlanks_paddedDigits _ _)

theorem noBlanks_offsetText (o : Int) : NoBlanks (offsetText o) := by
  unfold offsetText
  split
  · exact .cons (by decide) .nil
  · exact .cons (by split <;> decide)
      ((noBlanks_paddedDigits _ _).append (.cons (by decide) (noBlanks_paddedDigits _ _)))

theorem Timestamp.noBlanks_text (t : Timestamp) : NoBlanks t.text := by
  have two (n : Nat) := noBlanks_paddedDigits 2 n
  rw [text_eq_face]
  exact (noBlanks_yearText _).append (.cons (by decide) ((two _).append (.cons (by decide)
    ((two _).append (.cons (by decide) ((two _).append (.cons (by decide) ((two _).append
    (.cons (by decide) ((two _).append ((noBlanks_fractionText _).append
    (noBlanks_offsetText _))))))))))))

theorem Timestamp.text_ne_nil (t : Timestamp) : t.text ≠ [] := by
  rw [text_eq_face]
  simp

theorem Instant.noBlanks_text (t : Instant) : NoBlanks t.text := Timestamp.noBlanks_text _

theorem Instant.text_ne_nil (t : Instant) : t.text ≠ [] := Timestamp.text_ne_nil _

end LogWatch.Time
