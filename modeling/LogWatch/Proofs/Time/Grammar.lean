import LogWatch.Proofs.Result
import LogWatch.Proofs.Text.Decimal
import LogWatch.Proofs.Text.Lines
import LogWatch.Time.Limit
import Mathlib.Data.List.Basic
import Mathlib.Data.List.TakeWhile
import Mathlib.Data.Option.Basic

/-!
# The layout of time limits

A time limit is a number of days, or hours and minutes with perhaps days before and seconds after
them; a hyphen may stand before it all.  The reader takes every text of this layout for the sum of
its parts.  It also takes texts that are not of the layout: a part may have a sign of its own, and
nothing need stand after the point behind the seconds.  Apart from these it takes no other text.
In a text of the layout no sum wraps, and only the fraction can lead a sum out of range that was in
it, which ends the program.

    Documented (trim s.toList) d ↔ Plain (body (trim s.toList)) ∧ read s = .ok d
                                                                      (reads_documented_layout)
-/

namespace LogWatch

open LogWatch.Text

namespace Time.TimeLimit

/-! ## Parts of a text -/

theorem exists_int64 {n : Nat} (h : n ≤ 9223372036854775807) : ∃ x : Int64, x.toInt = n :=
  ⟨Int64.ofNat n, Int64.toInt_ofNat_of_lt (by omega)⟩

/-- Parts of the size that a clock has do not wrap. -/
theorem toInt_clock {hours minutes seconds : Int64} {h m s : Nat} (hh : hours.toInt = h)
    (hm : minutes.toInt = m) (hs : seconds.toInt = s) (hle : h ≤ 23) (hle' : m ≤ 59)
    (hle'' : s ≤ 59) :
    (hours * 3600 + minutes * 60 + seconds).toInt = (h * 3600 + m * 60 + s : Nat) := by
  have hhour : (3600 : Int64).toInt = 3600 := rfl
  have hminute : (60 : Int64).toInt = 60 := rfl
  simp (disch := omega) only [Int64.toInt_add, Int64.toInt_mul, hh, hm, hs, hhour, hminute,
    Int.bmod_eq_of_le_mul_two]
  omega

/-- A part far enough below zero does. -/
example : clock? "-1152921504606846976:01:30".toList = some (90, 0) := by decide +kernel

theorem bne_of_not_mem {c : Char} {cs : List Char} (h : c ∉ cs) : ∀ x ∈ cs, (x != c) = true :=
  fun _ hx => bne_iff_ne.mpr fun he => h (he ▸ hx)

theorem splitAt?_append {c : Char} {xs : List Char} (h : c ∉ xs) (ys : List Char) :
    splitAt? c (xs ++ c :: ys) = some (xs, ys) := by
  unfold splitAt?
  rw [List.dropWhile_append_of_pos (bne_of_not_mem h),
    List.takeWhile_append_of_pos (bne_of_not_mem h)]
  simp

theorem splitAt?_of_not_mem {c : Char} {cs : List Char} (h : c ∉ cs) : splitAt? c cs = none := by
  unfold splitAt?
  rw [List.dropWhile_eq_nil_iff.mpr (bne_of_not_mem h)]

/-- A text is split at the first place where it can be. -/
theorem splitAt?_eq_some_iff {c : Char} {cs xs ys : List Char} :
    splitAt? c cs = some (xs, ys) ↔ cs = xs ++ c :: ys ∧ c ∉ xs := by
  constructor
  · intro h
    by_cases hc : c ∈ cs
    · obtain ⟨as, bs, rfl, has⟩ := List.eq_append_cons_of_mem hc
      rw [splitAt?_append has] at h
      obtain ⟨rfl, rfl⟩ := Prod.mk.inj (Option.some.inj h)
      exact ⟨rfl, has⟩
    · rw [splitAt?_of_not_mem hc] at h
      cases h
  · rintro ⟨rfl, hxs⟩
    exact splitAt?_append hxs ys

theorem part?_eq_some_iff {cs : List Char} {x : Int64} :
    part? cs = some x ↔ readInt? cs = some x.toInt := by
  unfold part?
  simp only [Option.bind_eq_some_iff, int64?_eq_some_iff, exists_eq_right']

theorem part?_of_isNumber {cs : List Char} (h : IsNumber cs)
    (hle : natOfDigits cs ≤ 9223372036854775807) :
    ∃ x, part? cs = some x ∧ x.toInt = natOfDigits cs := by
  obtain ⟨x, hx⟩ := exists_int64 hle
  have hread : readNat? cs = some (natOfDigits cs) := readNat?_eq_some_iff.mpr ⟨h, rfl⟩
  refine ⟨x, part?_eq_some_iff.mpr ?_, hx⟩
  rw [readInt?_of_no_sign (h.not_mem rfl) (h.not_mem rfl), hread, hx]
  rfl

theorem isNumber_of_part? {cs : List Char} {x : Int64} (hp : '+' ∉ cs) (hm : '-' ∉ cs)
    (h : part? cs = some x) : IsNumber cs ∧ x.toInt = natOfDigits cs := by
  rw [part?_eq_some_iff, readInt?_of_no_sign hp hm, Option.map_eq_some_iff] at h
  obtain ⟨n, hn, hx⟩ := h
  obtain ⟨hnumber, rfl⟩ := readNat?_eq_some_iff.mp hn
  exact ⟨hnumber, hx.symm⟩

theorem fraction?_eq_some_iff {cs : List Char} {n : Nat} :
    fraction? cs = some n ↔ cs.length ≤ 9 ∧ (∀ c ∈ cs, c.isDigit = true) ∧
      n = natOfDigits cs * 10 ^ (9 - cs.length) := by
  unfold fraction?
  rw [natOfDigits_padEnd, ← List.all_eq_true, ← and_assoc]
  split
  · next h => rw [Option.some_inj, and_iff_right h, eq_comm]
  · next h =>
    constructor
    · nofun
    · exact fun ⟨hdigits, _⟩ => absurd hdigits h

theorem fraction?_lt {cs : List Char} {n : Nat} (h : fraction? cs = some n) :
    n < nanosPerSecond := by
  obtain ⟨hlen, hdigits, rfl⟩ := fraction?_eq_some_iff.mp h
  have hlt := Nat.mul_lt_mul_of_pos_right (natOfDigits_lt hdigits)
    (Nat.pow_pos (n := 9 - cs.length) (show 0 < 10 by decide))
  rwa [← Nat.pow_add, Nat.add_sub_cancel' hlen] at hlt

theorem secondsPart?_zero : secondsPart? ['0'] = some (0, 0) := by
  decide +kernel

theorem ofNanos?_eq_some_iff {n : Int} {d : TimeLimit} : ofNanos? n = some d ↔ d.nanos = n := by
  unfold ofNanos?
  split
  · next h =>
    rw [Option.some_inj]
    constructor
    · rintro rfl
      rfl
    · rintro rfl
      rfl
  · next h =>
    constructor
    · nofun
    · rintro rfl
      exact absurd d.inRange h

/-! ## The layout -/

/-- `ss[.fraction]`, in nanoseconds. -/
inductive SecondsText : List Char → Nat → Prop
  | whole {ss : List Char} : IsNumber ss → natOfDigits ss ≤ 59 →
      SecondsText ss (natOfDigits ss * nanosPerSecond)
  | fraction {ss fs : List Char} : IsNumber ss → natOfDigits ss ≤ 59 → IsNumber fs →
      fs.length ≤ 9 → SecondsText (ss ++ '.' :: fs)
        (natOfDigits ss * nanosPerSecond + natOfDigits fs * 10 ^ (9 - fs.length))

/-- `hh:mm[:ss[.fraction]]`, in nanoseconds. -/
inductive ClockText : List Char → Nat → Prop
  | minutes {hh mm : List Char} : IsNumber hh → natOfDigits hh ≤ 23 → IsNumber mm →
      natOfDigits mm ≤ 59 → ClockText (hh ++ ':' :: mm)
        ((natOfDigits hh * 3600 + natOfDigits mm * 60) * nanosPerSecond)
  | seconds {hh mm ss : List Char} {n : Nat} : IsNumber hh → natOfDigits hh ≤ 23 → IsNumber mm →
      natOfDigits mm ≤ 59 → SecondsText ss n → ClockText (hh ++ ':' :: (mm ++ ':' :: ss))
        ((natOfDigits hh * 3600 + natOfDigits mm * 60) * nanosPerSecond + n)

/-- Days, or `[d.]hh:mm[:ss[.fraction]]`, in nanoseconds. -/
inductive SpanText : List Char → Nat → Prop
  | days {ds : List Char} : IsNumber ds → SpanText ds (natOfDigits ds * 86400 * nanosPerSecond)
  | clock {cs : List Char} {n : Nat} : ClockText cs n → SpanText cs n
  | daysClock {ds cs : List Char} {n : Nat} : IsNumber ds → ClockText cs n →
      SpanText (ds ++ '.' :: cs) (natOfDigits ds * 86400 * nanosPerSecond + n)

/-- The text is of the layout, and the limit is the sum of its parts with the sign of the text. -/
inductive Documented : List Char → TimeLimit → Prop
  | plain {cs : List Char} {n : Nat} {d : TimeLimit} : SpanText cs n → d.nanos = n → Documented cs d
  | hyphen {cs : List Char} {n : Nat} {d : TimeLimit} : SpanText cs n → d.nanos = -n →
      Documented ('-' :: cs) d

/-- What stands after the hyphen, if there is one. -/
def body : List Char → List Char
  | '-' :: cs => cs
  | cs => cs

/-- No sign, and no point at the end. -/
structure Plain (cs : List Char) : Prop where
  no_plus : '+' ∉ cs
  no_hyphen : '-' ∉ cs
  no_last_point : cs.getLast? ≠ some '.'

theorem plain_iff {cs : List Char} :
    Plain cs ↔ '+' ∉ cs ∧ '-' ∉ cs ∧ cs.getLast? ≠ some '.' :=
  ⟨fun h => ⟨h.1, h.2, h.3⟩, fun h => ⟨h.1, h.2.1, h.2.2⟩⟩

instance (cs : List Char) : Decidable (Plain cs) := decidable_of_iff _ plain_iff.symm

theorem Plain.tail {cs rest : List Char} {c : Char} (h : Plain (cs ++ c :: rest)) : Plain rest where
  no_plus := fun hm => h.no_plus (by simp [hm])
  no_hyphen := fun hm => h.no_hyphen (by simp [hm])
  no_last_point := by
    have hlast := h.no_last_point
    rw [List.getLast?_append_cons, List.getLast?_cons] at hlast
    cases hr : rest.getLast? with
    | none => nofun
    | some d => rwa [hr] at hlast

theorem Plain.isNumber {cs : List Char} {x : Int64} (hp : Plain cs) (h : part? cs = some x) :
    IsNumber cs ∧ x.toInt = natOfDigits cs :=
  isNumber_of_part? hp.no_plus hp.no_hyphen h

theorem Plain.isNumber_head {cs rest : List Char} {c : Char} {x : Int64}
    (hp : Plain (cs ++ c :: rest)) (h : part? cs = some x) :
    IsNumber cs ∧ x.toInt = natOfDigits cs :=
  isNumber_of_part? (fun hm => hp.no_plus (by simp [hm])) (fun hm => hp.no_hyphen (by simp [hm])) h

theorem plain_of_isNumber {cs : List Char} (h : IsNumber cs) : Plain cs where
  no_plus := h.not_mem rfl
  no_hyphen := h.not_mem rfl
  no_last_point := fun hl => h.not_mem (c := '.') rfl (List.mem_of_getLast? hl)

theorem not_mem_part {ds cs : List Char} {c sign : Char} (hds : IsNumber ds)
    (hdigit : sign.isDigit = false) (hne : sign ≠ c) (h : sign ∉ cs) : sign ∉ ds ++ c :: cs := by
  simp [hds.not_mem hdigit, hne, h]

/-- A number and a mark may be put before a part. -/
theorem Plain.cons_part {ds cs : List Char} {c : Char} (hds : IsNumber ds)
    (hc : c = '.' ∨ c = ':') (hne : cs ≠ []) (h : Plain cs) : Plain (ds ++ c :: cs) where
  no_plus := not_mem_part hds rfl (by rcases hc with rfl | rfl <;> decide) h.no_plus
  no_hyphen := not_mem_part hds rfl (by rcases hc with rfl | rfl <;> decide) h.no_hyphen
  no_last_point := by
    rw [List.getLast?_append_cons, List.getLast?_cons_of_ne_nil hne]
    exact h.no_last_point

theorem SecondsText.plain {cs : List Char} {n : Nat} (h : SecondsText cs n) : Plain cs := by
  cases h with
  | whole hss _ => exact plain_of_isNumber hss
  | fraction hss _ hfs _ => exact (plain_of_isNumber hfs).cons_part hss (.inl rfl) hfs.1

theorem SecondsText.ne_nil {cs : List Char} {n : Nat} (h : SecondsText cs n) : cs ≠ [] := by
  cases h with
  | whole hss _ => exact hss.1
  | fraction => simp

theorem ClockText.plain {cs : List Char} {n : Nat} (h : ClockText cs n) : Plain cs := by
  cases h with
  | minutes hhh _ hmm _ => exact (plain_of_isNumber hmm).cons_part hhh (.inr rfl) hmm.1
  | seconds hhh _ hmm _ hss =>
    exact (hss.plain.cons_part hmm (.inr rfl) hss.ne_nil).cons_part hhh (.inr rfl) (by simp)

theorem ClockText.ne_nil {cs : List Char} {n : Nat} (h : ClockText cs n) : cs ≠ [] := by
  cases h <;> simp

theorem SpanText.plain {cs : List Char} {n : Nat} (h : SpanText cs n) : Plain cs := by
  cases h with
  | days hds => exact plain_of_isNumber hds
  | clock hclock => exact hclock.plain
  | daysClock hds hclock => exact hclock.plain.cons_part hds (.inl rfl) hclock.ne_nil

/-! ## What the reader does -/

section Reader

variable {cs : List Char} {d whole : TimeLimit} {nanos : Nat} {seconds days : Int64}

theorem secondsPart?_eq_some_iff : secondsPart? cs = some (seconds, nanos) ↔
    ∃ ss fs, (splitAt? '.' cs).getD (cs, []) = (ss, fs) ∧ part? ss = some seconds ∧
      fraction? fs = some nanos ∧ seconds.toInt ≤ 59 := by
  unfold secondsPart?
  simp only [Option.bind_eq_bind, Option.bind_eq_some_iff, Option.guard_eq_some']
  constructor
  · rintro ⟨_, hss, _, hfs, _, hle, ⟨⟩⟩
    exact ⟨_, _, rfl, hss, hfs, Int64.le_iff_toInt_le.mp hle⟩
  · rintro ⟨ss, fs, hsplit, hss, hfs, hle⟩
    rw [hsplit]
    exact ⟨_, hss, _, hfs, (), Int64.le_iff_toInt_le.mpr hle, rfl⟩

theorem clock?_eq_some_iff : clock? cs = some (seconds, nanos) ↔
    ∃ hh rest mm ss, splitAt? ':' cs = some (hh, rest) ∧
      (splitAt? ':' rest).getD (rest, ['0']) = (mm, ss) ∧
      ∃ hours minutes whole, part? hh = some hours ∧ part? mm = some minutes ∧
        secondsPart? ss = some (whole, nanos) ∧ hours.toInt ≤ 23 ∧ minutes.toInt ≤ 59 ∧
        seconds = hours * 3600 + minutes * 60 + whole := by
  unfold clock?
  simp only [Option.bind_eq_bind, Option.bind_eq_some_iff, Option.guard_eq_some']
  constructor
  · rintro ⟨⟨hh, rest⟩, hcs, hours, hhh, minutes, hmm, ⟨whole, _⟩, hss, _, ⟨hle, hle'⟩, ⟨⟩⟩
    exact ⟨hh, rest, _, _, hcs, rfl, hours, minutes, whole, hhh, hmm, hss,
      Int64.le_iff_toInt_le.mp hle, Int64.le_iff_toInt_le.mp hle', rfl⟩
  · rintro ⟨hh, rest, mm, ss, hcs, hrest, hours, minutes, whole, hhh, hmm, hss, hle, hle', rfl⟩
    refine ⟨(hh, rest), hcs, ?_⟩
    dsimp only
    rw [hrest]
    exact ⟨hours, hhh, minutes, hmm, (whole, nanos), hss, (),
      ⟨Int64.le_iff_toInt_le.mpr hle, Int64.le_iff_toInt_le.mpr hle'⟩, rfl⟩

theorem whole?_eq_some_iff : whole? days seconds = some d ↔
    (∃ x : Int64, x.toInt = days.toInt * 86400) ∧
      (∃ x : Int64, x.toInt = days.toInt * 86400 + seconds.toInt) ∧
      d.nanos = (days.toInt * 86400 + seconds.toInt) * nanosPerSecond := by
  unfold whole?
  simp only [Option.bind_eq_bind, Option.bind_eq_some_iff, int64?_eq_some_iff,
    ofNanos?_eq_some_iff]
  constructor
  · rintro ⟨x, hx, y, hy, hd⟩
    rw [hx] at hy
    exact ⟨⟨x, hx⟩, ⟨y, hy⟩, hy ▸ hd⟩
  · rintro ⟨⟨x, hx⟩, ⟨y, hy⟩, hd⟩
    exact ⟨x, hx, y, by rw [hx, hy], by rw [hy, hd]⟩

theorem daysAndClock?_eq_some_iff : daysAndClock? days cs = some (whole, nanos) ↔
    ∃ seconds, clock? cs = some (seconds, nanos) ∧ whole? days seconds = some whole := by
  unfold daysAndClock?
  simp only [Option.bind_eq_bind, Option.bind_eq_some_iff]
  constructor
  · rintro ⟨⟨seconds, nanos⟩, hclock, e, he, ⟨⟩⟩
    exact ⟨seconds, hclock, he⟩
  · rintro ⟨seconds, hclock, hwhole⟩
    exact ⟨(seconds, nanos), hclock, whole, hwhole, rfl⟩

theorem parts?_of_no_colon (h : ':' ∉ cs) : parts? cs = some (whole, nanos) ↔
    ∃ days, part? cs = some days ∧ whole.nanos = days.toInt * 86400 * nanosPerSecond ∧
      nanos = 0 := by
  unfold parts?
  rw [if_neg (by simpa using h)]
  simp only [Option.bind_eq_bind, Option.bind_eq_some_iff, ofNanos?_eq_some_iff]
  constructor
  · rintro ⟨days, hdays, e, he, ⟨⟩⟩
    exact ⟨days, hdays, he, rfl⟩
  · rintro ⟨days, hdays, hwhole, rfl⟩
    exact ⟨days, hdays, whole, hwhole, rfl⟩

/-- A point that ends days stands before every colon. -/
theorem parts?_of_point {ds clock : List Char} (hcolon : ':' ∈ cs)
    (hsplit : splitAt? '.' cs = some (ds, clock)) :
    parts? cs = if ':' ∈ ds then daysAndClock? 0 cs
      else (part? ds).bind fun days => daysAndClock? days clock := by
  unfold parts? daysPart?
  rw [if_pos (by simpa using hcolon), hsplit]
  by_cases hds : ':' ∈ ds
  · simp [hds]
  · simp only [hds, if_false, List.contains_eq_mem, decide_false, Bool.false_eq_true]
    cases part? ds <;> rfl

theorem parts?_of_no_point (hcolon : ':' ∈ cs) (hsplit : splitAt? '.' cs = none) :
    parts? cs = daysAndClock? 0 cs := by
  unfold parts? daysPart?
  rw [if_pos (by simpa using hcolon), hsplit]
  rfl

theorem plus_eq_ok_iff : whole.plus nanos = .ok d ↔ d.nanos = whole.nanos + nanos := by
  rw [← ofNanos?_eq_some_iff]
  unfold plus
  cases ofNanos? (whole.nanos + nanos) <;> simp

theorem plus_eq_overflow_iff : whole.plus nanos = .error .overflow ↔
    longestLimit < (whole.nanos + nanos).natAbs := by
  unfold plus ofNanos?
  by_cases h : (whole.nanos + nanos).natAbs ≤ longestLimit
  · rw [dif_pos h]
    simp [h]
  · rw [dif_neg h]
    simp [Nat.lt_of_not_le h]

theorem unsigned_eq_ok_iff : unsigned cs = .ok d ↔
    ∃ whole nanos, parts? cs = some (whole, nanos) ∧ d.nanos = whole.nanos + nanos := by
  unfold unsigned
  rcases parts? cs with _ | ⟨whole, nanos⟩
  · simp
  · simp [plus_eq_ok_iff]

theorem unsigned_eq_overflow_iff : unsigned cs = .error .overflow ↔
    ∃ whole nanos, parts? cs = some (whole, nanos) ∧
      longestLimit < (whole.nanos + nanos).natAbs := by
  unfold unsigned
  rcases parts? cs with _ | ⟨whole, nanos⟩
  · simp
  · simp [plus_eq_overflow_iff]

end Reader

theorem natCast_daySeconds (days seconds : Nat) :
    ((days * 86400 + seconds : Nat) : Int) = days * 86400 + seconds := by
  rw [Int.natCast_add, Int.natCast_mul]
  rfl

/-! ## What the reader takes -/

section Taken

variable {cs : List Char} {whole : TimeLimit} {nanos : Nat} {seconds : Int64}

theorem secondsText_of_secondsPart? (hp : Plain cs)
    (h : secondsPart? cs = some (seconds, nanos)) :
    ∃ n : Nat, seconds.toInt = n ∧ n ≤ 59 ∧ nanos < nanosPerSecond ∧
      SecondsText cs (n * nanosPerSecond + nanos) := by
  obtain ⟨ss, fs, hsplit, hss, hfs, hle⟩ := secondsPart?_eq_some_iff.mp h
  have hlt := fraction?_lt hfs
  obtain ⟨hlen, hdigits, rfl⟩ := fraction?_eq_some_iff.mp hfs
  cases hcs : splitAt? '.' cs with
  | none =>
    rw [hcs] at hsplit
    obtain ⟨rfl, rfl⟩ := Prod.mk.inj hsplit
    obtain ⟨hnumber, hvalue⟩ := hp.isNumber hss
    refine ⟨_, hvalue, by omega, hlt, ?_⟩
    rw [show natOfDigits [] * 10 ^ (9 - [].length) = 0 from rfl, Nat.add_zero]
    exact .whole hnumber (by omega)
  | some parts =>
    rw [hcs] at hsplit
    obtain rfl : parts = (ss, fs) := hsplit
    obtain ⟨rfl, -⟩ := splitAt?_eq_some_iff.mp hcs
    obtain ⟨hnumber, hvalue⟩ := hp.isNumber_head hss
    have hne : fs ≠ [] := by
      rintro rfl
      exact hp.no_last_point (by simp)
    exact ⟨_, hvalue, by omega, hlt, .fraction hnumber (by omega) ⟨hne, hdigits⟩ hlen⟩

theorem clockText_of_clock? (hp : Plain cs) (h : clock? cs = some (seconds, nanos)) :
    ∃ n : Nat, seconds.toInt = n ∧ nanos < nanosPerSecond ∧
      ClockText cs (n * nanosPerSecond + nanos) := by
  obtain ⟨hh, rest, mm, ss, hcs, hrest, hours, minutes, last, hhh, hmm, hss, hle, hle', rfl⟩ :=
    clock?_eq_some_iff.mp h
  obtain ⟨rfl, -⟩ := splitAt?_eq_some_iff.mp hcs
  have hprest : Plain rest := hp.tail
  obtain ⟨hhours, hhvalue⟩ := hp.isNumber_head hhh
  cases hsplit : splitAt? ':' rest with
  | none =>
    rw [hsplit] at hrest
    obtain ⟨rfl, rfl⟩ := Prod.mk.inj hrest
    obtain ⟨hminutes, hmvalue⟩ := hprest.isNumber hmm
    obtain ⟨rfl, rfl⟩ : 0 = last ∧ 0 = nanos := by
      rw [secondsPart?_zero] at hss
      exact Prod.mk.inj (Option.some.inj hss)
    refine ⟨_, toInt_clock hhvalue hmvalue (s := 0) rfl (by omega) (by omega) (by decide),
      Nat.zero_lt_succ _, ?_⟩
    rw [Nat.add_zero, Nat.add_zero]
    exact .minutes hhours (by omega) hminutes (by omega)
  | some parts =>
    rw [hsplit] at hrest
    obtain rfl : parts = (mm, ss) := hrest
    obtain ⟨rfl, -⟩ := splitAt?_eq_some_iff.mp hsplit
    obtain ⟨hminutes, hmvalue⟩ := hprest.isNumber_head hmm
    obtain ⟨n, hvalue, hn, hlt, htext⟩ := secondsText_of_secondsPart? hprest.tail hss
    refine ⟨_, toInt_clock hhvalue hmvalue hvalue (by omega) (by omega) hn, hlt, ?_⟩
    rw [Nat.add_mul, Nat.add_assoc]
    exact .seconds hhours (by omega) hminutes (by omega) htext

theorem clockText_of_daysAndClock? {days : Int64} {ds : Nat} (hdays : days.toInt = ds)
    (hp : Plain cs) (h : daysAndClock? days cs = some (whole, nanos)) :
    ∃ n : Nat, whole.nanos = ((ds * 86400 + n) * nanosPerSecond : Nat) ∧
      nanos < nanosPerSecond ∧ ClockText cs (n * nanosPerSecond + nanos) := by
  obtain ⟨seconds, hclock, hwhole⟩ := daysAndClock?_eq_some_iff.mp h
  obtain ⟨-, -, hnanos⟩ := whole?_eq_some_iff.mp hwhole
  obtain ⟨n, hn, hlt, htext⟩ := clockText_of_clock? hp hclock
  refine ⟨n, ?_, hlt, htext⟩
  rw [hnanos, hdays, hn, Int.natCast_mul, natCast_daySeconds]

/-- What is taken of a plain text is of the layout. -/
theorem spanText_of_parts? (hp : Plain cs) (h : parts? cs = some (whole, nanos)) :
    ∃ n : Nat, whole.nanos = (n * nanosPerSecond : Nat) ∧ nanos < nanosPerSecond ∧
      SpanText cs (n * nanosPerSecond + nanos) := by
  have hzero : (0 : Int64).toInt = (0 : Nat) := rfl
  by_cases hcolon : ':' ∈ cs
  · cases hsplit : splitAt? '.' cs with
    | none =>
      rw [parts?_of_no_point hcolon hsplit] at h
      obtain ⟨n, hwhole, hlt, htext⟩ := clockText_of_daysAndClock? hzero hp h
      rw [Nat.zero_mul, Nat.zero_add] at hwhole
      exact ⟨n, hwhole, hlt, .clock htext⟩
    | some parts =>
      obtain ⟨ds, clock⟩ := parts
      rw [parts?_of_point hcolon hsplit] at h
      split at h
      · obtain ⟨n, hwhole, hlt, htext⟩ := clockText_of_daysAndClock? hzero hp h
        rw [Nat.zero_mul, Nat.zero_add] at hwhole
        exact ⟨n, hwhole, hlt, .clock htext⟩
      · obtain ⟨days, hdays, h⟩ := Option.bind_eq_some_iff.mp h
        obtain ⟨rfl, -⟩ := splitAt?_eq_some_iff.mp hsplit
        obtain ⟨hnumber, hvalue⟩ := hp.isNumber_head hdays
        obtain ⟨n, hwhole, hlt, htext⟩ := clockText_of_daysAndClock? hvalue hp.tail h
        refine ⟨_, hwhole, hlt, ?_⟩
        rw [Nat.add_mul, Nat.add_assoc]
        exact .daysClock hnumber htext
  · obtain ⟨days, hdays, hwhole, rfl⟩ := (parts?_of_no_colon hcolon).mp h
    obtain ⟨hnumber, hvalue⟩ := hp.isNumber hdays
    refine ⟨natOfDigits cs * 86400, ?_, Nat.zero_lt_succ _, ?_⟩
    · rw [hwhole, hvalue, Int.natCast_mul, Int.natCast_mul]
      rfl
    · rw [Nat.add_zero]
      exact .days hnumber

end Taken

/-! ## What the reader must take -/

section Must

variable {cs : List Char} {n days : Nat}

theorem secondsPart?_of_text (h : SecondsText cs n) :
    ∃ (seconds : Int64) (k nanos : Nat), secondsPart? cs = some (seconds, nanos) ∧
      seconds.toInt = k ∧ k ≤ 59 ∧ nanos < nanosPerSecond ∧ n = k * nanosPerSecond + nanos := by
  cases h with
  | whole hss hle =>
    obtain ⟨seconds, hseconds, hvalue⟩ := part?_of_isNumber hss (by omega)
    refine ⟨seconds, natOfDigits cs, 0, secondsPart?_eq_some_iff.mpr
      ⟨cs, [], ?_, hseconds, rfl, by omega⟩, hvalue, hle, Nat.zero_lt_succ _, (Nat.add_zero _).symm⟩
    rw [splitAt?_of_not_mem (hss.not_mem rfl)]
    rfl
  | @fraction ss fs hss hle hfs hlen =>
    obtain ⟨seconds, hseconds, hvalue⟩ := part?_of_isNumber hss (by omega)
    have hread : fraction? fs = some (natOfDigits fs * 10 ^ (9 - fs.length)) :=
      fraction?_eq_some_iff.mpr ⟨hlen, hfs.2, rfl⟩
    refine ⟨seconds, natOfDigits ss, _, secondsPart?_eq_some_iff.mpr
      ⟨ss, fs, ?_, hseconds, hread, by omega⟩, hvalue, hle, fraction?_lt hread, rfl⟩
    rw [splitAt?_append (hss.not_mem rfl)]
    rfl

theorem clock?_of_text (h : ClockText cs n) :
    ∃ (seconds : Int64) (k nanos : Nat), clock? cs = some (seconds, nanos) ∧
      seconds.toInt = k ∧ nanos < nanosPerSecond ∧ n = k * nanosPerSecond + nanos := by
  cases h with
  | @minutes hh mm hhh hle hmm hle' =>
    obtain ⟨hours, hhours, hhvalue⟩ := part?_of_isNumber hhh (by omega)
    obtain ⟨minutes, hminutes, hmvalue⟩ := part?_of_isNumber hmm (by omega)
    refine ⟨hours * 3600 + minutes * 60 + 0, natOfDigits hh * 3600 + natOfDigits mm * 60 + 0, 0,
      clock?_eq_some_iff.mpr ⟨hh, mm, mm, ['0'], splitAt?_append (hhh.not_mem rfl) mm, ?_, hours,
        minutes, 0, hhours, hminutes, secondsPart?_zero, by omega, by omega, rfl⟩,
      toInt_clock hhvalue hmvalue rfl hle hle' (by decide), Nat.zero_lt_succ _, by simp⟩
    rw [splitAt?_of_not_mem (hmm.not_mem rfl)]
    rfl
  | @seconds hh mm ss n hhh hle hmm hle' hss =>
    obtain ⟨hours, hhours, hhvalue⟩ := part?_of_isNumber hhh (by omega)
    obtain ⟨minutes, hminutes, hmvalue⟩ := part?_of_isNumber hmm (by omega)
    obtain ⟨last, k, nanos, hread, hvalue, hk, hlt, rfl⟩ := secondsPart?_of_text hss
    refine ⟨hours * 3600 + minutes * 60 + last, natOfDigits hh * 3600 + natOfDigits mm * 60 + k,
      nanos, clock?_eq_some_iff.mpr ⟨hh, mm ++ ':' :: ss, mm, ss,
        splitAt?_append (hhh.not_mem rfl) _, ?_, hours, minutes, last, hhours, hminutes, hread,
        by omega, by omega, rfl⟩, toInt_clock hhvalue hmvalue hvalue hle hle' hk, hlt, ?_⟩
    · rw [splitAt?_append (hmm.not_mem rfl)]
      rfl
    · rw [← Nat.add_assoc, ← Nat.add_mul]

/-- Whole seconds in range fit 64 bits. -/
theorem seconds_le {seconds : Nat} (h : seconds * nanosPerSecond ≤ longestLimit) :
    seconds ≤ 9223372036854775807 := by
  have hlongest : longestLimit ≤ 9223372036854775807 * nanosPerSecond := by decide
  exact Nat.le_of_mul_le_mul_right (h.trans hlongest) (by decide)

theorem whole?_of_le {ds seconds : Int64} {k : Nat} (hds : ds.toInt = days)
    (hseconds : seconds.toInt = k) (h : (days * 86400 + k) * nanosPerSecond ≤ longestLimit) :
    ∃ whole, whole? ds seconds = some whole ∧
      whole.nanos = ((days * 86400 + k) * nanosPerSecond : Nat) := by
  have hle := seconds_le h
  obtain ⟨x, hx⟩ := exists_int64 (n := days * 86400) ((Nat.le_add_right _ k).trans hle)
  obtain ⟨y, hy⟩ := exists_int64 hle
  rw [Int.natCast_mul] at hx
  rw [natCast_daySeconds] at hy
  refine ⟨⟨((days * 86400 + k) * nanosPerSecond : Nat), h⟩, whole?_eq_some_iff.mpr ⟨⟨x, ?_⟩, ⟨y, ?_⟩, ?_⟩, rfl⟩
  · rw [hx, hds]
    rfl
  · rw [hy, hds, hseconds]
  · show ((_ : Nat) : Int) = _
    rw [Int.natCast_mul, natCast_daySeconds, hds, hseconds]

theorem daysAndClock?_of_text {ds : Int64} (hds : ds.toInt = days) (h : ClockText cs n)
    (hle : (days * 86400 * nanosPerSecond + n) / nanosPerSecond * nanosPerSecond ≤
      longestLimit) :
    ∃ whole nanos, daysAndClock? ds cs = some (whole, nanos) ∧
      ((days * 86400 * nanosPerSecond + n : Nat) : Int) = whole.nanos + nanos := by
  obtain ⟨seconds, k, nanos, hclock, hseconds, hlt, rfl⟩ := clock?_of_text h
  rw [← Nat.add_assoc, ← Nat.add_mul] at hle ⊢
  have hk : ((days * 86400 + k) * nanosPerSecond + nanos) / nanosPerSecond =
      days * 86400 + k := by
    unfold nanosPerSecond at hlt ⊢
    omega
  rw [hk] at hle
  obtain ⟨whole, hwhole, hnanos⟩ := whole?_of_le hds hseconds hle
  refine ⟨whole, nanos, daysAndClock?_eq_some_iff.mpr ⟨seconds, hclock, hwhole⟩, ?_⟩
  rw [hnanos, Int.natCast_add]

theorem ClockText.colon_mem (h : ClockText cs n) : ':' ∈ cs := by
  cases h <;> simp

/-- In a clock a colon stands before the first point. -/
theorem ClockText.colon_mem_of_split {before after : List Char} (h : ClockText cs n)
    (hsplit : splitAt? '.' cs = some (before, after)) : ':' ∈ before := by
  obtain ⟨hh, rest, hhh, rfl⟩ : ∃ hh rest, IsNumber hh ∧ cs = hh ++ ':' :: rest := by
    cases h with
    | minutes hhh => exact ⟨_, _, hhh, rfl⟩
    | seconds hhh => exact ⟨_, _, hhh, rfl⟩
  obtain ⟨hcs, -⟩ := splitAt?_eq_some_iff.mp hsplit
  obtain ⟨more, rfl, hmore⟩ | ⟨more, rfl, hmore⟩ := List.append_eq_append_iff.mp hcs
  · cases more with
    | nil => cases hmore
    | cons c more =>
      obtain ⟨rfl, -⟩ := List.cons.inj hmore
      simp
  · cases more with
    | nil => cases hmore
    | cons c more =>
      obtain ⟨rfl, -⟩ := List.cons.inj hmore
      exact absurd (by simp) (hhh.not_mem (c := '.') rfl)

/-- What is of the layout is taken, if its whole seconds are in range. -/
theorem parts?_of_text (h : SpanText cs n)
    (hle : n / nanosPerSecond * nanosPerSecond ≤ longestLimit) :
    ∃ whole nanos, parts? cs = some (whole, nanos) ∧ (n : Int) = whole.nanos + nanos := by
  cases h with
  | days hds =>
    rw [Nat.mul_div_cancel _ (by decide)] at hle
    have hdays := seconds_le hle
    obtain ⟨days, hread, hvalue⟩ := part?_of_isNumber hds (by omega)
    refine ⟨⟨(natOfDigits cs * 86400 * nanosPerSecond : Nat), hle⟩, 0,
      (parts?_of_no_colon (hds.not_mem rfl)).mpr ⟨days, hread, ?_, rfl⟩, (Int.add_zero _).symm⟩
    show ((_ : Nat) : Int) = _
    rw [hvalue, Int.natCast_mul, Int.natCast_mul]
    rfl
  | clock hclock =>
    have hzero : (0 : Int64).toInt = (0 : Nat) := rfl
    have hread := daysAndClock?_of_text hzero hclock (by simpa using hle)
    rw [Nat.zero_mul, Nat.zero_add] at hread
    cases hsplit : splitAt? '.' cs with
    | none =>
      rw [parts?_of_no_point hclock.colon_mem hsplit]
      exact hread
    | some parts =>
      rw [parts?_of_point hclock.colon_mem hsplit, if_pos (hclock.colon_mem_of_split hsplit)]
      exact hread
  | @daysClock ds cs n hds hclock =>
    have hdays := seconds_le hle
    unfold nanosPerSecond at hdays
    obtain ⟨days, hread, hvalue⟩ := part?_of_isNumber hds (by omega)
    rw [parts?_of_point (by simp [hclock.colon_mem]) (splitAt?_append (hds.not_mem rfl) cs),
      if_neg (hds.not_mem rfl), hread, Option.bind_some]
    exact daysAndClock?_of_text hvalue hclock hle

end Must

/-! ## What comes of a plain text -/

section Plain

variable {cs : List Char} {d : TimeLimit}

theorem unsigned_eq_ok (hp : Plain cs) :
    unsigned cs = .ok d ↔ ∃ n : Nat, SpanText cs n ∧ d.nanos = n := by
  rw [unsigned_eq_ok_iff]
  constructor
  · rintro ⟨whole, nanos, hparts, hd⟩
    obtain ⟨n, hwhole, -, htext⟩ := spanText_of_parts? hp hparts
    exact ⟨_, htext, by rw [hd, hwhole, Int.natCast_add]⟩
  · rintro ⟨n, htext, hd⟩
    have hle : n ≤ longestLimit := by
      have hrange := d.inRange
      rwa [hd, Int.natAbs_natCast] at hrange
    obtain ⟨whole, nanos, hparts, hn⟩ :=
      parts?_of_text htext ((Nat.div_mul_le_self _ _).trans hle)
    exact ⟨whole, nanos, hparts, hd.trans hn⟩

/-- The program ends at a text of the layout whose sum is out of range, though its whole seconds
are in range. -/
theorem unsigned_eq_overflow (hp : Plain cs) : unsigned cs = .error .overflow ↔
    ∃ n : Nat, SpanText cs n ∧ n / nanosPerSecond * nanosPerSecond ≤ longestLimit ∧
      longestLimit < n := by
  rw [unsigned_eq_overflow_iff]
  constructor
  · rintro ⟨whole, nanos, hparts, hlt⟩
    obtain ⟨n, hwhole, hnanos, htext⟩ := spanText_of_parts? hp hparts
    have hrange := whole.inRange
    rw [hwhole, ← Int.natCast_add, Int.natAbs_natCast] at hlt
    rw [hwhole, Int.natAbs_natCast] at hrange
    refine ⟨_, htext, ?_, hlt⟩
    rwa [show (n * nanosPerSecond + nanos) / nanosPerSecond = n by
      unfold nanosPerSecond at hnanos ⊢; omega]
  · rintro ⟨n, htext, hle, hlt⟩
    obtain ⟨whole, nanos, hparts, hn⟩ := parts?_of_text htext hle
    refine ⟨whole, nanos, hparts, ?_⟩
    rwa [← hn, Int.natAbs_natCast]

end Plain

/-! ## The hyphen -/

variable {cs : List Char} {d : TimeLimit}

/-- A text has a hyphen at its front, or it is all there is to read. -/
theorem hyphen_or_body (cs : List Char) :
    (∃ rest, cs = '-' :: rest ∧ body cs = rest) ∨ cs.head? ≠ some '-' ∧ body cs = cs := by
  unfold body
  split
  · next rest => exact .inl ⟨rest, rfl, rfl⟩
  · next hcs =>
    refine .inr ⟨fun hhead => ?_, rfl⟩
    obtain ⟨rest, rfl⟩ := List.head?_eq_some_iff.mp hhead
    exact hcs rest rfl

theorem documented_iff : Documented cs d ↔ ∃ n : Nat, SpanText (body cs) n ∧
    d.nanos = if cs.head? = some '-' then -(n : Int) else n := by
  constructor
  · intro h
    cases h with
    | @plain _ n _ htext hd =>
      obtain ⟨rest, rfl, -⟩ | ⟨hhead, hbody⟩ := hyphen_or_body cs
      · exact absurd List.mem_cons_self htext.plain.no_hyphen
      · rw [hbody]
        exact ⟨n, htext, by rw [if_neg hhead, hd]⟩
    | @hyphen rest n _ htext hd => exact ⟨n, htext, hd⟩
  · rintro ⟨n, htext, hd⟩
    obtain ⟨rest, rfl, hbody⟩ | ⟨hhead, hbody⟩ := hyphen_or_body cs <;> rw [hbody] at htext
    · exact .hyphen htext hd
    · rw [if_neg hhead] at hd
      exact .plain htext hd

theorem read_eq (s : String) :
    read s = if (trim s.toList).head? = some '-' then (unsigned (body (trim s.toList))).map neg
      else unsigned (body (trim s.toList)) := by
  unfold read
  obtain ⟨rest, hcs, hbody⟩ | ⟨hhead, hbody⟩ := hyphen_or_body (trim s.toList)
  · rw [hbody, hcs]
    rfl
  · rw [hbody, if_neg hhead]
    split
    · next rest hcs => exact absurd (by rw [hcs]; rfl) hhead
    · rfl

theorem neg_eq_iff {e : TimeLimit} : e.neg = d ↔ e.nanos = -d.nanos := by
  cases d
  cases e
  simp only [neg, mk.injEq]
  omega

/-- What is plain is read for the sum of its parts, if it is of the layout. -/
theorem read_eq_ok {s : String} (hp : Plain (body (trim s.toList))) :
    read s = .ok d ↔ Documented (trim s.toList) d := by
  rw [read_eq, documented_iff]
  by_cases hhead : (trim s.toList).head? = some '-'
  · simp only [if_pos hhead, map_eq_ok, unsigned_eq_ok hp, neg_eq_iff]
    constructor
    · rintro ⟨e, ⟨n, htext, hn⟩, hnanos⟩
      exact ⟨n, htext, by omega⟩
    · rintro ⟨n, htext, hd⟩
      exact ⟨d.neg, ⟨n, htext, by show -d.nanos = n; omega⟩, by show -d.nanos = _; rfl⟩
  · simp only [if_neg hhead]
    exact unsigned_eq_ok hp

/-- A plain text at which the program ends is of the layout, and only its fraction leads out of
range. -/
theorem read_eq_overflow {s : String} (hp : Plain (body (trim s.toList))) :
    read s = .error .overflow ↔ ∃ n : Nat, SpanText (body (trim s.toList)) n ∧
      n / nanosPerSecond * nanosPerSecond ≤ longestLimit ∧ longestLimit < n := by
  rw [read_eq]
  split
  · rw [map_eq_error]
    exact unsigned_eq_overflow hp
  · exact unsigned_eq_overflow hp

/-- Half a second more than the whole seconds that are in range. -/
example : read "106751991167.07:12:55.5" = .ok ⟨9223372036854775500000000, by decide⟩ ∧
    read "-106751991167.07:12:55.9" = .error .overflow ∧
    read "106751991167.07:12:56" = .error .invalid := by
  decide +kernel

theorem Documented.plain_body (h : Documented cs d) : Plain (body cs) := by
  obtain ⟨n, htext, -⟩ := documented_iff.mp h
  exact htext.plain

theorem Documented.sign (h : Documented cs d) :
    if cs.head? = some '-' then d.nanos ≤ 0 else 0 ≤ d.nanos := by
  obtain ⟨n, -, hd⟩ := documented_iff.mp h
  split <;> next hhead => rw [hd]; simp [hhead]

/-! ## Top theorem -/

/-- A text is of the layout of a limit exactly if it is plain and is read as the limit.  So a text
without a sign or a last point of its own is read if it is of the layout, for the sum of its parts,
and a hyphen at its front alone makes the limit negative. -/
theorem reads_documented_layout (s : String) (d : TimeLimit) :
    (Documented (trim s.toList) d ↔ Plain (body (trim s.toList)) ∧ read s = .ok d) ∧
    (Plain (body (trim s.toList)) → read s = .ok d →
      if (trim s.toList).head? = some '-' then d.nanos ≤ 0 else 0 ≤ d.nanos) :=
  ⟨⟨fun h => ⟨h.plain_body, (read_eq_ok h.plain_body).mpr h⟩,
    fun ⟨hp, h⟩ => (read_eq_ok hp).mp h⟩, fun hp h => ((read_eq_ok hp).mp h).sign⟩

/-- A day and some hours behind a hyphen, and an hour that no clock has. -/
theorem reads_documented_layout_of_days :
    let d : TimeLimit := ⟨-93784500000000, by decide⟩
    (Documented (trim " -1.02:03:04.5\n".toList) d ∧ d.nanos ≤ 0) ∧
      ∀ e, ¬Documented (trim "25:00:00".toList) e := by
  intro d
  have hplain : Plain (body (trim " -1.02:03:04.5\n".toList)) := by decide +kernel
  have hread : read " -1.02:03:04.5\n" = .ok d := by decide +kernel
  obtain ⟨hdocumented, hsign⟩ := reads_documented_layout " -1.02:03:04.5\n" d
  refine ⟨⟨hdocumented.mpr ⟨hplain, hread⟩, hsign hplain hread⟩, fun e he => ?_⟩
  have hnone : read "25:00:00" = .error .invalid := by decide +kernel
  cases hnone.symm.trans ((reads_documented_layout "25:00:00" e).1.mp he).2

/-- A sign of a part, and a point before nothing, are not of the layout, yet they are read; so a
limit turns out positive behind a hyphen, and negative without one. -/
theorem reads_undocumented_texts :
    (read "--5" = .ok ⟨5 * 86400 * nanosPerSecond, by decide⟩ ∧
      ∀ d, ¬Documented (trim "--5".toList) d) ∧
    (read "0:-5" = .ok ⟨-(5 * 60 * nanosPerSecond), by decide⟩ ∧
      ∀ d, ¬Documented (trim "0:-5".toList) d) ∧
    (read "00:00:00." = .ok ⟨0, by decide⟩ ∧
      ∀ d, ¬Documented (trim "00:00:00.".toList) d) := by
  have hplain {cs : List Char} (h : ¬Plain (body cs)) (d : TimeLimit) : ¬Documented cs d :=
    fun hd => h hd.plain_body
  exact ⟨⟨by decide +kernel, hplain (by decide +kernel)⟩,
    ⟨by decide +kernel, hplain (by decide +kernel)⟩,
    ⟨by decide +kernel, hplain (by decide +kernel)⟩⟩

end Time.TimeLimit
end LogWatch
