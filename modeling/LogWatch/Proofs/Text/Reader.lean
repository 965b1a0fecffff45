import LogWatch.Proofs.Text.Decimal
import LogWatch.Proofs.Text.Lines
import LogWatch.Text.Reader

/-!
# Readers on written text

What each reader takes off a text that begins with what it looks for.  Numbers are written
with `paddedDigits`; a run of digits ends where the rest begins with something else.
-/

namespace LogWatch.Text

/-- The rest of a text does not go on with a character of this class. -/
def StopsAt (test : Char → Bool) (rest : List Char) : Prop :=
  ∀ c ∈ rest.head?, test c = false

theorem stopsAt_nil (test : Char → Bool) : StopsAt test [] := by simp [StopsAt]

theorem stopsAt_cons {test : Char → Bool} {c : Char} {rest : List Char} :
    StopsAt test (c :: rest) ↔ test c = false := by
  simp [StopsAt]

theorem takeWhile_of_stopsAt {test : Char → Bool} {rest : List Char} (h : StopsAt test rest) :
    rest.takeWhile test = [] := by
  cases rest with
  | nil => rfl
  | cons c rest => simp [stopsAt_cons.mp h]

/-- What stands behind a text does not matter where it stops what the text starts with. -/
theorem takeWhile_append_stopsAt {test : Char → Bool} {rest : List Char} (h : StopsAt test rest)
    (xs : List Char) : (xs ++ rest).takeWhile test = xs.takeWhile test := by
  induction xs with
  | nil => exact takeWhile_of_stopsAt h
  | cons x xs ih => rw [List.cons_append, List.takeWhile_cons, List.takeWhile_cons, ih]

theorem takeWhile_append_of_stopsAt {test : Char → Bool} {xs rest : List Char}
    (h : xs.all test = true) (hr : StopsAt test rest) :
    (xs ++ rest).takeWhile test = xs := by
  rw [List.takeWhile_append_of_pos (List.all_eq_true.mp h), takeWhile_of_stopsAt hr,
    List.append_nil]

theorem dropWhile_append_of_stopsAt {test : Char → Bool} {xs rest : List Char}
    (h : xs.all test = true) (hr : StopsAt test rest) :
    (xs ++ rest).dropWhile test = rest := by
  rw [List.dropWhile_append_of_pos (List.all_eq_true.mp h)]
  cases rest with
  | nil => simp
  | cons c rest => simp [stopsAt_cons.mp hr]

theorem isBlank_of_isDigit {c : Char} (h : c.isDigit = true) : isBlank c = false := by
  have hc : 48 ≤ c.toNat ∧ c.toNat ≤ 57 := by
    simp only [Char.isDigit, Bool.and_eq_true, decide_eq_true_eq, ge_iff_le,
      UInt32.le_iff_toNat_le] at h
    exact h
  simp only [isBlank, Bool.or_eq_false_iff, Bool.and_eq_false_iff, beq_eq_false_iff_ne,
    decide_eq_false_iff_not]
  omega

theorem head_paddedDigits (width n : Nat) (rest : List Char) :
    ∃ c, (paddedDigits width n ++ rest).head? = some c ∧ c.isDigit = true := by
  have hp := length_paddedDigits_pos width n
  have hd := paddedDigits_all_isDigit width n
  cases hc : paddedDigits width n with
  | nil => rw [hc] at hp; simp at hp
  | cons c cs =>
    rw [hc] at hd
    exact ⟨c, rfl, by simpa using (List.all_eq_true.mp hd) c (by simp)⟩

theorem stopsAt_isBlank_paddedDigits (width n : Nat) (rest : List Char) :
    StopsAt isBlank (paddedDigits width n ++ rest) := by
  obtain ⟨c, hc, hd⟩ := head_paddedDigits width n rest
  intro d hm
  rw [hc] at hm
  cases hm
  exact isBlank_of_isDigit hd

theorem noBlanks_paddedDigits (width n : Nat) : NoBlanks (paddedDigits width n) :=
  fun _ h => isBlank_of_isDigit (isDigit_of_mem_paddedDigits h)

namespace Reader

variable {α β : Type}

theorem bind_apply (r : Reader α) (f : α → Reader β) (cs : List Char) :
    (r >>= f) cs = (r cs).bind fun p => f p.1 p.2 := rfl

theorem bind_of_eq_some {r : Reader α} {cs rest : List Char} {a : α} (h : r cs = some (a, rest))
    (f : α → Reader β) : (r >>= f) cs = f a rest := by
  rw [bind_apply, h, Option.bind_some]

theorem bind_of_eq_none {r : Reader α} {cs : List Char} (h : r cs = none) (f : α → Reader β) :
    (r >>= f) cs = none := by
  rw [bind_apply, h, Option.bind_none]

theorem pure_apply (a : α) (cs : List Char) : (pure a : Reader α) cs = some (a, cs) := rfl

theorem get_apply (cs : List Char) : (get : Reader (List Char)) cs = some (cs, cs) := rfl

theorem set_apply (cs ds : List Char) : (set ds : Reader Unit) cs = some ((), ds) := rfl

theorem orElse_apply (r s : Reader α) (cs : List Char) :
    (r <|> s) cs = (r cs <|> s cs) := rfl

theorem orElse_of_eq_none {r : Reader α} {cs : List Char} (h : r cs = none) (s : Reader α) :
    (r <|> s) cs = s cs := by
  rw [orElse_apply, h]
  rfl

theorem guard_apply (p : Prop) [Decidable p] (cs : List Char) :
    (guard p : Reader Unit) cs = if p then some ((), cs) else none := by
  unfold guard
  split <;> rfl

theorem exactly_cons (c : Char) (rest : List Char) : exactly c (c :: rest) = some ((), rest) := by
  simp [exactly, one, bind_apply, pure_apply]

theorem skip_of_stopsAt {test : Char → Bool} {rest : List Char} (h : StopsAt test rest) :
    skip test rest = some ((), rest) := by
  have hdrop : ([] ++ rest).dropWhile test = rest := dropWhile_append_of_stopsAt (by simp) h
  simpa [skip] using hdrop

theorem blanks_of_stopsAt {rest : List Char} (h : StopsAt isBlank rest) :
    blanks rest = some ((), rest) :=
  skip_of_stopsAt h

theorem blanks_paddedDigits (width n : Nat) (rest : List Char) :
    blanks (paddedDigits width n ++ rest) = some ((), paddedDigits width n ++ rest) :=
  blanks_of_stopsAt (stopsAt_isBlank_paddedDigits width n rest)

theorem number_paddedDigits {least width n : Nat} (hw : 0 < width) (hl : least ≤ width)
    (h : n < 10 ^ width) (rest : List Char) :
    number least width (paddedDigits width n ++ rest) = some (n, rest) := by
  have hlen := length_paddedDigits width n hw h
  have htake : ((paddedDigits width n ++ rest).take width).takeWhile Char.isDigit =
      paddedDigits width n := by
    rw [List.take_append_of_le_length (by omega), List.take_of_length_le (by omega)]
    simpa using takeWhile_append_of_stopsAt (paddedDigits_all_isDigit width n)
      (stopsAt_nil Char.isDigit)
  unfold number
  simp only [htake]
  rw [if_neg (by omega), natOfDigits_paddedDigits]
  simp

theorem number_of_stopsAt {least most : Nat} (hl : 0 < least) {rest : List Char}
    (h : StopsAt Char.isDigit rest) : number least most rest = none := by
  have hrun : (rest.take most).takeWhile Char.isDigit = [] := by
    cases rest with
    | nil => simp
    | cons c rest =>
      cases most with
      | zero => simp
      | succ most => simp [stopsAt_cons.mp h]
  unfold number
  simp only [hrun]
  rw [if_pos (by simpa using hl)]

theorem wholeNumber_paddedDigits (width n : Nat) {rest : List Char}
    (h : StopsAt Char.isDigit rest) :
    wholeNumber (paddedDigits width n ++ rest) = some (n, rest) := by
  have hd := paddedDigits_all_isDigit width n
  have hp := length_paddedDigits_pos width n
  have hne : (paddedDigits width n).isEmpty = false := by
    rw [List.isEmpty_eq_false_iff]
    exact List.length_pos_iff.mp hp
  have hrun : span Char.isDigit (paddedDigits width n ++ rest) =
      some (paddedDigits width n, rest) := by
    unfold span
    rw [takeWhile_append_of_stopsAt hd h, dropWhile_append_of_stopsAt hd h]
  have hguard : (guard (!(paddedDigits width n).isEmpty) : Reader Unit) rest = some ((), rest) := by
    rw [guard_apply, hne]
    rfl
  have hspan : span1 Char.isDigit (paddedDigits width n ++ rest) =
      some (paddedDigits width n, rest) := by
    unfold span1
    rw [bind_of_eq_some hrun, bind_of_eq_some hguard, pure_apply]
  unfold wholeNumber
  rw [bind_of_eq_some hspan, pure_apply, natOfDigits_paddedDigits]

theorem whole_eq_some {r : Reader α} {cs : List Char} {a : α} (h : r cs = some (a, [])) :
    r.whole cs = some a := by
  unfold whole
  rw [show r.run cs = r cs from rfl, h]

theorem whole_eq_none {r : Reader α} {cs : List Char} (h : r cs = none) : r.whole cs = none := by
  unfold whole
  rw [show r.run cs = r cs from rfl, h]

end Reader
end LogWatch.Text
