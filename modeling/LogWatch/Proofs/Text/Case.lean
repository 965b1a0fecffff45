import LogWatch.Proofs.Text.Lines
import LogWatch.Text.Case
import LogWatch.Text.Letter

/-!
# Words in another case

A class of characters is blind to case if it takes a letter in both cases or in none.  Blanks and
the characters of words are such classes, so a word stays a word, and what trimming leaves stays
the same, in every spelling of its letters.

    sameWord a b → sameWord (trim a) (trim b)                                   (sameWord_trim)
-/

namespace LogWatch.Text

variable {a b : List Char} {p : Char → Bool}

theorem sameWord_symm (h : sameWord a b = true) : sameWord b a = true :=
  sameWord_iff.mpr (sameWord_iff.mp h).symm

theorem sameWord_congr (h : sameWord a b = true) (c : List Char) : sameWord c a = sameWord c b := by
  unfold sameWord
  rw [sameWord_iff.mp h]

/-- The class takes a letter in both cases or in none. -/
def CaseBlind (p : Char → Bool) : Prop := ∀ c : Char, p c.toLower = p c

/-- Only capitals have another lower case. -/
theorem caseBlind_of_capitals
    (h : ∀ n ∈ List.range' 65 26, p (Char.ofNat n).toLower = p (Char.ofNat n)) : CaseBlind p := by
  intro c
  by_cases hc : c.val ≥ 'A'.val ∧ c.val ≤ 'Z'.val
  · have hlow : 65 ≤ c.toNat := UInt32.le_iff_toNat_le.mp hc.1
    have hhigh : c.toNat ≤ 90 := UInt32.le_iff_toNat_le.mp hc.2
    rw [← Char.ofNat_toNat c]
    apply h
    rw [List.mem_range'_1]
    omega
  · have hsame : c.toLower = c := dif_neg hc
    rw [hsame]

theorem caseBlind_isBlank : CaseBlind isBlank := caseBlind_of_capitals (by decide +kernel)

theorem caseBlind_startsWord : CaseBlind startsWord := caseBlind_of_capitals (by decide +kernel)

theorem caseBlind_continuesWord : CaseBlind continuesWord :=
  caseBlind_of_capitals (by decide +kernel)

theorem CaseBlind.all_eq (hp : CaseBlind p) (h : sameWord a b = true) : a.all p = b.all p := by
  have hlower (cs : List Char) : (cs.map Char.toLower).all p = cs.all p := by
    rw [List.all_map]
    exact congrArg cs.all (funext hp)
  rw [← hlower a, sameWord_iff.mp h, hlower b]

theorem CaseBlind.any_head?_eq (hp : CaseBlind p) (h : sameWord a b = true) :
    a.head?.any p = b.head?.any p := by
  have hlower (cs : List Char) : (cs.map Char.toLower).head?.any p = cs.head?.any p := by
    cases cs with
    | nil => rfl
    | cons c cs => exact hp c
  rw [← hlower a, sameWord_iff.mp h, hlower b]

theorem NoBlanks.of_sameWord (ha : NoBlanks a) (h : sameWord a b = true) : NoBlanks b := by
  have hclass : CaseBlind fun c => !isBlank c := fun c => congrArg not (caseBlind_isBlank c)
  have hall : (a.all fun c => !isBlank c) = true := by simpa [NoBlanks] using ha
  rw [hclass.all_eq h] at hall
  simpa [NoBlanks] using hall

/-! ## Trimming -/

theorem trim_map_toLower (cs : List Char) :
    trim (cs.map Char.toLower) = (trim cs).map Char.toLower := by
  have hblank : isBlank ∘ Char.toLower = isBlank := funext caseBlind_isBlank
  simp only [trim, trimStart, trimEnd, List.dropWhile_map, ← List.map_reverse, hblank]

theorem sameWord_trim (h : sameWord a b = true) : sameWord (trim a) (trim b) = true := by
  rw [sameWord_iff, ← trim_map_toLower, ← trim_map_toLower, sameWord_iff.mp h]

/-- Blanks at the ends do not count. -/
theorem trim_between {front back : List Char} (hf : front.all isBlank = true)
    (hb : back.all isBlank = true) (ha : NoBlanks a) (hne : a ≠ []) :
    trim (front ++ (a ++ back)) = a := by
  have hskip {blanks cs : List Char} (hall : blanks.all isBlank = true) :
      (blanks ++ cs).dropWhile isBlank = cs.dropWhile isBlank :=
    List.dropWhile_append_of_pos (List.all_eq_true.mp hall)
  have hstays {cs ds : List Char} (hcs : NoBlanks cs) (hne : cs ≠ []) :
      (cs ++ ds).dropWhile isBlank = cs ++ ds := by
    cases cs with
    | nil => exact absurd rfl hne
    | cons c cs => simp [hcs c List.mem_cons_self]
  have hback : back.reverse.all isBlank = true := by rw [List.all_reverse, hb]
  have hreverse : NoBlanks a.reverse := fun c hc => ha c (List.mem_reverse.mp hc)
  unfold trim trimStart trimEnd
  rw [hskip hf, hstays ha hne, List.reverse_append, hskip hback]
  have hlast := @hstays a.reverse [] hreverse (by simpa using hne)
  rw [List.append_nil] at hlast
  rw [hlast, List.reverse_reverse]

end LogWatch.Text
