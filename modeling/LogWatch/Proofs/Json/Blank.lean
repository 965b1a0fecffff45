import LogWatch.Event.Record
import LogWatch.Proofs.Text.Reader

/-!
# Blank texts

Every value starts with a character that is no blank.  So a text of blanks, be they such as may
stand between values or not, is torn from its start, and neither an event nor a list is read of it.
-/

namespace LogWatch

open Text

namespace Json

variable {cs : List Char}

theorem not_cons_of_blanks (h : ∀ c ∈ cs, isBlank c = true) {c : Char} {rest : List Char}
    (hc : isBlank c = false) : cs ≠ c :: rest := by
  rintro rfl
  rw [h c List.mem_cons_self] at hc
  cases hc

theorem readDigits_of_blanks (h : ∀ c ∈ cs, isBlank c = true) : readDigits cs = none := by
  have hrun : cs.takeWhile Char.isDigit = [] := by
    cases cs with
    | nil => rfl
    | cons c rest =>
      refine List.takeWhile_cons_of_neg fun hd => ?_
      exact not_cons_of_blanks h (isBlank_of_isDigit hd) rfl
  unfold readDigits
  rw [hrun]
  rfl

theorem readNumber_of_blanks (h : ∀ c ∈ cs, isBlank c = true) : readNumber cs = none := by
  unfold readNumber
  split
  · exact absurd rfl (not_cons_of_blanks h (by decide))
  · rw [readUnsigned, readWhole, readDigits_of_blanks h]
    rfl

theorem readPlain_of_blanks (h : ∀ c ∈ cs, isBlank c = true) : readPlain cs = none := by
  unfold readPlain
  split
  · exact absurd rfl (not_cons_of_blanks h (by decide))
  · exact absurd rfl (not_cons_of_blanks h (by decide))
  · exact absurd rfl (not_cons_of_blanks h (by decide))
  · rw [readNumber_of_blanks h]
    rfl

theorem readValue_of_blanks (h : ∀ c ∈ cs, isBlank c = true) (fuel : Nat) :
    readValue fuel cs = (.torn, none) := by
  have hleft : ∀ c ∈ skipSpace cs, isBlank c = true := fun c hc =>
    h c ((List.dropWhile_sublist _).subset hc)
  cases fuel with
  | zero => rfl
  | succ fuel =>
    rw [readValue]
    split
    next he => exact absurd he (not_cons_of_blanks hleft (by decide))
    next he => exact absurd he (not_cons_of_blanks hleft (by decide))
    next he => exact absurd he (not_cons_of_blanks hleft (by decide))
    next => rw [readPlain_of_blanks hleft]

theorem root_of_isBlankText {s : String} (h : isBlankText s = true) :
    (Document.ofText s).root = .torn := by
  unfold Document.ofText
  dsimp only
  rw [readValue_of_blanks (List.all_eq_true.mp h)]

end Json

namespace Event

variable {s : String}

theorem whole_of_isBlankText {α : Type} {read : Json → Result α}
    (hread : read .torn = .error .malformed) (h : isBlankText s = true) :
    whole read s = .error .malformed := by
  unfold whole
  dsimp only
  rw [Json.root_of_isBlankText h, hread]
  rfl

theorem not_isBlankText_of_ofText {e : Event} (h : ofText s = .ok e) : isBlankText s = false := by
  by_contra hblank
  cases h.symm.trans (whole_of_isBlankText rfl (by simpa using hblank))

theorem not_isBlankText_of_listOfText {events : List Event} (h : listOfText s = .ok events) :
    isBlankText s = false := by
  by_contra hblank
  cases h.symm.trans (whole_of_isBlankText rfl (by simpa using hblank))

end Event
end LogWatch
