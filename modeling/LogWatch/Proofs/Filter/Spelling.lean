import LogWatch.Filter.Lexeme
import LogWatch.Proofs.Filter.Grammar
import LogWatch.Proofs.Result
import LogWatch.Proofs.Text.Reader

/-!
# Spelling tokens

Every token has a spelling from which it is read, as long as the character that follows does not
run on from it.  A text that holds the spellings of some tokens in their order has these
tokens, however many blanks stand between them.

    Laid ts cs → ∃ items, tokensFrom offset cs = .ok items ∧ kinds items = ts  (tokensFrom_laid)
-/

namespace LogWatch.Filter

open LogWatch.Text

/-! ## Spellings -/

/-- What stands between the quotes for a text: a backslash before each quote and backslash. -/
def escaped : List Char → List Char
  | [] => []
  | c :: cs => if c = '"' ∨ c = '\\' then '\\' :: c :: escaped cs else c :: escaped cs

def Token.spelling : Token → List Char
  | .word name => name.toList
  | .text value => '"' :: (escaped value.toList ++ ['"'])
  | .int value => signedDigits value.toInt
  | .opening => ['(']
  | .closing => [')']
  | .dot => ['.']
  | .compare op => op.symbol.toList
  | .and => ['A', 'n', 'd']
  | .or => ['O', 'r']
  | .not => ['N', 'o', 't']

/-- The token would be another one if this character followed its spelling. -/
def Token.runsOn : Token → Char → Bool
  | .word _, c | .int _, c | .and, c | .or, c | .not, c => continuesWord c
  | .compare .eq, c | .compare .gt, c => c == '='
  | .compare .lt, c => c == '=' || c == '>'
  | .compare _, _ | .text _, _ | .opening, _ | .closing, _ | .dot, _ => false

/-- The characters are those of one word, and no keyword. -/
def IsWord (cs : List Char) : Prop :=
  cs.head?.any startsWord = true ∧ cs.all continuesWord = true ∧
    Token.ofWord cs = .word (String.ofList cs)

instance (cs : List Char) : Decidable (IsWord cs) := inferInstanceAs (Decidable (_ ∧ _ ∧ _))

/-- The token has a spelling: its name, if it has one, is a word. -/
def Token.Spellable : Token → Prop
  | .word name => IsWord name.toList
  | _ => True

/-- The text holds the spellings of the tokens in their order.  Blanks may stand around each of
them, and do so where the next one would run on. -/
inductive Laid : List Token → List Char → Prop
  | nil {blanks : List Char} (blank : blanks.all isBlank = true) : Laid [] blanks
  | cons {blanks rest : List Char} {t : Token} {ts : List Token}
    (blank : blanks.all isBlank = true) (ends : StopsAt t.runsOn rest) (more : Laid ts rest) :
    Laid (t :: ts) (blanks ++ (t.spelling ++ rest))

/-! ## Characters of words -/

theorem continuesWord_of_isDigit {c : Char} (h : c.isDigit = true) : continuesWord c = true := by
  have hc : c.toNat < 0x80 := by
    simp only [Char.isDigit, Bool.and_eq_true, decide_eq_true_eq, UInt32.le_iff_toNat_le] at h
    exact Nat.lt_of_le_of_lt h.2 (by decide)
  simp [continuesWord, isNumeric_of_lt c hc, h]

theorem continuesWord_of_isAlphanum {c : Char} (h : c.isAlphanum = true) :
    continuesWord c = true := by
  rcases Bool.or_eq_true_iff.mp h with h | h
  · have hc : c.toNat < 0x80 := by
      rcases Bool.or_eq_true_iff.mp h with h | h
      · have hz : c.val ≤ 'Z'.val := (of_decide_eq_true h).2
        exact Nat.lt_of_le_of_lt (UInt32.le_iff_toNat_le.mp hz) (by decide)
      · have hz : c.val ≤ 'z'.val := of_decide_eq_true (Bool.and_eq_true_iff.mp h).2
        exact Nat.lt_of_le_of_lt (UInt32.le_iff_toNat_le.mp hz) (by decide)
    simp [continuesWord, isAlphabetic_of_isAlpha c hc, h]
  · exact continuesWord_of_isDigit h

theorem continuesWord_of_isBlank {c : Char} (h : isBlank c = true) : continuesWord c = false := by
  have codes : ∀ n ∈ List.range' 9 5 ++ [0x20, 0x85, 0xA0, 0x1680] ++ List.range' 0x2000 11 ++
      [0x2028, 0x2029, 0x202F, 0x205F, 0x3000], continuesWord (Char.ofNat n) = false := by
    decide +kernel
  rw [← Char.ofNat_toNat c]
  apply codes
  simp only [isBlank, Bool.or_eq_true, Bool.and_eq_true, decide_eq_true_eq, beq_iff_eq] at h
  simp only [List.mem_append, List.mem_range'_1, List.mem_cons, List.not_mem_nil]
  omega

theorem startsWord_of_isDigit {c : Char} (h : c.isDigit = true) : startsWord c = false := by
  have codes : ∀ n ∈ List.range' 48 10, startsWord (Char.ofNat n) = false := by decide +kernel
  rw [← Char.ofNat_toNat c]
  apply codes
  simp only [Char.isDigit, Bool.and_eq_true, decide_eq_true_eq, UInt32.le_iff_toNat_le] at h
  have hlow : 48 ≤ c.toNat := h.1
  have hhigh : c.toNat ≤ 57 := h.2
  rw [List.mem_range'_1]
  omega

theorem startsWord_of_sign {c : Char}
    (h : c ∈ ['(', ')', '.', '=', '!', '<', '>', '&', '|', '"', '-']) : startsWord c = false := by
  have hsigns : ∀ x ∈ ['(', ')', '.', '=', '!', '<', '>', '&', '|', '"', '-'],
      startsWord x = false := by
    simp only [← Bool.not_eq_true', ← List.all_eq_true]
    decide +kernel
  exact hsigns c h

theorem isDigit_of_sign {c : Char}
    (h : c ∈ ['(', ')', '.', '=', '!', '<', '>', '&', '|', '"', '-']) : c.isDigit = false := by
  have hsigns : ∀ x ∈ ['(', ')', '.', '=', '!', '<', '>', '&', '|', '"', '-'],
      x.isDigit = false := by simp [Char.isDigit]
  exact hsigns c h

theorem isBlank_of_startsWord {c : Char} (h : startsWord c = true) : isBlank c = false := by
  rw [Bool.eq_false_iff]
  intro hb
  have hword := continuesWord_of_startsWord c h
  rw [continuesWord_of_isBlank hb] at hword
  contradiction

/-! ## Reading one spelling -/

/-- The token is read from the characters `cs` where `rest` follows them. -/
def Spells (cs : List Char) (t : Token) (rest : List Char) : Prop :=
  ∃ c body, cs = c :: body ∧ isBlank c = false ∧
    firstToken c (body ++ rest) = .ok (t, body.length)

theorem tokensFrom_of_spells {cs rest : List Char} {t : Token} (h : Spells cs t rest)
    (offset : Nat) :
    tokensFrom offset (cs ++ rest) =
      (tokensFrom (offset + cs.length) rest).map (⟨offset, t⟩ :: ·) := by
  obtain ⟨c, body, rfl, hblank, hfirst⟩ := h
  have hoffset : offset + 1 + body.length = offset + (c :: body).length := by
    rw [List.length_cons]
    omega
  rw [List.cons_append, tokensFrom, if_neg (by simp [hblank]), hfirst]
  simp only [List.drop_left, hoffset]
  rfl

theorem quotedText_escaped (cs rest : List Char) :
    quotedText (escaped cs ++ '"' :: rest) = some (cs, (escaped cs).length + 1) := by
  induction cs with
  | nil => rfl
  | cons c cs ih =>
    by_cases hquote : c = '"'
    · subst hquote
      simp [escaped, quotedText, ih]
    · by_cases hbackslash : c = '\\'
      · subst hbackslash
        simp [escaped, quotedText, ih]
      · simp [escaped, quotedText, hquote, hbackslash, ih]

theorem spells_text (value : String) (rest : List Char) :
    Spells (Token.text value).spelling (.text value) rest := by
  refine ⟨'"', escaped value.toList ++ ['"'], rfl, rfl, ?_⟩
  rw [List.append_assoc, List.singleton_append, firstToken, quotedText_escaped]
  simp

/-- A character that starts neither a sign nor a quoted text starts a number or a word. -/
theorem firstToken_other {c : Char} {rest : List Char}
    (h : c ∉ ['(', ')', '.', '=', '!', '<', '>', '&', '|', '"']) :
    firstToken c rest =
      if c.isDigit || (c == '-' && (rest.head?.any Char.isDigit)) then numberToken c rest
      else if startsWord c then .ok (wordToken c rest)
      else .error (.unexpectedChar c) := by
  unfold firstToken
  split <;> first | rfl | simp at h

theorem spells_ofWord (c : Char) (body : List Char) {rest : List Char} (hc : startsWord c = true)
    (hbody : body.all continuesWord = true) (hrest : StopsAt continuesWord rest) :
    Spells (c :: body) (.ofWord (c :: body)) rest := by
  have hne : ∀ x, startsWord x = false → c ≠ x := by
    rintro x hx rfl
    rw [hx] at hc
    contradiction
  have hother : c ∉ ['(', ')', '.', '=', '!', '<', '>', '&', '|', '"'] :=
    fun hm => hne c (startsWord_of_sign (List.mem_append_left ['-'] hm)) rfl
  have hdigit : c.isDigit = false := by
    rw [Bool.eq_false_iff]
    exact fun hd => hne c (startsWord_of_isDigit hd) rfl
  have hhyphen : (c == '-') = false := beq_false_of_ne (hne '-' (startsWord_of_sign (by simp)))
  refine ⟨c, body, rfl, isBlank_of_startsWord hc, ?_⟩
  rw [firstToken_other hother, hdigit, hhyphen, hc]
  simp [wordToken, takeWhile_append_of_stopsAt hbody hrest]

theorem firstToken_number {c : Char} {body rest : List Char} {n : Int64}
    (hc : c.isDigit = true ∨ c = '-' ∧ body.head?.any Char.isDigit = true)
    (hbody : body.all Char.isDigit = true) (hread : readInt? (c :: body) = some n.toInt)
    (hrest : StopsAt continuesWord rest) :
    firstToken c (body ++ rest) = .ok (.int n, body.length) := by
  have hother : c ∉ ['(', ')', '.', '=', '!', '<', '>', '&', '|', '"'] := by
    rcases hc with hc | ⟨rfl, -⟩
    · intro hm
      rw [isDigit_of_sign (List.mem_append_left ['-'] hm)] at hc
      contradiction
    · decide
  have hstarts : (c.isDigit || c == '-' && (body ++ rest).head?.any Char.isDigit) = true := by
    rcases hc with hc | ⟨rfl, hc⟩
    · rw [hc, Bool.true_or]
    · cases body with
      | nil => simp at hc
      | cons d body => simpa using hc
  have halnum : body.all Char.isAlphanum = true := by
    rw [List.all_eq_true] at hbody ⊢
    intro x hx
    rw [Char.isAlphanum, hbody x hx, Bool.or_true]
  have hstops : StopsAt Char.isAlphanum rest := by
    intro x hx
    rw [Bool.eq_false_iff]
    intro hx'
    have := hrest x hx
    rw [continuesWord_of_isAlphanum hx'] at this
    contradiction
  rw [firstToken_other hother, if_pos hstarts]
  simp only [numberToken, takeWhile_append_of_stopsAt halnum hstops, hread, Option.bind_some,
    int64?_toInt]

theorem spells_int (n : Int64) {rest : List Char} (hrest : StopsAt continuesWord rest) :
    Spells (Token.int n).spelling (.int n) rest := by
  have hread := readInt?_signedDigits n.toInt
  obtain ⟨d, ds, hds, hd⟩ := exists_digits_cons n.toInt.natAbs
  have hall : (d :: ds).all Char.isDigit = true := hds ▸ digits_all_isDigit _
  by_cases hn : n.toInt < 0
  · have hs : signedDigits n.toInt = '-' :: d :: ds := by rw [signedDigits, if_pos hn, hds]
    rw [hs] at hread
    exact ⟨'-', d :: ds, hs, rfl, firstToken_number (.inr ⟨rfl, hd⟩) hall hread hrest⟩
  · have hs : signedDigits n.toInt = d :: ds := by rw [signedDigits, if_neg hn, hds]
    rw [hs] at hread
    have htail : ds.all Char.isDigit = true := by
      rw [List.all_cons, Bool.and_eq_true] at hall
      exact hall.2
    exact ⟨d, ds, hs, isBlank_of_isDigit hd, firstToken_number (.inl hd) htail hread hrest⟩

theorem spells_compare (op : Comparison) {rest : List Char}
    (hrest : StopsAt (Token.compare op).runsOn rest) :
    Spells (Token.compare op).spelling (.compare op) rest := by
  cases op with
  | eq =>
    refine ⟨'=', [], rfl, rfl, ?_⟩
    cases rest <;> simp_all [firstToken, Token.runsOn, StopsAt]
  | lt =>
    refine ⟨'<', [], rfl, rfl, ?_⟩
    cases rest <;> simp_all [firstToken, Token.runsOn, StopsAt]
  | gt =>
    refine ⟨'>', [], rfl, rfl, ?_⟩
    cases rest <;> simp_all [firstToken, Token.runsOn, StopsAt]
  | ne => exact ⟨'<', ['>'], rfl, rfl, rfl⟩
  | le => exact ⟨'<', ['='], rfl, rfl, rfl⟩
  | ge => exact ⟨'>', ['='], rfl, rfl, rfl⟩

/-- The spelling of a token gives it back where what follows does not run on from it. -/
theorem spells_spelling {t : Token} (ht : t.Spellable) {rest : List Char}
    (hrest : StopsAt t.runsOn rest) : Spells t.spelling t rest := by
  cases t with
  | word name =>
    obtain ⟨hstart, hall, hword⟩ := ht
    rw [String.ofList_toList] at hword
    cases hname : name.toList with
    | nil => simp [hname] at hstart
    | cons c body =>
      rw [hname] at hstart hall
      rw [List.all_cons, Bool.and_eq_true] at hall
      have hspells := spells_ofWord c body hstart hall.2 hrest
      rw [← hname, hword] at hspells
      exact hspells
  | text value => exact spells_text value rest
  | int n => exact spells_int n hrest
  | opening => exact ⟨'(', [], rfl, rfl, rfl⟩
  | closing => exact ⟨')', [], rfl, rfl, rfl⟩
  | dot => exact ⟨'.', [], rfl, rfl, rfl⟩
  | compare op => exact spells_compare op hrest
  | and => exact spells_ofWord 'A' ['n', 'd'] (by decide) (by decide) hrest
  | or => exact spells_ofWord 'O' ['r'] (by decide) (by decide) hrest
  | not => exact spells_ofWord 'N' ['o', 't'] (by decide) (by decide) hrest

/-! ## Texts of several tokens -/

theorem tokensFrom_blanks_append {blanks : List Char} (h : blanks.all isBlank = true)
    (offset : Nat) (rest : List Char) :
    tokensFrom offset (blanks ++ rest) = tokensFrom (offset + blanks.length) rest := by
  induction blanks generalizing offset with
  | nil => rfl
  | cons b blanks ih =>
    rw [List.all_cons, Bool.and_eq_true] at h
    rw [List.cons_append, tokensFrom_blank _ _ _ h.1, ih h.2, List.length_cons, Nat.add_assoc,
      Nat.add_comm 1]

theorem tokensFrom_blanks {blanks : List Char} (h : blanks.all isBlank = true) (offset : Nat) :
    tokensFrom offset blanks = .ok [] := by
  have := tokensFrom_blanks_append h offset []
  rwa [List.append_nil, tokensFrom_nil] at this

/-- A text that is laid out for some tokens has these tokens. -/
theorem tokensFrom_laid {ts : List Token} {cs : List Char} (h : Laid ts cs)
    (hts : ∀ t ∈ ts, t.Spellable) (offset : Nat) :
    ∃ items, tokensFrom offset cs = .ok items ∧ kinds items = ts := by
  induction h generalizing offset with
  | nil blank => exact ⟨[], tokensFrom_blanks blank offset, rfl⟩
  | @cons blanks rest t ts blank ends more ih =>
    obtain ⟨ht, hts⟩ := List.forall_mem_cons.mp hts
    obtain ⟨items, hitems, hkinds⟩ := ih hts (offset + blanks.length + t.spelling.length)
    refine ⟨⟨offset + blanks.length, t⟩ :: items, ?_, by rw [kinds_cons, hkinds]⟩
    rw [tokensFrom_blanks_append blank, tokensFrom_of_spells (spells_spelling ht ends), hitems]
    rfl

/-- The words with single spaces between them. -/
def spaced : List Token → List Char
  | [] => []
  | [t] => t.spelling
  | t :: ts => t.spelling ++ ' ' :: spaced ts

theorem runsOn_of_isBlank {t : Token} {c : Char} (h : isBlank c = true) : t.runsOn c = false := by
  have hword := continuesWord_of_isBlank h
  have heq : c ≠ '=' := ne_of_test h rfl
  have hgt : c ≠ '>' := ne_of_test h rfl
  cases t with
  | compare op => cases op <;> simp [Token.runsOn, heq, hgt]
  | _ => simp [Token.runsOn, hword]

theorem Laid.append_left {blanks cs : List Char} {ts : List Token}
    (hb : blanks.all isBlank = true) (h : Laid ts cs) : Laid ts (blanks ++ cs) := by
  cases h with
  | nil blank => exact .nil (by rw [List.all_append, hb, blank]; rfl)
  | cons blank ends more =>
    rw [← List.append_assoc]
    exact .cons (by rw [List.all_append, hb, blank]; rfl) ends more

theorem laid_spaced (ts : List Token) : Laid ts (spaced ts) := by
  induction ts with
  | nil => exact .nil rfl
  | cons t ts ih =>
    cases ts with
    | nil =>
      have hlaid : Laid [t] ([] ++ (t.spelling ++ [])) := .cons rfl (stopsAt_nil _) (.nil rfl)
      rwa [List.nil_append, List.append_nil] at hlaid
    | cons u ts =>
      have hspace : t.runsOn ' ' = false := runsOn_of_isBlank rfl
      have hmore : Laid (u :: ts) ([' '] ++ spaced (u :: ts)) := ih.append_left rfl
      have hlaid : Laid (t :: u :: ts) ([] ++ (t.spelling ++ ' ' :: spaced (u :: ts))) :=
        .cons rfl (stopsAt_cons.mpr hspace) hmore
      exact hlaid

end LogWatch.Filter
