import LogWatch.Proofs.Filter.Compiling

/-!
# Tokens of a text with more behind it

A text whose tokens can be read has the same tokens, up to their places, where something stands
behind it that starts with a blank or a closing parenthesis: neither runs on from any token.

    Lexes cs ks → Separated more → Lexes more ks' → Lexes (cs ++ more) (ks ++ ks')    (Lexes.append)
-/

namespace LogWatch.Filter

open LogWatch.Text

/-- The characters have tokens of these kinds, at whatever place they start. -/
def Lexes (cs : List Char) (ks : List Token) : Prop :=
  ∀ offset, ∃ items, tokensFrom offset cs = .ok items ∧ kinds items = ks

/-- The text starts with a blank or a closing parenthesis, if it has a first character. -/
def Separated (more : List Char) : Prop := ∀ c ∈ more.head?, isBlank c = true ∨ c = ')'

/-! ## Classes of characters -/

theorem separated_nil : Separated [] := nofun

theorem separated_cons {c : Char} {more : List Char} :
    Separated (c :: more) ↔ isBlank c = true ∨ c = ')' := by
  simp [Separated]

theorem Separated.stopsAt_continuesWord {more : List Char} (h : Separated more) :
    StopsAt continuesWord more := by
  intro c hc
  obtain hblank | rfl := h c hc
  · exact continuesWord_of_isBlank hblank
  · decide +kernel

theorem Separated.stopsAt_of_imp {more : List Char} (h : Separated more) {test : Char → Bool}
    (htest : ∀ c, test c = true → continuesWord c = true) : StopsAt test more := by
  intro c hc
  rw [Bool.eq_false_iff]
  intro hc'
  have hword := h.stopsAt_continuesWord c hc
  rw [htest c hc'] at hword
  cases hword

/-! ## One token -/

theorem quotedText_append {cs value : List Char} {n : Nat} (h : quotedText cs = some (value, n))
    (more : List Char) : quotedText (cs ++ more) = some (value, n) ∧ n ≤ cs.length := by
  induction cs using quotedText.induct generalizing value n with
  | case1 => cases h
  | case2 rest =>
    rw [quotedText] at h
    cases h
    exact ⟨rfl, Nat.succ_le_succ (Nat.zero_le _)⟩
  | case3 rest ih | case4 rest ih =>
    rw [quotedText, Option.map_eq_some_iff] at h
    obtain ⟨⟨value, n⟩, h, he⟩ := h
    cases he
    obtain ⟨hmore, hn⟩ := ih h
    exact ⟨by simp [quotedText, hmore], Nat.add_le_add_right hn 2⟩
  | case5 c rest hquote hescaped hbackslash ih =>
    rw [quotedText, Option.map_eq_some_iff] at h
    · obtain ⟨⟨value, n⟩, h, he⟩ := h
      cases he
      obtain ⟨hmore, hn⟩ := ih h
      refine ⟨?_, Nat.succ_le_succ hn⟩
      -- the text goes on, so that the character behind a backslash stays the same
      obtain ⟨d, tail, rfl⟩ : ∃ d tail, rest = d :: tail := by
        cases rest with
        | nil => cases h
        | cons d tail => exact ⟨d, tail, rfl⟩
      rw [List.cons_append, quotedText, hmore]
      · rfl
      · exact hquote
      · exact fun _ hc hd => hescaped tail hc (by rw [(List.cons.inj hd).1])
      · exact fun _ hc hd => hbackslash tail hc (by rw [(List.cons.inj hd).1])
    all_goals assumption

theorem numberToken_append {rest more : List Char} (hmore : Separated more) (c : Char) :
    numberToken c (rest ++ more) = numberToken c rest := by
  have hstops := hmore.stopsAt_of_imp fun _ => continuesWord_of_isAlphanum
  rw [numberToken, takeWhile_append_stopsAt hstops]
  rfl

theorem numberToken_le {c : Char} {rest : List Char} {t : Token} {n : Nat}
    (h : numberToken c rest = .ok (t, n)) : n ≤ rest.length := by
  simp only [numberToken] at h
  split at h <;> cases h
  exact (List.takeWhile_prefix _).length_le

theorem wordToken_append {rest more : List Char} (hmore : Separated more) (c : Char) :
    wordToken c (rest ++ more) = wordToken c rest := by
  rw [wordToken, takeWhile_append_stopsAt hmore.stopsAt_continuesWord]
  rfl

/-- What stands behind a text does not begin with the second character of a sign. -/
theorem append_ne_cons {rest more : List Char} {s : Char} (hmore : Separated more)
    (hs : s ∈ ['=', '>']) (h : ∀ tail, rest = s :: tail → False) :
    ∀ tail, rest ++ more = s :: tail → False := by
  intro tail htail
  cases rest with
  | nil =>
    obtain rfl : more = s :: tail := htail
    simp only [List.mem_cons, List.not_mem_nil, or_false] at hs
    obtain hblank | hclosing := hmore s rfl
    · obtain rfl | rfl := hs <;> cases hblank
    · obtain rfl | rfl := hs <;> cases hclosing
  | cons d rest =>
    obtain ⟨rfl, -⟩ := List.cons.inj htail
    exact h rest rfl

/-- What neither starts a number nor a word is refused, and signs are such characters. -/
theorem not_sign_of_eq_ok {c : Char} {rest : List Char} {t : Token} {n : Nat}
    (h : (if c.isDigit || (c == '-' && (rest.head?.any Char.isDigit)) then numberToken c rest
      else if startsWord c then .ok (wordToken c rest)
      else .error (.unexpectedChar c)) = Except.ok (t, n)) :
    c ∉ ['(', ')', '.', '=', '!', '<', '>', '&', '|', '"'] := by
  intro hc
  have hsign := List.mem_append_left ['-'] hc
  have hhyphen : (c == '-') = false := by
    rw [beq_eq_false_iff_ne]
    rintro rfl
    simp at hc
  rw [isDigit_of_sign hsign, startsWord_of_sign hsign, hhyphen] at h
  cases h

/-- Numbers and words. -/
theorem firstToken_other_append {c : Char} {rest more : List Char} {t : Token} {n : Nat}
    (hother : c ∉ ['(', ')', '.', '=', '!', '<', '>', '&', '|', '"'])
    (h : firstToken c rest = .ok (t, n)) (hmore : Separated more) :
    firstToken c (rest ++ more) = .ok (t, n) ∧ n ≤ rest.length := by
  have hdigit : (rest ++ more).head?.any Char.isDigit = rest.head?.any Char.isDigit := by
    cases rest with
    | nil =>
      have hstops := hmore.stopsAt_of_imp fun _ => continuesWord_of_isDigit
      cases more with
      | nil => rfl
      | cons d more => exact stopsAt_cons.mp hstops
    | cons d rest => rfl
  rw [firstToken_other hother] at h
  rw [firstToken_other hother, hdigit, numberToken_append hmore, wordToken_append hmore]
  refine ⟨h, ?_⟩
  split at h
  · exact numberToken_le h
  · split at h
    · cases h
      exact (List.takeWhile_prefix _).length_le
    · cases h

theorem firstToken_append {c : Char} {rest more : List Char} {t : Token} {n : Nat}
    (h : firstToken c rest = .ok (t, n)) (hmore : Separated more) :
    firstToken c (rest ++ more) = .ok (t, n) ∧ n ≤ rest.length := by
  have hfirst := h
  unfold firstToken at h
  split at h
  case h_1 | h_2 | h_3 => cases h; exact ⟨rfl, Nat.zero_le _⟩
  case h_4 | h_6 | h_8 | h_9 | h_11 | h_13 | h_14 =>
    cases h
    exact ⟨rfl, Nat.succ_le_succ (Nat.zero_le _)⟩
  -- a sign that the next character could have gone on with
  case h_5 hequals | h_7 hequals | h_12 hequals =>
    cases h
    refine ⟨?_, Nat.zero_le _⟩
    rw [firstToken]
    exact append_ne_cons hmore (by simp) hequals
  case h_10 hgreater hequals =>
    cases h
    refine ⟨?_, Nat.zero_le _⟩
    rw [firstToken]
    · exact append_ne_cons hmore (by simp) hgreater
    · exact append_ne_cons hmore (by simp) hequals
  case h_15 =>
    split at h
    next value n hquoted =>
      cases h
      obtain ⟨hmore, hn⟩ := quotedText_append hquoted more
      refine ⟨?_, hn⟩
      rw [firstToken, hmore]
    next => cases h
  case h_16 => exact firstToken_other_append (not_sign_of_eq_ok h) hfirst hmore

/-! ## All tokens -/

theorem lexes_nil : Lexes [] [] := fun offset => ⟨[], tokensFrom_nil offset, rfl⟩

theorem lexes_blank {c : Char} {cs : List Char} {ks : List Token} (hc : isBlank c = true)
    (h : Lexes cs ks) : Lexes (c :: cs) ks := by
  intro offset
  rw [tokensFrom_blank _ _ _ hc]
  exact h (offset + 1)

theorem lexes_spelling {t : Token} (ht : t.Spellable) {rest : List Char} {ks : List Token}
    (hrest : StopsAt t.runsOn rest) (h : Lexes rest ks) : Lexes (t.spelling ++ rest) (t :: ks) := by
  intro offset
  obtain ⟨items, hitems, hkinds⟩ := h (offset + t.spelling.length)
  refine ⟨⟨offset, t⟩ :: items, ?_, by rw [kinds_cons, hkinds]⟩
  rw [tokensFrom_of_spells (spells_spelling ht hrest), hitems]
  rfl

/-- Reading goes on behind the text as it would from there. -/
theorem lexes_append {offset : Nat} {cs more : List Char} {items : List Placed} {ks : List Token}
    (h : tokensFrom offset cs = .ok items) (hmore : Separated more) (hks : Lexes more ks) :
    Lexes (cs ++ more) (kinds items ++ ks) := by
  induction offset, cs using tokensFrom.induct generalizing items with
  | case1 offset =>
    rw [tokensFrom_nil] at h
    obtain rfl := Except.ok.inj h
    exact hks
  | case2 offset c rest hblank ih =>
    rw [tokensFrom_blank _ _ _ hblank] at h
    exact lexes_blank hblank (ih h)
  | case3 offset c rest hblank reason hrefused =>
    rw [tokensFrom, if_neg hblank, hrefused] at h
    cases h
  | case4 offset c rest hblank t n hfirst ih =>
    rw [tokensFrom, if_neg hblank, hfirst] at h
    obtain ⟨behind, hbehind, hitems⟩ := bind_eq_ok.mp h
    obtain rfl := Except.ok.inj hitems
    obtain ⟨hlonger, hn⟩ := firstToken_append hfirst hmore
    intro offset'
    obtain ⟨items', hitems', hkinds⟩ := ih hbehind (offset' + 1 + n)
    refine ⟨⟨offset', t⟩ :: items', ?_, by rw [kinds_cons, hkinds]; rfl⟩
    rw [← List.drop_append_of_le_length hn] at hitems'
    rw [List.cons_append, tokensFrom, if_neg hblank, hlonger]
    exact bind_eq_ok.mpr ⟨items', hitems', rfl⟩

theorem Lexes.append {cs more : List Char} {ks ks' : List Token} (h : Lexes cs ks)
    (hmore : Separated more) (hks : Lexes more ks') : Lexes (cs ++ more) (ks ++ ks') := by
  obtain ⟨items, hitems, rfl⟩ := h 0
  exact lexes_append hitems hmore hks

/-- Where a text starts makes no difference to its tokens. -/
theorem derives_iff {s : String} {d : Derivation} : Derives s d ↔ Lexes s.toList d.tokens := by
  constructor
  · rintro ⟨ts, hts, hd⟩
    obtain ⟨items, hitems, hmk⟩ := bind_eq_ok.mp hts
    obtain rfl := Except.ok.inj hmk
    have hlexes := lexes_append hitems separated_nil lexes_nil
    rwa [List.append_nil, List.append_nil, hd] at hlexes
  · intro h
    obtain ⟨items, hitems, hkinds⟩ := h 0
    exact ⟨⟨items, s.length⟩, bind_eq_ok.mpr ⟨items, hitems, rfl⟩, hkinds⟩

end LogWatch.Filter
