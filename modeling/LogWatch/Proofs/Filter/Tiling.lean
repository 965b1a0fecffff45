import LogWatch.Proofs.Filter.Spread

/-!
# Tokens tile a text

A token does not depend on what stands behind it: a text that is cut off there has the same token.
So the tokens of a text lie in it side by side, each a text of its own with this one token, and
all around them is blank.  A text that cannot be read is one up to the character where it fails.

    tokensFrom offset cs = .ok items ↔ Tiles offset cs items            (tokensFrom_eq_ok_iff)
-/

namespace LogWatch.Filter

open LogWatch.Text

/-! ## One token, cut off behind it -/

theorem quotedText_pos {cs value : List Char} {n : Nat} (h : quotedText cs = some (value, n)) :
    0 < n := by
  unfold quotedText at h
  split at h
  · cases h
  · cases h
    exact Nat.one_pos
  all_goals
    obtain ⟨_, -, he⟩ := Option.map_eq_some_iff.mp h
    cases he
    exact Nat.succ_pos _

theorem one_lt_of_quotedText {c : Char} {rest value : List Char} {n : Nat}
    (h : quotedText (c :: rest) = some (value, n)) (hc : c ≠ '"') : 1 < n := by
  unfold quotedText at h
  split at h
  next he => cases he
  next he => exact absurd (List.cons.inj he).1 hc
  all_goals
    obtain ⟨⟨_, m⟩, hrest, he⟩ := Option.map_eq_some_iff.mp h
    cases he
    have hm := quotedText_pos hrest
    omega

/-- The closing quote and all before it are enough. -/
theorem quotedText_of_append {cs more value : List Char} {n : Nat}
    (h : quotedText (cs ++ more) = some (value, n)) (hn : n ≤ cs.length) :
    quotedText cs = some (value, n) := by
  induction cs using quotedText.induct generalizing value n with
  | case1 => exact absurd (quotedText_pos h) (Nat.not_lt.mpr hn)
  | case2 rest => exact h
  | case3 rest ih | case4 rest ih =>
    obtain ⟨⟨value, n⟩, hrest, he⟩ := Option.map_eq_some_iff.mp h
    cases he
    rw [quotedText, ih hrest (Nat.le_of_add_le_add_right hn)]
    rfl
  | case5 c rest hquote hescaped hbackslash ih =>
    cases rest with
    | nil =>
      exact absurd hn (Nat.not_le.mpr (one_lt_of_quotedText h hquote))
    | cons d rest =>
      rw [List.cons_append, List.cons_append, quotedText] at h
      · obtain ⟨⟨value, n⟩, hrest, he⟩ := Option.map_eq_some_iff.mp h
        cases he
        rw [quotedText, ih hrest (Nat.le_of_add_le_add_right hn)]
        · rfl
        all_goals assumption
      · exact hquote
      · exact fun _ hc hd => hescaped rest hc (by rw [(List.cons.inj hd).1])
      · exact fun _ hc hd => hbackslash rest hc (by rw [(List.cons.inj hd).1])

theorem takeWhile_of_append {test : Char → Bool} {xs ys : List Char}
    (h : ((xs ++ ys).takeWhile test).length ≤ xs.length) :
    xs.takeWhile test = (xs ++ ys).takeWhile test := by
  rw [List.takeWhile_append] at h ⊢
  split at h
  next hall =>
    rw [if_pos hall]
    have hnil : ys.takeWhile test = [] := by
      rw [List.length_append] at h
      exact List.eq_nil_of_length_eq_zero (by omega)
    rw [hnil, List.append_nil]
    exact (List.takeWhile_prefix test).eq_of_length hall
  next hall => rw [if_neg hall]

theorem length_of_numberToken {c : Char} {rest : List Char} {t : Token} {n : Nat}
    (h : numberToken c rest = .ok (t, n)) : n = (rest.takeWhile Char.isAlphanum).length := by
  simp only [numberToken] at h
  split at h <;> cases h
  rfl

theorem numberToken_of_append {c : Char} {rest more : List Char} {t : Token} {n : Nat}
    (h : numberToken c (rest ++ more) = .ok (t, n)) (hn : n ≤ rest.length) :
    numberToken c rest = .ok (t, n) := by
  have hrun : rest.takeWhile Char.isAlphanum = (rest ++ more).takeWhile Char.isAlphanum :=
    takeWhile_of_append (length_of_numberToken h ▸ hn)
  rw [numberToken] at h ⊢
  rwa [hrun]

theorem wordToken_of_append {c : Char} {rest more : List Char} {t : Token} {n : Nat}
    (h : wordToken c (rest ++ more) = (t, n)) (hn : n ≤ rest.length) :
    wordToken c rest = (t, n) := by
  have hrun : rest.takeWhile continuesWord = (rest ++ more).takeWhile continuesWord := by
    refine takeWhile_of_append ?_
    cases h
    exact hn
  rw [wordToken] at h ⊢
  rwa [hrun]

/-- The second character of a sign belongs to what is taken. -/
theorem exists_cons_of_append {rest more tail : List Char} {s : Char}
    (h : rest ++ more = s :: tail) (hn : 1 ≤ rest.length) : ∃ tail', rest = s :: tail' := by
  cases rest with
  | nil => cases hn
  | cons d rest => exact ⟨rest, by rw [(List.cons.inj h).1]⟩

theorem ne_cons_of_append {rest more : List Char} {s : Char}
    (h : ∀ tail, rest ++ more = s :: tail → False) : ∀ tail, rest = s :: tail → False := by
  rintro tail rfl
  exact h (tail ++ more) rfl

/-- A hyphen starts a number only with the digit behind it. -/
theorem startsNumber_of_append {c : Char} {rest more : List Char} {n : Nat}
    (hlength : n = ((rest ++ more).takeWhile Char.isAlphanum).length) (hn : n ≤ rest.length) :
    (c.isDigit || c == '-' && (rest ++ more).head?.any Char.isDigit) =
      (c.isDigit || c == '-' && rest.head?.any Char.isDigit) := by
  cases rest with
  | cons d rest => rfl
  | nil =>
    have hnil := List.eq_nil_of_length_eq_zero (hlength ▸ Nat.le_zero.mp hn)
    cases more with
    | nil => rfl
    | cons d more =>
      have hd : d.isDigit = false := by
        rw [Bool.eq_false_iff]
        intro hd
        simp [Char.isAlphanum, hd] at hnil
      simp [hd]

/-- Numbers and words. -/
theorem firstToken_other_of_append {c : Char} {rest more : List Char} {t : Token} {n : Nat}
    (hother : c ∉ ['(', ')', '.', '=', '!', '<', '>', '&', '|', '"'])
    (h : firstToken c (rest ++ more) = .ok (t, n)) (hn : n ≤ rest.length) :
    firstToken c rest = .ok (t, n) := by
  rw [firstToken_other hother] at h ⊢
  split at h
  next hstarts =>
    rw [startsNumber_of_append (length_of_numberToken h) hn] at hstarts
    rw [if_pos hstarts]
    exact numberToken_of_append h hn
  next hstarts =>
    have hstarts' : ¬(c.isDigit || c == '-' && rest.head?.any Char.isDigit) = true := by
      cases rest with
      | nil => simp_all
      | cons d rest => exact hstarts
    rw [if_neg hstarts']
    split at h
    next hword =>
      rw [if_pos hword, wordToken_of_append (Except.ok.inj h) hn]
    next => cases h

theorem firstToken_of_append {c : Char} {rest more : List Char} {t : Token} {n : Nat}
    (h : firstToken c (rest ++ more) = .ok (t, n)) (hn : n ≤ rest.length) :
    firstToken c rest = .ok (t, n) := by
  have hfirst := h
  unfold firstToken at h
  split at h
  case h_1 | h_2 | h_3 => cases h; rfl
  case h_4 | h_6 | h_8 | h_9 | h_11 | h_13 | h_14 =>
    rename_i hsign
    cases h
    obtain ⟨tail, rfl⟩ := exists_cons_of_append hsign hn
    rfl
  -- a sign that the next character could have gone on with
  case h_5 hequals | h_7 hequals | h_12 hequals =>
    cases h
    rw [firstToken]
    exact ne_cons_of_append hequals
  case h_10 hgreater hequals =>
    cases h
    rw [firstToken]
    · exact ne_cons_of_append hgreater
    · exact ne_cons_of_append hequals
  case h_15 =>
    split at h
    next value n hquoted =>
      cases h
      rw [firstToken, quotedText_of_append hquoted hn]
    next => cases h
  case h_16 => exact firstToken_other_of_append (not_sign_of_eq_ok h) hfirst hn

theorem Spells.of_append {w rest more : List Char} {t : Token} (h : Spells w t (rest ++ more)) :
    Spells w t rest := by
  obtain ⟨c, body, rfl, hblank, hfirst⟩ := h
  rw [← List.append_assoc] at hfirst
  exact ⟨c, body, rfl, hblank, firstToken_of_append hfirst (by simp)⟩

theorem Spells.isToken {w rest : List Char} {t : Token} (h : Spells w t rest) : IsToken w t :=
  @Spells.of_append w [] rest t h

theorem spells_of_firstToken {c : Char} {rest : List Char} {t : Token} {n : Nat}
    (hblank : isBlank c = false) (h : firstToken c rest = .ok (t, n)) :
    Spells (c :: rest.take n) t (rest.drop n) := by
  have hn := (firstToken_append h separated_nil).2
  refine ⟨c, rest.take n, rfl, hblank, ?_⟩
  rw [List.take_append_drop, List.length_take_of_le hn]
  exact h

/-! ## Tiles -/

/-- Each token lies at its offset in the text, which starts at the first one; all else is blank. -/
inductive Tiles : Nat → List Char → List Placed → Prop
  | done {offset : Nat} : Tiles offset [] []
  | blank {offset : Nat} {c : Char} {cs : List Char} {items : List Placed}
    (blank : isBlank c = true) (more : Tiles (offset + 1) cs items) : Tiles offset (c :: cs) items
  | token {offset : Nat} {w rest : List Char} {t : Token} {items : List Placed}
    (spells : Spells w t rest) (more : Tiles (offset + w.length) rest items) :
    Tiles offset (w ++ rest) (⟨offset, t⟩ :: items)

theorem Tiles.token_of_firstToken {offset n : Nat} {c : Char} {rest : List Char} {t : Token}
    {items : List Placed} (hblank : isBlank c = false) (h : firstToken c rest = .ok (t, n))
    {before : List Char} (hbefore : before <+: rest.drop n)
    (more : Tiles (offset + 1 + n) before items) :
    Tiles offset (c :: rest.take n ++ before) (⟨offset, t⟩ :: items) := by
  obtain ⟨behind, hbehind⟩ := hbefore
  have hspells := spells_of_firstToken hblank h
  rw [← hbehind] at hspells
  have hlength : (c :: rest.take n).length = 1 + n := by
    rw [List.length_cons, List.length_take_of_le (firstToken_append h separated_nil).2,
      Nat.add_comm]
  exact .token hspells.of_append (by rwa [hlength, ← Nat.add_assoc])

theorem tokensFrom_eq_ok_iff {offset : Nat} {cs : List Char} {items : List Placed} :
    tokensFrom offset cs = .ok items ↔ Tiles offset cs items := by
  constructor
  · intro h
    induction offset, cs using tokensFrom.induct generalizing items with
    | case1 offset =>
      rw [tokensFrom_nil] at h
      cases h
      exact .done
    | case2 offset c rest hblank ih =>
      rw [tokensFrom_blank _ _ _ hblank] at h
      exact .blank hblank (ih h)
    | case3 offset c rest hblank reason hrefused =>
      rw [tokensFrom, if_neg hblank, hrefused] at h
      cases h
    | case4 offset c rest hblank t n hfirst ih =>
      rw [tokensFrom, if_neg hblank, hfirst] at h
      obtain ⟨behind, hbehind, hitems⟩ := bind_eq_ok.mp h
      cases hitems
      have htiles := Tiles.token_of_firstToken (Bool.eq_false_iff.mpr hblank) hfirst
        (List.prefix_refl _) (ih hbehind)
      rwa [List.cons_append, List.take_append_drop] at htiles
  · intro h
    induction h with
    | done => exact tokensFrom_nil _
    | blank hblank more ih => rw [tokensFrom_blank _ _ _ hblank, ih]
    | token spells more ih =>
      rw [tokensFrom_of_spells spells, ih]
      rfl

/-- Reading fails at a character that starts no token, and all before it is read. -/
theorem tokensFrom_eq_error {offset : Nat} {cs : List Char} {fault : Fault}
    (h : tokensFrom offset cs = .error fault) :
    ∃ before c rest items, cs = before ++ c :: rest ∧ fault.offset = offset + before.length ∧
      isBlank c = false ∧ firstToken c rest = .error fault.reason ∧ Tiles offset before items := by
  induction offset, cs using tokensFrom.induct with
  | case1 offset =>
    rw [tokensFrom_nil] at h
    cases h
  | case2 offset c rest hblank ih =>
    rw [tokensFrom_blank _ _ _ hblank] at h
    obtain ⟨before, d, rest, items, rfl, hoffset, hd, hrefused, htiles⟩ := ih h
    refine ⟨c :: before, d, rest, items, rfl, ?_, hd, hrefused, .blank hblank htiles⟩
    rw [hoffset, List.length_cons]
    omega
  | case3 offset c rest hblank reason hrefused =>
    rw [tokensFrom, if_neg hblank, hrefused] at h
    cases h
    exact ⟨[], c, rest, [], rfl, rfl, Bool.eq_false_iff.mpr hblank, hrefused, .done⟩
  | case4 offset c rest hblank t n hfirst ih =>
    rw [tokensFrom, if_neg hblank, hfirst] at h
    have hbehind := (bind_ok_eq_error fun _ => ⟨_, rfl⟩).mp h
    obtain ⟨before, d, behind, items, hdrop, hoffset, hd, hrefused, htiles⟩ := ih hbehind
    have hlength := List.length_take_of_le (firstToken_append hfirst separated_nil).2
    refine ⟨c :: rest.take n ++ before, d, behind, _, ?_, ?_, hd, hrefused,
      Tiles.token_of_firstToken (Bool.eq_false_iff.mpr hblank) hfirst ⟨_, hdrop.symm⟩ htiles⟩
    · rw [List.append_assoc, ← hdrop, List.cons_append, List.take_append_drop]
    · rw [hoffset, List.length_append, List.length_cons, hlength]
      omega

/-! ## Places in a text -/

/-- The characters from one offset up to another. -/
def slice (cs : List Char) (start stop : Nat) : List Char := (cs.drop start).take (stop - start)

/-- Where the token at an offset ends: behind the characters that are read as it. -/
def endOf (cs : List Char) (offset : Nat) : Nat :=
  match cs.drop offset with
  | [] => offset
  | c :: rest =>
    match firstToken c rest with
    | .ok (_, n) => offset + 1 + n
    | .error _ => offset

section Places

variable {cs rest w : List Char} {offset : Nat} {t : Token} {items : List Placed}

theorem Spells.endOf (h : Spells w t rest) (hcs : cs.drop offset = w ++ rest) :
    endOf cs offset = offset + w.length := by
  obtain ⟨c, body, rfl, -, hfirst⟩ := h
  unfold Filter.endOf
  rw [hcs, List.cons_append]
  simp only [hfirst, List.length_cons]
  omega

theorem Spells.slice (h : Spells w t rest) (hcs : cs.drop offset = w ++ rest) :
    slice cs offset (Filter.endOf cs offset) = w := by
  rw [h.endOf hcs, Filter.slice, hcs, Nat.add_sub_cancel_left, List.take_left]

theorem Spells.length_pos (h : Spells w t rest) : 0 < w.length := by
  obtain ⟨c, body, rfl, -⟩ := h
  exact Nat.succ_pos _

theorem drop_behind (hcs : cs.drop offset = w ++ rest) : cs.drop (offset + w.length) = rest := by
  rw [← List.drop_drop, hcs, List.drop_left]

/-- A token takes one character at least, all of them in the text, and they are a text of this one
token. -/
theorem Tiles.alone (h : Tiles offset rest items) (hcs : cs.drop offset = rest) :
    ∀ p ∈ items, offset ≤ p.offset ∧ p.offset < endOf cs p.offset ∧
      endOf cs p.offset ≤ cs.length ∧ IsToken (slice cs p.offset (endOf cs p.offset)) p.token := by
  induction h with
  | done => exact nofun
  | @blank offset c rest items _ more ih =>
    intro p hp
    obtain ⟨hstart, hp⟩ := ih (drop_behind (w := [c]) hcs) p hp
    exact ⟨Nat.le_of_succ_le hstart, hp⟩
  | @token offset w rest t items spells more ih =>
    intro p hp
    have hpos := spells.length_pos
    rcases List.mem_cons.mp hp with rfl | hp
    · have hlength := congrArg List.length hcs
      rw [List.length_drop, List.length_append] at hlength
      dsimp only
      refine ⟨Nat.le_refl _, ?_, ?_, ?_⟩
      · rw [spells.endOf hcs]
        omega
      · rw [spells.endOf hcs]
        omega
      · rw [spells.slice hcs]
        exact spells.isToken
    · obtain ⟨hstart, hp⟩ := ih (drop_behind hcs) p hp
      exact ⟨by omega, hp⟩

theorem Tiles.apart (h : Tiles offset rest items) (hcs : cs.drop offset = rest) :
    items.Pairwise fun p q => endOf cs p.offset ≤ q.offset := by
  induction h with
  | done => exact .nil
  | @blank offset c rest items _ more ih => exact ih (drop_behind (w := [c]) hcs)
  | @token offset w rest t items spells more ih =>
    refine .cons (fun q hq => ?_) (ih (drop_behind hcs))
    rw [spells.endOf hcs]
    exact (more.alone (drop_behind hcs) q hq).1

theorem Tiles.blank_or_mem (h : Tiles offset rest items) (hcs : cs.drop offset = rest) {i : Nat}
    {c : Char} (hi : offset ≤ i) (hc : cs[i]? = some c) :
    isBlank c = true ∨ ∃ p ∈ items, p.offset ≤ i ∧ i < endOf cs p.offset := by
  induction h with
  | done =>
    have hlength := List.drop_eq_nil_iff.mp hcs
    rw [List.getElem?_eq_none (by omega)] at hc
    cases hc
  | @blank offset d rest items hblank more ih =>
    rcases Nat.lt_or_eq_of_le hi with hlater | rfl
    · exact ih (drop_behind (w := [d]) hcs) hlater
    · rw [← List.head?_drop, hcs, List.head?_cons] at hc
      cases hc
      exact .inl hblank
  | @token offset w rest t items spells more ih =>
    by_cases hlater : offset + w.length ≤ i
    · refine (ih (drop_behind hcs) hlater).imp_right ?_
      rintro ⟨p, hp, hin⟩
      exact ⟨p, List.mem_cons_of_mem _ hp, hin⟩
    · refine .inr ⟨⟨offset, t⟩, List.mem_cons_self, hi, ?_⟩
      rw [spells.endOf hcs]
      omega

end Places

/-! ## Top theorem -/

theorem ofText_eq_ok_iff {s : String} {ts : Tokens} :
    Tokens.ofText s = .ok ts ↔ Tiles 0 s.toList ts.items ∧ ts.stop = s.length := by
  constructor
  · intro h
    obtain ⟨items, hitems, hts⟩ := bind_eq_ok.mp h
    cases hts
    exact ⟨tokensFrom_eq_ok_iff.mp hitems, rfl⟩
  · rintro ⟨htiles, hstop⟩
    refine bind_eq_ok.mpr ⟨ts.items, tokensFrom_eq_ok_iff.mpr htiles, ?_⟩
    rw [← hstop]
    rfl

theorem length_slice {cs : List Char} {start stop : Nat} (h : stop ≤ cs.length) :
    (slice cs start stop).length = stop - start := by
  rw [slice, List.length_take_of_le]
  rw [List.length_drop]
  omega

theorem IsToken.ofText {w : List Char} {t : Token} (h : IsToken w t) :
    Tokens.ofText (String.ofList w) = .ok ⟨[⟨0, t⟩], w.length⟩ := by
  rw [ofText_eq_ok_iff, String.toList_ofList, String.length_ofList]
  have htiles : Tiles 0 (w ++ []) [⟨0, t⟩] := .token h .done
  rw [List.append_nil] at htiles
  exact ⟨htiles, rfl⟩

/-- Where a text has tokens, their offsets increase up to its end, no two of them overlap, the
characters of each are a text with this one token, and all other characters are blank.  Where
reading fails, it fails at a character of the text that is not blank, and the text before it has
tokens. -/
theorem tokens_tile_text (s : String) :
    (∀ ts, Tokens.ofText s = .ok ts →
      ts.stop = s.length ∧
      (ts.items.map Placed.offset ++ [ts.stop]).Pairwise (· < ·) ∧
      (ts.items.Pairwise fun p q => endOf s.toList p.offset ≤ q.offset) ∧
      (∀ p ∈ ts.items, endOf s.toList p.offset ≤ s.length ∧
        Tokens.ofText (String.ofList (slice s.toList p.offset (endOf s.toList p.offset))) =
          .ok ⟨[⟨0, p.token⟩], endOf s.toList p.offset - p.offset⟩) ∧
      ∀ i c, s.toList[i]? = some c →
        isBlank c = true ∨ ∃ p ∈ ts.items, p.offset ≤ i ∧ i < endOf s.toList p.offset) ∧
    ∀ fault, Tokens.ofText s = .error fault →
      fault.offset < s.length ∧
      (∃ c, s.toList[fault.offset]? = some c ∧ isBlank c = false) ∧
      ∃ ts, Tokens.ofText (String.ofList (slice s.toList 0 fault.offset)) = .ok ts := by
  constructor
  · intro ts h
    obtain ⟨htiles, hstop⟩ := ofText_eq_ok_iff.mp h
    have hcs : s.toList.drop 0 = s.toList := List.drop_zero
    have halone := htiles.alone hcs
    have hapart := htiles.apart hcs
    refine ⟨hstop, ?_, hapart, fun p hp => ?_, fun i c hc => ?_⟩
    · have hoffsets : (ts.items.map Placed.offset).Pairwise (· < ·) := by
        refine List.pairwise_map.mpr (hapart.imp_of_mem fun hp _ hpq => ?_)
        exact Nat.lt_of_lt_of_le (halone _ hp).2.1 hpq
      refine List.pairwise_append.mpr ⟨hoffsets, List.pairwise_singleton _ _, ?_⟩
      simp only [List.mem_map, List.mem_singleton, forall_eq, forall_exists_index, and_imp,
        forall_apply_eq_imp_iff₂]
      intro p hp
      obtain ⟨-, hpos, hin, -⟩ := halone p hp
      rw [hstop]
      exact Nat.lt_of_lt_of_le hpos hin
    · obtain ⟨-, -, hin, htoken⟩ := halone p hp
      refine ⟨hin, ?_⟩
      rw [htoken.ofText, length_slice hin]
    · exact htiles.blank_or_mem hcs (Nat.zero_le i) hc
  · intro fault h
    have herror := (bind_ok_eq_error fun _ => ⟨_, rfl⟩).mp h
    obtain ⟨before, c, rest, items, hcs, hoffset, hblank, -, htiles⟩ := tokensFrom_eq_error herror
    rw [Nat.zero_add] at hoffset
    have hlength := congrArg List.length hcs
    rw [String.length_toList, List.length_append, List.length_cons] at hlength
    refine ⟨by omega, ⟨c, ?_, hblank⟩, ⟨items, before.length⟩, ?_⟩
    · rw [hcs, hoffset, List.getElem?_append_right (Nat.le_refl _), Nat.sub_self]
      rfl
    · rw [slice, hcs, hoffset, List.drop_zero, Nat.sub_zero, List.take_left, ofText_eq_ok_iff,
        String.toList_ofList, String.length_ofList]
      exact ⟨htiles, rfl⟩

/-! ## A text with letters beyond ASCII and one that cannot be read -/

namespace Sample

def accented : String := "Message = \"äö\" Or"

theorem ofText_accented : Tokens.ofText accented =
    .ok ⟨[⟨0, .word "Message"⟩, ⟨8, .compare .eq⟩, ⟨10, .text "äö"⟩, ⟨15, .or⟩], 17⟩ := by
  decide +kernel

def stray : String := "EventID = 1 ; drop"

theorem ofText_stray : Tokens.ofText stray = .error ⟨12, .unexpectedChar ';'⟩ := by
  decide +kernel

end Sample

/-- The quoted text is a token of its own, and what stands before the stray character has tokens. -/
theorem tokens_tile_text_with_quotes :
    Tokens.ofText "\"äö\"" = .ok ⟨[⟨0, .text "äö"⟩], 4⟩ ∧
      ∃ ts, Tokens.ofText "EventID = 1 " = .ok ts := by
  obtain ⟨-, -, -, halone, -⟩ := (tokens_tile_text Sample.accented).1 _ Sample.ofText_accented
  obtain ⟨-, -, hbefore⟩ := (tokens_tile_text Sample.stray).2 _ Sample.ofText_stray
  exact ⟨(halone ⟨10, .text "äö"⟩ (by simp)).2, hbefore⟩

end LogWatch.Filter
