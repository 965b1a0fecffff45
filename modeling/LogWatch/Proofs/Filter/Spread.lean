import LogWatch.Proofs.Filter.Concatenation

/-!
# Texts with blanks between their words

Where blanks stand between all words of a text, and each word is one token, the text has these
tokens, whichever blanks they are.  A text that cannot be read behind its words cannot be read.

    Spread [] ws cs → List.Forall₂ IsToken ws ks → Lexes cs ks                      (Spread.lexes)
-/

namespace LogWatch.Filter

open LogWatch.Text

/-- The word is the token, if a blank or nothing follows. -/
def IsToken (w : List Char) (t : Token) : Prop := Spells w t []

/-- The text has a character that starts no token. -/
def Unreadable (cs : List Char) : Prop := ∀ offset, ∃ fault, tokensFrom offset cs = .error fault

/-- The words stand in the text in their order, with a blank at least behind each word that does
not end the text, and behind them all stands the tail. -/
inductive Spread (tail : List Char) : List (List Char) → List Char → Prop
  | done {blanks : List Char} (blank : blanks.all isBlank = true) : Spread tail [] (blanks ++ tail)
  | word {blanks w rest : List Char} {ws : List (List Char)} (blank : blanks.all isBlank = true)
    (apart : ∀ c ∈ rest.head?, isBlank c = true) (more : Spread tail ws rest) :
    Spread tail (w :: ws) (blanks ++ (w ++ rest))

variable {tail cs : List Char} {ws : List (List Char)} {ks : List Token}

theorem IsToken.spells {w rest : List Char} {t : Token} (h : IsToken w t)
    (hrest : ∀ c ∈ rest.head?, isBlank c = true) : Spells w t rest := by
  obtain ⟨c, body, rfl, hblank, hfirst⟩ := h
  rw [List.append_nil] at hfirst
  have hseparated : Separated rest := fun d hd => .inl (hrest d hd)
  exact ⟨c, body, rfl, hblank, (firstToken_append hfirst hseparated).1⟩

theorem Lexes.unique {ks' : List Token} (h : Lexes cs ks) (h' : Lexes cs ks') : ks = ks' := by
  obtain ⟨items, hitems, rfl⟩ := h 0
  obtain ⟨items', hitems', rfl⟩ := h' 0
  rw [Except.ok.inj (hitems.symm.trans hitems')]

theorem Spread.lexes (h : Spread [] ws cs) (hw : List.Forall₂ IsToken ws ks) : Lexes cs ks := by
  induction h generalizing ks with
  | done blank =>
    cases hw
    intro offset
    exact ⟨[], by rw [List.append_nil, tokensFrom_blanks blank], rfl⟩
  | @word blanks w rest ws blank apart more ih =>
    cases hw with
    | @cons _ t _ ks hfirst hw =>
      intro offset
      obtain ⟨items, hitems, hkinds⟩ := ih hw (offset + blanks.length + w.length)
      refine ⟨⟨offset + blanks.length, t⟩ :: items, ?_, by rw [kinds_cons, hkinds]⟩
      rw [tokensFrom_blanks_append blank, tokensFrom_of_spells (hfirst.spells apart), hitems]
      rfl

theorem Spread.unreadable (h : Spread tail ws cs) (hw : List.Forall₂ IsToken ws ks)
    (htail : Unreadable tail) : Unreadable cs := by
  induction h generalizing ks with
  | done blank =>
    intro offset
    rw [tokensFrom_blanks_append blank]
    exact htail _
  | @word blanks w rest ws blank apart more ih =>
    cases hw with
    | @cons _ t _ ks hfirst hw =>
      intro offset
      obtain ⟨fault, hfault⟩ := ih hw (offset + blanks.length + w.length)
      refine ⟨fault, ?_⟩
      rw [tokensFrom_blanks_append blank, tokensFrom_of_spells (hfirst.spells apart), hfault]
      rfl

theorem Spread.all_isBlank (h : Spread [] [] cs) : cs.all isBlank = true := by
  cases h with
  | done blank => rwa [List.append_nil]

/-! ## Compiling -/

variable {s : String}

theorem compile_of_unreadable (h : Unreadable s.toList) (f : Filter) : compile s ≠ .ok f := by
  obtain ⟨fault, hfault⟩ := h 0
  have hs : isBlankText s = false := not_isBlankText (by rw [hfault]; nofun)
  intro hf
  obtain ⟨d, ⟨ts, hts, -⟩, -⟩ := exists_derivation hs hf
  obtain ⟨items, hitems, -⟩ := bind_eq_ok.mp hts
  rw [hfault] at hitems
  cases hitems

/-- What a text with tokens compiles to depends on the tokens only. -/
theorem compile_iff_of_lexes (h : Lexes s.toList ks) (hne : ks ≠ []) {tree : Option Expr} :
    (∃ f, compile s = .ok f ∧ f.expr = tree) ↔
      ∃ d : Derivation, d.tokens = ks ∧ d.nesting ≤ nestingLimit ∧ some d.tree = tree := by
  have hs : isBlankText s = false := by
    obtain ⟨items, hitems, rfl⟩ := h 0
    refine not_isBlankText fun hnil => hne ?_
    rw [Except.ok.inj (hitems.symm.trans hnil), kinds_nil]
  constructor
  · rintro ⟨f, hf, rfl⟩
    obtain ⟨d, hd, hn, rfl⟩ := exists_derivation hs hf
    exact ⟨d, (derives_iff.mp hd).unique h, hn, rfl⟩
  · rintro ⟨d, rfl, hn, rfl⟩
    exact ⟨_, compile_of_derives (derives_iff.mpr h) hn, rfl⟩

end LogWatch.Filter
