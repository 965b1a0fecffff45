import LogWatch.Proofs.Filter.Concatenation

/-!
# Composing filters as texts

Two filters with `Or` between them are one chain of their alternatives; with both of them in
parentheses, and `And` between them or `Not` in front, they are operands.  What a composed text
accepts follows from what its parts accept, however these are laid out and whatever their literals
are.  Only nesting stands in the way: parentheses and `Not` add to it, a chain does not.

    Derives f d → Derives g d' → Derives (f ++ " Or " ++ g) (d.append d')               (Derives.or)
    compile f = .ok F → compile g = .ok G → f and g compose               (composed_texts_compile)
-/

namespace LogWatch.Filter

open LogWatch.Text

/-! ## Derivations of composed filters -/

namespace Chain

variable {α : Type}

/-- One chain behind the other. -/
def append : Chain α → Chain α → Chain α
  | .one a, c => .cons a c
  | .cons a more, c => .cons a (more.append c)

theorem toList_append (c c' : Chain α) : (c.append c').toList = c.toList ++ c'.toList := by
  induction c with
  | one a => rfl
  | cons a more ih => rw [append, toList, toList, ih, List.cons_append]

theorem joined_map_append (joiner : Token) (f : α → List Token) (c c' : Chain α) :
    ((c.append c').map f).joined joiner =
      (c.map f).joined joiner ++ joiner :: (c'.map f).joined joiner := by
  induction c with
  | one a => rfl
  | cons a more ih => rw [append, map, map, joined, joined, ih, List.append_assoc, List.cons_append]

theorem deepest_map_append (f : α → Nat) (c c' : Chain α) :
    ((c.append c').map f).deepest = max (c.map f).deepest (c'.map f).deepest := by
  induction c with
  | one a => rfl
  | cons a more ih => rw [append, map, map, deepest, deepest, ih, Nat.max_assoc]

theorem holds_tree_or (c : Chain Expr) (ev : Event) :
    (c.tree .or).holds ev = c.toList.any (Expr.holds ev) := by
  cases c with
  | one e => exact (Bool.or_false _).symm
  | cons e more => rw [tree, Expr.holds, Expr.anyHolds_eq, toList]

end Chain

namespace Derivation

variable (d d' : Derivation)

/-- Both filters in parentheses, with `And` between them. -/
def both : Derivation := .one (.cons (.group d) (.one (.group d')))

/-- The filter in parentheses, negated. -/
def negation : Derivation := .one (.one (.not (.group d)))

theorem tokens_append : tokens (d.append d') = d.tokens ++ .or :: d'.tokens :=
  Chain.joined_map_append .or Conjunction.tokens d d'

theorem nesting_append : nesting (d.append d') = max d.nesting d'.nesting :=
  Chain.deepest_map_append Conjunction.nesting d d'

theorem holds_append (ev : Event) :
    (tree (d.append d')).holds ev = (d.tree.holds ev || d'.tree.holds ev) := by
  unfold tree
  rw [Chain.holds_tree_or, Chain.holds_tree_or, Chain.holds_tree_or, Chain.toList_map,
    Chain.toList_append, List.map_append, List.any_append, Chain.toList_map, Chain.toList_map]

theorem tokens_both :
    (both d d').tokens =
      .opening :: (d.tokens ++ .closing :: .and :: .opening :: (d'.tokens ++ [.closing])) := by
  show (Operand.group d).tokens ++ Token.and :: (Operand.group d').tokens = _
  simp [Operand.tokens_group]

theorem nesting_both : (both d d').nesting = max d.nesting d'.nesting + 1 := by
  show max (Operand.group d).nesting (Operand.group d').nesting = _
  rw [Operand.nesting_group, Operand.nesting_group, Nat.add_max_add_right]

theorem holds_both (ev : Event) :
    (both d d').tree.holds ev = (d.tree.holds ev && d'.tree.holds ev) := by
  show (Expr.and [(Operand.group d).tree, (Operand.group d').tree]).holds ev = _
  rw [Operand.tree_group, Operand.tree_group, Expr.holds, Expr.allHold_eq]
  simp

theorem tokens_negation : (negation d).tokens = .not :: .opening :: (d.tokens ++ [.closing]) := by
  show Token.not :: (Operand.group d).tokens = _
  rw [Operand.tokens_group]

theorem nesting_negation : (negation d).nesting = d.nesting + 2 := by
  show (Operand.group d).nesting + 1 = _
  rw [Operand.nesting_group]

theorem holds_negation (ev : Event) : (negation d).tree.holds ev = !d.tree.holds ev := by
  show (Expr.not (Operand.group d).tree).holds ev = _
  rw [Operand.tree_group, Expr.holds]

end Derivation

/-! ## Composed texts -/

section Texts

variable {f g : String} {d d' : Derivation}

theorem lexes_opening {cs : List Char} {ks : List Token} (h : Lexes cs ks) :
    Lexes ('(' :: cs) (.opening :: ks) :=
  lexes_spelling (t := .opening) trivial (fun _ _ => rfl) h

theorem lexes_closing {cs : List Char} {ks : List Token} (h : Lexes cs ks) :
    Lexes (')' :: cs) (.closing :: ks) :=
  lexes_spelling (t := .closing) trivial (fun _ _ => rfl) h

/-- A keyword with a blank behind it. -/
theorem lexes_keyword {t : Token} (ht : t.Spellable) {c : Char} (hc : isBlank c = true)
    {cs : List Char} {ks : List Token} (h : Lexes cs ks) :
    Lexes (t.spelling ++ c :: cs) (t :: ks) :=
  lexes_spelling ht (stopsAt_cons.mpr (runsOn_of_isBlank hc)) (lexes_blank hc h)

theorem Derives.or (hf : Derives f d) (hg : Derives g d') :
    Derives (f ++ " Or " ++ g) (d.append d') := by
  rw [derives_iff] at hf hg ⊢
  have hbehind : Lexes (' ' :: 'O' :: 'r' :: ' ' :: g.toList) (.or :: d'.tokens) :=
    lexes_blank rfl (lexes_keyword (t := .or) trivial rfl hg)
  rw [Derivation.tokens_append]
  simpa using hf.append (separated_cons.mpr (.inl rfl)) hbehind

/-- Parentheses around a text, with more behind them. -/
theorem lexes_group {cs more : List Char} {ks ks' : List Token} (h : Lexes cs ks)
    (hmore : Lexes more ks') :
    Lexes ('(' :: (cs ++ ')' :: more)) (.opening :: (ks ++ .closing :: ks')) :=
  lexes_opening (h.append (separated_cons.mpr (.inr rfl)) (lexes_closing hmore))

theorem Derives.both (hf : Derives f d) (hg : Derives g d') :
    Derives ("(" ++ f ++ ") And (" ++ g ++ ")") (d.both d') := by
  rw [derives_iff] at hf hg ⊢
  have hbehind : Lexes (' ' :: 'A' :: 'n' :: 'd' :: ' ' :: '(' :: (g.toList ++ [')']))
      (.and :: .opening :: (d'.tokens ++ [.closing])) :=
    lexes_blank rfl (lexes_keyword (t := .and) trivial rfl (lexes_group hg lexes_nil))
  rw [Derivation.tokens_both]
  simpa using lexes_group hf hbehind

theorem Derives.negation (hf : Derives f d) : Derives ("Not (" ++ f ++ ")") d.negation := by
  rw [derives_iff] at hf ⊢
  have hall : Lexes ('N' :: 'o' :: 't' :: ' ' :: '(' :: (f.toList ++ [')']))
      (.not :: .opening :: (d.tokens ++ [.closing])) :=
    lexes_keyword (t := .not) trivial rfl (lexes_group hf lexes_nil)
  rw [Derivation.tokens_negation]
  simpa using hall

end Texts

/-! ## Top theorem -/

/-- The tokens of the text follow the grammar, the deepest of them in `n` groups and `Not`s. -/
def Nests (s : String) (n : Nat) : Prop := ∃ d, Derives s d ∧ d.nesting = n

theorem Nests.unique {s : String} {m n : Nat} (h : Nests s m) (h' : Nests s n) : m = n := by
  obtain ⟨d, hd, rfl⟩ := h
  obtain ⟨d', hd', rfl⟩ := h'
  rw [hd.unique hd']

/-- The text nests `n` deep.  Within the limit it compiles, to a filter that accepts these events;
beyond the limit it is refused for that. -/
structure Composes (s : String) (n : Nat) (accepted : Event → Bool) : Prop where
  nests : Nests s n
  within : n ≤ nestingLimit → ∃ F, compile s = .ok F ∧ ∀ ev, F.accepts ev = accepted ev
  beyond : nestingLimit < n → ∃ offset, compile s = .error ⟨s, offset, .tooDeep⟩

theorem Derives.composes {s : String} {d : Derivation} (h : Derives s d)
    {accepted : Event → Bool} (haccepted : ∀ ev, d.tree.holds ev = accepted ev) :
    Composes s d.nesting accepted where
  nests := ⟨d, h, rfl⟩
  within hn := ⟨⟨s, some d.tree⟩, compile_of_derives h hn, haccepted⟩
  beyond hn := compile_too_deep h hn

/-- Two texts that compile, and are not blank, compose: with `Or` between them they compile, and
accept what either accepts; in parentheses with `And` between them, or one of them with `Not` in
front, they accept what both accept, or what it does not, unless the composed text nests deeper than
the limit. -/
theorem composed_texts_compile {f g : String} {F G : Filter}
    (hf : isBlankText f = false) (hg : isBlankText g = false)
    (hF : compile f = .ok F) (hG : compile g = .ok G) :
    ∃ m n, Nests f m ∧ Nests g n ∧
      (∃ H, compile (f ++ " Or " ++ g) = .ok H ∧
        ∀ ev, H.accepts ev = (F.accepts ev || G.accepts ev)) ∧
      Composes ("(" ++ f ++ ") And (" ++ g ++ ")") (max m n + 1)
        (fun ev => F.accepts ev && G.accepts ev) ∧
      Composes ("Not (" ++ f ++ ")") (m + 2) (fun ev => !F.accepts ev) := by
  obtain ⟨d, hd, hm, rfl⟩ := exists_derivation hf hF
  obtain ⟨d', hd', hn, rfl⟩ := exists_derivation hg hG
  refine ⟨d.nesting, d'.nesting, ⟨d, hd, rfl⟩, ⟨d', hd', rfl⟩, ?_, ?_, ?_⟩
  · have hor := (hd.or hd').composes (d.holds_append d')
    rw [Derivation.nesting_append] at hor
    exact hor.within (Nat.max_le.mpr ⟨hm, hn⟩)
  · rw [← Derivation.nesting_both]
    exact (hd.both hd').composes (d.holds_both d')
  · rw [← Derivation.nesting_negation]
    exact hd.negation.composes d.holds_negation

/-- A chain with blanks around it and a parenthesis in its literal, and a negated method. -/
theorem composed_texts_compile_chain :
    let f := " Index > 5 Or Message = \"a) Or (\"\t"
    let g := "Not Source.Contains(\"b\")"
    let F : Filter := ⟨f, some (.or [.compare .index .gt (.int 5),
      .compare .message .eq (.text "a) Or (")])⟩
    let G : Filter := ⟨g, some (.not (.method .source .contains "b"))⟩
    ∃ m n, Nests f m ∧ Nests g n ∧
      (∃ H, compile (f ++ " Or " ++ g) = .ok H ∧
        ∀ ev, H.accepts ev = (F.accepts ev || G.accepts ev)) ∧
      Composes ("(" ++ f ++ ") And (" ++ g ++ ")") (max m n + 1)
        (fun ev => F.accepts ev && G.accepts ev) ∧
      Composes ("Not (" ++ f ++ ")") (m + 2) (fun ev => !F.accepts ev) := by
  intro f g F G
  have hf : Tokens.ofText f = .ok ⟨[⟨1, .word "Index"⟩, ⟨7, .compare .gt⟩, ⟨9, .int 5⟩, ⟨11, .or⟩,
      ⟨14, .word "Message"⟩, ⟨22, .compare .eq⟩, ⟨24, .text "a) Or ("⟩], 34⟩ :=
    toOption_eq_some.mp (by decide +kernel)
  have hg : Tokens.ofText g = .ok ⟨[⟨0, .not⟩, ⟨4, .word "Source"⟩, ⟨10, .dot⟩,
      ⟨11, .word "Contains"⟩, ⟨19, .opening⟩, ⟨20, .text "b"⟩, ⟨23, .closing⟩], 24⟩ :=
    toOption_eq_some.mp (by decide +kernel)
  have hF : compile f = .ok F := by
    rw [compile, if_neg (by decide), hf]
    rfl
  have hG : compile g = .ok G := by
    rw [compile, if_neg (by decide), hg]
    rfl
  exact composed_texts_compile (by decide) (by decide) hF hG

end LogWatch.Filter
