import LogWatch.Proofs.Filter.Compiling

/-!
# Writing a filter

A well-formed expression is written with the words of the grammar, in parentheses where the
expression around it would take its parts apart otherwise.  Compiling what is written gives the
expression back.

    e.WellFormed → e.nesting ≤ nestingLimit → compile e.render = .ok ⟨e.render, some e⟩
                                                                             (compile_render)
-/

namespace LogWatch.Filter

namespace Expr

/-! ## Writing -/

def isOr : Expr → Bool
  | .or _ => true
  | _ => false

/-- An `Or` or an `And`. -/
def isChain : Expr → Bool
  | .or _ | .and _ => true
  | _ => false

/-- The words in parentheses, if they are to be wrapped. -/
def grouped (wrap : Bool) (ts : List Token) : List Token :=
  if wrap then .opening :: (ts ++ [.closing]) else ts

end Expr

/-- A literal: a number, or a quoted text. -/
def Value.token : Value → Token
  | .int n => .int n
  | .text s => .text s

namespace Expr

mutual

/-- The words of an expression.  An `Or` stands in parentheses under `Or`, `And` and `Not`, and an
`And` under `And` and `Not`. -/
def words : Expr → List Token
  | .or terms => joinedWords .or isOr terms
  | .and terms => joinedWords .and isChain terms
  | .not term => .not :: grouped term.isChain term.words
  | .compare field op value => [.word field.name, .compare op, value.token]
  | .method field m argument =>
    [.word field.name, .dot, .word m.name, .opening, .text argument, .closing]

def joinedWords (joiner : Token) (wraps : Expr → Bool) : List Expr → List Token
  | [] => []
  | [term] => grouped (wraps term) term.words
  | term :: terms => grouped (wraps term) term.words ++ joiner :: joinedWords joiner wraps terms

end

mutual

/-- The greatest number of parentheses and `Not`s around one of the words; the parentheses of a
method do not count. -/
def nesting : Expr → Nat
  | .or terms => deepest isOr terms
  | .and terms => deepest isChain terms
  | .not term => term.nesting + term.isChain.toNat + 1
  | .compare .. => 0
  | .method .. => 0

def deepest (wraps : Expr → Bool) : List Expr → Nat
  | [] => 0
  | term :: terms => max (term.nesting + (wraps term).toNat) (deepest wraps terms)

end

/-- The text of an expression: its words with single spaces between them. -/
def render (e : Expr) : String := String.ofList (spaced e.words)

/-- Chains have two terms or more, and every test suits its field. -/
inductive WellFormed : Expr → Prop
  | or {terms : List Expr} (two : 2 ≤ terms.length) (all : ∀ t ∈ terms, WellFormed t) :
    WellFormed (.or terms)
  | and {terms : List Expr} (two : 2 ≤ terms.length) (all : ∀ t ∈ terms, WellFormed t) :
    WellFormed (.and terms)
  | not {term : Expr} (h : WellFormed term) : WellFormed (.not term)
  | number {field : Field} (numeric : field.isNumeric = true) (op : Comparison) (n : Int64) :
    WellFormed (.compare field op (.int n))
  | text {field : Field} {op : Comparison} (textual : field.isNumeric = false)
    (plain : field ≠ .entryType) (equality : op.isEquality = true) (s : String) :
    WellFormed (.compare field op (.text s))
  | entryType {op : Comparison} (equality : op.isEquality = true) (t : EntryType) :
    WellFormed (.compare .entryType op (.text t.name))
  | method {field : Field} (textual : field.isNumeric = false) (m : TextMethod)
    (argument : String) : WellFormed (.method field m argument)

/-! ## The words follow the grammar -/

/-- Some part of the grammar has the words of the expression, in parentheses if they are to be
wrapped, and the expression as its tree. -/
def Follows {α : Type} (f : α → List Token) (g : α → Expr) (depth : α → Nat) (wrap : Bool)
    (e : Expr) : Prop :=
  ∃ a, f a = grouped wrap e.words ∧ g a = e ∧ depth a = e.nesting + wrap.toNat

abbrev IsOperand : Bool → Expr → Prop := Follows Operand.tokens Operand.tree Operand.nesting

abbrev IsConjunction : Bool → Expr → Prop :=
  Follows Conjunction.tokens Conjunction.tree Conjunction.nesting

abbrev IsFilter : Bool → Expr → Prop :=
  Follows Derivation.tokens Derivation.tree Derivation.nesting

/-- The expression can stand everywhere, in parentheses where it has to. -/
structure Fits (e : Expr) : Prop where
  operand : IsOperand e.isChain e
  conjunction : IsConjunction e.isOr e
  filter : IsFilter false e

theorem IsOperand.conjunction {wrap : Bool} {e : Expr} (h : IsOperand wrap e) :
    IsConjunction wrap e := by
  obtain ⟨o, htokens, htree, hnesting⟩ := h
  exact ⟨.one o, htokens, htree, hnesting⟩

theorem IsConjunction.filter {wrap : Bool} {e : Expr} (h : IsConjunction wrap e) :
    IsFilter wrap e := by
  obtain ⟨c, htokens, htree, hnesting⟩ := h
  exact ⟨.one c, htokens, htree, hnesting⟩

/-- In parentheses, a whole filter is an operand. -/
theorem IsFilter.operand {e : Expr} (h : IsFilter false e) : IsOperand true e := by
  obtain ⟨d, htokens, htree, hnesting⟩ := h
  refine ⟨.group d, ?_, ?_, ?_⟩
  · rw [Operand.tokens_group, htokens]
    rfl
  · rw [Operand.tree_group, htree]
  · rw [Operand.nesting_group, hnesting]
    rfl

theorem IsOperand.fits {e : Expr} (h : IsOperand false e) (hor : e.isOr = false)
    (hchain : e.isChain = false) : Fits e where
  operand := hchain ▸ h
  conjunction := hor ▸ h.conjunction
  filter := h.conjunction.filter

theorem IsConjunction.fits {e : Expr} (h : IsConjunction false e) (hor : e.isOr = false)
    (hchain : e.isChain = true) : Fits e where
  operand := hchain ▸ h.filter.operand
  conjunction := hor ▸ h
  filter := h.filter

theorem IsFilter.fits {e : Expr} (h : IsFilter false e) (hor : e.isOr = true)
    (hchain : e.isChain = true) : Fits e where
  operand := hchain ▸ h.operand
  conjunction := hor ▸ h.operand.conjunction
  filter := h

/-- Terms that follow one part of the grammar make a chain of it. -/
theorem exists_chain {α : Type} {f : α → List Token} {g : α → Expr} {depth : α → Nat}
    {wraps : Expr → Bool} (joiner : Token) {e : Expr} {es : List Expr}
    (h : ∀ t ∈ e :: es, Follows f g depth (wraps t) t) :
    ∃ c : Chain α, (c.map f).joined joiner = joinedWords joiner wraps (e :: es) ∧
      (c.map g).toList = e :: es ∧ (c.map depth).deepest = deepest wraps (e :: es) := by
  induction es generalizing e with
  | nil =>
    obtain ⟨a, hwords, htree, hdepth⟩ := h e List.mem_cons_self
    refine ⟨.one a, hwords, congrArg (fun e => [e]) htree, ?_⟩
    rw [deepest, deepest, Nat.max_zero]
    exact hdepth
  | cons e' es ih =>
    obtain ⟨he, hes⟩ := List.forall_mem_cons.mp h
    obtain ⟨a, hwords, htree, hdepth⟩ := he
    obtain ⟨c, hwords', htree', hdepth'⟩ := ih hes
    refine ⟨.cons a c, ?_, ?_, ?_⟩
    · rw [Chain.map, Chain.joined, hwords, hwords']
      rfl
    · rw [Chain.map, Chain.toList, htree, htree']
    · rw [Chain.map, Chain.deepest, hdepth, hdepth']
      rfl

theorem tree_of_two {node : List Expr → Expr} {c : Chain Expr} (two : 2 ≤ c.toList.length) :
    c.tree node = node c.toList := by
  cases c with
  | one e => simp [Chain.toList] at two
  | cons e c => rfl

theorem WellFormed.fits {e : Expr} (h : WellFormed e) : Fits e := by
  induction h with
  | @or terms two all ih =>
    obtain ⟨e, es, rfl⟩ := List.exists_cons_of_length_pos (Nat.lt_of_lt_of_le Nat.zero_lt_two two)
    obtain ⟨d, hwords, htree, hdepth⟩ := exists_chain .or fun t ht => (ih t ht).conjunction
    refine IsFilter.fits ⟨d, hwords, ?_, hdepth⟩ rfl rfl
    rw [Derivation.tree, tree_of_two (htree ▸ two), htree]
  | @and terms two all ih =>
    obtain ⟨e, es, rfl⟩ := List.exists_cons_of_length_pos (Nat.lt_of_lt_of_le Nat.zero_lt_two two)
    obtain ⟨c, hwords, htree, hdepth⟩ := exists_chain .and fun t ht => (ih t ht).operand
    refine IsConjunction.fits ⟨c, hwords, ?_, hdepth⟩ rfl rfl
    rw [Conjunction.tree, tree_of_two (htree ▸ two), htree]
  | not h ih =>
    obtain ⟨o, hwords, htree, hdepth⟩ := ih.operand
    refine IsOperand.fits ⟨.not o, ?_, congrArg Expr.not htree, ?_⟩ rfl rfl
    · rw [Operand.tokens_not, hwords]
      rfl
    · rw [Operand.nesting_not, hdepth]
      rfl
  | @number field numeric op n =>
    exact IsOperand.fits ⟨.test (.compare field.name op (.int n) field (.int n) field.ofName?_name
      (.inl numeric) (.int n numeric)), rfl, rfl, rfl⟩ rfl rfl
  | @text field op textual plain equality s =>
    exact IsOperand.fits ⟨.test (.compare field.name op (.text s) field (.text s) field.ofName?_name
      (.inr equality) (.text s textual plain)), rfl, rfl, rfl⟩ rfl rfl
  | @entryType op equality t =>
    exact IsOperand.fits ⟨.test (.compare (Field.name .entryType) op (.text t.name) .entryType
      (.text t.name) (Field.ofName?_name _) (.inr equality) (.quotedType t.ofName?_name)),
      rfl, rfl, rfl⟩ rfl rfl
  | @method field textual m argument =>
    exact IsOperand.fits ⟨.test (.method field.name m.name argument field m field.ofName?_name
      textual m.ofName?_name), rfl, rfl, rfl⟩ rfl rfl

/-! ## The words can be spelled -/

theorem isWord_field (f : Field) : IsWord f.name.toList := by
  cases f <;> decide +kernel

theorem isWord_method (m : TextMethod) : IsWord m.name.toList := by
  cases m <;> decide +kernel

theorem spellable_grouped {wrap : Bool} {ts : List Token} (h : ∀ t ∈ ts, t.Spellable) :
    ∀ t ∈ grouped wrap ts, t.Spellable := by
  cases wrap with
  | false => exact h
  | true =>
    intro t ht
    simp only [grouped, if_true, List.mem_cons, List.mem_append, List.not_mem_nil, or_false] at ht
    obtain rfl | ht | rfl := ht
    · trivial
    · exact h t ht
    · trivial

theorem spellable_joinedWords (joiner : Token) {wraps : Expr → Bool} (hj : joiner.Spellable)
    {terms : List Expr} (h : ∀ e ∈ terms, ∀ t ∈ e.words, t.Spellable) :
    ∀ t ∈ joinedWords joiner wraps terms, t.Spellable := by
  induction terms with
  | nil => simp [joinedWords]
  | cons e es ih =>
    obtain ⟨he, hes⟩ := List.forall_mem_cons.mp h
    cases es with
    | nil => exact spellable_grouped he
    | cons e' es =>
      show ∀ t ∈ grouped _ _ ++ joiner :: joinedWords _ _ _, _
      rw [List.forall_mem_append, List.forall_mem_cons]
      exact ⟨spellable_grouped he, hj, ih hes⟩

theorem WellFormed.spellable {e : Expr} (h : WellFormed e) : ∀ t ∈ e.words, t.Spellable := by
  induction h with
  | or _ _ ih => exact spellable_joinedWords .or trivial ih
  | and _ _ ih => exact spellable_joinedWords .and trivial ih
  | not _ ih => exact List.forall_mem_cons.mpr ⟨trivial, spellable_grouped ih⟩
  | _ => simp [words, Value.token, Token.Spellable, isWord_field, isWord_method]

/-! ## Top theorem -/

/-- An expression that is laid out as a text is what the text compiles to. -/
theorem compile_laid {e : Expr} (he : e.WellFormed) (hn : e.nesting ≤ nestingLimit) {s : String}
    (hs : Laid e.words s.toList) : compile s = .ok ⟨s, some e⟩ := by
  obtain ⟨items, hitems, hkinds⟩ := tokensFrom_laid hs he.spellable 0
  obtain ⟨d, hwords, htree, hdepth⟩ := he.fits.filter
  have htokens : Tokens.ofText s = .ok ⟨items, s.length⟩ := bind_eq_ok.mpr ⟨items, hitems, rfl⟩
  have hd : Derives s d := ⟨_, htokens, hkinds.trans hwords.symm⟩
  rw [compile_of_derives hd (hdepth ▸ hn), htree]

/-- Compiling what an expression is written as gives the expression back: with single spaces between
its words, and with its words laid out in any other way. -/
theorem compile_render {e : Expr} (he : e.WellFormed) (hn : e.nesting ≤ nestingLimit) :
    compile e.render = .ok ⟨e.render, some e⟩ ∧
      ∀ s : String, Laid e.words s.toList → compile s = .ok ⟨s, some e⟩ := by
  have hlaid : Laid e.words e.render.toList := by
    rw [render, String.toList_ofList]
    exact laid_spaced e.words
  exact ⟨compile_laid he hn hlaid, fun _ => compile_laid he hn⟩

/-- A chain in a chain of its own kind, a negated chain, the least number, and a text of two
quotes, a backslash, a line feed and a letter with an accent. -/
theorem compile_render_nested :
    let inner : Expr := .or [.compare .index .lt (.int Int64.minValue),
      .method .entryType .contains "Audit"]
    let both : Expr := .and [.compare .message .ne (.text "\"\\\né\""),
      .compare .entryType .eq (.text EntryType.error.name)]
    let e : Expr := .or [inner, .not both]
    e.nesting ≤ nestingLimit ∧
      e.render = "( Index < -9223372036854775808 Or EntryType . Contains ( \"Audit\" ) ) Or " ++
        "Not ( Message <> \"\\\"\\\\\né\\\"\" And EntryType = \"Error\" )" ∧
      compile e.render = .ok ⟨e.render, some e⟩ := by
  intro inner both e
  have hinner : inner.WellFormed := by
    refine .or (by decide) ?_
    rintro t (_ | ⟨_, _ | ⟨_, ⟨⟩⟩⟩)
    · exact .number rfl _ _
    · exact .method rfl _ _
  have hboth : both.WellFormed := by
    refine .and (by decide) ?_
    rintro t (_ | ⟨_, _ | ⟨_, ⟨⟩⟩⟩)
    · exact .text rfl (by decide) rfl _
    · exact .entryType rfl .error
  have he : e.WellFormed := by
    refine .or (by decide) ?_
    rintro t (_ | ⟨_, _ | ⟨_, ⟨⟩⟩⟩)
    · exact hinner
    · exact .not hboth
  have hn : e.nesting ≤ nestingLimit := by decide
  exact ⟨hn, by decide +kernel, (compile_render he hn).1⟩

end Expr
end LogWatch.Filter
