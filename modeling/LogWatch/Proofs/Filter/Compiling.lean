import LogWatch.Filter.Basic
import LogWatch.Proofs.Filter.Parsing
import LogWatch.Proofs.Filter.Spelling

/-!
# Compiling by derivations

A text that is not blank compiles exactly if its tokens follow the grammar and nest no deeper than
the limit.  Nesting is the only thing that the limit refuses: where the tokens follow the grammar
but nest deeper, the fault is just that.

    Derives s d → d.nesting ≤ nestingLimit → compile s = .ok ⟨s, some d.tree⟩  (compile_of_derives)
    Derives s d → nestingLimit < d.nesting → compile s fails as too deep         (compile_too_deep)
-/

namespace LogWatch.Filter

/-- The tokens of the text are those of the derivation. -/
def Derives (s : String) (d : Derivation) : Prop :=
  ∃ ts, Tokens.ofText s = .ok ts ∧ kinds ts.items = d.tokens

theorem Derives.unique {s : String} {d d' : Derivation} (h : Derives s d) (h' : Derives s d') :
    d = d' := by
  obtain ⟨ts, hts, hd⟩ := h
  obtain ⟨ts', hts', hd'⟩ := h'
  obtain rfl := Except.ok.inj (hts.symm.trans hts')
  exact Derivation.tokens_inj.mp (hd.symm.trans hd')

theorem compile_eq {s : String} (h : Text.isBlankText s = false) :
    compile s = ((Tokens.ofText s >>= Expr.ofTokens).map fun e => Filter.mk s (some e)).mapError
      (Refusal.mk s) := by
  rw [compile, h]
  cases Tokens.ofText s >>= Expr.ofTokens <;> rfl

theorem exists_derivation {s : String} {f : Filter} (hs : Text.isBlankText s = false)
    (h : compile s = .ok f) :
    ∃ d, Derives s d ∧ d.nesting ≤ nestingLimit ∧ f = ⟨s, some d.tree⟩ := by
  rw [compile_eq hs, mapError_eq_ok, map_eq_ok] at h
  obtain ⟨e, he, rfl⟩ := h
  obtain ⟨ts, hts, hread⟩ := bind_eq_ok.mp he
  obtain ⟨d, hd, hn, rfl⟩ := Expr.ofTokens_eq_ok.mp hread
  exact ⟨d, ⟨ts, hts, hd.symm⟩, hn, rfl⟩

/-! ## Blank texts -/

theorem compile_of_isBlankText {s : String} (h : Text.isBlankText s = true) :
    compile s = .ok matchAll := by
  rw [compile, if_pos h]

theorem not_isBlankText {s : String} (h : tokensFrom 0 s.toList ≠ .ok []) :
    Text.isBlankText s = false := by
  rw [Bool.eq_false_iff]
  exact fun hblank => h (tokensFrom_blanks hblank 0)

theorem Operand.tokens_ne_nil (o : Operand) : o.tokens ≠ [] := by
  cases o with
  | test t =>
    obtain ⟨name, -, ts, hts, -⟩ := t.exists_tokens
    rw [Operand.tokens_test, hts]
    exact List.cons_ne_nil _ _
  | not o => exact List.cons_ne_nil _ _
  | group d =>
    rw [Operand.tokens_group]
    exact List.cons_ne_nil _ _

theorem Chain.joined_map_ne_nil {α : Type} {f : α → List Token} (hf : ∀ a, f a ≠ [])
    (joiner : Token) (c : Chain α) : (c.map f).joined joiner ≠ [] := by
  cases c with
  | one a => exact hf a
  | cons a more => exact List.append_ne_nil_of_left_ne_nil (hf a) _

theorem Derivation.tokens_ne_nil (d : Derivation) : d.tokens ≠ [] :=
  Chain.joined_map_ne_nil (Chain.joined_map_ne_nil Operand.tokens_ne_nil .and) .or d

theorem Derives.not_blank {s : String} {d : Derivation} (h : Derives s d) :
    Text.isBlankText s = false := by
  obtain ⟨ts, hts, hd⟩ := h
  obtain ⟨items, hitems, hmk⟩ := bind_eq_ok.mp hts
  obtain rfl := Except.ok.inj hmk
  refine not_isBlankText fun hnil => d.tokens_ne_nil ?_
  obtain rfl := Except.ok.inj (hitems.symm.trans hnil)
  exact hd.symm

/-- Only texts that are not blank have a tree. -/
theorem exists_derivation_of_expr {s : String} {f : Filter} {e : Expr} (h : compile s = .ok f)
    (he : f.expr = some e) : ∃ d, Derives s d ∧ d.nesting ≤ nestingLimit ∧ d.tree = e := by
  cases hs : Text.isBlankText s with
  | true =>
    rw [compile_of_isBlankText hs] at h
    obtain rfl := Except.ok.inj h
    cases he
  | false =>
    obtain ⟨d, hd, hn, rfl⟩ := exists_derivation hs h
    exact ⟨d, hd, hn, Option.some.inj he⟩

theorem compile_of_derives {s : String} {d : Derivation} (h : Derives s d)
    (hn : d.nesting ≤ nestingLimit) : compile s = .ok ⟨s, some d.tree⟩ := by
  obtain ⟨ts, hts, hd⟩ := id h
  have hread : Expr.ofTokens ts = .ok d.tree := Expr.ofTokens_eq_ok.mpr ⟨d, hd.symm, hn, rfl⟩
  rw [compile_eq h.not_blank, mapError_eq_ok, map_eq_ok]
  exact ⟨d.tree, bind_eq_ok.mpr ⟨ts, hts, hread⟩, rfl⟩

/-! ## The limit of nesting -/

/-- One step gives what the other gives, unless it finds the nesting too deep. -/
def Below {α : Type} (x y : Except Fault α) : Prop :=
  x = y ∨ ∃ offset, x = .error ⟨offset, .tooDeep⟩

theorem Below.refl {α : Type} (x : Except Fault α) : Below x x := .inl rfl

theorem Below.bind {α β : Type} {x y : Except Fault α} {f g : α → Except Fault β} (h : Below x y)
    (hfg : ∀ a, Below (f a) (g a)) : Below (x >>= f) (y >>= g) := by
  obtain rfl | ⟨offset, rfl⟩ := h
  · cases x with
    | error fault => exact .refl _
    | ok a => exact hfg a
  · exact .inr ⟨offset, rfl⟩

namespace Expr

variable {stop : Nat}

theorem joined_below {p q : Reader Expr} (h : ∀ ts, Below (p ts) (q ts)) (joiner : Token) (n : Nat)
    (ts : List Placed) : Below (joined joiner p n ts) (joined joiner q n ts) := by
  induction n generalizing ts with
  | zero => exact .refl _
  | succ n ih =>
    cases ts with
    | nil => exact .refl _
    | cons t ts =>
      rw [joined, joined]
      split
      next =>
        refine (h ts).bind ?_
        rintro ⟨e, rest⟩
        exact (ih rest).bind fun _ => .refl _
      next => exact .refl _

theorem chain_below {p q : Reader Expr} (h : ∀ ts, Below (p ts) (q ts)) (joiner : Token)
    (node : List Expr → Expr) (ts : List Placed) :
    Below (chain joiner node p ts) (chain joiner node q ts) := by
  refine (h ts).bind ?_
  rintro ⟨e, rest⟩
  exact (joined_below h joiner rest.length rest).bind fun _ => .refl _

theorem disjunction_below {p q : Reader Expr} (h : ∀ ts, Below (p ts) (q ts)) (ts : List Placed) :
    Below (disjunction p ts) (disjunction q ts) :=
  chain_below (chain_below h .and .and) .or .or ts

/-- More levels of nesting change nothing but the fault that there are too few. -/
theorem operand_below (stop : Nat) {m n : Nat} (hmn : m ≤ n) (ts : List Placed) :
    Below (operand stop m ts) (operand stop n ts) := by
  induction m generalizing n ts with
  | zero =>
    obtain ⟨offset, inner, rfl⟩ | ⟨offset, inner, rfl⟩ | hother := operand_cases ts
    · exact .inr ⟨offset, rfl⟩
    · exact .inr ⟨offset, rfl⟩
    · exact .inl ((operand_of_apart hother).trans (operand_of_apart hother).symm)
  | succ m ih =>
    obtain ⟨n, rfl⟩ := Nat.exists_eq_add_one_of_ne_zero (Nat.ne_zero_of_lt hmn)
    have hless : m ≤ n := Nat.le_of_succ_le_succ hmn
    obtain ⟨offset, inner, rfl⟩ | ⟨offset, inner, rfl⟩ | hother := operand_cases ts
    · exact (ih hless inner).bind fun _ => .refl _
    · refine (disjunction_below (ih hless) inner).bind ?_
      rintro ⟨e, rest⟩
      exact Below.refl _
    · exact .inl ((operand_of_apart hother).trans (operand_of_apart hother).symm)

/-- Tokens that follow the grammar are read, or refused because they nest too deep. -/
theorem ofTokens_too_deep {ts : Tokens} {d : Derivation} (hd : kinds ts.items = d.tokens)
    (hn : nestingLimit < d.nesting) : ∃ offset, ofTokens ts = .error ⟨offset, .tooDeep⟩ := by
  have hread : disjunction (operand ts.stop d.nesting) ts.items = .ok (d.tree, []) :=
    (disjunction_reads (readsOperands ts.stop d.nesting) _ _ _).mpr
      ⟨d, ts.items, Nat.le.refl, (List.append_nil _).symm, hd, rfl, apart_nil _⟩
  obtain hsame | ⟨offset, hdeep⟩ :=
    disjunction_below (operand_below ts.stop (Nat.le_of_lt hn)) ts.items
  · -- read within the limit, the tokens would have another derivation
    have hlow : ofTokens ts = .ok d.tree := bind_eq_ok.mpr ⟨(d.tree, []), hsame.trans hread, rfl⟩
    obtain ⟨d', hd', hn', -⟩ := ofTokens_eq_ok.mp hlow
    obtain rfl := Derivation.tokens_inj.mp (hd'.trans hd)
    exact absurd hn (Nat.not_lt.mpr hn')
  · exact ⟨offset, bind_eq_error.mpr (.inl hdeep)⟩

end Expr

theorem compile_too_deep {s : String} {d : Derivation} (h : Derives s d)
    (hn : nestingLimit < d.nesting) : ∃ offset, compile s = .error ⟨s, offset, .tooDeep⟩ := by
  obtain ⟨ts, hts, hd⟩ := id h
  obtain ⟨offset, hdeep⟩ := Expr.ofTokens_too_deep hd hn
  refine ⟨offset, ?_⟩
  rw [compile_eq h.not_blank, hts]
  show ((Expr.ofTokens ts).map _).mapError _ = _
  rw [hdeep]
  rfl

end LogWatch.Filter
