import LogWatch.Filter.Expr

/-!
# The grammar of filters

A derivation shows how a filter follows the grammar

    or      =  and (`Or` and)*
    and     =  operand (`And` operand)*
    operand =  `Not` operand  |  `(` or `)`  |  field test

down to the spelling of its words.  It has tokens, a tree, and a depth of nesting: the greatest
number of parentheses and `Not`s that a token stands in.  The grammar is unambiguous.

    d.tokens = d'.tokens ↔ d = d'                                           (tokens_inj)
-/

namespace LogWatch.Filter

/-! ## Tokens -/

/-- The tokens without their places. -/
def kinds (ts : List Placed) : List Token := ts.map Placed.token

@[simp] theorem kinds_nil : kinds [] = [] := rfl

@[simp] theorem kinds_cons (t : Placed) (ts : List Placed) :
    kinds (t :: ts) = t.token :: kinds ts :=
  rfl

@[simp] theorem kinds_append (ts us : List Placed) : kinds (ts ++ us) = kinds ts ++ kinds us :=
  List.map_append

/-! ## Chains -/

/-- One operand or more, with joiners between them. -/
inductive Chain (α : Type)
  | one (a : α)
  | cons (a : α) (more : Chain α)

namespace Chain

variable {α β : Type}

def toList : Chain α → List α
  | .one a => [a]
  | .cons a more => a :: more.toList

def map (f : α → β) : Chain α → Chain β
  | .one a => .one (f a)
  | .cons a more => .cons (f a) (more.map f)

/-- The chain of a first operand and the ones behind it. -/
def start (a : α) : List α → Chain α
  | [] => .one a
  | b :: more => .cons a (start b more)

/-- All operands have the property. -/
def All (P : α → Prop) : Chain α → Prop
  | .one a => P a
  | .cons a more => P a ∧ more.All P

/-- The tokens of the operands, the joiner between them. -/
def joined (joiner : Token) : Chain (List Token) → List Token
  | .one ts => ts
  | .cons ts more => ts ++ joiner :: more.joined joiner

/-- A single operand stands for itself; more of them are one node, in their order. -/
def tree (node : List Expr → Expr) : Chain Expr → Expr
  | .one e => e
  | .cons e more => node (e :: more.toList)

def deepest : Chain Nat → Nat
  | .one n => n
  | .cons n more => max n more.deepest

end Chain

/-! ## Derivations -/

/-- The value that a token stands for where a field is compared with it. -/
inductive Denotes : Field → Token → Value → Prop
  | int {field : Field} (n : Int64) (numeric : field.isNumeric = true) :
    Denotes field (.int n) (.int n)
  | text {field : Field} (s : String) (textual : field.isNumeric = false)
    (plain : field ≠ .entryType) : Denotes field (.text s) (.text s)
  | quotedType {s : String} {t : EntryType} (named : EntryType.ofName? s = some t) :
    Denotes .entryType (.text s) (.text t.name)
  | bareType {s : String} {t : EntryType} (named : EntryType.ofName? s = some t) :
    Denotes .entryType (.word s) (.text t.name)

/-- The field can be compared by the operator: numbers by all, texts for equality. -/
def Comparison.Suits (op : Comparison) (field : Field) : Prop :=
  field.isNumeric = true ∨ op.isEquality = true

/-- A test on a field as it is spelled. -/
inductive Test
  | compare (name : String) (op : Comparison) (literal : Token) (field : Field) (value : Value)
    (named : Field.ofName? name = some field) (suits : op.Suits field)
    (denotes : Denotes field literal value)
  | method (name methodName argument : String) (field : Field) (method : TextMethod)
    (named : Field.ofName? name = some field) (textual : field.isNumeric = false)
    (methodNamed : TextMethod.ofName? methodName = some method)

namespace Test

def tokens : Test → List Token
  | .compare name op literal .. => [.word name, .compare op, literal]
  | .method name methodName argument .. =>
    [.word name, .dot, .word methodName, .opening, .text argument, .closing]

def tree : Test → Expr
  | .compare _ op _ field value .. => .compare field op value
  | .method _ _ argument field m .. => .method field m argument

end Test

inductive Operand
  | test (t : Test)
  | not (o : Operand)
  | group (d : Chain (Chain Operand))

abbrev Conjunction := Chain Operand

/-- How a filter follows the grammar. -/
abbrev Derivation := Chain Conjunction

section Fold

variable {γ : Type} (test : Test → γ) (not : γ → γ) (group : Chain (Chain γ) → γ)

mutual

/-- A value made from the values of the parts. -/
def Operand.fold : Operand → γ
  | .test t => test t
  | .not o => not o.fold
  | .group d => group (foldAlternatives d)

def foldAlternatives : Derivation → Chain (Chain γ)
  | .one c => .one (foldConjuncts c)
  | .cons c d => .cons (foldConjuncts c) (foldAlternatives d)

def foldConjuncts : Conjunction → Chain γ
  | .one o => .one o.fold
  | .cons o c => .cons o.fold (foldConjuncts c)

end

theorem foldConjuncts_eq (c : Conjunction) :
    foldConjuncts test not group c = c.map (Operand.fold test not group) := by
  induction c with
  | one o => rfl
  | cons o c ih => rw [foldConjuncts, ih, Chain.map]

theorem foldAlternatives_eq (d : Derivation) :
    foldAlternatives test not group d = d.map (Chain.map (Operand.fold test not group)) := by
  induction d with
  | one c => rw [foldAlternatives, foldConjuncts_eq, Chain.map]
  | cons c d ih => rw [foldAlternatives, foldConjuncts_eq, ih, Chain.map]

end Fold

namespace Operand

def tokens : Operand → List Token :=
  fold Test.tokens (Token.not :: ·) fun d =>
    .opening :: ((d.map (Chain.joined .and)).joined .or ++ [.closing])

/-- Parentheses add no node. -/
def tree : Operand → Expr :=
  fold Test.tree .not fun d => (d.map (Chain.tree .and)).tree .or

/-- The greatest number of parentheses and `Not`s around one token; those of a method's argument
do not count. -/
def nesting : Operand → Nat :=
  fold (fun _ => 0) (· + 1) fun d => (d.map Chain.deepest).deepest + 1

end Operand

namespace Conjunction

def tokens (c : Conjunction) : List Token := (c.map Operand.tokens).joined .and

def tree (c : Conjunction) : Expr := (c.map Operand.tree).tree .and

def nesting (c : Conjunction) : Nat := (c.map Operand.nesting).deepest

end Conjunction

namespace Derivation

def tokens (d : Derivation) : List Token := (d.map Conjunction.tokens).joined .or

def tree (d : Derivation) : Expr := (d.map Conjunction.tree).tree .or

def nesting (d : Derivation) : Nat := (d.map Conjunction.nesting).deepest

end Derivation

/-! ## Lemmas -/

namespace Chain

variable {α β γ : Type}

theorem map_map (f : α → β) (g : β → γ) (c : Chain α) : (c.map f).map g = c.map (g ∘ f) := by
  induction c with
  | one a => rfl
  | cons a more ih => rw [map, map, map, ih]; rfl

theorem toList_map (f : α → β) (c : Chain α) : (c.map f).toList = c.toList.map f := by
  induction c with
  | one a => rfl
  | cons a more ih => rw [map, toList, toList, ih, List.map_cons]

theorem exists_start (c : Chain α) : ∃ a as, c = start a as := by
  induction c with
  | one a => exact ⟨a, [], rfl⟩
  | cons a more ih =>
    obtain ⟨b, as, rfl⟩ := ih
    exact ⟨a, b :: as, rfl⟩

theorem toList_start (a : α) (as : List α) : (start a as).toList = a :: as := by
  induction as generalizing a with
  | nil => rfl
  | cons b as ih => rw [start, toList, ih]

theorem all_start {P : α → Prop} {a : α} {as : List α} :
    (start a as).All P ↔ P a ∧ ∀ b ∈ as, P b := by
  induction as generalizing a with
  | nil => simp [start, All]
  | cons b as ih => rw [start, All, ih, List.forall_mem_cons]

theorem joined_map_start (joiner : Token) (f : α → List Token) (a : α) (as : List α) :
    ((start a as).map f).joined joiner = f a ++ as.flatMap fun b => joiner :: f b := by
  induction as generalizing a with
  | nil => simp [start, map, joined]
  | cons b as ih => rw [start, map, joined, ih, List.flatMap_cons, List.cons_append]

theorem toList_map_start (f : α → β) (a : α) (as : List α) :
    ((start a as).map f).toList = f a :: as.map f := by
  rw [toList_map, toList_start, List.map_cons]

theorem tree_map_start (node : List Expr → Expr) (g : α → Expr) (a : α) (as : List α) :
    ((start a as).map g).tree node =
      if (as.map g).isEmpty then g a else node (g a :: as.map g) := by
  cases as with
  | nil => rfl
  | cons b as =>
    rw [start, map, tree, toList_map_start]
    rfl

theorem All.imp {P Q : α → Prop} {c : Chain α} (h : c.All P) (hpq : ∀ a, P a → Q a) :
    c.All Q := by
  induction c with
  | one a => exact hpq a h
  | cons a more ih => exact ⟨hpq a h.1, ih h.2⟩

theorem All.and {P Q : α → Prop} {c : Chain α} (hp : c.All P) (hq : c.All Q) :
    c.All fun a => P a ∧ Q a := by
  induction c with
  | one a => exact ⟨hp, hq⟩
  | cons a more ih => exact ⟨⟨hp.1, hq.1⟩, ih hp.2 hq.2⟩

theorem all_of_forall {P : α → Prop} (h : ∀ a, P a) (c : Chain α) : c.All P := by
  induction c with
  | one a => exact h a
  | cons a more ih => exact ⟨h a, ih⟩

theorem deepest_map_le {f : α → Nat} {n : Nat} {c : Chain α} :
    (c.map f).deepest ≤ n ↔ c.All fun a => f a ≤ n := by
  induction c with
  | one a => exact Iff.rfl
  | cons a more ih => rw [map, deepest, Nat.max_le, ih]; exact Iff.rfl

end Chain

namespace Operand

/-- What holds of tests, of negations of what it holds of, and of groups of operands that it holds
of, holds of all operands. -/
@[elab_as_elim, induction_eliminator]
theorem induct {motive : Operand → Prop} (test : ∀ t, motive (.test t))
    (not : ∀ o, motive o → motive (.not o))
    (group : ∀ d : Derivation, d.All (Chain.All motive) → motive (.group d)) (o : Operand) :
    motive o :=
  @Operand.rec motive (Chain.All (Chain.All motive)) (Chain.All motive) test not group
    (fun _ h => h) (fun _ _ h hs => ⟨h, hs⟩) (fun _ h => h) (fun _ _ h hs => ⟨h, hs⟩) o

theorem tokens_test (t : Test) : (test t).tokens = t.tokens := rfl

theorem tokens_not (o : Operand) : (not o).tokens = Token.not :: o.tokens := rfl

theorem tokens_group (d : Derivation) :
    (group d).tokens = .opening :: (d.tokens ++ [.closing]) := by
  show Token.opening :: (((foldAlternatives _ _ _ d).map _).joined .or ++ [.closing]) = _
  rw [foldAlternatives_eq, Chain.map_map]
  rfl

theorem tree_group (d : Derivation) : (group d).tree = d.tree := by
  show ((foldAlternatives _ _ _ d).map _).tree .or = _
  rw [foldAlternatives_eq, Chain.map_map]
  rfl

theorem nesting_not (o : Operand) : (not o).nesting = o.nesting + 1 := rfl

theorem nesting_group (d : Derivation) : (group d).nesting = d.nesting + 1 := by
  show ((foldAlternatives _ _ _ d).map _).deepest + 1 = _
  rw [foldAlternatives_eq, Chain.map_map]
  rfl

end Operand

theorem Derivation.nesting_le {d : Derivation} {n : Nat} :
    d.nesting ≤ n ↔ d.All (Chain.All fun o => o.nesting ≤ n) := by
  unfold nesting
  rw [Chain.deepest_map_le]
  constructor
  · exact fun h => h.imp fun c => Chain.deepest_map_le.mp
  · exact fun h => h.imp fun c => Chain.deepest_map_le.mpr

/-! ## One derivation at most -/

/-- What follows does not start with one of these tokens. -/
def Apart (stops : List Token) (r : List Token) : Prop := ∀ t ∈ r.head?, t ∉ stops

theorem apart_nil (stops : List Token) : Apart stops [] := by
  intro t ht
  cases ht

theorem apart_none (r : List Token) : Apart [] r := fun _ _ => List.not_mem_nil

theorem apart_cons {stops : List Token} {t : Token} {r : List Token} :
    Apart stops (t :: r) ↔ t ∉ stops := by
  simp [Apart]

theorem Apart.tail {stops : List Token} {joiner : Token} {r : List Token}
    (h : Apart (joiner :: stops) r) : Apart stops r := by
  intro t ht hmem
  exact h t ht (List.mem_cons_of_mem joiner hmem)

/-- Whatever follows, unless it starts with a stop, no `b` other than `a` has the tokens of `a`
at the front of the same tokens. -/
def Decomposes {α : Type} (f : α → List Token) (stops : List Token) (a : α) : Prop :=
  ∀ b r r', Apart stops r → Apart stops r' → f a ++ r = f b ++ r' → a = b ∧ r = r'

theorem Denotes.functional {field : Field} {token : Token} {v v' : Value}
    (h : Denotes field token v) (h' : Denotes field token v') : v = v' := by
  cases h with
  | int n => cases h'; rfl
  | text s _ plain =>
    cases h' with
    | text => rfl
    | quotedType => exact absurd rfl plain
  | quotedType named =>
    cases h' with
    | text _ _ plain => exact absurd rfl plain
    | quotedType named' => rw [Option.some.inj (named.symm.trans named')]
  | bareType named =>
    cases h' with
    | bareType named' => rw [Option.some.inj (named.symm.trans named')]

theorem Test.exists_tokens (t : Test) :
    ∃ name field ts, t.tokens = .word name :: ts ∧ Field.ofName? name = some field := by
  cases t with
  | compare name _ _ _ _ named => exact ⟨name, _, _, rfl, named⟩
  | method name _ _ _ _ named => exact ⟨name, _, _, rfl, named⟩

theorem Test.decomposes (t : Test) : Decomposes Test.tokens [] t := by
  intro t' r r' _ _ h
  cases t with
  | compare name op literal field value named suits denotes =>
    cases t' with
    | compare name' op' literal' field' value' named' suits' denotes' =>
      simp only [tokens, List.cons_append, List.nil_append, List.cons.injEq, Token.word.injEq,
        Token.compare.injEq] at h
      obtain ⟨rfl, rfl, rfl, rfl⟩ := h
      obtain rfl := Option.some.inj (named.symm.trans named')
      obtain rfl := denotes.functional denotes'
      exact ⟨rfl, rfl⟩
    | method => simp [tokens] at h
  | method name spelled argument field m named textual methodNamed =>
    cases t' with
    | compare => simp [tokens] at h
    | method name' spelled' argument' field' m' named' textual' methodNamed' =>
      simp only [tokens, List.cons_append, List.nil_append, List.cons.injEq, Token.word.injEq,
        Token.text.injEq, true_and] at h
      obtain ⟨rfl, rfl, rfl, rfl⟩ := h
      obtain rfl := Option.some.inj (named.symm.trans named')
      obtain rfl := Option.some.inj (methodNamed.symm.trans methodNamed')
      exact ⟨rfl, rfl⟩

/-- A chain goes on exactly as long as joiners follow. -/
theorem Chain.decomposes {α : Type} {f : α → List Token} {stops : List Token} {joiner : Token}
    (hjoiner : joiner ∉ stops) {c : Chain α} (h : c.All (Decomposes f stops)) :
    Decomposes (fun c => (c.map f).joined joiner) (joiner :: stops) c := by
  have hgoes : ∀ r, Apart stops (joiner :: r) := fun r => apart_cons.mpr hjoiner
  have hstops : ∀ r, ¬Apart (joiner :: stops) (joiner :: r) :=
    fun r hr => apart_cons.mp hr List.mem_cons_self
  induction c with
  | one a =>
    intro b r r' hr hr' he
    cases b with
    | one b =>
      obtain ⟨rfl, rfl⟩ := h b r r' hr.tail hr'.tail he
      exact ⟨rfl, rfl⟩
    | cons b more =>
      simp only [map, joined, List.append_assoc, List.cons_append] at he
      obtain ⟨-, rfl⟩ := h b r _ hr.tail (hgoes _) he
      exact absurd hr (hstops _)
  | cons a more ih =>
    intro b r r' hr hr' he
    simp only [map, joined, List.append_assoc, List.cons_append] at he
    cases b with
    | one b =>
      obtain ⟨-, rfl⟩ := h.1 b _ r' (hgoes _) hr'.tail he
      exact absurd hr' (hstops _)
    | cons b more' =>
      simp only [map, joined, List.append_assoc, List.cons_append] at he
      obtain ⟨rfl, htail⟩ := h.1 b _ _ (hgoes _) (hgoes _) he
      obtain ⟨rfl, rfl⟩ := ih h.2 more' r r' hr hr' (List.cons.inj htail).2
      exact ⟨rfl, rfl⟩

theorem Derivation.decomposes_of_all {d : Derivation}
    (h : d.All (Chain.All (Decomposes Operand.tokens []))) :
    Decomposes Derivation.tokens [.or, .and] d :=
  Chain.decomposes (by simp) (h.imp fun _ hc => Chain.decomposes (by simp) hc)

theorem Operand.decomposes (o : Operand) : Decomposes Operand.tokens [] o := by
  induction o with
  | test t =>
    intro b r r' hr hr' he
    obtain ⟨name, -, ts, hname, -⟩ := t.exists_tokens
    cases b with
    | test t' =>
      obtain ⟨rfl, rfl⟩ := t.decomposes t' r r' hr hr' he
      exact ⟨rfl, rfl⟩
    | not b => simp [tokens_test, tokens_not, hname] at he
    | group d => simp [tokens_test, tokens_group, hname] at he
  | not o ih =>
    intro b r r' hr hr' he
    cases b with
    | test t' =>
      obtain ⟨name, -, ts, hname, -⟩ := t'.exists_tokens
      simp [tokens_test, tokens_not, hname] at he
    | not b =>
      rw [tokens_not, tokens_not] at he
      obtain ⟨rfl, rfl⟩ := ih b r r' hr hr' (List.cons.inj he).2
      exact ⟨rfl, rfl⟩
    | group d => simp [tokens_not, tokens_group] at he
  | group d ih =>
    intro b r r' hr hr' he
    cases b with
    | test t' =>
      obtain ⟨name, -, ts, hname, -⟩ := t'.exists_tokens
      simp [tokens_test, tokens_group, hname] at he
    | not b => simp [tokens_not, tokens_group] at he
    | group d' =>
      simp only [tokens_group, List.cons_append, List.append_assoc, List.nil_append,
        List.cons.injEq, true_and] at he
      have hclosing : ∀ r, Apart [.or, .and] (.closing :: r) :=
        fun r => apart_cons.mpr (by simp)
      obtain ⟨rfl, htail⟩ :=
        Derivation.decomposes_of_all ih d' _ _ (hclosing r) (hclosing r') he
      exact ⟨rfl, (List.cons.inj htail).2⟩

/-- A filter follows the grammar in one way at most. -/
theorem Derivation.tokens_inj {d d' : Derivation} : d.tokens = d'.tokens ↔ d = d' := by
  constructor
  · intro h
    have hall := Chain.all_of_forall (Chain.all_of_forall Operand.decomposes) d
    have hd := decomposes_of_all hall d' [] [] (apart_nil _) (apart_nil _)
    exact (hd (by rw [h])).1
  · exact congrArg tokens

end LogWatch.Filter
