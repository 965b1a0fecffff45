import LogWatch.Proofs.Filter.Renaming
import LogWatch.Proofs.Filter.Spread

/-!
# Quoted texts of a filter

The texts in the tree of a filter are the quoted ones of its tokens, character for character and
in their order, but for those that name an entry type.

    d.tree.quotes = quotes d.tokens                                      (Derivation.quotes_tree)
-/

namespace LogWatch.Filter

open LogWatch.Text

/-! ## Texts in trees and in tokens -/

namespace Expr

mutual

/-- The texts that are compared or searched for, without the names of entry types. -/
def quotes : Expr → List String
  | .or terms => allQuotes terms
  | .and terms => allQuotes terms
  | .not term => term.quotes
  | .compare _ _ (.int _) => []
  | .compare field _ (.text s) => if field = .entryType then [] else [s]
  | .method _ _ s => [s]

def allQuotes : List Expr → List String
  | [] => []
  | term :: terms => term.quotes ++ allQuotes terms

end

theorem allQuotes_eq (terms : List Expr) : allQuotes terms = terms.flatMap quotes := by
  induction terms with
  | nil => rfl
  | cons term terms ih => rw [allQuotes, List.flatMap_cons, ih]

end Expr

def Token.quote : Token → List String
  | .text s => [s]
  | _ => []

/-- The quoted texts, without those that the field of entry types is compared with. -/
def quotes : List Token → List String
  | [] => []
  | .word n :: .compare _ :: .text s :: ks =>
    if Field.ofName? n = some .entryType then quotes ks else s :: quotes ks
  | t :: ks => t.quote ++ quotes ks

/-- Only the field of entry types hides a text. -/
theorem quotes_word {n : String} (h : Field.ofName? n ≠ some .entryType) (ks : List Token) :
    quotes (.word n :: ks) = quotes ks := by
  by_cases hshape : ∃ op s more, ks = .compare op :: .text s :: more
  · obtain ⟨op, s, more, rfl⟩ := hshape
    simp [quotes, h, Token.quote]
  · rw [quotes]
    · rfl
    · intro m op s more hword hks
      exact hshape ⟨op, s, more, hks⟩

/-! ## The tree keeps the texts -/

/-- The tokens of `a` bring the texts of its tree, whatever follows them. -/
def KeepsQuotes {α : Type} (f : α → List Token) (g : α → Expr) (a : α) : Prop :=
  ∀ r, quotes (f a ++ r) = (g a).quotes ++ quotes r

theorem Test.keepsQuotes (t : Test) : KeepsQuotes Test.tokens Test.tree t := by
  intro r
  cases t with
  | compare n op l field v named suits denotes =>
    cases denotes with
    | int => rfl
    | text s _ plain =>
      have hother : ¬Field.ofName? n = some .entryType := by simpa [named] using plain
      simp [tokens, tree, quotes, Expr.quotes, hother, plain]
    | quotedType => simp [tokens, tree, quotes, Expr.quotes, named]
    | @bareType s _ isType =>
      have hother : Field.ofName? s ≠ some .entryType := by
        intro isField
        rw [EntryType.ofName?_of_field isField] at isType
        cases isType
      simp [tokens, tree, quotes, Expr.quotes, Token.quote, quotes_word hother]
  | method => rfl

section Chains

variable {α : Type} {f : α → List Token} {g : α → Expr} {joiner : Token}
  {node : List Expr → Expr}

theorem Chain.quotes_tree (hnode : ∀ terms, (node terms).quotes = Expr.allQuotes terms)
    (c : Chain Expr) : (c.tree node).quotes = c.toList.flatMap Expr.quotes := by
  cases c with
  | one e => simp [tree, toList]
  | cons e more => rw [tree, hnode, Expr.allQuotes_eq, toList]

theorem Chain.keepsQuotes (hjoiner : ∀ ks, quotes (joiner :: ks) = quotes ks)
    (hnode : ∀ terms, (node terms).quotes = Expr.allQuotes terms) {c : Chain α}
    (h : c.All (KeepsQuotes f g)) :
    KeepsQuotes (fun c => (c.map f).joined joiner) (fun c => (c.map g).tree node) c := by
  intro r
  rw [quotes_tree hnode]
  induction c with
  | one a =>
    show quotes (f a ++ r) = _
    rw [h r, map, toList, List.flatMap_singleton]
  | cons a more ih =>
    simp only [map, joined, toList, List.append_assoc, List.cons_append, List.flatMap_cons]
    rw [h.1, hjoiner, ih h.2]

end Chains

theorem Derivation.keepsQuotes_of_all {d : Derivation}
    (h : d.All (Chain.All (KeepsQuotes Operand.tokens Operand.tree))) :
    KeepsQuotes Derivation.tokens Derivation.tree d :=
  Chain.keepsQuotes (fun _ => rfl) (fun _ => rfl)
    (h.imp fun _ hc => Chain.keepsQuotes (fun _ => rfl) (fun _ => rfl) hc)

theorem Operand.keepsQuotes (o : Operand) : KeepsQuotes Operand.tokens Operand.tree o := by
  induction o with
  | test t => exact t.keepsQuotes
  | not o ih => exact ih
  | group d ih =>
    intro r
    have hinner := Derivation.keepsQuotes_of_all ih (.closing :: r)
    simp only [tokens_group, tree_group, List.cons_append, List.append_assoc, List.nil_append]
    exact hinner

theorem Derivation.quotes_tree (d : Derivation) : d.tree.quotes = quotes d.tokens := by
  have hall := Chain.all_of_forall (Chain.all_of_forall Operand.keepsQuotes) d
  have hquotes := keepsQuotes_of_all hall []
  rw [List.append_nil] at hquotes
  rw [hquotes, quotes, List.append_nil]

/-- The texts in the tree that a text compiles to are those of its tokens. -/
theorem quotes_compile {s : String} {f : Filter} {x : Expr} (hf : compile s = .ok f)
    (hx : f.expr = some x) :
    ∃ ts, Tokens.ofText s = .ok ts ∧ x.quotes = quotes (kinds ts.items) := by
  obtain ⟨d, ⟨ts, hts, hd⟩, -, rfl⟩ := exists_derivation_of_expr hf hx
  exact ⟨ts, hts, by rw [hd, d.quotes_tree]⟩

end LogWatch.Filter
