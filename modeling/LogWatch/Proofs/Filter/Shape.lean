import Mathlib.Data.List.Chain
import Mathlib.Logic.Relation
import LogWatch.Proofs.Filter.Compiling
import LogWatch.Proofs.Filter.Rendering

/-!
# The shape of a compiled filter

The tree of a filter is well formed, and no path down from its root is long: a chain adds one
node, and between two `Not`s or groups there are two chains at most.  The parts of a well-formed
tree are well formed, so that a test never meets a value of another kind.

    d.tree.PathsWithin (2 * (d.nesting + 1) + 1)                                (pathsWithin_tree)
    compile s = .ok f → f.expr = some e → e.WellFormed                     (wellFormed_of_compile)
-/

namespace LogWatch.Filter

namespace Expr

/-! ## Paths and parts -/

/-- The expressions right under this one. -/
def terms : Expr → List Expr
  | .or terms | .and terms => terms
  | .not term => [term]
  | .compare .. | .method .. => []

/-- One expression stands right over the other. -/
def Over (parent child : Expr) : Prop := child ∈ parent.terms

/-- The expression itself and everything under it, at any depth. -/
abbrev Part (part e : Expr) : Prop := Relation.ReflTransGen Over e part

/-- No path from the expression downwards has more than `n` expressions on it. -/
def PathsWithin (n : Nat) (e : Expr) : Prop :=
  ∀ below : List Expr, List.IsChain Over (e :: below) → (e :: below).length ≤ n

theorem PathsWithin.mono {m n : Nat} {e : Expr} (h : e.PathsWithin m) (hmn : m ≤ n) :
    e.PathsWithin n :=
  fun below hbelow => (h below hbelow).trans hmn

theorem pathsWithin_succ {n : Nat} {e : Expr} (h : ∀ t ∈ e.terms, t.PathsWithin n) :
    e.PathsWithin (n + 1) := by
  intro below hbelow
  cases below with
  | nil => exact Nat.succ_le_succ n.zero_le
  | cons t below =>
    obtain ⟨ht, hrest⟩ := List.isChain_cons_cons.mp hbelow
    exact Nat.succ_le_succ (h t ht below hrest)

end Expr

/-! ## Trees of derivations -/

/-- What holds of the tree of a chain: either that of its only operand, or a node over two
operands or more. -/
theorem Chain.tree_of_all {α : Type} {g : α → Expr} {node : List Expr → Expr} {P Q : Expr → Prop}
    {c : Chain α} (h : c.All fun a => P (g a)) (single : ∀ e, P e → Q e)
    (several : ∀ es : List Expr, 2 ≤ es.length → (∀ e ∈ es, P e) → Q (node es)) :
    Q ((c.map g).tree node) := by
  obtain ⟨a, as, rfl⟩ := c.exists_start
  obtain ⟨ha, has⟩ := Chain.all_start.mp h
  cases as with
  | nil => exact single _ ha
  | cons b as =>
    rw [tree_map_start]
    refine several _ ?_ ?_
    · simp
    · exact List.forall_mem_cons.mpr ⟨ha, List.forall_mem_map.mpr has⟩

open LogWatch.Filter.Expr

theorem Test.wellFormed_tree (t : Test) : t.tree.WellFormed := by
  cases t with
  | compare name op literal field value named suits denotes =>
    cases denotes with
    | int n numeric => exact .number numeric op n
    | text s textual plain =>
      have hequality : op.isEquality = true := by simpa [Comparison.Suits, textual] using suits
      exact .text textual plain hequality s
    | quotedType _ => exact .entryType (suits.resolve_left Bool.false_ne_true) _
    | bareType _ => exact .entryType (suits.resolve_left Bool.false_ne_true) _
  | method name spelled argument field m named textual methodNamed =>
    exact .method textual m argument

theorem wellFormed_tree_of_all {d : Derivation}
    (h : d.All (Chain.All fun o => o.tree.WellFormed)) : d.tree.WellFormed :=
  Chain.tree_of_all (P := WellFormed)
    (h.imp fun _ hc => Chain.tree_of_all hc (fun _ => id) fun _ => .and) (fun _ => id) fun _ => .or

theorem Operand.wellFormed_tree (o : Operand) : o.tree.WellFormed := by
  induction o with
  | test t => exact t.wellFormed_tree
  | not o ih => exact .not ih
  | group d ih =>
    rw [Operand.tree_group]
    exact wellFormed_tree_of_all ih

theorem Derivation.wellFormed_tree (d : Derivation) : d.tree.WellFormed :=
  wellFormed_tree_of_all (Chain.all_of_forall (Chain.all_of_forall Operand.wellFormed_tree) d)

/-- Two chains at most stand over the operands. -/
theorem pathsWithin_tree_of_all {n : Nat} {d : Derivation}
    (h : d.All (Chain.All fun o => o.tree.PathsWithin n)) : d.tree.PathsWithin (n + 2) := by
  refine Chain.tree_of_all (P := PathsWithin (n + 1)) (h.imp fun c hc => ?_) ?_ ?_
  · exact Chain.tree_of_all hc (fun _ he => he.mono n.le_succ)
      fun es _ hes => pathsWithin_succ (e := .and es) hes
  · exact fun _ he => he.mono (n + 1).le_succ
  · exact fun es _ hes => pathsWithin_succ (e := .or es) hes

theorem pathsWithin_tree_of_nesting {d : Derivation}
    (h : d.All (Chain.All fun o => o.tree.PathsWithin (2 * o.nesting + 1))) :
    d.tree.PathsWithin (2 * (d.nesting + 1) + 1) := by
  have hnesting := h.and (Derivation.nesting_le.mp (Nat.le_refl d.nesting))
  refine pathsWithin_tree_of_all (n := 2 * d.nesting + 1) (hnesting.imp fun c hc => ?_)
  refine (hc.1.and hc.2).imp fun o ho => ho.1.mono ?_
  have := ho.2
  omega

theorem Operand.pathsWithin_tree (o : Operand) : o.tree.PathsWithin (2 * o.nesting + 1) := by
  induction o with
  | test t =>
    refine pathsWithin_succ fun e he => ?_
    cases t <;> cases he
  | not o ih =>
    refine pathsWithin_succ (n := 2 * o.nesting + 2) fun e he => ?_
    obtain rfl := List.mem_singleton.mp he
    exact ih.mono (by omega)
  | group d ih =>
    rw [Operand.tree_group, Operand.nesting_group]
    exact pathsWithin_tree_of_nesting ih

theorem Derivation.pathsWithin_tree (d : Derivation) :
    d.tree.PathsWithin (2 * (d.nesting + 1) + 1) :=
  pathsWithin_tree_of_nesting
    (Chain.all_of_forall (Chain.all_of_forall Operand.pathsWithin_tree) d)

/-! ## Values of the right kind -/

/-- Two numbers or two texts. -/
def Value.SameKind : Value → Value → Prop
  | .int _, .int _ | .text _, .text _ => True
  | _, _ => False

theorem Field.value_of_isNumeric {field : Field} (h : field.isNumeric = true) (ev : Event) :
    ∃ n, field.value ev = .int n := by
  cases field <;> first | exact ⟨_, rfl⟩ | cases h

theorem Field.value_of_textual {field : Field} (h : field.isNumeric = false) (ev : Event) :
    ∃ s, field.value ev = .text s := by
  cases field <;> first | exact ⟨_, rfl⟩ | cases h

namespace Expr

/-- A test meets a value of the kind that it is made for. -/
def Meets (ev : Event) : Expr → Prop
  | .compare field _ literal => (field.value ev).SameKind literal
  | .method field _ _ => ∃ s, field.value ev = .text s
  | .or _ | .and _ | .not _ => True

theorem WellFormed.term {e t : Expr} (h : e.WellFormed) (ht : t ∈ e.terms) : t.WellFormed := by
  cases h with
  | or _ all => exact all t ht
  | and _ all => exact all t ht
  | not h =>
    obtain rfl := List.mem_singleton.mp ht
    exact h
  | _ => cases ht

theorem WellFormed.part {e t : Expr} (h : e.WellFormed) (ht : Part t e) : t.WellFormed := by
  induction ht with
  | refl => exact h
  | tail _ hover ih => exact ih.term hover

theorem WellFormed.meets {e : Expr} (h : e.WellFormed) (ev : Event) : e.Meets ev := by
  cases h with
  | number numeric op n =>
    obtain ⟨m, hm⟩ := Field.value_of_isNumeric numeric ev
    show (Field.value ev _).SameKind _
    rw [hm]
    trivial
  | text textual _ _ s =>
    obtain ⟨t, ht⟩ := Field.value_of_textual textual ev
    show (Field.value ev _).SameKind _
    rw [ht]
    trivial
  | method textual m argument => exact Field.value_of_textual textual ev
  | _ => trivial

end Expr

/-! ## Compiled filters -/

theorem wellFormed_of_compile {s : String} {f : Filter} {e : Expr} (h : compile s = .ok f)
    (he : f.expr = some e) : e.WellFormed := by
  obtain ⟨d, -, -, rfl⟩ := exists_derivation_of_expr h he
  exact d.wellFormed_tree

theorem pathsWithin_of_compile {s : String} {f : Filter} {e : Expr} (h : compile s = .ok f)
    (he : f.expr = some e) : e.PathsWithin (2 * (nestingLimit + 1) + 1) := by
  obtain ⟨d, -, hn, rfl⟩ := exists_derivation_of_expr h he
  exact d.pathsWithin_tree.mono (by omega)

end LogWatch.Filter
