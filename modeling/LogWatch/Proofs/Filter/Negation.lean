import LogWatch.Proofs.Filter.Shape

/-!
# Pushing negations inwards

A `Not` can be pushed over the chain, the other `Not` or the comparison under it: a negated `Or` is
the `And` of the negated terms, two `Not`s cancel, and a negated comparison is that by the opposite
operator.  Values of one kind either satisfy an operator or its opposite, so that no step changes
what a well-formed expression accepts.  Pushed as far as they go, `Not`s stand above methods only.

    Pushes e e' → e.WellFormed →
      e'.WellFormed ∧ ∀ ev, e'.holds ev = e.holds ev                             (Pushes.preserves)
    e.WellFormed → steps lead from e to e.pushed false                             (steps_pushed)
-/

namespace LogWatch.Filter

/-- The operator that holds exactly where the other one does not. -/
def Comparison.opposite : Comparison → Comparison
  | .eq => .ne
  | .ne => .eq
  | .lt => .ge
  | .le => .gt
  | .gt => .le
  | .ge => .lt

theorem Comparison.holds_opposite (op : Comparison) (o : Ordering) :
    op.opposite.holds o = !op.holds o := by
  cases op <;> cases o <;> rfl

theorem Comparison.isEquality_opposite (op : Comparison) :
    op.opposite.isEquality = op.isEquality := by
  cases op <;> rfl

namespace Expr

/-! ## Definitions -/

/-- One `Not`, at any place, is pushed over what stands under it. -/
inductive Pushes : Expr → Expr → Prop
  | notOr (terms : List Expr) : Pushes (.not (.or terms)) (.and (terms.map .not))
  | notAnd (terms : List Expr) : Pushes (.not (.and terms)) (.or (terms.map .not))
  | notNot (term : Expr) : Pushes (.not (.not term)) term
  | notCompare (field : Field) (op : Comparison) (value : Value) :
    Pushes (.not (.compare field op value)) (.compare field op.opposite value)
  | inOr (before : List Expr) {t t' : Expr} (after : List Expr) (h : Pushes t t') :
    Pushes (.or (before ++ t :: after)) (.or (before ++ t' :: after))
  | inAnd (before : List Expr) {t t' : Expr} (after : List Expr) (h : Pushes t t') :
    Pushes (.and (before ++ t :: after)) (.and (before ++ t' :: after))
  | inNot {t t' : Expr} (h : Pushes t t') : Pushes (.not t) (.not t')

mutual

/-- The expression, or its negation, with all `Not`s pushed as far as they go. -/
def pushed (negated : Bool) : Expr → Expr
  | .or terms => if negated then .and (allPushed negated terms) else .or (allPushed negated terms)
  | .and terms => if negated then .or (allPushed negated terms) else .and (allPushed negated terms)
  | .not term => term.pushed (!negated)
  | .compare field op value => .compare field (if negated then op.opposite else op) value
  | .method field m argument =>
    if negated then .not (.method field m argument) else .method field m argument

def allPushed (negated : Bool) : List Expr → List Expr
  | [] => []
  | term :: terms => term.pushed negated :: allPushed negated terms

end

/-- Every `Not` in the expression stands over a method. -/
def NotsOverMethods (e : Expr) : Prop :=
  ∀ t, Part (.not t) e → ∃ field m argument, t = .method field m argument

theorem allPushed_eq (negated : Bool) (terms : List Expr) :
    allPushed negated terms = terms.map (pushed negated) := by
  induction terms with
  | nil => rfl
  | cons t terms ih => rw [allPushed, ih, List.map_cons]

/-! ## One step -/

theorem WellFormed.compare_opposite {field : Field} {op : Comparison} {value : Value}
    (h : WellFormed (.compare field op value)) : WellFormed (.compare field op.opposite value) := by
  cases h with
  | number numeric _ n => exact .number numeric _ n
  | text textual plain equality s =>
    exact .text textual plain (op.isEquality_opposite.trans equality) s
  | entryType equality t => exact .entryType (op.isEquality_opposite.trans equality) t

theorem holds_compare_opposite {field : Field} {op : Comparison} {value : Value}
    (h : WellFormed (.compare field op value)) (ev : Event) :
    holds ev (.compare field op.opposite value) = !holds ev (.compare field op value) := by
  have hkind : (field.value ev).SameKind value := h.meets ev
  rw [holds, holds]
  cases hv : field.value ev <;> cases value <;> rw [hv] at hkind
  · exact op.holds_opposite _
  · cases hkind
  · cases hkind
  · exact op.holds_opposite _

theorem WellFormed.not_terms {terms : List Expr} (h : ∀ t ∈ terms, WellFormed t) :
    ∀ t ∈ terms.map Expr.not, WellFormed t :=
  List.forall_mem_map.mpr fun t ht => .not (h t ht)

theorem forall_mem_replace {P : Expr → Prop} {before after : List Expr} {t t' : Expr}
    (h : ∀ e ∈ before ++ t :: after, P e) (ht : P t → P t') :
    ∀ e ∈ before ++ t' :: after, P e := by
  rw [List.forall_mem_append, List.forall_mem_cons] at h ⊢
  exact ⟨h.1, ht h.2.1, h.2.2⟩

/-- A step keeps an expression well formed and what it accepts. -/
theorem Pushes.preserves {e e' : Expr} (hpush : Pushes e e') (h : e.WellFormed) :
    e'.WellFormed ∧ ∀ ev, e'.holds ev = e.holds ev := by
  induction hpush with
  | notOr terms =>
    obtain ⟨two, all⟩ : 2 ≤ terms.length ∧ ∀ t ∈ terms, WellFormed t := by
      cases h with
      | not h => cases h with | or two all => exact ⟨two, all⟩
    refine ⟨.and (by rwa [List.length_map]) (WellFormed.not_terms all), fun ev => ?_⟩
    rw [holds, holds, holds, anyHolds_eq, allHold_eq, List.all_map, List.not_any_eq_all_not]
    rfl
  | notAnd terms =>
    obtain ⟨two, all⟩ : 2 ≤ terms.length ∧ ∀ t ∈ terms, WellFormed t := by
      cases h with
      | not h => cases h with | and two all => exact ⟨two, all⟩
    refine ⟨.or (by rwa [List.length_map]) (WellFormed.not_terms all), fun ev => ?_⟩
    rw [holds, holds, holds, anyHolds_eq, allHold_eq, List.any_map, List.not_all_eq_any_not]
    rfl
  | notNot term =>
    have hterm : term.WellFormed := (h.term List.mem_cons_self).term List.mem_cons_self
    refine ⟨hterm, fun ev => ?_⟩
    rw [holds, holds, Bool.not_not]
  | notCompare field op value =>
    have hcompare : WellFormed (.compare field op value) := h.term List.mem_cons_self
    exact ⟨hcompare.compare_opposite, holds_compare_opposite hcompare⟩
  | inOr before after _ ih =>
    cases h with
    | or two all =>
      obtain ⟨hterm, hholds⟩ := ih (all _ List.mem_append_cons_self)
      refine ⟨.or (by simpa using two) (forall_mem_replace all fun _ => hterm), fun ev => ?_⟩
      simp only [holds, anyHolds_eq, List.any_append, List.any_cons, hholds ev]
  | inAnd before after _ ih =>
    cases h with
    | and two all =>
      obtain ⟨hterm, hholds⟩ := ih (all _ List.mem_append_cons_self)
      refine ⟨.and (by simpa using two) (forall_mem_replace all fun _ => hterm), fun ev => ?_⟩
      simp only [holds, allHold_eq, List.all_append, List.all_cons, hholds ev]
  | inNot _ ih =>
    obtain ⟨hterm, hholds⟩ := ih (h.term List.mem_cons_self)
    refine ⟨.not hterm, fun ev => ?_⟩
    rw [holds, holds, hholds]

/-! ## Any number of steps -/

theorem preserves_of_steps {e e' : Expr} (hsteps : Relation.ReflTransGen Pushes e e')
    (h : e.WellFormed) : e'.WellFormed ∧ ∀ ev, e'.holds ev = e.holds ev := by
  induction hsteps with
  | refl => exact ⟨h, fun _ => rfl⟩
  | tail _ hpush ih =>
    obtain ⟨hwell, hholds⟩ := hpush.preserves ih.1
    exact ⟨hwell, fun ev => (hholds ev).trans (ih.2 ev)⟩

/-- Steps at the terms of a chain, one term after the other. -/
theorem steps_of_terms {node : List Expr → Expr} {f g : Expr → Expr}
    (hnode : ∀ before t t' after, Pushes t t' →
      Pushes (node (before ++ t :: after)) (node (before ++ t' :: after)))
    (before : List Expr) {terms : List Expr}
    (h : ∀ t ∈ terms, Relation.ReflTransGen Pushes (f t) (g t)) :
    Relation.ReflTransGen Pushes (node (before ++ terms.map f)) (node (before ++ terms.map g)) := by
  induction terms generalizing before with
  | nil => exact .refl
  | cons t terms ih =>
    obtain ⟨ht, hterms⟩ := List.forall_mem_cons.mp h
    have hfirst : Relation.ReflTransGen Pushes (node (before ++ f t :: terms.map f))
        (node (before ++ g t :: terms.map f)) :=
      ht.lift (fun t => node (before ++ t :: terms.map f)) fun _ _ => hnode before _ _ _
    have hrest := ih (before ++ [g t]) hterms
    rw [List.append_assoc, List.append_assoc] at hrest
    exact hfirst.trans hrest

/-- The expression, or its negation. -/
def signed (negated : Bool) (e : Expr) : Expr := if negated then .not e else e

/-- A negated chain becomes the other chain, and its terms are pushed one after the other. -/
theorem steps_pushed_of_terms {node other : List Expr → Expr}
    (inNode : ∀ before t t' after, Pushes t t' →
      Pushes (node (before ++ t :: after)) (node (before ++ t' :: after)))
    (inOther : ∀ before t t' after, Pushes t t' →
      Pushes (other (before ++ t :: after)) (other (before ++ t' :: after)))
    (notNode : ∀ terms, Pushes (.not (node terms)) (other (terms.map .not))) {terms : List Expr}
    (h : ∀ t ∈ terms, ∀ negated, Relation.ReflTransGen Pushes (t.signed negated) (t.pushed negated))
    (negated : Bool) :
    Relation.ReflTransGen Pushes ((node terms).signed negated)
      (if negated then other (allPushed negated terms) else node (allPushed negated terms)) := by
  rw [allPushed_eq]
  cases negated with
  | false =>
    have hterms := steps_of_terms (f := id) inNode [] fun t ht => h t ht false
    rwa [List.map_id] at hterms
  | true =>
    exact (Relation.ReflTransGen.single (notNode terms)).trans
      (steps_of_terms inOther [] fun t ht => h t ht true)

/-- Steps lead to where all `Not`s are pushed as far as they go. -/
theorem WellFormed.steps_pushed {e : Expr} (h : e.WellFormed) (negated : Bool) :
    Relation.ReflTransGen Pushes (e.signed negated) (e.pushed negated) := by
  induction h generalizing negated with
  | or _ _ ih =>
    exact steps_pushed_of_terms (fun before _ _ => Pushes.inOr before)
      (fun before _ _ => Pushes.inAnd before) Pushes.notOr ih negated
  | and _ _ ih =>
    exact steps_pushed_of_terms (fun before _ _ => Pushes.inAnd before)
      (fun before _ _ => Pushes.inOr before) Pushes.notAnd ih negated
  | @not term _ ih =>
    cases negated with
    | false => exact ih true
    | true => exact (Relation.ReflTransGen.single (.notNot term)).trans (ih false)
  | method textual m argument => cases negated <;> exact .refl
  | _ =>
    cases negated with
    | false => exact .refl
    | true => exact .single (.notCompare _ _ _)

theorem notsOverMethods_of_terms {e : Expr} (he : ∀ t, e ≠ .not t)
    (h : ∀ t ∈ e.terms, t.NotsOverMethods) : e.NotsOverMethods := by
  intro t ht
  obtain heq | ⟨u, hu, hpart⟩ := Relation.ReflTransGen.cases_head ht
  · exact absurd heq (he t)
  · exact h u hu t hpart

theorem WellFormed.notsOverMethods_pushed {e : Expr} (h : e.WellFormed) (negated : Bool) :
    (e.pushed negated).NotsOverMethods := by
  induction h generalizing negated with
  | or _ _ ih =>
    rw [pushed, allPushed_eq]
    cases negated <;>
      exact notsOverMethods_of_terms nofun (List.forall_mem_map.mpr fun t ht => ih t ht _)
  | and _ _ ih =>
    rw [pushed, allPushed_eq]
    cases negated <;>
      exact notsOverMethods_of_terms nofun (List.forall_mem_map.mpr fun t ht => ih t ht _)
  | not _ ih => exact ih !negated
  | @method field textual m argument =>
    have hmethod : (Expr.method field m argument).NotsOverMethods :=
      notsOverMethods_of_terms nofun nofun
    cases negated with
    | false => exact hmethod
    | true =>
      intro t ht
      obtain heq | ⟨u, hu, hpart⟩ := Relation.ReflTransGen.cases_head ht
      · exact ⟨field, m, argument, (Expr.not.inj heq).symm⟩
      · obtain rfl := List.mem_singleton.mp hu
        exact hmethod t hpart
  | _ => exact notsOverMethods_of_terms nofun nofun

/-! ## Top theorem -/

/-- The tree that a text compiles to is well formed, and its paths are bounded however long the text
is; every test in it meets values of its kind, whatever the event.  No number of steps that push
`Not`s inwards changes which events the filter accepts, and such steps lead to where `Not`s stand
over methods only. -/
theorem compiled_tree_is_classical {s : String} {f : Filter} {e : Expr} (h : compile s = .ok f)
    (he : f.expr = some e) :
    e.WellFormed ∧ e.PathsWithin (2 * (nestingLimit + 1) + 1) ∧
      (∀ ev t, Part t e → t.Meets ev) ∧
      (∀ e', Relation.ReflTransGen Pushes e e' →
        ∀ ev, accepts { f with expr := some e' } ev = f.accepts ev) ∧
      Relation.ReflTransGen Pushes e (e.pushed false) ∧ (e.pushed false).NotsOverMethods := by
  have hwell := wellFormed_of_compile h he
  refine ⟨hwell, pathsWithin_of_compile h he, ?_, ?_, hwell.steps_pushed false,
    hwell.notsOverMethods_pushed false⟩
  · exact fun ev t ht => (hwell.part ht).meets ev
  · intro e' hsteps ev
    have hholds := (preserves_of_steps hsteps hwell).2 ev
    simpa only [accepts, he] using hholds

/-- A negated `Or` with a negated `And` in it. -/
theorem compiled_tree_is_classical_nested :
    let s := "Not (Index < 5 Or Not (Message <> \"x\" And Source.Contains(\"a\")))"
    let small : Expr := .compare .index .lt (.int 5)
    let others : List Expr := [.compare .message .ne (.text "x"), .method .source .contains "a"]
    let pushed : Expr := .and [.compare .index .ge (.int 5), .and others]
    let f : Filter := ⟨s, some (.not (.or [small, .not (.and others)]))⟩
    compile s = .ok f ∧ ∀ ev, accepts { f with expr := some pushed } ev = f.accepts ev := by
  intro s small others pushed f
  have htokens : Tokens.ofText s = .ok ⟨[⟨0, .not⟩, ⟨4, .opening⟩, ⟨5, .word "Index"⟩,
      ⟨11, .compare .lt⟩, ⟨13, .int 5⟩, ⟨15, .or⟩, ⟨18, .not⟩, ⟨22, .opening⟩,
      ⟨23, .word "Message"⟩, ⟨31, .compare .ne⟩, ⟨34, .text "x"⟩, ⟨38, .and⟩,
      ⟨42, .word "Source"⟩, ⟨48, .dot⟩, ⟨49, .word "Contains"⟩, ⟨57, .opening⟩,
      ⟨58, .text "a"⟩, ⟨61, .closing⟩, ⟨62, .closing⟩, ⟨63, .closing⟩], 64⟩ :=
    toOption_eq_some.mp (by decide +kernel)
  have hcompile : compile s = .ok f := by
    rw [compile, if_neg (by decide), htokens]
    rfl
  obtain ⟨-, -, -, hsame, hsteps, -⟩ := compiled_tree_is_classical hcompile rfl
  exact ⟨hcompile, hsame pushed hsteps⟩

end Expr
end LogWatch.Filter
