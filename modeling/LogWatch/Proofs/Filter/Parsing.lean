import LogWatch.Proofs.Filter.Grammar
import LogWatch.Proofs.Result

/-!
# Reading a filter follows its grammar

Each reader takes exactly the tokens of one derivation of its part of the grammar, up to where
that part ends, and gives the tree of that derivation.

    Expr.ofTokens ts = .ok e ↔
      ∃ d, d.tokens = kinds ts.items ∧ d.nesting ≤ nestingLimit ∧ d.tree = e     (ofTokens_eq_ok)
-/

namespace LogWatch.Filter

theorem kinds_eq_cons {ts : List Placed} {token : Token} {r : List Token} :
    kinds ts = token :: r ↔ ∃ t rest, ts = t :: rest ∧ t.token = token ∧ kinds rest = r :=
  List.map_eq_cons_iff

theorem kinds_eq_append {ts : List Placed} {l r : List Token} :
    kinds ts = l ++ r ↔ ∃ front rest, ts = front ++ rest ∧ kinds front = l ∧ kinds rest = r :=
  List.map_eq_append_iff

theorem kinds_eq_nil {ts : List Placed} : kinds ts = [] ↔ ts = [] := List.map_eq_nil_iff

/-- The reader gives the values of what it is to read, and all that stands behind their tokens;
none of the stops follows. -/
def Reads {α β : Type} (p : Expr.Reader β) (Ok : α → Prop) (f : α → List Token) (g : α → β)
    (stops : List Token) : Prop :=
  ∀ ts b rest, p ts = .ok (b, rest) ↔
    ∃ a front, Ok a ∧ ts = front ++ rest ∧ kinds front = f a ∧ g a = b ∧ Apart stops (kinds rest)

namespace Expr

variable {stop : Nat}

/-! ## Tests -/

theorem refuse_ne_ok {α : Type} {what : Expectation} {ts : List Placed} {a : α} :
    refuse stop what ts ≠ .ok a := by
  cases ts <;> simp [refuse]

theorem cons_eq_cons_and {t : Placed} {ts rest : List Placed} {P : Placed → Prop} :
    (∃ x, t :: ts = x :: rest ∧ P x) ↔ ts = rest ∧ P t := by
  simp [and_assoc]

theorem expect_eq_ok {token : Token} {what : Expectation} {ts rest : List Placed} :
    expect stop token what ts = .ok rest ↔ ∃ t, ts = t :: rest ∧ t.token = token := by
  cases ts with
  | nil => simp [expect, refuse]
  | cons t ts =>
    rw [cons_eq_cons_and, expect]
    split
    next h => simp [h]
    next h => simp [h, refuse]

theorem entryTypeLiteral_eq_ok {offset : Nat} {name : String} {v : Value} :
    entryTypeLiteral offset name = .ok v ↔
      ∃ t, EntryType.ofName? name = some t ∧ .text t.name = v := by
  unfold entryTypeLiteral
  cases EntryType.ofName? name with
  | none => simp
  | some t => simp

/-- What a token denotes depends on the field and on the kind of the token. -/
theorem denotes_int_iff {field : Field} {n : Int64} {v : Value} :
    Denotes field (.int n) v ↔ field.isNumeric = true ∧ .int n = v := by
  constructor
  · rintro ⟨n, h⟩
    exact ⟨h, rfl⟩
  · rintro ⟨h, rfl⟩
    exact .int n h

theorem denotes_text_iff {field : Field} {s : String} {v : Value} :
    Denotes field (.text s) v ↔
      (field = .entryType ∧ ∃ t, EntryType.ofName? s = some t ∧ .text t.name = v) ∨
        (field ≠ .entryType ∧ field.isNumeric = false ∧ .text s = v) := by
  constructor
  · intro h
    cases h with
    | text _ textual plain => exact .inr ⟨plain, textual, rfl⟩
    | quotedType named => exact .inl ⟨rfl, _, named, rfl⟩
  · rintro (⟨rfl, t, named, rfl⟩ | ⟨plain, textual, rfl⟩)
    · exact .quotedType named
    · exact .text s textual plain

theorem denotes_word_iff {field : Field} {s : String} {v : Value} :
    Denotes field (.word s) v ↔
      field = .entryType ∧ ∃ t, EntryType.ofName? s = some t ∧ .text t.name = v := by
  constructor
  · intro h
    cases h with
    | bareType named => exact ⟨rfl, _, named, rfl⟩
  · rintro ⟨rfl, t, named, rfl⟩
    exact .bareType named

theorem map_pair_eq_ok {x : Except Fault Value} {ts rest : List Placed} {v : Value} :
    x.map (·, ts) = .ok (v, rest) ↔ ts = rest ∧ x = .ok v := by
  cases x <;> simp [Except.map, and_comm]

theorem literal_eq_ok {field : Field} {ts rest : List Placed} {v : Value} :
    literal stop field ts = .ok (v, rest) ↔
      ∃ t, ts = t :: rest ∧ Denotes field t.token v := by
  cases ts with
  | nil => simp [literal, refuse]
  | cons t ts =>
    obtain ⟨offset, token⟩ := t
    rw [cons_eq_cons_and]
    cases token with
    | int n =>
      rw [denotes_int_iff]
      cases hn : field.isNumeric <;> simp [literal, hn, and_comm]
    | text s =>
      rw [denotes_text_iff]
      by_cases hf : field = .entryType
      · subst hf
        simp [literal, map_pair_eq_ok, entryTypeLiteral_eq_ok]
      · cases hn : field.isNumeric <;> simp [literal, hf, hn, and_comm]
    | word s =>
      rw [denotes_word_iff]
      by_cases hf : field = .entryType
      · subst hf
        simp [literal, map_pair_eq_ok, entryTypeLiteral_eq_ok]
      · simp [literal, hf]
    | _ =>
      simp only [literal, refuse_ne_ok, false_iff]
      rintro ⟨-, h⟩
      cases h

theorem comparison_eq_ok {field : Field} {op : Comparison} {offset : Nat} {ts rest : List Placed}
    {e : Expr} :
    comparison stop field op offset ts = .ok (e, rest) ↔
      op.Suits field ∧
        ∃ t v, Denotes field t.token v ∧ ts = t :: rest ∧ .compare field op v = e := by
  have hsuits : (!field.isNumeric && !op.isEquality) = false ↔ op.Suits field := by
    cases hn : field.isNumeric <;> simp [Comparison.Suits, hn]
  unfold comparison
  split
  next h =>
    have hnot : ¬op.Suits field := by
      rw [← hsuits, h]
      exact Bool.noConfusion
    simp [hnot]
  next h =>
    rw [Bool.not_eq_true] at h
    rw [map_eq_ok]
    constructor
    · rintro ⟨⟨v, rest'⟩, hl, he⟩
      obtain ⟨rfl, rfl⟩ := Prod.mk.inj he
      obtain ⟨t, rfl, hv⟩ := literal_eq_ok.mp hl
      exact ⟨hsuits.mp h, t, v, hv, rfl, rfl⟩
    · rintro ⟨-, t, v, hv, rfl, rfl⟩
      exact ⟨(v, rest), literal_eq_ok.mpr ⟨t, rfl, hv⟩, rfl⟩

theorem methodName_eq_ok {field : Field} {ts rest : List Placed} {m : TextMethod} :
    methodName stop field ts = .ok (m, rest) ↔
      ∃ t name, ts = t :: rest ∧ t.token = .word name ∧ TextMethod.ofName? name = some m ∧
        field.isNumeric = false := by
  constructor
  · intro h
    unfold methodName at h
    split at h
    next offset name rest' =>
      split at h
      next => cases h
      next m' hm =>
        split at h
        next => cases h
        next hn =>
          obtain ⟨rfl, rfl⟩ := Prod.mk.inj (Except.ok.inj h)
          exact ⟨_, name, rfl, rfl, hm, Bool.eq_false_iff.mpr hn⟩
    next => exact absurd h refuse_ne_ok
  · rintro ⟨⟨offset, _⟩, name, rfl, rfl, hm, hn⟩
    simp [methodName, hm, hn]

theorem argument_eq_ok {ts rest : List Placed} {s : String} :
    argument stop ts = .ok (s, rest) ↔
      ∃ front, ts = front ++ rest ∧ kinds front = [.opening, .text s, .closing] := by
  constructor
  · intro h
    obtain ⟨inner, hopening, htext⟩ := bind_eq_ok.mp h
    obtain ⟨o, rfl, ho⟩ := expect_eq_ok.mp hopening
    split at htext
    next offset s' rest' =>
      obtain ⟨_, hclosing, hs⟩ := bind_eq_ok.mp htext
      obtain ⟨rfl, rfl⟩ := Prod.mk.inj (Except.ok.inj hs)
      obtain ⟨c, rfl, hc⟩ := expect_eq_ok.mp hclosing
      exact ⟨[o, _, c], rfl, by simp [ho, hc]⟩
    next => exact absurd htext refuse_ne_ok
  · rintro ⟨front, rfl, hfront⟩
    obtain ⟨o, _, rfl, ho, htext⟩ := kinds_eq_cons.mp hfront
    obtain ⟨⟨offset, _⟩, _, rfl, rfl, hclosing⟩ := kinds_eq_cons.mp htext
    obtain ⟨c, _, rfl, hc, hnil⟩ := kinds_eq_cons.mp hclosing
    obtain rfl := kinds_eq_nil.mp hnil
    refine bind_eq_ok.mpr ⟨_, expect_eq_ok.mpr ⟨o, rfl, ho⟩, ?_⟩
    exact bind_eq_ok.mpr ⟨rest, expect_eq_ok.mpr ⟨c, rfl, hc⟩, rfl⟩

/-- Which test is read behind the name of its field. -/
theorem test_eq_ok {field : Field} {ts rest : List Placed} {e : Expr} {name : String}
    (hname : Field.ofName? name = some field) :
    test stop field ts = .ok (e, rest) ↔
      ∃ (t : Test) (front : List Placed), ts = front ++ rest ∧
        t.tokens = .word name :: kinds front ∧ t.tree = e := by
  constructor
  · intro h
    unfold test at h
    split at h
    next offset behind =>
      obtain ⟨⟨m, behindName⟩, hm, h₁⟩ := bind_eq_ok.mp h
      obtain ⟨⟨s, rest'⟩, hs, h₂⟩ := bind_eq_ok.mp h₁
      obtain ⟨rfl, rfl⟩ := Prod.mk.inj (Except.ok.inj h₂)
      obtain ⟨t, spelled, rfl, ht, hspelled, htextual⟩ := methodName_eq_ok.mp hm
      obtain ⟨front, rfl, hfront⟩ := argument_eq_ok.mp hs
      refine ⟨.method name spelled s field m hname htextual hspelled, ⟨offset, .dot⟩ :: t :: front,
        rfl, ?_, rfl⟩
      simp [Test.tokens, ht, hfront]
    next offset op behind =>
      obtain ⟨hsuits, t, v, hv, rfl, rfl⟩ := comparison_eq_ok.mp h
      exact ⟨.compare name op t.token field v hname hsuits hv, [⟨offset, .compare op⟩, t], rfl, rfl,
        rfl⟩
    next => exact absurd h refuse_ne_ok
  · rintro ⟨t, front, rfl, ht, rfl⟩
    cases t with
    | compare name' op literal field' v named suits denotes =>
      simp only [Test.tokens, List.cons.injEq, Token.word.injEq] at ht
      obtain ⟨rfl, hfront⟩ := ht
      obtain rfl := Option.some.inj (hname.symm.trans named)
      obtain ⟨⟨offset, _⟩, _, rfl, rfl, hliteral⟩ := kinds_eq_cons.mp hfront.symm
      obtain ⟨t, _, rfl, rfl, hnil⟩ := kinds_eq_cons.mp hliteral
      obtain rfl := kinds_eq_nil.mp hnil
      exact comparison_eq_ok.mpr ⟨suits, t, v, denotes, rfl, rfl⟩
    | method name' spelled s field' m named textual methodNamed =>
      simp only [Test.tokens, List.cons.injEq, Token.word.injEq] at ht
      obtain ⟨rfl, hfront⟩ := ht
      obtain rfl := Option.some.inj (hname.symm.trans named)
      obtain ⟨⟨offset, _⟩, _, rfl, rfl, hmethod⟩ := kinds_eq_cons.mp hfront.symm
      obtain ⟨t, argument, rfl, ht, hargument⟩ := kinds_eq_cons.mp hmethod
      refine bind_eq_ok.mpr ⟨(m, argument ++ rest), ?_, ?_⟩
      · exact methodName_eq_ok.mpr ⟨t, spelled, rfl, ht, methodNamed, textual⟩
      · exact bind_eq_ok.mpr ⟨(s, rest), argument_eq_ok.mpr ⟨argument, rfl, hargument⟩, rfl⟩

theorem predicate_eq_ok {ts rest : List Placed} {e : Expr} :
    predicate stop ts = .ok (e, rest) ↔
      ∃ (t : Test) (front : List Placed), ts = front ++ rest ∧ kinds front = t.tokens ∧
        t.tree = e := by
  constructor
  · intro h
    unfold predicate at h
    split at h
    next offset name behind =>
      split at h
      next field hname =>
        obtain ⟨t, front, rfl, ht, he⟩ := (test_eq_ok hname).mp h
        exact ⟨t, ⟨offset, .word name⟩ :: front, rfl, ht.symm, he⟩
      next => cases h
    next => exact absurd h refuse_ne_ok
  · rintro ⟨t, front, rfl, hfront, rfl⟩
    obtain ⟨name, field, ts, ht, hname⟩ := t.exists_tokens
    rw [ht] at hfront
    obtain ⟨⟨offset, _⟩, behind, rfl, rfl, hbehind⟩ := kinds_eq_cons.mp hfront
    simp only [predicate, List.cons_append, hname]
    exact (test_eq_ok hname).mpr ⟨t, behind, rfl, by rw [ht, hbehind], rfl⟩

/-! ## Chains -/

section Chains

variable {α : Type} {p : Reader Expr} {Ok : α → Prop} {f : α → List Token} {g : α → Expr}
  {stops : List Token} {joiner : Token}

/-- The tokens of the operands behind the first one. -/
def joinedTokens (joiner : Token) (f : α → List Token) (as : List α) : List Token :=
  as.flatMap fun a => joiner :: f a

theorem apart_joinedTokens (hjoiner : joiner ∉ stops) {r : List Token}
    (hr : Apart (joiner :: stops) r) (as : List α) :
    Apart stops (joinedTokens joiner f as ++ r) := by
  cases as with
  | nil => exact hr.tail
  | cons a as => exact apart_cons.mpr hjoiner

theorem joined_of_apart {n : Nat} {ts : List Placed} (h : Apart (joiner :: stops) (kinds ts)) :
    joined joiner p n ts = .ok ([], ts) := by
  cases n with
  | zero => rfl
  | succ n =>
    cases ts with
    | nil => rfl
    | cons t ts => rw [joined, if_neg (List.ne_of_not_mem_cons (apart_cons.mp h))]

/-- The operands are read as long as the joiner follows; every operand takes a token at least, so
that there are no more of them than tokens. -/
theorem joined_sound (hp : Reads p Ok f g stops) {n : Nat} {ts rest : List Placed}
    {es : List Expr} (hn : ts.length ≤ n) (hts : Apart stops (kinds ts))
    (h : joined joiner p n ts = .ok (es, rest)) :
    ∃ (as : List α) (front : List Placed), (∀ a ∈ as, Ok a) ∧ ts = front ++ rest ∧
      kinds front = joinedTokens joiner f as ∧ as.map g = es ∧
      Apart (joiner :: stops) (kinds rest) := by
  induction n generalizing ts es with
  | zero =>
    obtain rfl := List.length_eq_zero_iff.mp (Nat.le_zero.mp hn)
    obtain ⟨rfl, rfl⟩ := Prod.mk.inj (Except.ok.inj h)
    exact ⟨[], [], by simp, rfl, rfl, rfl, apart_nil _⟩
  | succ n ih =>
    cases ts with
    | nil =>
      obtain ⟨rfl, rfl⟩ := Prod.mk.inj (Except.ok.inj h)
      exact ⟨[], [], by simp, rfl, rfl, rfl, apart_nil _⟩
    | cons t ts =>
      rw [joined] at h
      split at h
      next ht =>
        obtain ⟨⟨e, behind⟩, hfirst, hbehind⟩ := bind_eq_ok.mp h
        obtain ⟨⟨es', rest'⟩, hmore, hes⟩ := bind_eq_ok.mp hbehind
        obtain ⟨rfl, rfl⟩ := Prod.mk.inj (Except.ok.inj hes)
        obtain ⟨a, front, ha, rfl, hfront, rfl, hapart⟩ := (hp _ _ _).mp hfirst
        have hshort : behind.length ≤ n := by
          rw [List.length_cons, List.length_append] at hn
          omega
        obtain ⟨as, front', has, rfl, hfront', rfl, hrest⟩ := ih hshort hapart hmore
        refine ⟨a :: as, t :: (front ++ front'), ?_, ?_, ?_, rfl, hrest⟩
        · exact List.forall_mem_cons.mpr ⟨ha, has⟩
        · simp
        · simp [joinedTokens, ht, hfront, hfront']
      next ht =>
        obtain ⟨rfl, rfl⟩ := Prod.mk.inj (Except.ok.inj h)
        refine ⟨[], [], by simp, rfl, rfl, rfl, apart_cons.mpr ?_⟩
        exact List.not_mem_cons_of_ne_of_not_mem ht (apart_cons.mp hts)

theorem joined_complete (hp : Reads p Ok f g stops) (hjoiner : joiner ∉ stops) {n : Nat}
    {front rest : List Placed} {as : List α} (hn : (front ++ rest).length ≤ n)
    (has : ∀ a ∈ as, Ok a) (hfront : kinds front = joinedTokens joiner f as)
    (hrest : Apart (joiner :: stops) (kinds rest)) :
    joined joiner p n (front ++ rest) = .ok (as.map g, rest) := by
  induction as generalizing n front with
  | nil =>
    obtain rfl := kinds_eq_nil.mp hfront
    exact joined_of_apart hrest
  | cons a as ih =>
    obtain ⟨t, _, rfl, ht, hoperands⟩ := kinds_eq_cons.mp hfront
    obtain ⟨first, more, rfl, hfirst, hmore⟩ := kinds_eq_append.mp hoperands
    obtain ⟨ha, has⟩ := List.forall_mem_cons.mp has
    rw [List.cons_append, List.length_cons] at hn
    obtain ⟨n, rfl⟩ : ∃ m, n = m + 1 := ⟨n - 1, by omega⟩
    have hapart : Apart stops (kinds (more ++ rest)) := by
      rw [kinds_append, hmore]
      exact apart_joinedTokens hjoiner hrest as
    have hshort : (more ++ rest).length ≤ n := by
      simp only [List.length_append] at hn ⊢
      omega
    rw [List.cons_append, joined, if_pos ht, List.append_assoc]
    refine bind_eq_ok.mpr ⟨(g a, more ++ rest), ?_, ?_⟩
    · exact (hp _ _ _).mpr ⟨a, first, ha, rfl, hfirst, rfl, hapart⟩
    · exact bind_eq_ok.mpr ⟨(as.map g, rest), ih hshort has hmore, rfl⟩

theorem chain_reads (joiner : Token) (node : List Expr → Expr) (hp : Reads p Ok f g stops)
    (hjoiner : joiner ∉ stops) :
    Reads (chain joiner node p) (Chain.All Ok) (fun c => (c.map f).joined joiner)
      (fun c => (c.map g).tree node) (joiner :: stops) := by
  intro ts e rest
  constructor
  · intro h
    obtain ⟨⟨first, behind⟩, hfirst, hmore⟩ := bind_eq_ok.mp h
    obtain ⟨⟨more, rest'⟩, hjoined, he⟩ := bind_eq_ok.mp hmore
    obtain ⟨rfl, rfl⟩ := Prod.mk.inj (Except.ok.inj he)
    obtain ⟨a, front, ha, rfl, hfront, rfl, hapart⟩ := (hp _ _ _).mp hfirst
    obtain ⟨as, front', has, rfl, hfront', rfl, hrest⟩ :=
      joined_sound hp Nat.le.refl hapart hjoined
    refine ⟨.start a as, front ++ front', Chain.all_start.mpr ⟨ha, has⟩, by simp, ?_, ?_, hrest⟩
    · rw [kinds_append, hfront, hfront']
      exact (Chain.joined_map_start joiner f a as).symm
    · exact Chain.tree_map_start node g a as
  · rintro ⟨c, front, hc, rfl, hfront, rfl, hrest⟩
    obtain ⟨a, as, rfl⟩ := c.exists_start
    obtain ⟨ha, has⟩ := Chain.all_start.mp hc
    obtain ⟨first, more, rfl, hfirst, hmore⟩ :=
      kinds_eq_append.mp (hfront.trans (Chain.joined_map_start joiner f a as))
    have hapart : Apart stops (kinds (more ++ rest)) := by
      rw [kinds_append, hmore]
      exact apart_joinedTokens hjoiner hrest as
    refine bind_eq_ok.mpr ⟨(g a, more ++ rest), ?_, ?_⟩
    · exact (hp _ _ _).mpr ⟨a, first, ha, List.append_assoc _ _ _, hfirst, rfl, hapart⟩
    · refine bind_eq_ok.mpr ⟨(as.map g, rest), ?_, ?_⟩
      · exact joined_complete hp hjoiner Nat.le.refl has hmore hrest
      · exact congrArg (fun e => Except.ok (e, rest)) (Chain.tree_map_start node g a as).symm

end Chains

/-! ## Operands -/

theorem disjunction_reads {p : Reader Expr} {n : Nat}
    (hp : Reads p (fun o => o.nesting ≤ n) Operand.tokens Operand.tree []) :
    Reads (disjunction p) (fun d => d.nesting ≤ n) Derivation.tokens Derivation.tree
      [.or, .and] := by
  have hd := chain_reads .or .or (chain_reads .and .and hp (by simp)) (by simp)
  intro ts e rest
  simp only [Derivation.nesting_le]
  exact hd ts e rest

/-- The first token tells a negation, a group and a test apart. -/
theorem operand_cases (ts : List Placed) :
    (∃ offset rest, ts = ⟨offset, .not⟩ :: rest) ∨
      (∃ offset rest, ts = ⟨offset, .opening⟩ :: rest) ∨ Apart [.not, .opening] (kinds ts) := by
  cases ts with
  | nil => exact .inr (.inr (apart_nil _))
  | cons t ts =>
    obtain ⟨offset, token⟩ := t
    cases token with
    | not => exact .inl ⟨offset, ts, rfl⟩
    | opening => exact .inr (.inl ⟨offset, ts, rfl⟩)
    | _ => exact .inr (.inr (apart_cons.mpr (by simp)))

theorem operand_of_apart {n : Nat} {ts : List Placed} (h : Apart [.not, .opening] (kinds ts)) :
    operand stop n ts = predicate stop ts := by
  cases ts with
  | nil => cases n <;> rfl
  | cons t ts =>
    obtain ⟨offset, token⟩ := t
    have htoken := apart_cons.mp h
    cases token with
    | not => simp at htoken
    | opening => simp at htoken
    | _ => cases n <;> rfl

theorem operand_not {n offset : Nat} {ts rest : List Placed} {e : Expr} :
    operand stop n (⟨offset, .not⟩ :: ts) = .ok (e, rest) ↔
      ∃ m e', n = m + 1 ∧ operand stop m ts = .ok (e', rest) ∧ .not e' = e := by
  cases n with
  | zero => simp [operand]
  | succ n =>
    constructor
    · intro h
      obtain ⟨⟨e', rest'⟩, hterm, he⟩ := bind_eq_ok.mp h
      obtain ⟨rfl, rfl⟩ := Prod.mk.inj (Except.ok.inj he)
      exact ⟨n, e', rfl, hterm, rfl⟩
    · rintro ⟨m, e', hm, hterm, rfl⟩
      obtain rfl := Nat.succ.inj hm
      exact bind_eq_ok.mpr ⟨(e', rest), hterm, rfl⟩

theorem operand_opening {n offset : Nat} {ts rest : List Placed} {e : Expr} :
    operand stop n (⟨offset, .opening⟩ :: ts) = .ok (e, rest) ↔
      ∃ m c, n = m + 1 ∧ disjunction (operand stop m) ts = .ok (e, c :: rest) ∧
        c.token = .closing := by
  cases n with
  | zero => simp [operand]
  | succ n =>
    constructor
    · intro h
      obtain ⟨⟨e', behind⟩, hterm, hbehind⟩ := bind_eq_ok.mp h
      obtain ⟨rest', hclosing, he⟩ := bind_eq_ok.mp hbehind
      obtain ⟨rfl, rfl⟩ := Prod.mk.inj (Except.ok.inj he)
      obtain ⟨c, rfl, hc⟩ := expect_eq_ok.mp hclosing
      exact ⟨n, c, rfl, hterm, hc⟩
    · rintro ⟨m, c, hm, hterm, hc⟩
      obtain rfl := Nat.succ.inj hm
      refine bind_eq_ok.mpr ⟨(e, c :: rest), hterm, ?_⟩
      exact bind_eq_ok.mpr ⟨rest, expect_eq_ok.mpr ⟨c, rfl, hc⟩, rfl⟩

/-- Operands nested as deep as the levels left allow are read. -/
def ReadsOperands (stop n : Nat) : Prop :=
  Reads (operand stop n) (fun o => o.nesting ≤ n) Operand.tokens Operand.tree []

theorem operand_sound {n : Nat} (ih : ∀ m < n, ReadsOperands stop m) {ts rest : List Placed}
    {e : Expr} (h : operand stop n ts = .ok (e, rest)) :
    ∃ (o : Operand) (front : List Placed), o.nesting ≤ n ∧ ts = front ++ rest ∧
      kinds front = o.tokens ∧ o.tree = e := by
  obtain ⟨offset, inner, rfl⟩ | ⟨offset, inner, rfl⟩ | hother := operand_cases ts
  · obtain ⟨m, e', rfl, hterm, rfl⟩ := operand_not.mp h
    obtain ⟨o, front, ho, rfl, hfront, rfl, -⟩ := (ih m m.lt_succ_self _ _ _).mp hterm
    refine ⟨.not o, ⟨offset, .not⟩ :: front, Nat.succ_le_succ ho, rfl, ?_, rfl⟩
    rw [kinds_cons, hfront, Operand.tokens_not]
  · obtain ⟨m, c, rfl, hterm, hc⟩ := operand_opening.mp h
    obtain ⟨d, front, hd, rfl, hfront, rfl, -⟩ :=
      (disjunction_reads (ih m m.lt_succ_self) _ _ _).mp hterm
    refine ⟨.group d, ⟨offset, .opening⟩ :: (front ++ [c]), ?_, by simp, ?_,
      Operand.tree_group d⟩
    · rw [Operand.nesting_group]
      exact Nat.succ_le_succ hd
    · simp [hfront, hc, Operand.tokens_group]
  · rw [operand_of_apart hother] at h
    obtain ⟨t, front, rfl, hfront, rfl⟩ := predicate_eq_ok.mp h
    exact ⟨.test t, front, n.zero_le, rfl, hfront, rfl⟩

theorem operand_complete {n : Nat} (ih : ∀ m < n, ReadsOperands stop m) {o : Operand}
    {front rest : List Placed} (ho : o.nesting ≤ n) (hfront : kinds front = o.tokens) :
    operand stop n (front ++ rest) = .ok (o.tree, rest) := by
  cases o with
  | test t =>
    obtain ⟨name, -, ts, ht, -⟩ := t.exists_tokens
    have hother : Apart [.not, .opening] (kinds (front ++ rest)) := by
      rw [kinds_append, hfront, Operand.tokens_test, ht]
      exact apart_cons.mpr (by simp)
    rw [operand_of_apart hother]
    exact predicate_eq_ok.mpr ⟨t, front, rfl, hfront, rfl⟩
  | not o =>
    obtain ⟨⟨offset, _⟩, inner, rfl, rfl, hinner⟩ := kinds_eq_cons.mp hfront
    rw [Operand.nesting_not] at ho
    obtain ⟨m, rfl⟩ := Nat.exists_eq_add_one_of_ne_zero (Nat.ne_zero_of_lt ho)
    have hterm := (ih m m.lt_succ_self _ _ _).mpr
      ⟨o, inner, Nat.le_of_succ_le_succ ho, rfl, hinner, rfl, apart_none (kinds rest)⟩
    exact operand_not.mpr ⟨m, o.tree, rfl, hterm, rfl⟩
  | group d =>
    rw [Operand.tokens_group] at hfront
    obtain ⟨⟨offset, _⟩, _, rfl, rfl, hbehind⟩ := kinds_eq_cons.mp hfront
    obtain ⟨inner, _, rfl, hinner, hclosing⟩ := kinds_eq_append.mp hbehind
    obtain ⟨c, _, rfl, hc, hnil⟩ := kinds_eq_cons.mp hclosing
    obtain rfl := kinds_eq_nil.mp hnil
    rw [Operand.nesting_group] at ho
    obtain ⟨m, rfl⟩ := Nat.exists_eq_add_one_of_ne_zero (Nat.ne_zero_of_lt ho)
    have hapart : Apart [.or, .and] (kinds (c :: rest)) := by
      rw [kinds_cons, hc]
      exact apart_cons.mpr (by simp)
    have hterm := (disjunction_reads (ih m m.lt_succ_self) _ _ _).mpr
      ⟨d, inner, Nat.le_of_succ_le_succ ho, rfl, hinner, rfl, hapart⟩
    rw [Operand.tree_group, List.cons_append, List.append_assoc]
    exact operand_opening.mpr ⟨m, c, rfl, hterm, hc⟩

theorem readsOperands (stop n : Nat) : ReadsOperands stop n := by
  induction n using Nat.strongRecOn with
  | ind n ih =>
    intro ts e rest
    constructor
    · intro h
      obtain ⟨o, front, ho, hts, hfront, he⟩ := operand_sound ih h
      exact ⟨o, front, ho, hts, hfront, he, apart_none _⟩
    · rintro ⟨o, front, ho, rfl, hfront, rfl, -⟩
      exact operand_complete ih ho hfront

/-- A filter that is read is all of one derivation, which is not nested too deep. -/
theorem ofTokens_eq_ok {ts : Tokens} {e : Expr} :
    ofTokens ts = .ok e ↔
      ∃ d : Derivation, d.tokens = kinds ts.items ∧ d.nesting ≤ nestingLimit ∧ d.tree = e := by
  have hreads := disjunction_reads (readsOperands ts.stop nestingLimit)
  constructor
  · intro h
    obtain ⟨⟨e', rest⟩, hterm, hend⟩ := bind_eq_ok.mp h
    obtain ⟨d, front, hd, hitems, hfront, rfl, -⟩ := (hreads _ _ _).mp hterm
    cases rest with
    | nil =>
      obtain rfl := Except.ok.inj hend
      rw [List.append_nil] at hitems
      exact ⟨d, by rw [hitems, hfront], hd, rfl⟩
    | cons t rest => exact absurd hend refuse_ne_ok
  · rintro ⟨d, hfront, hd, rfl⟩
    have hterm := (hreads _ _ _).mpr
      ⟨d, ts.items, hd, (List.append_nil _).symm, hfront.symm, rfl, apart_nil _⟩
    exact bind_eq_ok.mpr ⟨(d.tree, []), hterm, rfl⟩

/-! ## Top theorem -/

/-- A list of tokens is read as a filter exactly if it follows the grammar, without a token in more
parentheses and `Not`s than the limit; the result is the tree of the derivation.  The grammar
has one derivation at most for a list of tokens. -/
theorem reading_follows_grammar :
    (∀ (ts : Tokens) (e : Expr), ofTokens ts = .ok e ↔
      ∃ d : Derivation, d.tokens = kinds ts.items ∧ d.nesting ≤ nestingLimit ∧ d.tree = e) ∧
    ∀ d d' : Derivation, d.tokens = d'.tokens ↔ d = d' :=
  ⟨fun _ _ => ofTokens_eq_ok, fun _ _ => Derivation.tokens_inj⟩

end Expr
end LogWatch.Filter
