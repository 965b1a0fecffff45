import LogWatch.Proofs.Filter.Parsing
import LogWatch.Proofs.Text.Case

/-!
# Tokens with other names for the same things

A name may be written in another case, and the entry type that a field is compared with in every
way that names it.  Tokens that differ by such writing follow the grammar alike: what is derived
from the ones has a counterpart from the others, of the same tree and the same nesting.

    Renamed d.tokens ks → ∃ d', d'.tokens = ks ∧ d'.tree = d.tree ∧ d'.nesting = d.nesting
                                                                        (Renamed.exists_derivation)
-/

namespace LogWatch

open LogWatch.Text

/-! ## Names in another case -/

section Names

variable {s s' : String}

theorem EntryType.ofName?_congr (h : sameWord (trim s.toList) (trim s'.toList) = true) :
    EntryType.ofName? s = EntryType.ofName? s' := by
  unfold EntryType.ofName?
  simp only [sameWord_congr h]

theorem EntryType.noBlanks_name (t : EntryType) : NoBlanks t.name.toList := by
  have hall : (t.name.toList.all fun c => !isBlank c) = true := by cases t <;> decide +kernel
  simpa [NoBlanks] using hall

/-- What is left of a text without the blanks around it tells the entry type. -/
theorem EntryType.ofName?_of_trim {t : EntryType}
    (same : sameWord t.name.toList (trim s.toList) = true) : EntryType.ofName? s = some t := by
  rw [← EntryType.ofName?_name t]
  refine (EntryType.ofName?_congr ?_).symm
  rwa [trim_eq_self t.noBlanks_name]

theorem Filter.Field.ofName?_congr (h : sameWord s.toList s'.toList = true) :
    Field.ofName? s = Field.ofName? s' := by
  unfold Field.ofName?
  simp only [sameWord_congr h]

theorem Filter.TextMethod.ofName?_congr (h : sameWord s.toList s'.toList = true) :
    TextMethod.ofName? s = TextMethod.ofName? s' := by
  unfold TextMethod.ofName?
  simp only [sameWord_congr h]

theorem Filter.Field.sameWord_of_ofName? {field : Field} (h : Field.ofName? s = some field) :
    sameWord field.name.toList s.toList = true := by
  have hfound := List.find?_some h
  exact hfound

/-- No entry type has the name of the field that holds it. -/
theorem EntryType.ofName?_of_field (h : Filter.Field.ofName? s = some .entryType) :
    EntryType.ofName? s = none := by
  have hsame := sameWord_trim (Filter.Field.sameWord_of_ofName? h)
  rw [← EntryType.ofName?_congr hsame]
  decide +kernel

end Names

namespace Filter

/-! ## Renamed tokens -/

/-- The token is a name or a bare word. -/
def Token.isName : Token → Bool
  | .word _ => true
  | _ => false

/-- The tokens are the same but for the case of names, and for how the entry type is named that
the field of entry types is compared with. -/
inductive Renamed : List Token → List Token → Prop
  | nil : Renamed [] []
  | keep (t : Token) {ks ks' : List Token} (more : Renamed ks ks') : Renamed (t :: ks) (t :: ks')
  | name {n n' : String} {ks ks' : List Token} (same : sameWord n.toList n'.toList = true)
    (more : Renamed ks ks') : Renamed (.word n :: ks) (.word n' :: ks')
  | entryType {n n' : String} {op : Comparison} {l l' : Token} {v : Value} {ks ks' : List Token}
    (field : Field.ofName? n = some .entryType) (field' : Field.ofName? n' = some .entryType)
    (denotes : Denotes .entryType l v) (denotes' : Denotes .entryType l' v)
    (more : Renamed ks ks') :
    Renamed (.word n :: .compare op :: l :: ks) (.word n' :: .compare op :: l' :: ks')

namespace Renamed

variable {ks ks' : List Token}

theorem symm (h : Renamed ks ks') : Renamed ks' ks := by
  induction h with
  | nil => exact .nil
  | keep t _ ih => exact ih.keep t
  | name same _ ih => exact ih.name (sameWord_symm same)
  | entryType field field' denotes denotes' _ ih => exact ih.entryType field' field denotes' denotes

theorem eq_nil (h : Renamed [] ks') : ks' = [] := by
  cases h
  rfl

/-- A sign stays. -/
theorem cons {t : Token} (ht : t.isName = false) (h : Renamed (t :: ks) ks') :
    ∃ ks'', ks' = t :: ks'' ∧ Renamed ks ks'' := by
  cases h with
  | keep _ more => exact ⟨_, rfl, more⟩
  | name => cases ht
  | entryType => cases ht

/-- A name that no comparison follows gets another case at most. -/
theorem word {n : String} (hks : ∀ op, ks.head? ≠ some (.compare op))
    (h : Renamed (.word n :: ks) ks') :
    ∃ n' ks'', ks' = .word n' :: ks'' ∧ sameWord n.toList n'.toList = true ∧ Renamed ks ks'' := by
  cases h with
  | keep _ more => exact ⟨n, _, rfl, sameWord_refl _, more⟩
  | name same more => exact ⟨_, _, rfl, same, more⟩
  | entryType => exact absurd rfl (hks _)

/-- What a field is compared with stays the same value. -/
theorem literal {field : Field} {l : Token} {v : Value} (hl : Denotes field l v)
    (h : Renamed (l :: ks) ks') :
    ∃ l' ks'', ks' = l' :: ks'' ∧ Denotes field l' v ∧ Renamed ks ks'' := by
  cases h with
  | keep _ more => exact ⟨l, _, rfl, hl, more⟩
  | @name n n' _ _ same more =>
    cases hl with
    | bareType named =>
      refine ⟨.word n', _, rfl, .bareType ?_, more⟩
      rw [← EntryType.ofName?_congr (sameWord_trim same)]
      exact named
  | entryType isField =>
    cases hl with
    | bareType named =>
      rw [EntryType.ofName?_of_field isField] at named
      cases named

/-- A comparison keeps its field, its operator and its value. -/
theorem comparison {n : String} {op : Comparison} {l : Token} {field : Field} {v : Value}
    (hn : Field.ofName? n = some field) (hl : Denotes field l v)
    (h : Renamed (.word n :: .compare op :: l :: ks) ks') :
    ∃ n' l' ks'', ks' = .word n' :: .compare op :: l' :: ks'' ∧
      Field.ofName? n' = some field ∧ Denotes field l' v ∧ Renamed ks ks'' := by
  have hnamed : ∀ {n' : String} {ks''}, sameWord n.toList n'.toList = true →
      Renamed (.compare op :: l :: ks) ks'' →
      ∃ l' more, ks'' = .compare op :: l' :: more ∧ Field.ofName? n' = some field ∧
        Denotes field l' v ∧ Renamed ks more := by
    intro n' ks'' same hmore
    obtain ⟨_, rfl, hliteral⟩ := hmore.cons rfl
    obtain ⟨l', more, rfl, hl', hrest⟩ := hliteral.literal hl
    exact ⟨l', more, rfl, Field.ofName?_congr same ▸ hn, hl', hrest⟩
  cases h with
  | keep _ more =>
    obtain ⟨l', rest, rfl, hfield, hl', hrest⟩ := hnamed (sameWord_refl _) more
    exact ⟨n, l', rest, rfl, hfield, hl', hrest⟩
  | @name _ n' _ _ same more =>
    obtain ⟨l', rest, rfl, hfield, hl', hrest⟩ := hnamed same more
    exact ⟨n', l', rest, rfl, hfield, hl', hrest⟩
  | @entryType _ n' _ _ l' _ _ rest isField isField' denotes denotes' more =>
    obtain rfl := Option.some.inj (hn.symm.trans isField)
    obtain rfl := hl.functional denotes
    exact ⟨n', l', rest, rfl, isField', denotes', more⟩

end Renamed

/-! ## Derivations from renamed tokens -/

/-- Where the tokens of `a` are renamed, whatever follows them, something else of the same value has
the new ones. -/
def Transports {α β : Type} (f : α → List Token) (g : α → β) (a : α) : Prop :=
  ∀ r ks, Renamed (f a ++ r) ks → ∃ b r', ks = f b ++ r' ∧ Renamed r r' ∧ g b = g a

theorem Test.transports (t : Test) : Transports Test.tokens Test.tree t := by
  intro r ks h
  cases t with
  | compare n op l field v named suits denotes =>
    obtain ⟨n', l', r', rfl, named', denotes', hr⟩ := h.comparison named denotes
    exact ⟨.compare n' op l' field v named' suits denotes', r', rfl, hr, rfl⟩
  | method n m s field method named textual methodNamed =>
    obtain ⟨n', _, rfl, same, hdot⟩ := h.word (by simp)
    obtain ⟨_, rfl, hmethod⟩ := hdot.cons rfl
    obtain ⟨m', _, rfl, same', hopening⟩ := hmethod.word (by simp)
    obtain ⟨_, rfl, htext⟩ := hopening.cons rfl
    obtain ⟨_, rfl, hclosing⟩ := htext.cons rfl
    obtain ⟨r', rfl, hr⟩ := hclosing.cons rfl
    exact ⟨.method n' m' s field method (Field.ofName?_congr same ▸ named) textual
      (TextMethod.ofName?_congr same' ▸ methodNamed), r', rfl, hr, rfl⟩

/-- The joiners of a chain are signs, and stay. -/
theorem Chain.transports {α β : Type} {f : α → List Token} {g : α → β} {joiner : Token}
    (hjoiner : joiner.isName = false) {c : Chain α} (h : c.All (Transports f g)) :
    Transports (fun c => (c.map f).joined joiner) (Chain.map g) c := by
  induction c with
  | one a =>
    intro r ks hks
    obtain ⟨b, r', rfl, hr, hb⟩ := h r ks hks
    exact ⟨.one b, r', rfl, hr, congrArg Chain.one hb⟩
  | cons a more ih =>
    intro r ks hks
    simp only [map, joined, List.append_assoc, List.cons_append] at hks
    obtain ⟨b, behind, rfl, hbehind, hb⟩ := h.1 _ ks hks
    obtain ⟨_, rfl, hmore⟩ := hbehind.cons hjoiner
    obtain ⟨more', r', rfl, hr, hmore'⟩ := ih h.2 r _ hmore
    refine ⟨.cons b more', r', ?_, hr, ?_⟩
    · simp only [map, joined, List.append_assoc, List.cons_append]
    · rw [map, map, hb, hmore']

/-- The tree and the nesting. -/
def Operand.value (o : Operand) : Expr × Nat := (o.tree, o.nesting)

theorem Derivation.eq_of_values {d d' : Derivation}
    (h : d.map (Chain.map Operand.value) = d'.map (Chain.map Operand.value)) :
    d.tree = d'.tree ∧ d.nesting = d'.nesting := by
  have hparts {γ : Type} (part : Expr × Nat → γ) (d : Derivation) :
      (d.map (Chain.map Operand.value)).map (Chain.map part) =
        d.map (Chain.map (part ∘ Operand.value)) := by
    rw [Chain.map_map]
    congr 1
    funext c
    exact Chain.map_map _ _ _
  constructor
  · have htrees := congrArg (Chain.map (Chain.map Prod.fst)) h
    rw [hparts, hparts] at htrees
    have htree := congrArg (fun x => (x.map (Chain.tree .and)).tree .or) htrees
    simp only [Chain.map_map] at htree
    exact htree
  · have hdepths := congrArg (Chain.map (Chain.map Prod.snd)) h
    rw [hparts, hparts] at hdepths
    have hdepth := congrArg (fun x => (x.map Chain.deepest).deepest) hdepths
    simp only [Chain.map_map] at hdepth
    exact hdepth

theorem Derivation.transports_of_all {d : Derivation}
    (h : d.All (Chain.All (Transports Operand.tokens Operand.value))) :
    Transports Derivation.tokens (Chain.map (Chain.map Operand.value)) d :=
  Chain.transports rfl (h.imp fun _ hc => Chain.transports rfl hc)

theorem Operand.transports (o : Operand) : Transports Operand.tokens Operand.value o := by
  induction o with
  | test t =>
    intro r ks h
    obtain ⟨t', r', rfl, hr, ht⟩ := t.transports r ks h
    exact ⟨.test t', r', rfl, hr, Prod.ext ht rfl⟩
  | not o ih =>
    intro r ks h
    obtain ⟨_, rfl, hmore⟩ := h.cons rfl
    obtain ⟨b, r', rfl, hr, hb⟩ := ih r _ hmore
    obtain ⟨htree, hnesting⟩ := Prod.mk.inj hb
    exact ⟨.not b, r', rfl, hr, Prod.ext (congrArg Expr.not htree) (congrArg (· + 1) hnesting)⟩
  | group d ih =>
    intro r ks h
    simp only [tokens_group, List.cons_append, List.append_assoc, List.nil_append] at h
    obtain ⟨_, rfl, hinner⟩ := h.cons rfl
    obtain ⟨d', _, rfl, hclosing, hd⟩ := Derivation.transports_of_all ih _ _ hinner
    obtain ⟨r', rfl, hr⟩ := hclosing.cons rfl
    obtain ⟨htree, hnesting⟩ := Derivation.eq_of_values hd
    refine ⟨.group d', r', ?_, hr, Prod.ext ?_ ?_⟩
    · simp only [tokens_group, List.cons_append, List.append_assoc, List.nil_append]
    · simp only [value, tree_group, htree]
    · simp only [value, nesting_group, hnesting]

theorem Renamed.exists_derivation {d : Derivation} {ks : List Token} (h : Renamed d.tokens ks) :
    ∃ d' : Derivation, d'.tokens = ks ∧ d'.tree = d.tree ∧ d'.nesting = d.nesting := by
  have hall := Chain.all_of_forall (Chain.all_of_forall Operand.transports) d
  obtain ⟨d', r, rfl, hr, hd⟩ :=
    Derivation.transports_of_all hall [] ks (by rwa [List.append_nil])
  obtain rfl := hr.eq_nil
  exact ⟨d', (List.append_nil _).symm, Derivation.eq_of_values hd⟩

end Filter
end LogWatch
