import LogWatch.Filter.Basic
import LogWatch.Proofs.Filter.Parsing

/-!
# Where reading a test stops

A reader that refuses its tokens stops at the first of them that nothing can go on with.  The
fault is then the same whatever stands behind this token, and the tokens before it can be
completed, by a method, a text or a literal.  The one exception is a numeric field with a point
behind it: the point is taken before the method is looked at.

    predicate stop ts = .error fault → ∃ before rest, ts = before ++ rest ∧ …     (predicate_sticks)
-/

namespace LogWatch.Filter

/-- The place of the next token, or of the end of the filter. -/
def placeOf (stop : Nat) (next : Option Placed) : Nat := (next.map Placed.offset).getD stop

/-- The reader fails at `next` behind `before`, whatever stands behind `next`. -/
structure StuckAt {γ : Type} (stop : Nat) (p : List Placed → Except Fault γ) (fault : Fault)
    (before : List Placed) (next : Option Placed) : Prop where
  place : fault.offset = placeOf stop next
  always : ∀ rest : List Placed, rest.head? = next → p (before ++ rest) = .error fault

/-- The reader only fails behind tokens that can go on. -/
def SticksBehind {γ : Type} (stop : Nat) (p : List Placed → Except Fault γ)
    (CanGoOn : List Token → Prop) : Prop :=
  ∀ ts fault, p ts = .error fault → ∃ before rest, ts = before ++ rest ∧
    StuckAt stop p fault before rest.head? ∧ CanGoOn (kinds before)

/-- A numeric field and a point are the last tokens. -/
def EndsInNumberDot (ks : List Token) : Prop :=
  ∃ front name field, ks = front ++ [.word name, .dot] ∧ Field.ofName? name = some field ∧
    field.isNumeric = true

/-- The tokens begin those of something that is wanted, or end in the one way that leads nowhere. -/
def Begins {α : Type} (Ok : α → Prop) (f : α → List Token) (ks : List Token) : Prop :=
  (∃ a more, Ok a ∧ f a = ks ++ more) ∨ EndsInNumberDot ks

theorem EndsInNumberDot.append_left {ks : List Token} (h : EndsInNumberDot ks)
    (front : List Token) : EndsInNumberDot (front ++ ks) := by
  obtain ⟨front', name, field, rfl, hname, hnumeric⟩ := h
  exact ⟨front ++ front', name, field, (List.append_assoc _ _ _).symm, hname, hnumeric⟩

/-- What begins a part begins what the part can stand in, behind what stands in front of it. -/
theorem Begins.within {α β : Type} {Ok : α → Prop} {Ok' : β → Prop} {f : α → List Token}
    {f' : β → List Token} {ks : List Token} (h : Begins Ok f ks) (front : List Token)
    (hwithin : ∀ a, Ok a → ∃ b more, Ok' b ∧ f' b = front ++ (f a ++ more)) :
    Begins Ok' f' (front ++ ks) := by
  obtain ⟨a, more, ha, hmore⟩ | hdot := h
  · obtain ⟨b, more', hb, hmore'⟩ := hwithin a ha
    exact .inl ⟨b, more ++ more', hb, by rw [hmore', hmore]; simp⟩
  · exact .inr (hdot.append_left front)

namespace Expr

variable {stop : Nat}

/-! ## Readers that fail at their first token -/

/-- A fault at the first token that does not depend on what stands behind it. -/
theorem stuckAt_first {γ : Type} {p : List Placed → Except Fault γ} {ts : List Placed}
    {fault : Fault} (h : p ts = .error fault) (place : fault.offset = placeOf stop ts.head?)
    (same : ∀ t more more', p (t :: more) = .error fault → p (t :: more') = .error fault) :
    StuckAt stop p fault [] ts.head? := by
  refine ⟨place, fun rest hrest => ?_⟩
  cases ts with
  | nil =>
    obtain rfl := List.head?_eq_none_iff.mp hrest
    exact h
  | cons t more =>
    obtain ⟨more', rfl⟩ := List.head?_eq_some_iff.mp hrest
    exact same t more more' h

theorem refuse_congr {α : Type} {what : Expectation} {ts rest : List Placed}
    (h : rest.head? = ts.head?) : refuse (α := α) stop what rest = refuse stop what ts := by
  cases ts with
  | nil =>
    obtain rfl := List.head?_eq_none_iff.mp h
    rfl
  | cons t more =>
    obtain ⟨more', rfl⟩ := List.head?_eq_some_iff.mp h
    rfl

theorem offset_of_refuse {α : Type} {what : Expectation} {ts : List Placed} {fault : Fault}
    (h : refuse (α := α) stop what ts = .error fault) : fault.offset = placeOf stop ts.head? := by
  cases ts <;> cases h <;> rfl

theorem expect_cons_eq_error {token : Token} {what : Expectation} {t : Placed}
    {more : List Placed} {fault : Fault} (h : expect stop token what (t :: more) = .error fault) :
    fault.offset = t.offset ∧ ∀ more', expect stop token what (t :: more') = .error fault := by
  simp only [expect] at h ⊢
  split at h
  next => cases h
  next ht => cases h; exact ⟨rfl, fun _ => by rw [if_neg ht]; rfl⟩

theorem expect_stuckAt {token : Token} {what : Expectation} {ts : List Placed} {fault : Fault}
    (h : expect stop token what ts = .error fault) :
    StuckAt stop (expect stop token what) fault [] ts.head? := by
  refine stuckAt_first h ?_ fun t more more' h => (expect_cons_eq_error h).2 more'
  cases ts with
  | nil => exact offset_of_refuse h
  | cons t more => exact (expect_cons_eq_error h).1

theorem offset_of_entryTypeLiteral {offset : Nat} {name : String} {fault : Fault}
    (h : entryTypeLiteral offset name = .error fault) : fault.offset = offset := by
  unfold entryTypeLiteral at h
  split at h <;> cases h
  rfl

/-- Why a literal is refused depends on the literal only. -/
theorem literal_cons_eq_error {field : Field} {t : Placed} {more : List Placed} {fault : Fault}
    (h : literal stop field (t :: more) = .error fault) :
    fault.offset = t.offset ∧ ∀ more', literal stop field (t :: more') = .error fault := by
  obtain ⟨offset, token⟩ := t
  cases token with
  | int n =>
    simp only [literal] at h ⊢
    split at h
    next => cases h
    next hn => cases h; exact ⟨rfl, fun _ => by rw [if_neg hn]⟩
  | text s =>
    simp only [literal] at h ⊢
    split at h
    next hf =>
      have hname := map_eq_error.mp h
      exact ⟨offset_of_entryTypeLiteral hname, fun _ => by rw [if_pos hf, hname]; rfl⟩
    next hf =>
      split at h
      next hn => cases h; exact ⟨rfl, fun _ => by rw [if_neg hf, if_pos hn]⟩
      next => cases h
  | word s =>
    simp only [literal] at h ⊢
    split at h
    next hf =>
      have hname := map_eq_error.mp h
      exact ⟨offset_of_entryTypeLiteral hname, fun _ => by rw [if_pos hf, hname]; rfl⟩
    next hf => cases h; exact ⟨rfl, fun _ => by rw [if_neg hf]⟩
  | _ => cases h; exact ⟨rfl, fun _ => rfl⟩

theorem literal_stuckAt {field : Field} {ts : List Placed} {fault : Fault}
    (h : literal stop field ts = .error fault) :
    StuckAt stop (literal stop field) fault [] ts.head? := by
  refine stuckAt_first h ?_ fun t more more' h => (literal_cons_eq_error h).2 more'
  cases ts with
  | nil => exact offset_of_refuse h
  | cons t more => exact (literal_cons_eq_error h).1

theorem methodName_stuckAt {field : Field} {ts : List Placed} {fault : Fault}
    (h : methodName stop field ts = .error fault) :
    StuckAt stop (methodName stop field) fault [] ts.head? := by
  refine stuckAt_first h ?_ ?_
  · unfold methodName at h
    split at h
    · split at h
      · cases h; rfl
      · split at h <;> cases h
        rfl
    · exact offset_of_refuse h
  · intro t more more' h
    obtain ⟨offset, token⟩ := t
    cases token with
    | word name =>
      simp only [methodName] at h ⊢
      split at h
      next => exact h
      next =>
        split at h
        next hn => cases h; rw [if_pos hn]
        next => cases h
    | _ => cases h; rfl

/-- A step that is stuck keeps what would follow it from being tried. -/
theorem stuckAt_bind {γ δ : Type} {p : List Placed → Except Fault γ} {k : γ → Except Fault δ}
    {fault : Fault} {before : List Placed} {next : Option Placed}
    (h : StuckAt stop p fault before next) :
    StuckAt stop (fun ts => p ts >>= k) fault before next where
  place := h.place
  always rest hrest := bind_eq_error.mpr (.inl (h.always rest hrest))

/-! ## Tests -/

theorem argument_opening {o : Placed} (ho : o.token = .opening) (ts : List Placed) :
    argument stop (o :: ts) =
      match ts with
      | ⟨_, .text s⟩ :: rest => do
        let rest ← expect stop .closing .closing rest
        return (s, rest)
      | ts => refuse stop .argument ts := by
  have hopening : expect stop .opening .opening (o :: ts) = .ok ts := expect_eq_ok.mpr ⟨o, rfl, ho⟩
  rw [argument, hopening]
  rfl

/-- What stands behind the opening parenthesis of an argument. -/
theorem argument_text {o t : Placed} (ho : o.token = .opening) {s : String}
    (ht : t.token = .text s) (rest : List Placed) :
    argument stop (o :: t :: rest) =
      (expect stop .closing .closing rest).map fun rest => (s, rest) := by
  obtain ⟨offset, _⟩ := t
  obtain rfl := ht
  rw [argument_opening ho]
  show (expect stop .closing .closing rest >>= fun rest => pure (s, rest)) = _
  cases expect stop .closing .closing rest <;> rfl

theorem text_cases (ts : List Placed) :
    (∃ t s rest, ts = t :: rest ∧ t.token = .text s) ∨
      ∀ t ∈ ts.head?, ∀ s, t.token ≠ .text s := by
  cases ts with
  | nil => exact .inr nofun
  | cons t rest =>
    obtain ⟨offset, token⟩ := t
    cases token with
    | text s => exact .inl ⟨_, s, rest, rfl, rfl⟩
    | _ =>
      refine .inr ?_
      rintro _ ⟨⟩ s
      exact nofun

/-- Where no text stands behind the opening parenthesis. -/
theorem argument_no_text {o : Placed} (ho : o.token = .opening) {ts : List Placed}
    (hts : ∀ t ∈ ts.head?, ∀ s, t.token ≠ .text s) :
    argument stop (o :: ts) = refuse stop .argument ts := by
  rw [argument_opening ho]
  split
  next offset s rest => exact absurd rfl (hts _ rfl s)
  next => rfl

/-- An argument can go on as long as it is the beginning of one. -/
theorem argument_sticks :
    SticksBehind stop (argument stop)
      fun ks => ∃ s more, ks ++ more = [.opening, .text s, .closing] := by
  intro ts fault h
  obtain hopening | ⟨inner, hopening, -⟩ := bind_eq_error.mp h
  · exact ⟨[], ts, rfl, stuckAt_bind (expect_stuckAt hopening), "", _, rfl⟩
  · obtain ⟨o, rfl, ho⟩ := expect_eq_ok.mp hopening
    obtain ⟨t, s, rest, rfl, ht⟩ | hother := text_cases inner
    · rw [argument_text ho ht, map_eq_error] at h
      have hstuck := expect_stuckAt h
      refine ⟨[o, t], rest, rfl, ⟨hstuck.place, fun rest' hrest' => ?_⟩, s, [.closing],
        by simp [ho, ht]⟩
      exact (argument_text ho ht rest').trans (map_eq_error.mpr (hstuck.always rest' hrest'))
    · rw [argument_no_text ho hother] at h
      refine ⟨[o], inner, rfl, ⟨offset_of_refuse h, fun rest hrest => ?_⟩, "",
        [.text "", .closing], by simp [ho]⟩
      rw [List.singleton_append, argument_no_text ho (hrest ▸ hother), ← h]
      exact refuse_congr hrest

/-- The tokens can go on to those of a test, or have gone wrong at a point. -/
abbrev BeginsTest (ks : List Token) : Prop := Begins (fun _ : Test => True) Test.tokens ks

theorem begins_of_tokens (t : Test) {ks : List Token} (more : List Token)
    (h : t.tokens = ks ++ more) : BeginsTest ks :=
  .inl ⟨t, more, trivial, h⟩

/-- Every field can be compared with something. -/
theorem exists_denotes (field : Field) : ∃ token v, Denotes field token v := by
  cases hn : field.isNumeric with
  | true => exact ⟨.int 0, .int 0, .int 0 hn⟩
  | false =>
    by_cases hf : field = .entryType
    · subst hf
      exact ⟨.text (EntryType.name .error), _, .quotedType EntryType.error.ofName?_name⟩
    · exact ⟨.text "", .text "", .text "" hn hf⟩

variable {name : String} {field : Field}

theorem begins_compare (hname : Field.ofName? name = some field) {op : Comparison}
    (hop : op.Suits field) : BeginsTest [.word name, .compare op] := by
  obtain ⟨token, v, hv⟩ := exists_denotes field
  exact begins_of_tokens (.compare name op token field v hname hop hv) [token] rfl

theorem begins_field (hname : Field.ofName? name = some field) : BeginsTest [.word name] := by
  obtain ⟨token, v, hv⟩ := exists_denotes field
  exact begins_of_tokens (.compare name .eq token field v hname (.inr rfl) hv)
    [.compare .eq, token] rfl

theorem begins_nil : BeginsTest [] := by
  obtain ⟨token, v, hv⟩ := exists_denotes .index
  exact begins_of_tokens (.compare (Field.name .index) .eq token .index v (Field.ofName?_name _)
    (.inr rfl) hv) _ rfl

theorem begins_dot (hname : Field.ofName? name = some field) : BeginsTest [.word name, .dot] := by
  cases hn : field.isNumeric with
  | true => exact .inr ⟨[], name, field, rfl, hname, hn⟩
  | false =>
    exact begins_of_tokens (.method name (TextMethod.name .contains) "" field .contains hname hn
      (TextMethod.ofName?_name _)) _ rfl

theorem test_dot {d : Placed} (hd : d.token = .dot) (ts : List Placed) :
    test stop field (d :: ts) =
      methodName stop field ts >>= fun (m, rest) =>
        (argument stop rest).map fun (s, rest) => (.method field m s, rest) := by
  obtain ⟨offset, _⟩ := d
  obtain rfl := hd
  show (methodName stop field ts >>= _) = _
  refine congrArg _ (funext fun (m, rest) => ?_)
  show (argument stop rest >>= fun x => pure (Expr.method field m x.1, x.2)) =
    (argument stop rest).map fun x => (Expr.method field m x.1, x.2)
  cases argument stop rest <;> rfl

theorem test_compare {o : Placed} {op : Comparison} (ho : o.token = .compare op)
    (ts : List Placed) : test stop field (o :: ts) = comparison stop field op o.offset ts := by
  obtain ⟨offset, _⟩ := o
  obtain rfl := ho
  rfl

theorem test_cases (ts : List Placed) :
    (∃ d rest, ts = d :: rest ∧ d.token = .dot) ∨
      (∃ o op rest, ts = o :: rest ∧ o.token = .compare op) ∨
      ∀ rest : List Placed, rest.head? = ts.head? → ∀ stop field,
        test stop field rest = refuse stop .operator rest := by
  cases ts with
  | nil =>
    refine .inr (.inr fun rest hrest stop field => ?_)
    obtain rfl := List.head?_eq_none_iff.mp hrest
    rfl
  | cons t rest =>
    obtain ⟨offset, token⟩ := t
    cases token with
    | dot => exact .inl ⟨_, rest, rfl, rfl⟩
    | compare op => exact .inr (.inl ⟨_, op, rest, rfl, rfl⟩)
    | _ =>
      refine .inr (.inr fun rest' hrest' stop field => ?_)
      obtain ⟨more, rfl⟩ := List.head?_eq_some_iff.mp hrest'
      rfl

/-- A reader that refuses its first token. -/
theorem stuckAt_refuse {γ : Type} {p : List Placed → Except Fault γ} (what : Expectation)
    {ts : List Placed} {fault : Fault}
    (hp : ∀ rest : List Placed, rest.head? = ts.head? → p rest = refuse stop what rest)
    (h : p ts = .error fault) : StuckAt stop p fault [] ts.head? := by
  rw [hp ts rfl] at h
  refine ⟨offset_of_refuse h, fun rest hrest => ?_⟩
  rw [List.nil_append, hp rest hrest, refuse_congr hrest, h]

/-- A reader that takes one more token before. -/
theorem stuckAt_cons {γ δ : Type} {p : List Placed → Except Fault γ}
    {q : List Placed → Except Fault δ} {fault : Fault} {before : List Placed}
    {next : Option Placed} {t : Placed} (h : StuckAt stop p fault before next)
    (hq : ∀ ts, p ts = .error fault → q (t :: ts) = .error fault) :
    StuckAt stop q fault (t :: before) next where
  place := h.place
  always rest hrest := hq _ (h.always rest hrest)

theorem comparison_sticks (hname : Field.ofName? name = some field) {o : Placed}
    {op : Comparison} (ho : o.token = .compare op) {ts : List Placed} {fault : Fault}
    (h : comparison stop field op o.offset ts = .error fault) :
    ∃ before rest, o :: ts = before ++ rest ∧
      StuckAt stop (test stop field) fault before rest.head? ∧
      BeginsTest (.word name :: kinds before) := by
  unfold comparison at h
  split at h
  next hop =>
    -- the operator is refused before the literal is looked at
    refine ⟨[], o :: ts, rfl, ⟨by cases h; rfl, fun rest hrest => ?_⟩, begins_field hname⟩
    obtain ⟨more, rfl⟩ := List.head?_eq_some_iff.mp hrest
    rw [List.nil_append, test_compare ho, comparison, if_pos hop, h]
  next hop =>
    have hsuits : op.Suits field := by
      cases hn : field.isNumeric <;> simp_all [Comparison.Suits]
    have hliteral := literal_stuckAt (map_eq_error.mp h)
    refine ⟨[o], ts, rfl, stuckAt_cons hliteral fun rest hrest => ?_, ?_⟩
    · rw [test_compare ho, comparison, if_neg hop]
      exact map_eq_error.mpr hrest
    · rw [kinds_cons, ho]
      exact begins_compare hname hsuits

/-- What can go on is told with the name of the field in front. -/
theorem test_sticks (hname : Field.ofName? name = some field) :
    SticksBehind stop (test stop field) fun ks => BeginsTest (.word name :: ks) := by
  intro ts fault h
  obtain ⟨d, rest, rfl, hd⟩ | ⟨o, op, rest, rfl, ho⟩ | hother := test_cases ts
  · rw [test_dot hd] at h
    obtain hm | ⟨⟨m, behind⟩, hm, hargument⟩ := bind_eq_error.mp h
    · refine ⟨[d], rest, rfl, stuckAt_cons (methodName_stuckAt hm) fun ts hts => ?_, ?_⟩
      · rw [test_dot hd]
        exact bind_eq_error.mpr (.inl hts)
      · rw [kinds_cons, hd]
        exact begins_dot hname
    · obtain ⟨t, spelled, rfl, ht, hspelled, htextual⟩ := methodName_eq_ok.mp hm
      obtain ⟨before, rest, rfl, hstuck, s, more, hmore⟩ :=
        argument_sticks behind fault (map_eq_error.mp hargument)
      have htaken (ts : List Placed) : methodName stop field (t :: ts) = .ok (m, ts) :=
        methodName_eq_ok.mpr ⟨t, spelled, rfl, ht, hspelled, htextual⟩
      refine ⟨d :: t :: before, rest, rfl, ?_, ?_⟩
      · refine ⟨hstuck.place, fun rest' hrest' => ?_⟩
        rw [List.cons_append, List.cons_append, test_dot hd, htaken]
        exact map_eq_error.mpr (hstuck.always rest' hrest')
      · refine begins_of_tokens (.method name spelled s field m hname htextual hspelled) more ?_
        simp [Test.tokens, hd, ht, hmore]
  · exact comparison_sticks hname ho ((test_compare ho rest).symm.trans h)
  · exact ⟨[], ts, rfl, stuckAt_refuse .operator (fun rest hrest => hother rest hrest stop field) h,
      begins_field hname⟩

theorem predicate_word {t : Placed} (ht : t.token = .word name)
    (hname : Field.ofName? name = some field) (ts : List Placed) :
    predicate stop (t :: ts) = test stop field ts := by
  obtain ⟨offset, _⟩ := t
  obtain rfl := ht
  simp only [predicate, hname]

/-- A test can go on as long as it is the beginning of one. -/
theorem predicate_sticks : SticksBehind stop (predicate stop) BeginsTest := by
  intro ts fault h
  cases ts with
  | nil =>
    refine ⟨[], [], rfl, ⟨offset_of_refuse h, fun rest hrest => ?_⟩, begins_nil⟩
    obtain rfl := List.head?_eq_none_iff.mp hrest
    exact h
  | cons t ts =>
    obtain ⟨offset, token⟩ := t
    cases token with
    | word name =>
      cases hname : Field.ofName? name with
      | none =>
        refine ⟨[], _, rfl, ⟨?_, fun rest hrest => ?_⟩, begins_nil⟩
        · simp only [predicate, hname] at h
          cases h
          rfl
        · obtain ⟨more, rfl⟩ := List.head?_eq_some_iff.mp hrest
          simp only [List.nil_append, predicate, hname] at h ⊢
          exact h
      | some field =>
        rw [predicate_word rfl hname] at h
        obtain ⟨before, rest, rfl, hstuck, hbegins⟩ := test_sticks hname ts fault h
        refine ⟨_ :: before, rest, rfl, stuckAt_cons hstuck fun ts hts => ?_, hbegins⟩
        rw [predicate_word rfl hname, hts]
    | _ =>
      refine ⟨[], _, rfl, stuckAt_refuse .operand (fun rest hrest => ?_) h, begins_nil⟩
      obtain ⟨more, rfl⟩ := List.head?_eq_some_iff.mp hrest
      rfl

end Expr
end LogWatch.Filter
