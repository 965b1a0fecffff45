import LogWatch.Proofs.Filter.Compiling
import LogWatch.Proofs.Filter.Refusal.Test

/-!
# Where reading a filter stops

Like a test, an operand, a chain and a whole filter fail at the first token that nothing can go on
with: what stands before it can be completed, by what is left of a test or an operand and by
closing all parentheses.

    Tokens.ofText s = .ok ts → compile s = .error r →
      r points at the first token of ts up to which no filter starts    (refused_at_first_dead_end)
-/

namespace LogWatch.Filter
namespace Expr

variable {stop : Nat}

/-! ## Chains -/

section Chains

variable {α : Type} {p : Reader Expr} {Ok : α → Prop} {f : α → List Token} {g : α → Expr}
  {stops : List Token} {joiner : Token}

/-- As many operands as tokens are never too few. -/
theorem joined_congr (hp : Reads p Ok f g stops) {n m : Nat} {ts : List Placed}
    (hn : ts.length ≤ n) (hm : ts.length ≤ m) : joined joiner p n ts = joined joiner p m ts := by
  induction n generalizing m ts with
  | zero =>
    obtain rfl := List.length_eq_zero_iff.mp (Nat.le_zero.mp hn)
    cases m <;> rfl
  | succ n ih =>
    cases ts with
    | nil => cases m <;> rfl
    | cons t ts =>
      rw [List.length_cons] at hn hm
      obtain ⟨m, rfl⟩ : ∃ k, m = k + 1 := ⟨m - 1, by omega⟩
      rw [joined, joined]
      split
      next ht =>
        cases hfirst : p ts with
        | error fault => rfl
        | ok result =>
          obtain ⟨e, rest⟩ := result
          obtain ⟨a, front, -, rfl, -⟩ := (hp _ _ _).mp hfirst
          rw [List.length_append] at hn hm
          have hrest : joined joiner p n rest = joined joiner p m rest :=
            ih (by omega) (by omega)
          exact congrArg (· >>= fun x => pure (e :: x.1, x.2)) hrest
      next => rfl

/-- The operands behind the first one. -/
def allJoined (joiner : Token) (p : Reader Expr) : Reader (List Expr) :=
  fun ts => joined joiner p ts.length ts

theorem allJoined_cons_eq_error (hp : Reads p Ok f g stops) {t : Placed} (ht : t.token = joiner)
    {ts : List Placed} {fault : Fault} :
    allJoined joiner p (t :: ts) = .error fault ↔
      p ts = .error fault ∨ ∃ e rest, p ts = .ok (e, rest) ∧
        allJoined joiner p rest = .error fault := by
  rw [allJoined, List.length_cons, joined, if_pos ht, bind_eq_error, Prod.exists]
  refine or_congr_right (exists_congr fun e => exists_congr fun rest => and_congr_right ?_)
  intro hfirst
  obtain ⟨a, front, -, rfl, -⟩ := (hp _ _ _).mp hfirst
  show (joined joiner p (front ++ rest).length rest >>= _) = _ ↔ _
  rw [joined_congr hp (by simp) Nat.le.refl]
  exact bind_ok_eq_error fun _ => ⟨_, rfl⟩

theorem chain_eq_error {node : List Expr → Expr} {ts : List Placed} {fault : Fault} :
    chain joiner node p ts = .error fault ↔
      p ts = .error fault ∨ ∃ e rest, p ts = .ok (e, rest) ∧
        allJoined joiner p rest = .error fault := by
  rw [chain, bind_eq_error, Prod.exists]
  refine or_congr_right (exists_congr fun e => exists_congr fun rest => and_congr_right fun _ => ?_)
  exact bind_ok_eq_error fun _ => ⟨_, rfl⟩

/-- An operand is read the same whatever stands behind a joiner. -/
theorem reads_before_joiner (hp : Reads p Ok f g stops) (hjoiner : joiner ∉ stops) {a : α}
    (ha : Ok a) {front before : List Placed} (hfront : kinds front = f a) {ks : List Token}
    (hbefore : kinds before = joiner :: ks) (rest : List Placed) :
    p (front ++ (before ++ rest)) = .ok (g a, before ++ rest) := by
  refine (hp _ _ _).mpr ⟨a, front, ha, rfl, hfront, rfl, ?_⟩
  rw [kinds_append, hbefore]
  exact apart_cons.mpr hjoiner

/-- The operands behind the first one fail behind a joiner only. -/
theorem joined_sticks (hp : Reads p Ok f g stops) (hjoiner : joiner ∉ stops)
    (hsticks : SticksBehind stop p (Begins Ok f)) :
    SticksBehind stop (allJoined joiner p) fun ks => (∃ behind, ks = joiner :: behind) ∧
      Begins (fun as : List α => ∀ a ∈ as, Ok a) (joinedTokens joiner f) ks := by
  intro ts fault h
  induction hn : ts.length using Nat.strongRecOn generalizing ts with
  | ind n ih =>
    cases ts with
    | nil => cases h
    | cons t ts =>
      by_cases ht : t.token = joiner
      · obtain hfirst | ⟨e, behind, hfirst, hmore⟩ := (allJoined_cons_eq_error hp ht).mp h
        · obtain ⟨before, rest, rfl, hstuck, hbegins⟩ := hsticks ts fault hfirst
          refine ⟨t :: before, rest, rfl, stuckAt_cons hstuck fun ts hts => ?_,
            ⟨kinds before, by simp [ht]⟩, ?_⟩
          · exact (allJoined_cons_eq_error hp ht).mpr (.inl hts)
          · rw [kinds_cons, ht]
            refine hbegins.within [joiner] fun a ha => ⟨[a], [], ?_, ?_⟩
            · exact List.forall_mem_singleton.mpr ha
            · simp [joinedTokens]
        · obtain ⟨a, front, ha, rfl, hfront, rfl, -⟩ := (hp _ _ _).mp hfirst
          have hshort : behind.length < n := by
            rw [List.length_cons, List.length_append] at hn
            omega
          obtain ⟨before, rest, rfl, hstuck, ⟨ks, hks⟩, hbegins⟩ :=
            ih _ hshort behind hmore rfl
          refine ⟨t :: (front ++ before), rest, by simp, ⟨hstuck.place, fun rest' hrest' => ?_⟩,
            ⟨kinds (front ++ before), by simp [ht]⟩, ?_⟩
          · rw [List.cons_append, List.append_assoc]
            exact (allJoined_cons_eq_error hp ht).mpr
              (.inr ⟨g a, _, reads_before_joiner hp hjoiner ha hfront hks rest',
                hstuck.always rest' hrest'⟩)
          · rw [kinds_cons, kinds_append, ht, hfront]
            refine hbegins.within (joiner :: f a) fun as has => ⟨a :: as, [], ?_, ?_⟩
            · exact List.forall_mem_cons.mpr ⟨ha, has⟩
            · simp [joinedTokens]
      · rw [allJoined, List.length_cons, joined, if_neg ht] at h
        cases h

theorem chain_sticks (joiner : Token) (node : List Expr → Expr) (hp : Reads p Ok f g stops)
    (hjoiner : joiner ∉ stops) (hsticks : SticksBehind stop p (Begins Ok f)) :
    SticksBehind stop (chain joiner node p)
      (Begins (Chain.All Ok) fun c => (c.map f).joined joiner) := by
  intro ts fault h
  obtain hfirst | ⟨e, behind, hfirst, hmore⟩ := chain_eq_error.mp h
  · obtain ⟨before, rest, rfl, hstuck, hbegins⟩ := hsticks ts fault hfirst
    refine ⟨before, rest, rfl, stuckAt_bind hstuck, ?_⟩
    exact hbegins.within [] fun a ha => ⟨.one a, [], ha, by simp [Chain.map, Chain.joined]⟩
  · obtain ⟨a, front, ha, rfl, hfront, rfl, -⟩ := (hp _ _ _).mp hfirst
    obtain ⟨before, rest, rfl, hstuck, ⟨ks, hks⟩, hbegins⟩ :=
      joined_sticks hp hjoiner hsticks behind fault hmore
    refine ⟨front ++ before, rest, by simp, ⟨hstuck.place, fun rest' hrest' => ?_⟩, ?_⟩
    · rw [List.append_assoc]
      exact chain_eq_error.mpr (.inr ⟨g a, _,
        reads_before_joiner hp hjoiner ha hfront hks rest', hstuck.always rest' hrest'⟩)
    · rw [kinds_append, hfront]
      refine hbegins.within (f a) fun as has => ⟨.start a as, [], Chain.all_start.mpr ⟨ha, has⟩, ?_⟩
      rw [Chain.joined_map_start, List.append_nil]
      rfl

end Chains

/-! ## Operands -/

theorem disjunction_sticks {p : Reader Expr} {n : Nat}
    (hp : Reads p (fun o => o.nesting ≤ n) Operand.tokens Operand.tree [])
    (hsticks : SticksBehind stop p (Begins (fun o => o.nesting ≤ n) Operand.tokens)) :
    SticksBehind stop (disjunction p) (Begins (fun d => d.nesting ≤ n) Derivation.tokens) := by
  have hd := chain_sticks .or .or (chain_reads .and .and hp (by simp)) (by simp)
    (chain_sticks .and .and hp (by simp) hsticks)
  simp only [Derivation.nesting_le]
  exact hd

/-- Every test is an operand, however few levels are left. -/
theorem begins_operand {n : Nat} {ks : List Token} (h : BeginsTest ks) :
    Begins (fun o => o.nesting ≤ n) Operand.tokens ks :=
  h.within [] fun t _ => ⟨.test t, [], n.zero_le, (List.append_nil _).symm⟩

theorem begins_not {n : Nat} {ks : List Token}
    (h : Begins (fun o => o.nesting ≤ n) Operand.tokens ks) :
    Begins (fun o => o.nesting ≤ n + 1) Operand.tokens (.not :: ks) :=
  h.within [.not] fun o ho =>
    ⟨.not o, [], Nat.succ_le_succ ho, by rw [Operand.tokens_not, List.append_nil]; rfl⟩

theorem begins_group {n : Nat} {ks : List Token}
    (h : Begins (fun d => d.nesting ≤ n) Derivation.tokens ks) :
    Begins (fun o => o.nesting ≤ n + 1) Operand.tokens (.opening :: ks) := by
  refine h.within [.opening] fun d hd => ⟨.group d, [.closing], ?_, ?_⟩
  · rw [Operand.nesting_group]
    exact Nat.succ_le_succ hd
  · rw [Operand.tokens_group]
    rfl

theorem operand_not_eq_error {n offset : Nat} {ts : List Placed} {fault : Fault} :
    operand stop (n + 1) (⟨offset, .not⟩ :: ts) = .error fault ↔
      operand stop n ts = .error fault :=
  bind_ok_eq_error fun _ => ⟨_, rfl⟩

theorem operand_opening_eq_error {n offset : Nat} {ts : List Placed} {fault : Fault} :
    operand stop (n + 1) (⟨offset, .opening⟩ :: ts) = .error fault ↔
      disjunction (operand stop n) ts = .error fault ∨
        ∃ e rest, disjunction (operand stop n) ts = .ok (e, rest) ∧
          expect stop .closing .closing rest = .error fault := by
  show (disjunction (operand stop n) ts >>= _) = _ ↔ _
  rw [bind_eq_error, Prod.exists]
  refine or_congr_right (exists_congr fun e => exists_congr fun rest => and_congr_right fun _ => ?_)
  exact bind_ok_eq_error fun _ => ⟨_, rfl⟩

theorem apart_congr {stops : List Token} {ts us : List Placed} (h : us.head? = ts.head?) :
    Apart stops (kinds us) ↔ Apart stops (kinds ts) := by
  unfold Apart kinds
  rw [List.head?_map, List.head?_map, h]

/-- What is read up to `rest` is read up to whatever starts as `rest` does. -/
theorem reads_congr {α β : Type} {p : Reader β} {Ok : α → Prop} {f : α → List Token} {g : α → β}
    {stops : List Token} (hp : Reads p Ok f g stops) {front rest rest' : List Placed} {b : β}
    (h : p (front ++ rest) = .ok (b, rest)) (hrest : rest'.head? = rest.head?) :
    p (front ++ rest') = .ok (b, rest') := by
  obtain ⟨a, front', ha, hfront', ht, rfl, hapart⟩ := (hp _ _ _).mp h
  obtain rfl := List.append_cancel_right hfront'
  exact (hp _ _ _).mpr ⟨a, front, ha, rfl, ht, rfl, (apart_congr hrest).mpr hapart⟩

theorem head?_append_congr {ts us : List Placed} (h : us.head? = ts.head?) (before : List Placed) :
    (before ++ us).head? = (before ++ ts).head? := by
  rw [List.head?_append, List.head?_append, h]

/-- The ways in which an operand is refused. -/
abbrev OperandStuck (stop n : Nat) (ts : List Placed) (fault : Fault) : Prop :=
  ∃ before rest, ts = before ++ rest ∧ StuckAt stop (operand stop n) fault before rest.head? ∧
    Begins (fun o => o.nesting ≤ n) Operand.tokens (kinds before)

/-- No level is left for a `Not` or a parenthesis. -/
theorem stuck_at_limit {t : Placed}
    (ht : ∀ ts, operand stop 0 (t :: ts) = .error ⟨t.offset, .tooDeep⟩) (ts : List Placed) :
    OperandStuck stop 0 (t :: ts) ⟨t.offset, .tooDeep⟩ := by
  refine ⟨[], t :: ts, rfl, ⟨rfl, fun rest hrest => ?_⟩, begins_operand begins_nil⟩
  obtain ⟨more, rfl⟩ := List.head?_eq_some_iff.mp hrest
  exact ht more

theorem stuck_in_test {n : Nat} {ts : List Placed} {fault : Fault}
    (hother : Apart [.not, .opening] (kinds ts)) (h : operand stop n ts = .error fault) :
    OperandStuck stop n ts fault := by
  rw [operand_of_apart hother] at h
  obtain ⟨before, rest, rfl, hstuck, hbegins⟩ := predicate_sticks ts fault h
  refine ⟨before, rest, rfl, ⟨hstuck.place, fun rest' hrest' => ?_⟩, begins_operand hbegins⟩
  rw [operand_of_apart ((apart_congr (head?_append_congr hrest' before)).mpr hother)]
  exact hstuck.always rest' hrest'

theorem stuck_in_not {n offset : Nat} {ts : List Placed} {fault : Fault}
    (h : OperandStuck stop n ts fault) :
    OperandStuck stop (n + 1) (⟨offset, .not⟩ :: ts) fault := by
  obtain ⟨before, rest, rfl, hstuck, hbegins⟩ := h
  exact ⟨_ :: before, rest, rfl, stuckAt_cons hstuck fun _ => operand_not_eq_error.mpr,
    begins_not hbegins⟩

theorem stuck_in_group {n offset : Nat} {ts : List Placed} {fault : Fault}
    (hsticks : SticksBehind stop (operand stop n) (Begins (fun o => o.nesting ≤ n) Operand.tokens))
    (h : operand stop (n + 1) (⟨offset, .opening⟩ :: ts) = .error fault) :
    OperandStuck stop (n + 1) (⟨offset, .opening⟩ :: ts) fault := by
  have hoperands := readsOperands stop n
  have hreads := disjunction_reads hoperands
  obtain hterm | ⟨e, rest, hterm, hclosing⟩ := operand_opening_eq_error.mp h
  · obtain ⟨before, rest, rfl, hstuck, hbegins⟩ :=
      disjunction_sticks hoperands hsticks ts fault hterm
    exact ⟨_ :: before, rest, rfl,
      stuckAt_cons hstuck fun _ h => operand_opening_eq_error.mpr (.inl h), begins_group hbegins⟩
  · obtain ⟨d, front, hd, rfl, hfront, -, -⟩ := (hreads _ _ _).mp hterm
    have hstuck := expect_stuckAt hclosing
    refine ⟨_ :: front, rest, rfl, ⟨hstuck.place, fun rest' hrest' => ?_⟩, ?_⟩
    · exact operand_opening_eq_error.mpr
        (.inr ⟨e, rest', reads_congr hreads hterm hrest', hstuck.always rest' hrest'⟩)
    · rw [kinds_cons, hfront]
      exact begins_group (.inl ⟨d, [], hd, (List.append_nil _).symm⟩)

/-- An operand can go on with what is left of it and all parentheses closed. -/
theorem operand_sticks (stop n : Nat) :
    SticksBehind stop (operand stop n) (Begins (fun o => o.nesting ≤ n) Operand.tokens) := by
  induction n with
  | zero =>
    intro ts fault h
    obtain ⟨offset, inner, rfl⟩ | ⟨offset, inner, rfl⟩ | hother := operand_cases ts
    · obtain rfl := Except.error.inj h
      exact stuck_at_limit (fun _ => rfl) inner
    · obtain rfl := Except.error.inj h
      exact stuck_at_limit (fun _ => rfl) inner
    · exact stuck_in_test hother h
  | succ n ih =>
    intro ts fault h
    obtain ⟨offset, inner, rfl⟩ | ⟨offset, inner, rfl⟩ | hother := operand_cases ts
    · exact stuck_in_not (ih inner fault (operand_not_eq_error.mp h))
    · exact stuck_in_group ih h
    · exact stuck_in_test hother h

/-! ## Whole filters -/

theorem ofTokens_eq_error {items : List Placed} {fault : Fault} :
    ofTokens ⟨items, stop⟩ = .error fault ↔
      disjunction (operand stop nestingLimit) items = .error fault ∨
        ∃ e t rest, disjunction (operand stop nestingLimit) items = .ok (e, t :: rest) ∧
          refuse (α := Expr) stop .connective (t :: rest) = .error fault := by
  show (disjunction (operand stop nestingLimit) items >>= _) = _ ↔ _
  rw [bind_eq_error, Prod.exists]
  refine or_congr_right (exists_congr fun e => ?_)
  constructor
  · rintro ⟨rest, hterm, hrest⟩
    cases rest with
    | nil => cases hrest
    | cons t rest => exact ⟨t, rest, hterm, hrest⟩
  · rintro ⟨t, rest, hterm, hrest⟩
    exact ⟨t :: rest, hterm, hrest⟩

/-- A filter can go on with what is left of it, all parentheses closed. -/
theorem ofTokens_sticks (stop : Nat) :
    SticksBehind stop (fun items => ofTokens ⟨items, stop⟩)
      (Begins (fun d => d.nesting ≤ nestingLimit) Derivation.tokens) := by
  intro items fault h
  have hoperands := readsOperands stop nestingLimit
  have hreads := disjunction_reads hoperands
  obtain hterm | ⟨e, t, rest, hterm, hrefused⟩ := ofTokens_eq_error.mp h
  · obtain ⟨before, rest, rfl, hstuck, hbegins⟩ :=
      disjunction_sticks hoperands (operand_sticks stop nestingLimit) items fault hterm
    refine ⟨before, rest, rfl, ⟨hstuck.place, fun rest' hrest' => ?_⟩, hbegins⟩
    exact ofTokens_eq_error.mpr (.inl (hstuck.always rest' hrest'))
  · obtain ⟨d, front, hd, rfl, hfront, -, -⟩ := (hreads _ _ _).mp hterm
    refine ⟨front, t :: rest, rfl, ⟨offset_of_refuse hrefused, fun rest' hrest' => ?_⟩, ?_⟩
    · obtain ⟨more, rfl⟩ := List.head?_eq_some_iff.mp hrest'
      refine ofTokens_eq_error.mpr (.inr ⟨e, t, more, reads_congr hreads hterm hrest', ?_⟩)
      rw [← hrefused]
      rfl
    · exact .inl ⟨d, [], hd, by rw [hfront, List.append_nil]⟩

end Expr

/-! ## Sequences of tokens -/

/-- Tokens of these kinds are read as a filter, wherever they stand. -/
def Accepted (ks : List Token) : Prop :=
  ∃ (ts : Tokens) (e : Expr), kinds ts.items = ks ∧ Expr.ofTokens ts = .ok e

/-- The offsets of the tokens and of the end. -/
def Tokens.offsets (ts : Tokens) : List Nat := ts.items.map Placed.offset ++ [ts.stop]

/-- Tokens and the end behind them. -/
def ended (ks : List Token) : List (Option Token) := ks.map some ++ [none]

/-- Tokens of any kinds can be placed. -/
theorem kinds_placed (ks : List Token) : kinds (ks.map (Placed.mk 0)) = ks := by
  rw [kinds, List.map_map]
  exact List.map_id ks

theorem exists_placed (next : Option Placed) {ks : List Token}
    (h : ks.head? = next.map Placed.token) : ∃ rest, kinds rest = ks ∧ rest.head? = next := by
  cases next with
  | none => exact ⟨[], (List.head?_eq_none_iff.mp h).symm, rfl⟩
  | some t =>
    obtain ⟨more, rfl⟩ := List.head?_eq_some_iff.mp h
    exact ⟨t :: more.map (Placed.mk 0), by rw [kinds_cons, kinds_placed], rfl⟩

/-- Where the tokens stand makes no difference. -/
theorem accepted_iff {ks : List Token} :
    Accepted ks ↔ ∃ d : Derivation, d.tokens = ks ∧ d.nesting ≤ nestingLimit := by
  constructor
  · rintro ⟨ts, e, rfl, h⟩
    obtain ⟨d, hd, hn, -⟩ := Expr.ofTokens_eq_ok.mp h
    exact ⟨d, hd, hn⟩
  · rintro ⟨d, rfl, hn⟩
    have hitems := kinds_placed d.tokens
    exact ⟨⟨_, 0⟩, d.tree, hitems, Expr.ofTokens_eq_ok.mpr ⟨d, hitems.symm, hn, rfl⟩⟩

/-- What stands behind tokens up to one of them, or the end. -/
theorem exists_behind {front ks : List Token} {next : Option Token}
    (h : front.map some ++ [next] <+: ended ks) :
    ∃ behind, ks = front ++ behind ∧ behind.head? = next := by
  induction front generalizing ks with
  | nil =>
    refine ⟨ks, rfl, ?_⟩
    cases ks with
    | nil => exact (List.cons_prefix_cons.mp h).1.symm
    | cons k ks => exact (List.cons_prefix_cons.mp h).1.symm
  | cons t front ih =>
    cases ks with
    | nil => cases (List.cons_prefix_cons.mp h).1
    | cons k ks =>
      obtain ⟨hk, hks⟩ := List.cons_prefix_cons.mp h
      obtain ⟨behind, rfl, hbehind⟩ := ih hks
      exact ⟨behind, by rw [Option.some.inj hk]; rfl, hbehind⟩

theorem take_ended_kinds (before rest : List Placed) :
    (ended (kinds (before ++ rest))).take (before.length + 1) =
      (kinds before).map some ++ [rest.head?.map Placed.token] := by
  cases rest <;> simp [ended, kinds, List.take_append, List.take_of_length_le]

theorem offsets_getElem?_length (before rest : List Placed) (stop : Nat) :
    (Tokens.offsets ⟨before ++ rest, stop⟩)[before.length]? = some (placeOf stop rest.head?) := by
  cases rest <;> simp [Tokens.offsets, placeOf]

theorem ofTokens_of_compile {s : String} {ts : Tokens} {r : Refusal}
    (hs : Tokens.ofText s = .ok ts) (h : compile s = .error r) :
    Expr.ofTokens ts = .error r.fault := by
  cases hblank : Text.isBlankText s with
  | true =>
    rw [compile, hblank] at h
    cases h
  | false =>
    rw [compile_eq hblank, hs, mapError_eq_error] at h
    obtain ⟨fault, hfault, rfl⟩ := h
    exact map_eq_error.mp hfault

/-! ## Top theorem -/

/-- A filter text whose tokens are not a filter is refused at one of its tokens, or at its end:
nothing that starts with the tokens up to this one is a filter, and something that starts with the
tokens before it is, unless these end in a numeric field and a point. -/
theorem refused_at_first_dead_end {s : String} {ts : Tokens} {r : Refusal}
    (hs : Tokens.ofText s = .ok ts) (h : compile s = .error r) :
    ∃ k, ts.offsets[k]? = some r.fault.offset ∧
      (∀ ks, Accepted ks → ¬(ended (kinds ts.items)).take (k + 1) <+: ended ks) ∧
      (EndsInNumberDot ((kinds ts.items).take k) ∨
        ∃ ks, Accepted ks ∧ (kinds ts.items).take k <+: ks) := by
  obtain ⟨items, stop⟩ := ts
  obtain ⟨before, rest, rfl, hstuck, hbegins⟩ :=
    Expr.ofTokens_sticks stop items r.fault (ofTokens_of_compile hs h)
  refine ⟨before.length, ?_, ?_, ?_⟩
  · rw [offsets_getElem?_length, hstuck.place]
  · intro ks hks hprefix
    rw [take_ended_kinds] at hprefix
    obtain ⟨behind, rfl, hnext⟩ := exists_behind hprefix
    obtain ⟨rest', rfl, hrest'⟩ := exists_placed _ hnext
    obtain ⟨d, hd, hn⟩ := accepted_iff.mp hks
    -- the same tokens at the places of this text are read as well
    have hread : Expr.ofTokens ⟨before ++ rest', stop⟩ = .ok d.tree :=
      Expr.ofTokens_eq_ok.mpr ⟨d, by rw [hd, kinds_append], hn, rfl⟩
    cases hread.symm.trans (hstuck.always rest' hrest')
  · have hfront : (kinds (before ++ rest)).take before.length = kinds before := by
      rw [kinds_append]
      exact List.take_left' (List.length_map _)
    rw [hfront]
    obtain ⟨d, more, hd, hmore⟩ | hdot := hbegins
    · exact .inr ⟨d.tokens, accepted_iff.mpr ⟨d, rfl, hd⟩, more, hmore.symm⟩
    · exact .inl hdot

/-- A closing parenthesis is missing: the field in its place is the first token that is one too
many. -/
theorem refused_at_missing_parenthesis :
    let s := "Not (Index > 5 Message"
    let ts : Tokens := ⟨[⟨0, .not⟩, ⟨4, .opening⟩, ⟨5, .word "Index"⟩, ⟨11, .compare .gt⟩,
      ⟨13, .int 5⟩, ⟨15, .word "Message"⟩], 22⟩
    let r : Refusal := ⟨s, 15, .expected .closing (some (.word "Message"))⟩
    Tokens.ofText s = .ok ts ∧ compile s = .error r ∧
      (∀ ks, Accepted ks → ¬(ended (kinds ts.items)).take 6 <+: ended ks) ∧
      (EndsInNumberDot ((kinds ts.items).take 5) ∨
        ∃ ks, Accepted ks ∧ (kinds ts.items).take 5 <+: ks) := by
  intro s ts r
  have hs : Tokens.ofText s = .ok ts := toOption_eq_some.mp (by decide +kernel)
  have hr : compile s = .error r := by
    rw [compile, if_neg (by decide), hs]
    rfl
  obtain ⟨k, hk, hdead, halive⟩ := refused_at_first_dead_end hs hr
  have hfive : k = 5 := by
    obtain _ | _ | _ | _ | _ | _ | _ | k := k <;> simp_all [Tokens.offsets, ts, r]
  subst hfive
  exact ⟨hs, hr, hdead, halive⟩

end LogWatch.Filter
