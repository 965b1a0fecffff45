import LogWatch.Proofs.Delivery.News

/-!
# Positions of selected events

Which events a filter selects is said by their positions in the list: an event is selected if the
filter accepts it and, with a cap, fewer events before it are accepted than the cap has room for.
Selecting, and then walking on only while the selected events pass a test, gives exactly the items
at such positions, in the order of the list.

    f.select cap events = itemsAt events (f.Selects cap events)                  (select_eq_itemsAt)
    (itemsAt xs P).takeWhile p = itemsAt xs (UpTo P p xs)                       (takeWhile_itemsAt)
-/

namespace LogWatch

section Items

variable {α : Type} {p : α → Bool} {xs : List α} {P Q : Nat → Prop} [DecidablePred P]
  [DecidablePred Q]

/-- The items at some positions, in the order of the list. -/
def itemsAt (xs : List α) (P : Nat → Prop) [DecidablePred P] : List α :=
  ((List.range xs.length).filter fun i => P i).filterMap (xs[·]?)

theorem itemsAt_nil : itemsAt ([] : List α) P = [] := rfl

theorem itemsAt_cons (x : α) (xs : List α) :
    itemsAt (x :: xs) P = (if P 0 then [x] else []) ++ itemsAt xs fun i => P (i + 1) := by
  unfold itemsAt
  rw [List.length_cons, List.range_succ_eq_map, List.filter_cons, List.filter_map]
  have hrest (is : List Nat) :
      (is.map Nat.succ).filterMap ((x :: xs)[·]?) = is.filterMap (xs[·]?) := by
    rw [List.filterMap_map]
    rfl
  by_cases h : P 0
  · simp only [h, decide_true, if_true, List.filterMap_cons, List.getElem?_cons_zero, hrest]
    rfl
  · simp only [h, decide_false, Bool.false_eq_true, if_false, hrest]
    rfl

/-- Only positions in the list count. -/
theorem itemsAt_congr (h : ∀ i x, xs[i]? = some x → (P i ↔ Q i)) :
    itemsAt xs P = itemsAt xs Q := by
  unfold itemsAt
  rw [List.filter_congr fun i hi => ?_]
  have hlt := List.mem_range.mp hi
  simp only [h i xs[i] (List.getElem?_eq_getElem hlt)]

theorem filter_itemsAt (xs : List α) (P : Nat → Prop) [DecidablePred P] :
    (itemsAt xs P).filter p = itemsAt xs fun i => P i ∧ ∃ x ∈ xs[i]?, p x = true := by
  induction xs generalizing P with
  | nil => rfl
  | cons x xs ih =>
    rw [itemsAt_cons, itemsAt_cons, List.filter_append, ih]
    congr 1
    by_cases h0 : P 0 <;> by_cases hx : p x = true <;> simp [h0, hx]

theorem mem_itemsAt {x : α} : x ∈ itemsAt xs P ↔ ∃ i, P i ∧ xs[i]? = some x := by
  unfold itemsAt
  simp only [List.mem_filterMap, List.mem_filter, List.mem_range, decide_eq_true_iff]
  constructor
  · rintro ⟨i, ⟨-, hi⟩, hx⟩
    exact ⟨i, hi, hx⟩
  · rintro ⟨i, hi, hx⟩
    obtain ⟨hlt, -⟩ := List.getElem?_eq_some_iff.mp hx
    exact ⟨i, ⟨hlt, hi⟩, hx⟩

/-- The test has not failed at any of the positions up to this one. -/
def UpTo (P : Nat → Prop) (p : α → Bool) (xs : List α) (i : Nat) : Prop :=
  P i ∧ ∀ j ≤ i, P j → ∀ x ∈ xs[j]?, p x = true

instance : DecidablePred (UpTo P p xs) := fun i =>
  inferInstanceAs (Decidable (_ ∧ ∀ j ≤ i, _))

theorem upTo_zero {P : Nat → Prop} {x : α} : UpTo P p (x :: xs) 0 ↔ P 0 ∧ p x = true := by
  constructor
  · exact fun ⟨h0, hall⟩ => ⟨h0, hall 0 (Nat.le_refl 0) h0 x rfl⟩
  · rintro ⟨h0, hx⟩
    refine ⟨h0, fun j hj _ y hy => ?_⟩
    obtain rfl := Nat.le_zero.mp hj
    obtain rfl := Option.some.inj hy
    exact hx

/-- Behind the first item the walk goes on unless the test has failed there. -/
theorem upTo_succ {P : Nat → Prop} {x : α} (i : Nat) : UpTo P p (x :: xs) (i + 1) ↔
    (P 0 → p x = true) ∧ UpTo (fun i => P (i + 1)) p xs i := by
  constructor
  · rintro ⟨hi, hall⟩
    refine ⟨fun h0 => hall 0 (Nat.zero_le _) h0 x rfl, hi, fun j hj hpj y hy => ?_⟩
    exact hall (j + 1) (Nat.succ_le_succ hj) hpj y hy
  · rintro ⟨h0, hi, hall⟩
    refine ⟨hi, fun j hj hpj y hy => ?_⟩
    cases j with
    | zero =>
      obtain rfl := Option.some.inj hy
      exact h0 hpj
    | succ j => exact hall j (Nat.le_of_succ_le_succ hj) hpj y hy

theorem itemsAt_eq_nil (h : ∀ i, ¬P i) : itemsAt xs P = [] := by
  refine List.eq_nil_iff_forall_not_mem.mpr fun x hx => ?_
  obtain ⟨i, hi, -⟩ := mem_itemsAt.mp hx
  exact h i hi

theorem takeWhile_itemsAt (xs : List α) (P : Nat → Prop) [DecidablePred P] :
    (itemsAt xs P).takeWhile p = itemsAt xs (UpTo P p xs) := by
  induction xs generalizing P with
  | nil => rfl
  | cons x xs ih =>
    rw [itemsAt_cons, itemsAt_cons]
    by_cases h0 : P 0
    · by_cases hx : p x = true
      · rw [if_pos h0, if_pos (upTo_zero.mpr ⟨h0, hx⟩), List.singleton_append,
          List.takeWhile_cons, if_pos hx, ih]
        exact congrArg (x :: ·) (itemsAt_congr fun i _ _ => by simp [upTo_succ, hx])
      · have hnone (i : Nat) : ¬UpTo P p (x :: xs) (i + 1) :=
          fun hi => hx (((upTo_succ i).mp hi).1 h0)
        rw [if_pos h0, if_neg (by simp [upTo_zero, hx]), List.singleton_append,
          List.takeWhile_cons, if_neg hx, itemsAt_eq_nil hnone]
        rfl
    · rw [if_neg h0, if_neg (by simp [upTo_zero, h0]), List.nil_append, List.nil_append, ih]
      exact itemsAt_congr fun i _ _ => by simp [upTo_succ, h0]

/-- The first item takes up one place of the cap, if there is any. -/
theorem capped_cons_eq (cap : Option Nat) (x : α) (xs : List α) :
    capped cap (x :: xs) =
      (if ∀ n ∈ cap, 0 < n then [x] else []) ++ capped (cap.map (· - 1)) xs := by
  cases cap with
  | none => simp [capped]
  | some n => cases n <;> simp [capped]

end Items

/-! ## Selected positions -/

namespace Filter

variable {f : Filter} {cap : Option Nat} {events : List Event}

/-- There is an accepted event at the position, and the cap has room for it. -/
def Selects (f : Filter) (cap : Option Nat) (events : List Event) (i : Nat) : Prop :=
  (∃ e ∈ events[i]?, f.accepts e = true) ∧ ∀ n ∈ cap, (events.take i).countP f.accepts < n

instance : DecidablePred (f.Selects cap events) := fun _ =>
  inferInstanceAs (Decidable (_ ∧ _))

theorem selects_zero {e : Event} :
    f.Selects cap (e :: events) 0 ↔ f.accepts e = true ∧ ∀ n ∈ cap, 0 < n := by
  unfold Selects
  simp

/-- An accepted event takes up one place of the cap. -/
theorem selects_succ {e : Event} (i : Nat) :
    f.Selects cap (e :: events) (i + 1) ↔
      f.Selects (if f.accepts e = true then cap.map (· - 1) else cap) events i := by
  unfold Selects
  rw [List.getElem?_cons_succ, List.take_succ_cons, List.countP_cons]
  refine and_congr_right fun _ => ?_
  by_cases he : f.accepts e = true
  · cases cap with
    | none => simp
    | some n =>
      simp only [he, if_true, Option.map_some, Option.mem_some_iff, forall_eq']
      omega
  · simp [he]

theorem select_eq_itemsAt (f : Filter) (cap : Option Nat) (events : List Event) :
    f.select cap events = itemsAt events (f.Selects cap events) := by
  induction events generalizing cap with
  | nil => cases cap <;> simp [select, itemsAt_nil]
  | cons e events ih =>
    have hrest : (itemsAt events fun i => f.Selects cap (e :: events) (i + 1)) =
        f.select (if f.accepts e = true then cap.map (· - 1) else cap) events := by
      rw [ih]
      exact itemsAt_congr fun i _ _ => selects_succ i
    rw [itemsAt_cons, hrest, select_eq, select_eq]
    by_cases he : f.accepts e = true
    · rw [List.filter_cons_of_pos he, capped_cons_eq, if_pos he]
      simp only [selects_zero, he, true_and]
    · rw [List.filter_cons_of_neg he, if_neg he, if_neg (by simp [selects_zero, he]),
        List.nil_append]

end Filter
end LogWatch
