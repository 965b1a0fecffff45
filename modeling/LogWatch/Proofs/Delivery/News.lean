import LogWatch.Filter.Basic
import LogWatch.Proofs.Source.Events
import LogWatch.Unreported
import Mathlib.Data.List.Infix

/-!
# News of a log

A log in order is split where the last acknowledged run saw its end.  What is read of it
begins with the matching events after the split, newest first, and the walk to the watermark,
which is the last matching event before the split, ends exactly there.

    unreported (watermark older) (read start (older ++ newer)) = newer.reverse   (unreported_recent)
-/

namespace LogWatch

/-- The first events, if there is a cap. -/
def capped {α : Type} (cap : Option Nat) (xs : List α) : List α :=
  match cap with
  | none => xs
  | some n => xs.take n

theorem Filter.select_eq (f : Filter) (cap : Option Nat) (events : List Event) :
    f.select cap events = capped cap (events.filter f.accepts) := rfl

theorem Configuration.cap_pos {c : Configuration} {n : Nat} (h : c.cap = some n) : 0 < n := by
  unfold cap at h
  split at h
  · next hm =>
    have hpos : 0 < c.maxMessages.toInt := of_decide_eq_true hm
    obtain rfl := Option.some.inj h
    omega
  · simp at h

theorem capped_cons {α : Type} {cap : Option Nat} (h : ∀ n, cap = some n → 0 < n) (x : α)
    (xs : List α) : ∃ ys, capped cap (x :: xs) = x :: ys := by
  cases cap with
  | none => exact ⟨xs, rfl⟩
  | some n =>
    obtain ⟨m, rfl⟩ := Nat.exists_eq_add_one.mpr (h n rfl)
    exact ⟨xs.take m, rfl⟩

theorem capped_eq_nil_iff {α : Type} {cap : Option Nat} (h : ∀ n, cap = some n → 0 < n)
    {xs : List α} : capped cap xs = [] ↔ xs = [] := by
  cases xs with
  | nil => cases cap <;> simp [capped]
  | cons x xs =>
    obtain ⟨ys, hy⟩ := capped_cons h x xs
    simp [hy]

theorem capped_sublist {α : Type} (cap : Option Nat) (xs : List α) :
    (capped cap xs).Sublist xs := by
  cases cap with
  | none => exact .refl xs
  | some n => exact List.take_sublist n xs

theorem capped_beginning {α : Type} (cap : Option Nat) {xs ys : List α} (h : xs <+: ys) :
    capped cap xs <+: capped cap ys := by
  cases cap with
  | none => exact h
  | some n => exact h.take n

/-- Leaving out what has been reported commutes with the cap. -/
theorem unreported_capped (last : Option Identity) (cap : Option Nat) (events : List Event) :
    unreported last (capped cap events) = capped cap (unreported last events) := by
  cases last with
  | none => rfl
  | some i =>
    cases cap with
    | none => rfl
    | some n => exact List.take_takeWhile.symm

/-- The last of some events, as a watermark. -/
def watermarkOf (events : List Event) : Option Identity := events.getLast?.map Event.identity

/-- In order of time. -/
def Ordered (events : List Event) : Prop := events.Pairwise fun a b => a.instant ≤ b.instant

/-- No two are alike. -/
def Distinct (events : List Event) : Prop := events.Pairwise fun a b => a.identity ≠ b.identity

instance (events : List Event) : Decidable (Ordered events) :=
  inferInstanceAs (Decidable (List.Pairwise _ _))

instance (events : List Event) : Decidable (Distinct events) :=
  inferInstanceAs (Decidable (List.Pairwise _ _))

theorem Ordered.filter {events : List Event} (h : Ordered events) (p : Event → Bool) :
    Ordered (events.filter p) := h.sublist List.filter_sublist

theorem Ordered.le_last {front : List Event} {w : Event} (h : Ordered (front ++ [w])) :
    ∀ e ∈ front ++ [w], e.instant ≤ w.instant := by
  intro e he
  rcases List.mem_append.mp he with hf | hw
  · exact (List.pairwise_append.mp h).2.2 e hf w (by simp)
  · rw [List.mem_singleton.mp hw]

theorem takeWhile_recent {events : List Event} (h : Ordered events) (start : Time.Instant) :
    (events.reverse.takeWhile fun e => start < e.instant) =
      (events.filter fun e => start < e.instant).reverse := by
  rw [Source.takeWhile_eq_filter, List.filter_reverse]
  rw [List.pairwise_reverse]
  refine h.imp fun {a b} hab => ?_
  simp only [decide_eq_true_iff]
  exact fun ha => lt_of_lt_of_le ha hab

theorem isPassedBy_iff (w : Identity) (e : Event) :
    w.isPassedBy e = true ↔
      w.instant < e.instant ∨ e.instant = w.instant ∧ e.identity.hash ≠ w.hash := by
  unfold Identity.isPassedBy
  rw [Bool.or_eq_true, Bool.and_eq_true, decide_eq_true_iff, beq_iff_eq, bne_iff_ne]

/-- A later event that differs passes the watermark. -/
theorem isPassedBy_of_le {w e : Event} (hle : w.instant ≤ e.instant)
    (hne : w.identity ≠ e.identity) : w.identity.isPassedBy e = true := by
  rw [isPassedBy_iff]
  rcases lt_or_eq_of_le hle with hlt | heq
  · exact .inl hlt
  · refine .inr ⟨heq.symm, fun hh => hne ?_⟩
    exact Identity.mk.injEq .. ▸ ⟨hh.symm, heq⟩

theorem not_isPassedBy_self (w : Event) : ¬ w.identity.isPassedBy w = true := by
  rw [isPassedBy_iff]
  rintro (hlt | ⟨-, hne⟩)
  · exact lt_irrefl _ hlt
  · exact hne rfl

/-- What is read of a log in order, and matches. -/
theorem filter_recent {events : List Event} (h : Ordered events) (f : Filter)
    (start : Time.Instant) :
    (events.reverse.takeWhile fun e => start < e.instant).filter f.accepts =
      ((events.filter f.accepts).filter fun e => start < e.instant).reverse := by
  rw [takeWhile_recent h, List.filter_reverse, List.filter_filter, List.filter_filter]
  simp only [Bool.and_comm]

/-- The newer events are read first, and all of them. -/
theorem filter_append_reverse (older : List Event) {newer : List Event} {start : Time.Instant}
    (hw : ∀ e ∈ newer, start < e.instant) :
    ((older ++ newer).filter fun e => start < e.instant).reverse =
      newer.reverse ++ (older.filter fun e => start < e.instant).reverse := by
  rw [List.filter_append, List.reverse_append,
    List.filter_eq_self.mpr fun e he => decide_eq_true (hw e he)]

theorem watermarkOf_concat (front : List Event) (last : Event) :
    watermarkOf (front ++ [last]) = some last.identity := by
  unfold watermarkOf
  rw [List.getLast?_concat]
  rfl

/-- The walk ends at once at the last of some events, and so if the window leaves that one out. -/
theorem takeWhile_older {front : List Event} {w : Event} (ho : Ordered (front ++ [w]))
    (start : Time.Instant) :
    ((front ++ [w]).filter fun e => start < e.instant).reverse.takeWhile
      w.identity.isPassedBy = [] := by
  by_cases hs : start < w.instant
  · rw [List.filter_append, List.filter_cons_of_pos (by simpa using hs), List.filter_nil,
      List.reverse_append, List.reverse_singleton, List.singleton_append, List.takeWhile_cons,
      if_neg (not_isPassedBy_self w)]
  · have hnone : ((front ++ [w]).filter fun e => start < e.instant) = [] := by
      rw [List.filter_eq_nil_iff]
      intro e he hse
      exact hs (lt_of_lt_of_le (of_decide_eq_true hse) (ho.le_last e he))
    rw [hnone]
    rfl

/-- The walk back from the end of a log stops where the watermark stands, or where the window
begins if the watermark is not in it. -/
theorem unreported_recent {older newer : List Event} (ho : Ordered (older ++ newer))
    (hd : Distinct (older ++ newer)) (start : Time.Instant)
    (hw : ∀ e ∈ newer, start < e.instant) :
    unreported (watermarkOf older)
      ((older ++ newer).filter fun e => start < e.instant).reverse = newer.reverse := by
  rw [filter_append_reverse older hw]
  rcases List.eq_nil_or_concat older with rfl | ⟨front, w, hlast⟩
  · simp [watermarkOf, unreported]
  · rw [List.concat_eq_append] at hlast
    subst hlast
    obtain ⟨hofront, -, hocross⟩ := List.pairwise_append.mp ho
    obtain ⟨-, -, hdcross⟩ := List.pairwise_append.mp hd
    have hpass : ∀ e ∈ newer.reverse, w.identity.isPassedBy e = true := by
      intro e he
      have hw' : w ∈ front ++ [w] := List.mem_append_right _ List.mem_cons_self
      have he' := List.mem_reverse.mp he
      exact isPassedBy_of_le (hocross w hw' e he') (hdcross w hw' e he')
    rw [watermarkOf_concat]
    dsimp only [unreported]
    rw [List.takeWhile_append_of_pos hpass, takeWhile_older hofront, List.append_nil]

end LogWatch
