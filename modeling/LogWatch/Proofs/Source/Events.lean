import LogWatch.Source.Log
import LogWatch.Proofs.Json.Blank
import LogWatch.Proofs.Result
import LogWatch.Proofs.Time.Order
import Mathlib.Data.List.TakeWhile
import Mathlib.Data.Option.Basic

/-!
# Events of a log and of a payload, newest first

A log whose lines all decode is read as its events after the start of the window, the last
line first.  A payload is put in order by a stable sort: events of one instant stand as they
stand in the array.

    eventsOfLog start log = .ok (events.reverse.takeWhile (start < ·.instant))   (eventsOfLog_eq)
    (newestFirst es).filter (·.instant = t) = es.filter (·.instant = t)  (newestFirst_filter_at)
-/

namespace LogWatch

open Text

namespace Source

/-! ## Logs -/

/-- The lines of a log that are not blank are these events. -/
def Holds (log : String) (events : List Event) : Prop :=
  ((linesOf log).filter fun line => !isBlankText line).map
    (fun line => (Event.ofText line).toOption) = events.map some

instance (log : String) (events : List Event) : Decidable (Holds log events) :=
  inferInstanceAs (Decidable (_ = _))

/-- Lines that are appended are events that are appended. -/
theorem Holds.beginning {log log' : String} {es es' : List Event} (h : Holds log es)
    (h' : Holds log' es') (hp : linesOf log <+: linesOf log') : es <+: es' := by
  have hmap := (hp.filter fun line => !isBlankText line).map
    fun line => (Event.ofText line).toOption
  unfold Holds at h h'
  rw [h, h'] at hmap
  exact (List.prefix_map_iff_of_injective (Option.some_injective _)).mp hmap

section Lines

variable {start : Time.Instant} {line : String} {e : Event} {fault : Event.Fault}

theorem recent_blank (h : isBlankText line = true) (n : Nat) (older : List (String × Nat)) :
    recent start ((line, n) :: older) = recent start older := by
  rw [recent, if_pos h]

/-- Reading ends at an event before the window, and takes any other. -/
theorem recent_event (h : Event.ofText line = .ok e) (n : Nat) (older : List (String × Nat)) :
    recent start ((line, n) :: older) =
      if e.instant ≤ start then .ok [] else (recent start older).map (e :: ·) := by
  rw [recent, if_neg (by simp [Event.not_isBlankText_of_ofText h]), h]
  cases recent start older <;> rfl

theorem recent_bad (hb : isBlankText line = false) (h : Event.ofText line = .error fault) (n : Nat)
    (older : List (String × Nat)) : recent start ((line, n) :: older) = .error ⟨n, fault⟩ := by
  rw [recent, if_neg (by simp [hb]), h]

end Lines

theorem recent_eq (start : Time.Instant) {lines : List (String × Nat)} {events : List Event}
    (h : ((lines.map Prod.fst).filter fun line => !isBlankText line).map
      (fun line => (Event.ofText line).toOption) = events.map some) :
    recent start lines = .ok (events.takeWhile fun e => start < e.instant) := by
  induction lines generalizing events with
  | nil =>
    cases events with
    | nil => rfl
    | cons e es => simp at h
  | cons numbered older ih =>
    obtain ⟨line, n⟩ := numbered
    rw [List.map_cons, List.filter_cons] at h
    by_cases hb : isBlankText line = true
    · rw [recent_blank hb]
      rw [hb] at h
      exact ih h
    · rw [if_pos (by simpa using hb), List.map_cons] at h
      cases events with
      | nil => simp at h
      | cons e es =>
        obtain ⟨he, hes⟩ := List.cons.inj h
        rw [recent_event (toOption_eq_some.mp he), ih hes, List.takeWhile_cons]
        by_cases hs : e.instant ≤ start
        · rw [if_pos hs, if_neg (by simpa using hs)]
        · rw [if_neg hs, if_pos (by simpa using hs)]
          rfl

/-- A log is read from its last line, up to the first event before the window. -/
theorem eventsOfLog_eq {log : String} {events : List Event} (h : Holds log events)
    (start : Time.Instant) :
    eventsOfLog start log = .ok (events.reverse.takeWhile fun e => start < e.instant) := by
  apply recent_eq
  rw [List.map_reverse, List.zipIdx_map_fst, List.filter_reverse, List.map_reverse,
    show _ = events.map some from h, List.map_reverse]

/-- With a later start of the window reading ends earlier. -/
theorem recent_later {start later : Time.Instant} (h : start ≤ later)
    {lines : List (String × Nat)} {events : List Event} (hr : recent start lines = .ok events) :
    recent later lines = .ok (events.takeWhile fun e => later < e.instant) := by
  induction lines generalizing events with
  | nil =>
    obtain rfl : [] = events := Except.ok.inj hr
    rfl
  | cons numbered older ih =>
    obtain ⟨line, n⟩ := numbered
    cases hb : isBlankText line with
    | true =>
      rw [recent_blank hb] at hr ⊢
      exact ih hr
    | false =>
      cases he : Event.ofText line with
      | error fault =>
        rw [recent_bad hb he] at hr
        cases hr
      | ok e =>
        rw [recent_event he] at hr ⊢
        by_cases hs : e.instant ≤ start
        · rw [if_pos hs] at hr
          obtain rfl : [] = events := Except.ok.inj hr
          rw [if_pos (le_trans hs h)]
          rfl
        · rw [if_neg hs] at hr
          obtain ⟨more, hmore, rfl⟩ := map_eq_ok.mp hr
          rw [ih hmore, List.takeWhile_cons]
          by_cases hl : e.instant ≤ later
          · rw [if_pos hl, if_neg (by simpa using hl)]
          · rw [if_neg hl, if_pos (by simpa using hl)]
            rfl

theorem eventsOfLog_later {start later : Time.Instant} (h : start ≤ later) {log : String}
    {events : List Event} (hr : eventsOfLog start log = .ok events) :
    eventsOfLog later log = .ok (events.takeWhile fun e => later < e.instant) :=
  recent_later h hr

/-! ## Lists in order -/

section Order

variable {α : Type} {p : α → Bool} {xs : List α}

/-- Where a property does not come back once it is lost, it holds at the front. -/
theorem eq_filter_append_filter (h : xs.Pairwise fun a b => p b = true → p a = true) :
    xs = xs.filter p ++ xs.filter fun x => !p x := by
  induction h with
  | nil => rfl
  | @cons a xs ha _ ih =>
    by_cases hp : p a = true
    · rw [List.filter_cons_of_pos hp, List.filter_cons_of_neg (by simp [hp]), List.cons_append,
        ← ih]
    · have hnone : xs.filter p = [] := List.filter_eq_nil_iff.mpr fun b hb hpb => hp (ha b hb hpb)
      rw [hnone, List.nil_append] at ih
      rw [List.filter_cons_of_neg hp, List.filter_cons_of_pos (by simp [hp]), hnone,
        List.nil_append, ← ih]

theorem takeWhile_eq_filter (h : xs.Pairwise fun a b => p b = true → p a = true) :
    xs.takeWhile p = xs.filter p := by
  have hrest : (xs.filter fun x => !p x).takeWhile p = [] := by
    cases hr : xs.filter fun x => !p x with
    | nil => rfl
    | cons b bs =>
      have hb := (List.mem_filter.mp (hr ▸ List.mem_cons_self : b ∈ xs.filter fun x => !p x)).2
      rw [List.takeWhile_cons, if_neg (by simpa using hb)]
  conv => lhs; rw [eq_filter_append_filter h]
  rw [List.takeWhile_append_of_pos fun a ha => (List.mem_filter.mp ha).2, hrest, List.append_nil]

end Order

/-! ## Payloads -/

/-- The array of a payload holds these events; a blank payload holds none. -/
def Lists (payload : String) (events : List Event) : Prop :=
  (if isBlankText payload then some [] else (Event.listOfText payload).toOption) = some events

instance (payload : String) (events : List Event) : Decidable (Lists payload events) :=
  inferInstanceAs (Decidable (_ = _))

theorem eventsOfPayload_eq {payload : String} {events : List Event} (h : Lists payload events) :
    eventsOfPayload payload = .ok (newestFirst events) := by
  unfold Lists at h
  unfold eventsOfPayload
  split at h
  · next hb =>
    rw [if_pos hb, ← Option.some.inj h]
    simp [newestFirst]
  · next hb =>
    rw [if_neg hb, toOption_eq_some.mp h]
    rfl

theorem eventsOfPayload_of_listOfText {payload : String} {events : List Event}
    (h : Event.listOfText payload = .ok events) :
    eventsOfPayload payload = .ok (newestFirst events) := by
  rw [eventsOfPayload, Event.not_isBlankText_of_listOfText h, h]
  rfl

theorem mem_newestFirst {events : List Event} {e : Event} : e ∈ newestFirst events ↔ e ∈ events :=
  List.mem_mergeSort

theorem newer_trans (a b c : Event) (hab : decide (b.instant ≤ a.instant) = true)
    (hbc : decide (c.instant ≤ b.instant) = true) : decide (c.instant ≤ a.instant) = true :=
  decide_eq_true (le_trans (of_decide_eq_true hbc) (of_decide_eq_true hab))

theorem newer_total (a b : Event) :
    (decide (b.instant ≤ a.instant) || decide (a.instant ≤ b.instant)) = true := by
  rw [Bool.or_eq_true, decide_eq_true_iff, decide_eq_true_iff]
  exact le_total _ _

theorem newestFirst_pairwise (events : List Event) :
    (newestFirst events).Pairwise fun a b => b.instant ≤ a.instant := by
  have h : (newestFirst events).Pairwise fun a b => decide (b.instant ≤ a.instant) = true :=
    List.pairwise_mergeSort newer_trans newer_total events
  exact h.imp of_decide_eq_true

theorem newestFirst_of_pairwise {events : List Event}
    (h : events.Pairwise fun a b => b.instant ≤ a.instant) : newestFirst events = events :=
  List.mergeSort_of_pairwise (h.imp decide_eq_true)

/-- Events of one instant stand as they are listed. -/
theorem newestFirst_filter_at (events : List Event) (t : Time.Instant) :
    ((newestFirst events).filter fun e => e.instant = t) =
      events.filter fun e => e.instant = t := by
  have hsame : (events.filter fun e => e.instant = t).Pairwise
      fun a b => decide (b.instant ≤ a.instant) = true := by
    apply List.pairwise_of_forall_mem_list
    intro a ha b hb
    have hta := of_decide_eq_true (List.mem_filter.mp ha).2
    have htb := of_decide_eq_true (List.mem_filter.mp hb).2
    exact decide_eq_true (le_of_eq (htb.trans hta.symm))
  have hsub : (events.filter fun e => e.instant = t).Sublist (newestFirst events) :=
    List.sublist_mergeSort newer_trans newer_total hsame List.filter_sublist
  have hfilter := hsub.filter fun e => decide (e.instant = t)
  rw [List.filter_filter] at hfilter
  simp only [Bool.and_self] at hfilter
  refine (hfilter.eq_of_length ?_).symm
  exact ((List.mergeSort_perm events _).filter _).length_eq.symm

theorem le_of_pairwise_cons {e a : Event} {rest : List Event}
    (h : (e :: rest).Pairwise fun a b => b.instant ≤ a.instant) (ha : a ∈ e :: rest) :
    a.instant ≤ e.instant := by
  rcases List.mem_cons.mp ha with rfl | ha
  · exact le_refl _
  · exact List.rel_of_pairwise_cons h ha

/-- The newest of all is the one listed first of the newest instant. -/
theorem head?_newestFirst (events : List Event) :
    (newestFirst events).head? =
      (events.filter fun e => ∀ f ∈ events, f.instant ≤ e.instant).head? := by
  cases hs : newestFirst events with
  | nil =>
    have hnil : events = [] := by
      rw [← List.length_eq_zero_iff, ← (List.mergeSort_perm events _).length_eq]
      exact List.length_eq_zero_iff.mpr hs
    rw [hnil]
    rfl
  | cons mark rest =>
    have hpairwise := newestFirst_pairwise events
    rw [hs] at hpairwise
    have hmax : ∀ f ∈ events, f.instant ≤ mark.instant := by
      intro f hf
      rw [← mem_newestFirst, hs] at hf
      exact le_of_pairwise_cons hpairwise hf
    have hat : (events.filter fun e => ∀ f ∈ events, f.instant ≤ e.instant) =
        (newestFirst events).filter fun e => e.instant = mark.instant := by
      rw [newestFirst_filter_at]
      refine List.filter_congr fun e he => decide_eq_decide.mpr ⟨fun h => ?_, fun h f hf => ?_⟩
      · refine le_antisymm (hmax e he) (h mark ?_)
        rw [← mem_newestFirst, hs]
        exact List.mem_cons_self
      · rw [h]
        exact hmax f hf
    rw [hat, hs, List.filter_cons_of_pos (by simp)]
    rfl

end Source
end LogWatch
