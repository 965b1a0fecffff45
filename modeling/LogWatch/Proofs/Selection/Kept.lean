import LogWatch.Proofs.Selection.Positions

/-!
# What one cycle keeps

Of events that stand newest first, one cycle keeps the selected ones that are later than the
watermark, and of those at its instant the ones before the watermark itself.  The cap takes the
newest of the accepted events, and the walk to the watermark drops no selected event that is later
and keeps none that is earlier.

    unreported (some w) (f.select cap events) = itemsAt events (KeptAt w f cap events)
                                                                             (unreported_select)
-/

namespace LogWatch

def NewestFirst (events : List Event) : Prop := events.Pairwise fun a b => b.instant ≤ a.instant

instance (events : List Event) : Decidable (NewestFirst events) :=
  inferInstanceAs (Decidable (List.Pairwise _ _))

/-- The event at the position is selected.  It is later than the watermark, or it is at the same
instant and stands before the first selected event there that has the hash of the watermark. -/
def KeptAt (w : Identity) (f : Filter) (cap : Option Nat) (events : List Event) (i : Nat) : Prop :=
  f.Selects cap events i ∧
    ((∃ e ∈ events[i]?, w.instant < e.instant) ∨
      (∃ e ∈ events[i]?, e.instant = w.instant) ∧
        ∀ j ≤ i, f.Selects cap events j → ∀ e ∈ events[j]?,
          ¬(e.instant = w.instant ∧ e.identity.hash = w.hash))

section

variable {w : Identity} {f : Filter} {cap : Option Nat} {events : List Event}

instance : DecidablePred (KeptAt w f cap events) := fun _ =>
  inferInstanceAs (Decidable (_ ∧ (_ ∨ _ ∧ ∀ j ≤ _, _)))

theorem NewestFirst.le (h : NewestFirst events) {i j : Nat} {a b : Event}
    (ha : events[i]? = some a) (hb : events[j]? = some b) (hij : i ≤ j) :
    b.instant ≤ a.instant := by
  obtain ⟨hi, rfl⟩ := List.getElem?_eq_some_iff.mp ha
  obtain ⟨hj, rfl⟩ := List.getElem?_eq_some_iff.mp hb
  rcases Nat.lt_or_eq_of_le hij with hlt | rfl
  · exact List.pairwise_iff_getElem.mp h i j hi hj hlt
  · exact le_refl _

/-- Up to a later event all are later, and up to one at the watermark's instant all are later or at
that instant; so the walk goes on as long as it has not met the watermark itself. -/
theorem upTo_isPassedBy_iff (h : NewestFirst events) (i : Nat) :
    UpTo (f.Selects cap events) w.isPassedBy events i ↔ KeptAt w f cap events i := by
  constructor
  · rintro ⟨hi, hall⟩
    obtain ⟨e, he, -⟩ := hi.1
    refine ⟨hi, ?_⟩
    rcases (isPassedBy_iff w e).mp (hall i (Nat.le_refl i) hi e he) with hlater | ⟨hat, -⟩
    · exact .inl ⟨e, he, hlater⟩
    · refine .inr ⟨⟨e, he, hat⟩, fun j hj hsel a ha hw => ?_⟩
      rcases (isPassedBy_iff w a).mp (hall j hj hsel a ha) with hlater | ⟨-, hhash⟩
      · exact absurd hw.1 (ne_of_gt hlater)
      · exact hhash hw.2
  · rintro ⟨hi, hkept⟩
    refine ⟨hi, fun j hj hsel a ha => (isPassedBy_iff w a).mpr ?_⟩
    rcases hkept with ⟨e, he, hlater⟩ | ⟨⟨e, he, hat⟩, hbefore⟩
    · exact .inl (lt_of_lt_of_le hlater (h.le ha he hj))
    · rcases lt_or_eq_of_le (h.le ha he hj) with hlt | heq
      · exact .inl (hat ▸ hlt)
      · have hsame : a.instant = w.instant := heq.symm.trans hat
        exact .inr ⟨hsame, fun hhash => hbefore j hj hsel a ha ⟨hsame, hhash⟩⟩

theorem unreported_select (h : NewestFirst events) (w : Identity) (f : Filter)
    (cap : Option Nat) :
    unreported (some w) (f.select cap events) = itemsAt events (KeptAt w f cap events) := by
  rw [Filter.select_eq_itemsAt]
  exact (takeWhile_itemsAt events _).trans (itemsAt_congr fun i _ _ => upTo_isPassedBy_iff h i)

/-- Where the cap leaves out an accepted event, it has been filled by events before. -/
theorem Filter.lt_of_selects {i j : Nat} (hi : ∃ e ∈ events[i]?, f.accepts e = true)
    (hout : ¬f.Selects cap events i) (hj : f.Selects cap events j) : j < i := by
  by_contra hle
  refine hout ⟨hi, fun n hn => lt_of_le_of_lt ?_ (hj.2 n hn)⟩
  exact ((List.take_prefix_take_left (Nat.le_of_not_lt hle)).sublist.countP_le)

/-! ## Top theorem -/

/-- One cycle keeps exactly the selected events that are later than the watermark or stand before
it at its instant.  What the cap leaves out is no later than what it takes, nothing earlier than the
watermark is kept, and all that is selected and later is kept. -/
theorem cycle_keeps_exactly (h : NewestFirst events) (f : Filter) (cap : Option Nat)
    (w : Identity) :
    let kept := unreported (some w) (f.select cap events)
    f.select cap events = itemsAt events (f.Selects cap events) ∧
    kept = itemsAt events (KeptAt w f cap events) ∧
    (∀ i j a b, events[i]? = some a → events[j]? = some b → f.accepts a = true →
      ¬f.Selects cap events i → f.Selects cap events j → a.instant ≤ b.instant) ∧
    (∀ e ∈ kept, w.instant ≤ e.instant) ∧
    (kept.filter fun e => w.instant < e.instant) =
      (f.select cap events).filter fun e => w.instant < e.instant := by
  intro kept
  have hselect := Filter.select_eq_itemsAt f cap events
  have hkept : kept = itemsAt events (KeptAt w f cap events) := unreported_select h w f cap
  refine ⟨hselect, hkept, fun i j a b ha hb haccepts hout hin => ?_, fun e he => ?_, ?_⟩
  · exact h.le hb ha (Nat.le_of_lt (Filter.lt_of_selects ⟨a, ha, haccepts⟩ hout hin))
  · rw [hkept] at he
    obtain ⟨i, ⟨-, hi⟩, hget⟩ := mem_itemsAt.mp he
    rcases hi with ⟨e', he', hlater⟩ | ⟨⟨e', he', hat⟩, -⟩
    · obtain rfl := Option.some.inj (hget.symm.trans he')
      exact le_of_lt hlater
    · obtain rfl := Option.some.inj (hget.symm.trans he')
      exact ge_of_eq hat
  · rw [hkept, hselect, filter_itemsAt, filter_itemsAt]
    refine itemsAt_congr fun i e he => and_congr_left fun hlater => ?_
    obtain ⟨a, ha, hdecided⟩ := hlater
    exact ⟨fun hi => hi.1, fun hi => ⟨hi, .inl ⟨a, ha, of_decide_eq_true hdecided⟩⟩⟩

end

/-! ## A busy second -/

namespace Sample

def occurring (second : Int) (id : Int16) : Event where
  eventId := id
  time := .ofInstant ((Time.Instant.ofSecond? second 0).getD .epoch)

/-- The filter refuses the first event, and the cap ends at the third that it accepts. -/
def busy : List Event :=
  [occurring 2 1, occurring 2 7, occurring 1 2, occurring 1 3, occurring 1 4, occurring 1 3,
    occurring 0 5]

def aboveOne : Filter := ⟨"EventID > 1", some (.compare .eventId .gt (.int 1))⟩

end Sample

theorem cycle_keeps_exactly_busy :
    NewestFirst Sample.busy ∧
      unreported (some (Sample.occurring 1 3).identity)
        (Sample.aboveOne.select (some 3) Sample.busy) =
          [Sample.occurring 2 7, Sample.occurring 1 2] := by
  have hfirst : NewestFirst Sample.busy := by decide
  obtain ⟨-, hkept, -⟩ :=
    cycle_keeps_exactly hfirst Sample.aboveOne (some 3) (Sample.occurring 1 3).identity
  refine ⟨hfirst, hkept.trans ?_⟩
  decide +kernel

end LogWatch
