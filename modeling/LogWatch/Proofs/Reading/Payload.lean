import LogWatch.Proofs.Report.Json
import LogWatch.Proofs.Selection.Kept
import LogWatch.Proofs.Time.Order

/-!
# Payloads in order

The events of a payload come out the newest first, and events of one instant come out in the order
in which they are listed.  There is one such list, so nothing else can come out.  What is in this
order stays as it is: what came out of a payload comes out of a payload of its own.  And where the
same events are listed in another order, the same instants come out, with the same events at each.

    StablySorted listed (newestFirst listed)                          (stablySorted_newestFirst)
    StablySorted listed other → other = newestFirst listed            (StablySorted.unique)
-/

namespace LogWatch

namespace Source

/-- The listed events, the newest first, those of one instant in the order of the list. -/
structure StablySorted (listed sorted : List Event) : Prop where
  perm : sorted.Perm listed
  newestFirst : NewestFirst sorted
  stable : ∀ t : Time.Instant,
    (sorted.filter fun e => e.instant = t) = listed.filter fun e => e.instant = t

/-- There is the same instant at every position, and there are the same events at every instant. -/
structure SameButTies (sorted other : List Event) : Prop where
  instants : sorted.map Event.instant = other.map Event.instant
  ties : ∀ t : Time.Instant,
    (sorted.filter fun e => e.instant = t).Perm (other.filter fun e => e.instant = t)

variable {listed relisted sorted other : List Event}

theorem stablySorted_newestFirst (listed : List Event) :
    StablySorted listed (newestFirst listed) where
  perm := List.mergeSort_perm listed _
  newestFirst := newestFirst_pairwise listed
  stable := newestFirst_filter_at listed

/-! ## One order -/

theorem filter_at_tail {e : Event} {t : Time.Instant}
    (h : ((e :: sorted).filter fun a => a.instant = t) =
      (e :: other).filter fun a => a.instant = t) :
    (sorted.filter fun a => a.instant = t) = other.filter fun a => a.instant = t := by
  rw [List.filter_cons, List.filter_cons] at h
  split at h
  · exact (List.cons.inj h).2
  · exact h

/-- The first events are at one instant, the newest, and so they are the first listed there. -/
theorem eq_of_filter_at (hperm : sorted.Perm other) (hsorted : NewestFirst sorted)
    (hother : NewestFirst other)
    (hties : ∀ t : Time.Instant,
      (sorted.filter fun e => e.instant = t) = other.filter fun e => e.instant = t) :
    sorted = other := by
  induction sorted generalizing other with
  | nil => exact hperm.nil_eq
  | cons e sorted ih =>
    cases other with
    | nil => exact hperm.eq_nil
    | cons f other =>
      have hef := le_of_pairwise_cons hother (hperm.subset List.mem_cons_self)
      have hfe := le_of_pairwise_cons hsorted (hperm.symm.subset List.mem_cons_self)
      have hinstant : f.instant = e.instant := le_antisymm hfe hef
      have hnewest := hties e.instant
      rw [List.filter_cons_of_pos (by simp), List.filter_cons_of_pos (by simpa)] at hnewest
      obtain ⟨rfl, -⟩ := List.cons.inj hnewest
      rw [ih hperm.cons_inv hsorted.of_cons hother.of_cons fun t => filter_at_tail (hties t)]

theorem StablySorted.unique (h : StablySorted listed sorted) (h' : StablySorted listed other) :
    sorted = other :=
  eq_of_filter_at (h.perm.trans h'.perm.symm) h.newestFirst h'.newestFirst
    fun t => (h.stable t).trans (h'.stable t).symm

/-! ## The same events in another order -/

theorem instants_pairwise (h : NewestFirst sorted) :
    (sorted.map Event.instant).Pairwise fun s t => t ≤ s := List.pairwise_map.mpr h

theorem StablySorted.sameButTies (h : StablySorted listed sorted)
    (h' : StablySorted relisted other) (hperm : listed.Perm relisted) :
    SameButTies sorted other where
  instants := by
    have hsame : sorted.Perm other := h.perm.trans (hperm.trans h'.perm.symm)
    exact (hsame.map Event.instant).eq_of_pairwise (fun _ _ _ _ hle hge => le_antisymm hge hle)
      (instants_pairwise h.newestFirst) (instants_pairwise h'.newestFirst)
  ties := by
    intro t
    rw [h.stable, h'.stable]
    exact hperm.filter _

/-! ## Payloads -/

/-- An array of objects of sorted events, in any layout and with the keys in any order. -/
theorem eventsOfPayload_of_objects {keys : List Event.Key} {payload : String}
    (hkeys : keys.Perm Event.Key.all) (hsorted : NewestFirst sorted)
    (h : Json.parse? payload = some (.array (sorted.map (Event.objectOf keys)))) :
    eventsOfPayload payload = .ok sorted := by
  rw [Report.eventsOfPayload_of_array h (Event.listOfJson_objects hkeys sorted),
    newestFirst_of_pairwise hsorted]

/-! ## Top theorem -/

/-- Out of a payload that holds an array of events come these events, the newest first by UTC, those
of one instant in the order of the array, and there is one such list.  It comes out again of every
text that holds it as an array of objects, such as the one that is written.  Where another payload
holds the same events in another order, what comes out differs in the order at each instant only. -/
theorem payload_comes_out_stably_sorted {payload : String} {listed : List Event}
    (h : Event.listOfText payload = .ok listed) :
    ∃ sorted, eventsOfPayload payload = .ok sorted ∧
      StablySorted listed sorted ∧
      (∀ other, StablySorted listed other → other = sorted) ∧
      (∀ keys : List Event.Key, keys.Perm Event.Key.all →
        let array := Json.array (sorted.map (Event.objectOf keys))
        Json.parse? array.pretty = some array ∧
          ∀ again : String, Json.parse? again = some array → eventsOfPayload again = .ok sorted) ∧
      ∀ (payload' : String) (relisted : List Event), Event.listOfText payload' = .ok relisted →
        listed.Perm relisted →
          ∃ sorted', eventsOfPayload payload' = .ok sorted' ∧ SameButTies sorted sorted' := by
  have hstable := stablySorted_newestFirst listed
  refine ⟨newestFirst listed, eventsOfPayload_of_listOfText h, hstable,
    fun other hother => hother.unique hstable, fun keys hkeys => ⟨?_, fun again hagain => ?_⟩, ?_⟩
  · exact Json.parse?_prettyAt (Event.legible_objects keys _) 0
  · exact eventsOfPayload_of_objects hkeys hstable.newestFirst hagain
  · intro payload' relisted h' hperm
    exact ⟨newestFirst relisted, eventsOfPayload_of_listOfText h',
      hstable.sameButTies (stablySorted_newestFirst relisted) hperm⟩

namespace Sample

/-- The first instant of 1970, on a clock two hours ahead. -/
def ahead : Event := { eventId := 1, time := ⟨.epoch, 120, by decide, by decide⟩ }

/-- The same instant, on a clock that shows UTC. -/
def atUtc : Event := { eventId := 2 }

def halfHour : Time.Instant := (Time.Instant.ofSecond? 1800 0).getD .epoch

/-- Half an hour later, on a clock that shows the day before. -/
def behind : Event := { eventId := 3, time := ⟨halfHour, -60, by decide, by decide⟩ }

def zones : String :=
  "[\x7b\"EventID\":1,\"TimeGenerated\":\"1970-01-01T02:00:00+02:00\"\x7d," ++
    "\x7b\"EventID\":2\x7d," ++
    "\x7b\"EventID\":3,\"TimeGenerated\":\"1969-12-31T23:30:00-01:00\"\x7d]"

theorem stablySorted_zones : StablySorted [ahead, atUtc, behind] [behind, ahead, atUtc] where
  perm := by decide
  newestFirst := by decide
  stable := by
    intro t
    by_cases h : Time.Instant.epoch = t
    · subst h
      decide
    · have hahead : ¬ahead.instant = t := h
      have hatUtc : ¬atUtc.instant = t := h
      simp only [List.filter_cons, hahead, hatUtc, decide_false, Bool.false_eq_true, if_false]

end Sample

/-- The event whose clock shows the earliest time is the newest, and comes out first. -/
theorem payload_comes_out_stably_sorted_over_zones :
    eventsOfPayload Sample.zones = .ok [Sample.behind, Sample.ahead, Sample.atUtc] ∧
      eventsOfPayload (Json.array ([Sample.behind, Sample.ahead, Sample.atUtc].map
        (Event.objectOf Event.Key.all))).pretty =
          .ok [Sample.behind, Sample.ahead, Sample.atUtc] := by
  have hlisted : (Event.listOfText Sample.zones).toOption =
      some [Sample.ahead, Sample.atUtc, Sample.behind] := by decide +kernel
  obtain ⟨sorted, hread, -, hunique, hagain, -⟩ :=
    payload_comes_out_stably_sorted (toOption_eq_some.mp hlisted)
  obtain rfl := hunique _ Sample.stablySorted_zones
  obtain ⟨hwritten, hback⟩ := hagain Event.Key.all (List.Perm.refl _)
  exact ⟨hread, hback _ hwritten⟩

end Source
end LogWatch
