import LogWatch.Proofs.Delivery.News
import LogWatch.Proofs.Scanner.Cycle

/-!
# Delivery from payloads

A payload lists events in any order, and a later payload lists them again with new ones.  The
watermark is the event that the first payload lists first of its newest instant.  A run over the
later payload offers what is later than the watermark, and of its instant what the later payload
lists before it.  These are the new events exactly if the later payload lists the watermark
between the new and the old events of its instant.
-/

namespace LogWatch

open Text

/-! ## The walk over a payload -/

/-- The events later than a watermark, the newest first, then those of its instant that are listed
before it. -/
def ahead (mark : Event) (listed : List Event) : List Event :=
  (Source.newestFirst listed).filter (fun e => mark.instant < e.instant) ++
    (listed.takeWhile fun e => e ≠ mark).filter fun e => e.instant = mark.instant

variable {mark : Event} {listed earlier : List Event}

/-- Sorted events stand in three groups around an instant. -/
theorem newestFirst_eq (listed : List Event) (t : Time.Instant) :
    Source.newestFirst listed =
      (Source.newestFirst listed).filter (fun e => t < e.instant) ++
        (listed.filter (fun e => e.instant = t) ++
          (Source.newestFirst listed).filter fun e => e.instant < t) := by
  have hsorted := Source.newestFirst_pairwise listed
  have hlater := Source.eq_filter_append_filter (p := fun e => decide (t < e.instant))
    (hsorted.imp fun hba hb => decide_eq_true (lt_of_lt_of_le (of_decide_eq_true hb) hba))
  have hrest := Source.eq_filter_append_filter (p := fun e => decide (t ≤ e.instant))
    ((hsorted.imp fun hba hb => decide_eq_true (le_trans (of_decide_eq_true hb) hba)).filter
      fun e => !decide (t < e.instant))
  rw [List.filter_filter, List.filter_filter] at hrest
  have hat : ((Source.newestFirst listed).filter fun e =>
      decide (t ≤ e.instant) && !decide (t < e.instant)) =
      listed.filter fun e => e.instant = t := by
    rw [← Source.newestFirst_filter_at]
    refine List.filter_congr fun e _ => ?_
    rw [← decide_not, ← Bool.decide_and]
    exact decide_eq_decide.mpr (by rw [not_lt, le_antisymm_iff, and_comm])
  have hbefore : ((Source.newestFirst listed).filter fun e =>
      (!decide (t ≤ e.instant)) && !decide (t < e.instant)) =
      (Source.newestFirst listed).filter fun e => e.instant < t := by
    refine List.filter_congr fun e _ => ?_
    rw [← decide_not, ← decide_not, ← Bool.decide_and]
    exact decide_eq_decide.mpr (by rw [not_le, not_lt]; exact ⟨And.left, fun h => ⟨h, le_of_lt h⟩⟩)
  rw [hat, hbefore] at hrest
  rw [← hrest]
  exact hlater

/-- Around a member, a list without repetition has two parts without it. -/
theorem exists_split (hm : mark ∈ listed)
    (hd : listed.Pairwise fun a b => a.identity.hash ≠ b.identity.hash) :
    ∃ front back, listed = front ++ mark :: back ∧
      (listed.takeWhile fun e => e ≠ mark) = front ∧
      (∀ e ∈ front, e.identity.hash ≠ mark.identity.hash) ∧
      (∀ e ∈ mark :: back, e ∉ front) := by
  obtain ⟨front, back, rfl⟩ := List.append_of_mem hm
  have hcross := (List.pairwise_append.mp hd).2.2
  have hne : ∀ e ∈ front, e.identity.hash ≠ mark.identity.hash :=
    fun e he => hcross e he mark List.mem_cons_self
  have hpass : ∀ e ∈ front, decide (e ≠ mark) = true := by
    intro e he
    rw [decide_eq_true_iff]
    rintro rfl
    exact hne e he rfl
  refine ⟨front, back, rfl, ?_, hne, fun e he hf => hcross e hf e he rfl⟩
  rw [List.takeWhile_append_of_pos hpass, List.takeWhile_cons, if_neg (by simp), List.append_nil]

/-- The walk to the watermark. -/
theorem unreported_payload (hm : mark ∈ listed)
    (hd : listed.Pairwise fun a b => a.identity.hash ≠ b.identity.hash) :
    unreported (some mark.identity) (Source.newestFirst listed) = ahead mark listed := by
  obtain ⟨front, back, hlisted, hfront, hne, -⟩ := exists_split hm hd
  have hat : (listed.filter fun e => e.instant = mark.instant) =
      (front.filter fun e => e.instant = mark.instant) ++
        mark :: back.filter fun e => e.instant = mark.instant := by
    rw [hlisted, List.filter_append, List.filter_cons_of_pos (by simp)]
  have hlater : ∀ e ∈ (Source.newestFirst listed).filter (fun e => mark.instant < e.instant),
      mark.identity.isPassedBy e = true := by
    intro e he
    exact (isPassedBy_iff mark.identity e).mpr (.inl (of_decide_eq_true (List.mem_filter.mp he).2))
  have hsame : ∀ e ∈ front.filter (fun e => e.instant = mark.instant),
      mark.identity.isPassedBy e = true := by
    intro e he
    obtain ⟨hf, ht⟩ := List.mem_filter.mp he
    exact (isPassedBy_iff mark.identity e).mpr (.inr ⟨of_decide_eq_true ht, hne e hf⟩)
  unfold ahead
  rw [hfront]
  calc (Source.newestFirst listed).takeWhile mark.identity.isPassedBy
      = ((Source.newestFirst listed).filter (fun e => mark.instant < e.instant) ++
          (((front.filter fun e => e.instant = mark.instant) ++
            mark :: back.filter fun e => e.instant = mark.instant) ++
            (Source.newestFirst listed).filter fun e => e.instant < mark.instant)).takeWhile
          mark.identity.isPassedBy := by
        rw [← hat, ← newestFirst_eq]
    _ = _ := by
        rw [List.append_assoc, List.cons_append, List.takeWhile_append_of_pos hlater,
          List.takeWhile_append_of_pos hsame, List.takeWhile_cons,
          if_neg (not_isPassedBy_self mark), List.append_nil]

/-- New events are later than the watermark, or of its instant. -/
theorem filter_new (listed : List Event) (hmax : ∀ e ∈ earlier, e.instant ≤ mark.instant)
    (hlate : ∀ e ∈ listed, e ∉ earlier → mark.instant ≤ e.instant) :
    (Source.newestFirst listed).filter (fun e => e ∉ earlier) =
      (Source.newestFirst listed).filter (fun e => mark.instant < e.instant) ++
        (listed.filter fun e => e.instant = mark.instant).filter fun e => e ∉ earlier := by
  have hlater : ((Source.newestFirst listed).filter fun e => mark.instant < e.instant).filter
      (fun e => e ∉ earlier) =
      (Source.newestFirst listed).filter fun e => mark.instant < e.instant := by
    refine List.filter_eq_self.mpr fun e he => decide_eq_true fun hold => ?_
    exact not_le_of_gt (of_decide_eq_true (List.mem_filter.mp he).2) (hmax e hold)
  have holder : ((Source.newestFirst listed).filter fun e => e.instant < mark.instant).filter
      (fun e => e ∉ earlier) = [] := by
    refine List.filter_eq_nil_iff.mpr fun e he hnew => ?_
    obtain ⟨hmem, hlt⟩ := List.mem_filter.mp he
    exact not_le_of_gt (of_decide_eq_true hlt)
      (hlate e (Source.mem_newestFirst.mp hmem) (of_decide_eq_true hnew))
  have hsplit := congrArg (List.filter fun e => decide (e ∉ earlier))
    (newestFirst_eq listed mark.instant)
  rw [List.filter_append, List.filter_append, hlater, holder, List.append_nil] at hsplit
  exact hsplit

/-- The new events of an instant are those of a front part exactly if the front holds the new ones
and the back holds the old ones. -/
theorem filter_front_eq_iff {front back : List Event} {t : Time.Instant}
    (hback : ∀ e ∈ back, e ∉ front) :
    ((front.filter fun e => e.instant = t) =
        ((front ++ back).filter fun e => e.instant = t).filter fun e => e ∉ earlier) ↔
      ∀ e ∈ front ++ back, e.instant = t → (e ∉ earlier ↔ e ∈ front) := by
  have hmem {e : Event} : e ∈ ((front ++ back).filter fun e => e.instant = t).filter
      (fun e => e ∉ earlier) ↔ (e ∈ front ++ back ∧ e.instant = t) ∧ e ∉ earlier := by
    rw [List.mem_filter, List.mem_filter, decide_eq_true_iff, decide_eq_true_iff]
  constructor
  · intro h e he ht
    constructor
    · intro hnew
      have hf := hmem.mpr ⟨⟨he, ht⟩, hnew⟩
      rw [← h] at hf
      exact (List.mem_filter.mp hf).1
    · intro hf
      have hnew : e ∈ front.filter fun e => e.instant = t :=
        List.mem_filter.mpr ⟨hf, decide_eq_true ht⟩
      rw [h] at hnew
      exact (hmem.mp hnew).2
  · intro h
    have hkept : (front.filter fun e => e.instant = t).filter (fun e => e ∉ earlier) =
        front.filter fun e => e.instant = t := by
      refine List.filter_eq_self.mpr fun e he => decide_eq_true ?_
      obtain ⟨hf, ht⟩ := List.mem_filter.mp he
      exact (h e (List.mem_append_left _ hf) (of_decide_eq_true ht)).mpr hf
    have hdropped : (back.filter fun e => e.instant = t).filter (fun e => e ∉ earlier) = [] := by
      refine List.filter_eq_nil_iff.mpr fun e he hnew => ?_
      obtain ⟨hb, ht⟩ := List.mem_filter.mp he
      exact hback e hb ((h e (List.mem_append_right _ hb) (of_decide_eq_true ht)).mp
        (of_decide_eq_true hnew))
    rw [List.filter_append, List.filter_append, hkept, hdropped, List.append_nil]

/-- The walk finds the new events exactly if the watermark separates them from the old ones of
its instant. -/
theorem ahead_eq_iff (hm : mark ∈ earlier) (hsub : earlier ⊆ listed)
    (hmax : ∀ e ∈ earlier, e.instant ≤ mark.instant)
    (hlate : ∀ e ∈ listed, e ∉ earlier → mark.instant ≤ e.instant)
    (hd : listed.Pairwise fun a b => a.identity.hash ≠ b.identity.hash) :
    ahead mark listed = (Source.newestFirst listed).filter (fun e => e ∉ earlier) ↔
      ∀ e ∈ listed, e.instant = mark.instant →
        (e ∉ earlier ↔ e ∈ listed.takeWhile fun e => e ≠ mark) := by
  obtain ⟨front, back, hlisted, hfront, -, hback⟩ := exists_split (hsub hm) hd
  unfold ahead
  rw [filter_new listed hmax hlate, List.append_cancel_left_eq, hfront, hlisted]
  exact filter_front_eq_iff hback

/-! ## Runs -/

namespace Scanner

section Rerun

variable {c : Configuration} {payload : String} {s : Scanner} {t : Trouble} {w : World}

theorem make_payload (hfilter : isBlankText c.filter = true)
    (hs : make (c.withPayload payload) = .ok s) :
    s = ⟨c.withPayload payload, c.identity, Filter.matchAll, .payload payload⟩ := by
  unfold make Source.ofConfiguration Configuration.withPayload Filter.compile at hs
  dsimp only at hs
  rw [if_pos hfilter] at hs
  exact (Except.ok.inj hs).symm

variable {listed : List Event} {last : Option Identity}

theorem follow_payload (hlists : Source.Lists payload listed) :
    w.follow t (Source.payload payload).events = (.ok (Source.newestFirst listed), w) := by
  rw [World.follow_events_payload, Source.eventsOfPayload_eq hlists]
  rfl

theorem select_all (payload : String) (hcap : c.cap = none) (events : List Event) :
    Filter.matchAll.select (c.withPayload payload).cap events = events := by
  have hnone : (c.withPayload payload).cap = none := hcap
  rw [Filter.select_eq, hnone]
  exact List.filter_eq_self.mpr fun _ _ => rfl

/-- One run over a payload: the walk goes over the sorted events. -/
theorem run_payload (hfilter : isBlankText c.filter = true) (hcap : c.cap = none)
    (hs : make (c.withPayload payload) = .ok s) (hlists : Source.Lists payload listed)
    (ht : t.SparesReading) (hl : w.record c.identity = .ok last) {fresh : List Event}
    (hfresh : unreported last (Source.newestFirst listed) = fresh) :
    (w.run t (s.run deliver)).2.offers = w.offers ++ (if fresh = [] then [] else [fresh]) ∧
      ((w.run t (s.run deliver)).1 = .ok skippedOutcome ↔ fresh = []) ∧
      (acknowledged (w.run t (s.run deliver)).1 = true →
        fresh ≠ [] ∧ ∃ mark rest, Source.newestFirst listed = mark :: rest ∧
          (w.run t (s.run deliver)).2.record c.identity =
            Store.readBack (joinPath w.store.folder c.identity) mark.identity) := by
  obtain rfl := make_payload hfilter hs
  obtain ⟨hoffers, hresult, hack, -⟩ :=
    run_spec (s := ⟨c.withPayload payload, c.identity, Filter.matchAll, .payload payload⟩)
      ht (Store.isKey_identity c) (follow_payload hlists) hl (select_all payload hcap _) hfresh
  exact ⟨hoffers, hresult, hack⟩

end Rerun

/-! ## Top theorem -/

/-- After an acknowledged first run over a payload, a run over a later payload with all of its
events and newer ones offers what the later payload lists ahead of the first one's watermark.
That is what is new exactly if, of the watermark's instant, the new events are those that are
listed before it. -/
theorem payload_rerun {c : Configuration} {first later : String} {earlier listed : List Event}
    {s s' : Scanner} {t t' : Trouble} {w w' : World} (hfilter : isBlankText c.filter = true)
    (hcap : c.cap = none) (hs : make (c.withPayload first) = .ok s)
    (hs' : make (c.withPayload later) = .ok s') (hfirst : Source.Lists first earlier)
    (hlater : Source.Lists later listed) (hsub : earlier ⊆ listed)
    (hlate : ∀ e ∈ listed, e ∉ earlier → ∀ f ∈ earlier, f.instant ≤ e.instant)
    (hd : listed.Pairwise fun a b => a.identity.hash ≠ b.identity.hash)
    (hplain : ∀ e ∈ listed, e.instant.HasPlainYear) (ht : t.SparesReading)
    (ht' : t'.SparesReading) (hnone : w.record c.identity = .ok none)
    (hack : acknowledged (w.run t (s.run deliver)).1 = true)
    (hkept : w'.record c.identity = (w.run t (s.run deliver)).2.record c.identity) :
    (w.run t (s.run deliver)).2.offers = w.offers ++ [Source.newestFirst earlier] ∧
      ∃ mark, (earlier.filter fun e => ∀ f ∈ earlier, f.instant ≤ e.instant).head? = some mark ∧
        (w'.run t' (s'.run deliver)).2.offers =
          w'.offers ++ (if ahead mark listed = [] then [] else [ahead mark listed]) ∧
        ((w'.run t' (s'.run deliver)).1 = .ok skippedOutcome ↔ ahead mark listed = []) ∧
        (ahead mark listed = (Source.newestFirst listed).filter (fun e => e ∉ earlier) ↔
          ∀ e ∈ listed, e.instant = mark.instant →
            (e ∉ earlier ↔ e ∈ listed.takeWhile fun e => e ≠ mark)) := by
  obtain ⟨hoffers, -, hmoved⟩ := run_payload hfilter hcap hs hfirst ht hnone rfl
  obtain ⟨hne, mark, rest, hsorted, hrecord⟩ := hmoved hack
  rw [if_neg hne] at hoffers
  have hhead := Source.head?_newestFirst earlier
  rw [hsorted, List.head?_cons] at hhead
  have hmem : mark ∈ earlier := Source.mem_newestFirst.mp (hsorted ▸ List.mem_cons_self)
  have hmax : ∀ e ∈ earlier, e.instant ≤ mark.instant := by
    intro e he
    have hmark := (List.mem_filter.mp (List.mem_of_head? hhead.symm)).2
    exact of_decide_eq_true hmark e he
  rw [Store.readBack_of_plain (hplain mark (hsub hmem)), ← hkept] at hrecord
  obtain ⟨hoffers', hresult', -⟩ := run_payload hfilter hcap hs' hlater ht' hrecord
    (unreported_payload (hsub hmem) hd)
  exact ⟨hoffers, mark, hhead.symm, hoffers', hresult',
    ahead_eq_iff hmem hsub hmax (fun e he hn => hlate e he hn mark hmem) hd⟩

/-! ## Payloads of one instant -/

namespace Sample

def blank : Configuration where
  filter := ""
  timeLimit := .hour
  maxMessages := 0
  remoteMachine := ""
  eventLog := ""

/-- The scanner of the configuration over a payload. -/
def reader (payload : String) : Scanner where
  config := blank.withPayload payload
  identity := "A99B4F5AEA9B19F100751E9CA4267FEDBC4484FA3298D71F9F98AB3528F2BFA4"
  filter := .matchAll
  source := .payload payload

theorem identity_blank (payload : String) : blank.identity = (reader payload).identity := by
  show blank.identity = "A99B4F5AEA9B19F100751E9CA4267FEDBC4484FA3298D71F9F98AB3528F2BFA4"
  decide +kernel

theorem make_blank (payload : String) :
    make (blank.withPayload payload) = .ok (reader payload) := by
  have hblank : isBlankText (blank.withPayload payload).filter = true := rfl
  have hidentity : (blank.withPayload payload).identity = (reader payload).identity :=
    identity_blank payload
  unfold make Source.ofConfiguration Filter.compile
  rw [if_pos hblank, hidentity]
  rfl

def pair : String := "[\x7b\"EventID\":1\x7d,\x7b\"EventID\":2\x7d]"

/-- The two with a third before them, all of one instant. -/
def prepended : String :=
  "[\x7b\"EventID\":3\x7d,\x7b\"EventID\":1\x7d,\x7b\"EventID\":2\x7d]"

/-- The two with the third after them. -/
def appended : String :=
  "[\x7b\"EventID\":1\x7d,\x7b\"EventID\":2\x7d,\x7b\"EventID\":3\x7d]"

def pairEvents : List Event := [{ eventId := 1 }, { eventId := 2 }]

def third : Event := { eventId := 3 }

def empty : World where
  store := ⟨"s", false⟩
  host := {}

theorem lists :
    Source.Lists pair pairEvents ∧ Source.Lists prepended (third :: pairEvents) ∧
      Source.Lists appended (pairEvents ++ [third]) := by
  decide +kernel

theorem hash_ne : (third :: pairEvents).Pairwise fun a b => a.identity.hash ≠ b.identity.hash := by
  decide +kernel

theorem hash_ne_appended :
    (pairEvents ++ [third]).Pairwise fun a b => a.identity.hash ≠ b.identity.hash :=
  ((List.perm_append_singleton third pairEvents).pairwise_iff Ne.symm).mpr hash_ne

theorem newestFirst_pair : Source.newestFirst pairEvents = pairEvents :=
  Source.newestFirst_of_pairwise (by decide)

/-- The first run. -/
theorem first_run :
    empty.record blank.identity = .ok none ∧
      (empty.run calm ((reader pair).run deliver)).2.offers = [pairEvents] ∧
      acknowledged (empty.run calm ((reader pair).run deliver)).1 = true := by
  have hrecord : empty.record (reader pair).identity = .ok none := by decide +kernel
  have hk : Store.isKey (reader pair).identity = true :=
    identity_blank pair ▸ Store.isKey_identity blank
  have hselect := run_select (s := reader pair) calm_sparesReading hk (follow_payload lists.1)
    hrecord
  have hall : (reader pair).filter.select (reader pair).config.cap
      (Source.newestFirst pairEvents) = Source.newestFirst pairEvents :=
    select_all (c := blank) pair rfl _
  rw [hall, newestFirst_pair] at hselect
  have hack : acknowledged (empty.run calm ((reader pair).run deliver)).1 = true := by
    rw [run_eq_hand (List.cons_ne_nil _ _) hselect]
    decide +kernel
  rw [← identity_blank pair] at hrecord
  obtain ⟨hoffers, -, -⟩ := run_payload (c := blank) rfl rfl (make_blank pair) lists.1
    calm_sparesReading hrecord newestFirst_pair
  have hsome : pairEvents ≠ [] := List.cons_ne_nil _ _
  rw [if_neg hsome] at hoffers
  exact ⟨hrecord, hoffers.trans (List.nil_append _), hack⟩

end Sample

/-- The third event is listed before the pair, and the run reports it. -/
theorem payload_rerun_prepended :
    let w := (Sample.empty.run calm ((Sample.reader Sample.pair).run deliver)).2
    w.offers = [Sample.pairEvents] ∧
      (w.run calm ((Sample.reader Sample.prepended).run deliver)).2.offers =
        [Sample.pairEvents, [Sample.third]] := by
  intro w
  obtain ⟨hnone, hfirst, hack⟩ := Sample.first_run
  obtain ⟨-, mark, hmark, hoffers, -, -⟩ :=
    payload_rerun (c := Sample.blank) rfl rfl (Sample.make_blank Sample.pair)
      (Sample.make_blank Sample.prepended) Sample.lists.1 Sample.lists.2.1
      (List.subset_cons_self _ _) (by decide) Sample.hash_ne (by decide) calm_sparesReading
      calm_sparesReading hnone hack (rfl : w.record Sample.blank.identity = _)
  have hhead : (Sample.pairEvents.filter fun e =>
      ∀ f ∈ Sample.pairEvents, f.instant ≤ e.instant).head? = some { eventId := 1 } := by
    decide
  obtain rfl := Option.some.inj (hhead.symm.trans hmark)
  have hsorted : Source.newestFirst (Sample.third :: Sample.pairEvents) =
      Sample.third :: Sample.pairEvents :=
    Source.newestFirst_of_pairwise (by decide)
  have hahead : ahead { eventId := 1 } (Sample.third :: Sample.pairEvents) = [Sample.third] := by
    unfold ahead
    rw [hsorted]
    decide
  rw [hahead, hfirst] at hoffers
  exact ⟨hfirst, hoffers⟩

/-- The third event is listed after the pair, it is new, and the run is skipped. -/
theorem appended_event_never_reported :
    let w := (Sample.empty.run calm ((Sample.reader Sample.pair).run deliver)).2
    make (Sample.blank.withPayload Sample.pair) = .ok (Sample.reader Sample.pair) ∧
      make (Sample.blank.withPayload Sample.appended) = .ok (Sample.reader Sample.appended) ∧
      Source.Lists Sample.pair Sample.pairEvents ∧
      Source.Lists Sample.appended (Sample.pairEvents ++ [Sample.third]) ∧
      Sample.third ∉ Sample.pairEvents ∧
      (∀ e ∈ Sample.pairEvents, e.instant ≤ Sample.third.instant) ∧
      (∀ e ∈ Sample.pairEvents ++ [Sample.third], e.instant.HasPlainYear) ∧
      ((Sample.pairEvents ++ [Sample.third]).Pairwise fun a b =>
        a.identity.hash ≠ b.identity.hash) ∧
      Sample.empty.record Sample.blank.identity = .ok none ∧
      acknowledged (Sample.empty.run calm ((Sample.reader Sample.pair).run deliver)).1 = true ∧
      w.offers = [Sample.pairEvents] ∧
      (w.run calm ((Sample.reader Sample.appended).run deliver)).1 = .ok skippedOutcome := by
  intro w
  obtain ⟨hnone, hfirst, hack⟩ := Sample.first_run
  obtain ⟨-, -, hmoved⟩ := run_payload (c := Sample.blank) rfl rfl
    (Sample.make_blank Sample.pair) Sample.lists.1 calm_sparesReading hnone rfl
  obtain ⟨-, mark, rest, hcons, hrecord⟩ := hmoved hack
  rw [Sample.newestFirst_pair] at hcons
  obtain ⟨rfl, -⟩ := List.cons.inj hcons
  rw [Store.readBack_of_plain (by decide)] at hrecord
  have hsorted : Source.newestFirst (Sample.pairEvents ++ [Sample.third]) =
      Sample.pairEvents ++ [Sample.third] :=
    Source.newestFirst_of_pairwise (by decide)
  have hahead : ahead { eventId := 1 } (Sample.pairEvents ++ [Sample.third]) = [] := by
    unfold ahead
    rw [hsorted]
    decide
  have hskipped := (run_payload (w := w) (c := Sample.blank) rfl rfl
    (Sample.make_blank Sample.appended) Sample.lists.2.2 calm_sparesReading hrecord
    ((unreported_payload (by decide) Sample.hash_ne_appended).trans hahead)).2.1
  exact ⟨Sample.make_blank _, Sample.make_blank _, Sample.lists.1, Sample.lists.2.2, by decide,
    by decide, by decide, Sample.hash_ne_appended, hnone, hack, hfirst, hskipped.mpr rfl⟩

end Scanner
end LogWatch
