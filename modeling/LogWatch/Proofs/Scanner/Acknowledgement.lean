import LogWatch.Proofs.Scanner.Cycle

/-!
# What one cycle may do

Whatever a cycle finds, in the folder of the records and in its source, and whatever fails: it hands
its news to the sink once, exactly those that a preview shows, and it touches one record, its own.
That record changes only when the sink has taken the news and the save that follows has succeeded,
and then it is the record of the first event that the cycle has selected.

    (w.run t (s.run deliver)).1 = .ok outcome ↔
      (w.run t s.preview).1 = .ok [] ∧ outcome = skippedOutcome ∨
        ∃ newest fresh, Acknowledges t w s newest fresh ∧ outcome = …        (run_eq_ok_iff)
-/

namespace LogWatch.Scanner

/-- The cycle has news, the sink takes them, and then the save of the newest event succeeds. -/
structure Acknowledges (t : Trouble) (w : World) (s : Scanner) (newest : Event)
    (fresh : List Event) : Prop where
  selects : ∃ rest, selected t w s = .ok ⟨newest :: rest, fresh⟩
  news : fresh ≠ []
  taken : ∃ report, w.host.sink fresh s.config = .ok report
  saved : (((w.run t s.preview).2.answer t (.deliver fresh s.config)).2.run t
    (Store.save s.identity newest)).1 = .ok ()

variable {t : Trouble} {w : World} {s : Scanner} {newest : Event} {fresh : List Event}

theorem keeps_sink_ensureFolder : World.Keeps (fun w => w.host.sink) Store.ensureFolder := by
  intro t w
  rcases World.run_ensureFolder_snd t w with h | ⟨made, h⟩ <;> rw [h]
  show (w.host.answerAmid t (.createFolder w.store.folder)).2.sink = w.host.sink
  unfold Host.answerAmid
  cases t (.createFolder w.store.folder) with
  | none => rw [Host.answer_createFolder]
  | some m => rfl

/-- A preview leaves every file as it is, and hands nothing on. -/
theorem preview_keeps (t : Trouble) (w : World) (s : Scanner) :
    (w.run t s.preview).2.offers = w.offers ∧
      ∀ name, (w.run t s.preview).2.entry name = w.entry name := by
  rw [run_preview]
  exact ⟨keeps_select World.keeps_offers_ensureFolder s t w,
    fun name => keeps_entry_select name s t w⟩

theorem preview_keeps_folder (t : Trouble) (w : World) (s : Scanner) :
    (w.run t s.preview).2.store.folder = w.store.folder := by
  rw [run_preview]
  exact keeps_select World.keeps_folder_ensureFolder s t w

theorem preview_keeps_sink (t : Trouble) (w : World) (s : Scanner) :
    (w.run t s.preview).2.host.sink = w.host.sink := by
  rw [run_preview]
  exact keeps_select keeps_sink_ensureFolder s t w

theorem Acknowledges.lands (h : Acknowledges t w s newest fresh) :
    Lands t (w.run t s.preview).2 s newest fresh where
  taken := by
    rw [preview_keeps_sink]
    exact h.taken
  saved := h.saved

theorem acknowledges_of_lands {rest : List Event}
    (hs : selected t w s = .ok ⟨newest :: rest, fresh⟩) (hne : fresh ≠ [])
    (h : Lands t (w.run t s.preview).2 s newest fresh) : Acknowledges t w s newest fresh where
  selects := ⟨rest, hs⟩
  news := hne
  taken := by
    rw [← preview_keeps_sink t w s]
    exact h.taken
  saved := h.saved

theorem preview_fst (t : Trouble) (w : World) (s : Scanner) :
    (w.run t s.preview).1 = (selected t w s).map Selection.unreported := by
  rw [run_preview]

/-- The cycle goes on in the world of the preview. -/
theorem run_ends (t : Trouble) (w : World) {s : Scanner} (hk : Store.isKey s.identity = true) :
    let shown := w.run t s.preview
    let ended := w.run t (s.run deliver)
    (∃ e, selected t w s = .error e ∧ ended = (.error e, shown.2)) ∨
      (∃ matched, selected t w s = .ok ⟨matched, []⟩ ∧ ended = (.ok skippedOutcome, shown.2)) ∨
      ∃ newest rest fresh, fresh ≠ [] ∧ selected t w s = .ok ⟨newest :: rest, fresh⟩ ∧
        ended.2.offers = w.offers ++ [fresh] ∧
        (¬Lands t shown.2 s newest fresh ∧ (∃ e, ended.1 = .error e) ∧
            ended.2.entry s.identity = w.entry s.identity ∨
          Lands t shown.2 s newest fresh ∧ ended.1 = .ok (sentOutcome fresh.length) ∧
            ended.2.entry s.identity = .ok (joinPath w.store.folder s.identity,
              .ok (Store.recordText newest.identity).toUTF8)) := by
  intro shown ended
  have hshown : (w.run t s.select).2 = shown.2 := by
    rw [show shown = _ from run_preview t w s]
  obtain ⟨hoffers, hentry⟩ := preview_keeps t w s
  have hfolder := preview_keeps_folder t w s
  have hcases := run_cases t w s
  dsimp only at hcases
  rw [hshown] at hcases
  obtain hfailed | hskipped | ⟨newest, rest, fresh, hne, hselected, hrun⟩ := hcases
  · exact .inl hfailed
  · exact .inr (.inl hskipped)
  · obtain ⟨hsent, hend⟩ := run_hand t shown.2 hk newest fresh
    rw [← hrun, hoffers] at hsent
    rw [← hrun, hentry, hfolder] at hend
    exact .inr (.inr ⟨newest, rest, fresh, hne, hselected, hsent, hend⟩)

theorem Acknowledges.not_error {e : Error} (h : Acknowledges t w s newest fresh)
    (hs : selected t w s = .error e) : False := by
  obtain ⟨rest, hselects⟩ := h.selects
  rw [hselects] at hs
  cases hs

/-- Only what is selected can be acknowledged. -/
theorem Acknowledges.eq_selected {matched fresh' : List Event}
    (h : Acknowledges t w s newest fresh) (hs : selected t w s = .ok ⟨matched, fresh'⟩) :
    matched.head? = some newest ∧ fresh' = fresh := by
  obtain ⟨rest, hselects⟩ := h.selects
  rw [hselects] at hs
  obtain ⟨rfl, rfl⟩ := Selection.mk.inj (Except.ok.inj hs)
  exact ⟨rfl, rfl⟩

theorem run_offers (hk : Store.isKey s.identity = true) :
    (w.run t (s.run deliver)).2.offers = w.offers ++
      match (w.run t s.preview).1 with
      | .ok (first :: more) => [first :: more]
      | _ => [] := by
  have hoffers := (preview_keeps t w s).1
  have hshown := preview_fst t w s
  obtain ⟨e, hselected, hended⟩ | ⟨matched, hselected, hended⟩ |
    ⟨newest, rest, fresh, hne, hselected, hsent, -⟩ := run_ends t w hk
  · rw [hended, hshown, hselected, hoffers]
    exact (List.append_nil _).symm
  · rw [hended, hshown, hselected, hoffers]
    exact (List.append_nil _).symm
  · rw [hsent, hshown, hselected]
    cases fresh with
    | nil => contradiction
    | cons first more => rfl

theorem run_entry_of_acknowledges (hk : Store.isKey s.identity = true)
    (h : Acknowledges t w s newest fresh) :
    (w.run t (s.run deliver)).2.entry s.identity =
      .ok (joinPath w.store.folder s.identity,
        .ok (Store.recordText newest.identity).toUTF8) := by
  obtain ⟨e, hselected, -⟩ | ⟨matched, hselected, -⟩ |
    ⟨newest', rest, fresh', -, hselected, -, hend⟩ := run_ends t w hk
  · cases h.not_error hselected
  · exact absurd (h.eq_selected hselected).2.symm h.news
  · obtain ⟨hnewest, rfl⟩ := h.eq_selected hselected
    obtain rfl := Option.some.inj hnewest
    obtain ⟨hlands, -⟩ | ⟨-, -, hmoved⟩ := hend
    · exact absurd h.lands hlands
    · exact hmoved

theorem run_entry_of_not_acknowledges (hk : Store.isKey s.identity = true)
    (h : ∀ newest fresh, ¬Acknowledges t w s newest fresh) :
    (w.run t (s.run deliver)).2.entry s.identity = w.entry s.identity := by
  have hkept := (preview_keeps t w s).2 s.identity
  obtain ⟨e, -, hended⟩ | ⟨matched, -, hended⟩ |
    ⟨newest, rest, fresh, hne, hselected, -, hend⟩ := run_ends t w hk
  · rw [hended, hkept]
  · rw [hended, hkept]
  · obtain ⟨-, -, hsame⟩ | ⟨hlands, -, -⟩ := hend
    · exact hsame
    · exact absurd (acknowledges_of_lands hselected hne hlands) (h newest fresh)

theorem run_eq_ok_iff (hk : Store.isKey s.identity = true) (outcome : Outcome) :
    (w.run t (s.run deliver)).1 = .ok outcome ↔
      (w.run t s.preview).1 = .ok [] ∧ outcome = skippedOutcome ∨
        ∃ newest fresh, Acknowledges t w s newest fresh ∧ outcome = sentOutcome fresh.length := by
  rw [preview_fst]
  obtain ⟨e, hselected, hended⟩ | ⟨matched, hselected, hended⟩ |
    ⟨newest, rest, fresh, hne, hselected, -, hend⟩ := run_ends t w hk
  · rw [hended, hselected]
    constructor
    · nofun
    · rintro (⟨⟨⟩, -⟩ | ⟨newest, fresh, h, -⟩)
      cases h.not_error hselected
  · rw [hended, hselected]
    constructor
    · exact fun h => .inl ⟨rfl, (Except.ok.inj h).symm⟩
    · rintro (⟨-, rfl⟩ | ⟨newest, fresh, h, -⟩)
      · rfl
      · exact absurd (h.eq_selected hselected).2.symm h.news
  · rw [hselected]
    obtain ⟨hlands, ⟨e, hresult⟩, -⟩ | ⟨hlands, hresult, -⟩ := hend <;> rw [hresult]
    · constructor
      · nofun
      · rintro (⟨hnil, -⟩ | ⟨newest', fresh', h, -⟩)
        · exact absurd (Except.ok.inj hnil) hne
        · obtain ⟨hnewest, rfl⟩ := h.eq_selected hselected
          obtain rfl := Option.some.inj hnewest
          exact absurd h.lands hlands
    · constructor
      · exact fun h => .inr ⟨newest, fresh, acknowledges_of_lands hselected hne hlands,
          (Except.ok.inj h).symm⟩
      · rintro (⟨hnil, -⟩ | ⟨newest', fresh', h, rfl⟩)
        · exact absurd (Except.ok.inj hnil) hne
        · rw [(h.eq_selected hselected).2]

theorem acknowledges_of_acknowledged (hk : Store.isKey s.identity = true)
    (h : acknowledged (w.run t (s.run deliver)).1 = true) :
    ∃ newest fresh, Acknowledges t w s newest fresh := by
  cases hr : (w.run t (s.run deliver)).1 with
  | error e =>
    rw [hr] at h
    cases h
  | ok outcome =>
    obtain ⟨-, rfl⟩ | ⟨newest, fresh, hack, -⟩ := (run_eq_ok_iff hk outcome).mp hr
    · rw [hr] at h
      cases h
    · exact ⟨newest, fresh, hack⟩

/-! ## Top theorem -/

/-- A cycle and a preview of one configuration, in the same world and amid the same trouble.  The
sink is handed what the preview shows, if that is anything.  The configuration's own record
becomes that of the newest event if the cycle is acknowledged, and is kept otherwise; all other
records are kept.  The outcome tells which of these happened.  The preview hands on and changes
nothing. -/
theorem run_touches_own_record (t : Trouble) (w : World) (c : Configuration) (filter : Filter)
    (source : Source) :
    let s : Scanner := ⟨c, c.identity, filter, source⟩
    let shown := w.run t s.preview
    let ended := w.run t (s.run deliver)
    (shown.1 = (selected t w s).map Selection.unreported ∧
      ended.2.offers = w.offers ++
        match shown.1 with
        | .ok (first :: more) => [first :: more]
        | _ => []) ∧
    (∀ newest fresh, Acknowledges t w s newest fresh → ended.2.entry c.identity =
      .ok (joinPath w.store.folder c.identity, .ok (Store.recordText newest.identity).toUTF8)) ∧
    ((∀ newest fresh, ¬Acknowledges t w s newest fresh) →
      ended.2.entry c.identity = w.entry c.identity) ∧
    (∀ key, Store.isKey key = true → key ≠ c.identity → ended.2.entry key = w.entry key) ∧
    (∀ outcome, ended.1 = .ok outcome ↔
      shown.1 = .ok [] ∧ outcome = skippedOutcome ∨
        ∃ newest fresh, Acknowledges t w s newest fresh ∧ outcome = sentOutcome fresh.length) ∧
    shown.2.offers = w.offers ∧ ∀ key, shown.2.entry key = w.entry key := by
  intro s shown ended
  have hk : Store.isKey s.identity = true := Store.isKey_identity c
  obtain ⟨hoffers, hentry⟩ := preview_keeps t w s
  exact ⟨⟨preview_fst t w s, run_offers hk⟩, fun _ _ => run_entry_of_acknowledges hk,
    run_entry_of_not_acknowledges hk, fun key hkey hne => keeps_entry_run hkey hne t w,
    run_eq_ok_iff hk, hoffers, hentry⟩

/-! ## Beside a damaged record -/

namespace Sample

def plain : Configuration := .make "" .hour 0 "" ""

def single : String := "[\x7b\"EventID\":1\x7d]"

/-- A scanner of the configuration over a payload of one event. -/
def once : Scanner := ⟨plain, plain.identity, .matchAll, .payload single⟩

/-- The folder holds a record of another key, which no lookup can read. -/
def damaged : World where
  store := ⟨"s", false⟩
  host := { disk := ⟨[(["s", "AB"], .file "junk".toUTF8), (["s"], .folder)]⟩ }

theorem follow_once (w : World) :
    w.follow calm once.source.events = (.ok [{ eventId := 1 }], w) := by
  have hlists : Source.Lists single [{ eventId := 1 }] := by decide +kernel
  have hsorted : Source.newestFirst [{ eventId := 1 }] = [{ eventId := 1 }] :=
    Source.newestFirst_of_pairwise (by decide)
  rw [show once.source = .payload single from rfl, World.follow_events_payload,
    Source.eventsOfPayload_eq hlists, hsorted]
  rfl

/-- There is no record, so the event is new. -/
theorem acknowledges_once : Acknowledges calm damaged once { eventId := 1 } [{ eventId := 1 }] := by
  have hk : Store.isKey once.identity = true := Store.isKey_identity plain
  have hnone : damaged.record once.identity = .ok none := by decide +kernel
  have hselect : damaged.run calm once.select =
      (.ok ⟨[{ eventId := 1 }], [{ eventId := 1 }]⟩, (damaged.run calm Store.ensureFolder).2) :=
    run_select calm_sparesReading hk (follow_once damaged) hnone
  have hshown : (damaged.run calm once.preview).2 = (damaged.run calm Store.ensureFolder).2 := by
    rw [run_preview, hselect]
  constructor
  · exact ⟨[], selected_of_select hselect⟩
  · exact List.cons_ne_nil _ _
  · exact ⟨_, rfl⟩
  · rw [hshown]
    decide +kernel

end Sample

/-- A cycle with news saves its record and leaves the damaged one as it is. -/
theorem run_beside_damaged_record :
    let ended := Sample.damaged.run calm (Sample.once.run deliver)
    Sample.damaged.record "AB" = .error (.malformedRecord "s/AB" .missingHash) ∧
      ended.1 = .ok (sentOutcome 1) ∧ ended.2.offers = [[{ eventId := 1 }]] ∧
      ended.2.entry Sample.plain.identity = .ok (joinPath "s" Sample.plain.identity,
        .ok (Store.recordText (Event.identity { eventId := 1 })).toUTF8) ∧
      ended.2.entry "AB" = .ok ("s/AB", .ok "junk".toUTF8) := by
  have hack := Sample.acknowledges_once
  unfold Sample.once at hack ⊢
  obtain ⟨⟨hshown, hoffers⟩, hown, -, hothers, hresult, -⟩ := run_touches_own_record calm
    Sample.damaged Sample.plain .matchAll (.payload Sample.single)
  obtain ⟨rest, hselects⟩ := hack.selects
  rw [hshown, hselects] at hoffers
  have hne : "AB" ≠ Sample.plain.identity := by decide +kernel
  refine ⟨by decide +kernel, (hresult _).mpr (.inr ⟨_, _, hack, rfl⟩), hoffers, hown _ _ hack, ?_⟩
  rw [hothers "AB" (by decide +kernel) hne]
  decide +kernel

end LogWatch.Scanner
