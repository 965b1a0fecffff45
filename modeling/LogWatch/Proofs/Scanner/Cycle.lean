import LogWatch.Scanner
import LogWatch.Proofs.Source.Events
import LogWatch.Proofs.Store.Lookup

/-!
# One cycle in a world

A cycle that finds nothing new hands nothing to the sink and keeps the record.  A cycle with
news hands them on once; if the sink takes them and the save succeeds, the record becomes what
the first accepted event is read back as, and otherwise it is kept.  A cycle of another
identity keeps the record whatever happens.

    run_cases, run_hand, run_spec, keeps_entry_run
-/

namespace LogWatch

namespace World

variable {α : Type} {t : Trouble} {w w' : World} {key other : String}

/-! ## What a file and a record depend on -/

/-- The sink, the clock and the output do not matter for a file. -/
theorem entry_congr (hs : w'.store = w.store) (hd : w'.host.disk = w.host.disk)
    (hw : w'.host.working = w.host.working) (name : String) : w'.entry name = w.entry name := by
  cases hm : w.store.made with
  | true => rw [entry_of_made (hs ▸ hm), entry_of_made hm, hs, hd, hw]
  | false =>
    unfold entry
    rw [run_ensureFolder_of_not_made calm hm, run_ensureFolder_of_not_made calm (hs ▸ hm),
      answer_of_silent (t := calm) rfl rfl, answer_of_silent (t := calm) rfl rfl, hs,
      Host.answer_createFolder, Host.answer_createFolder, hd, hw]
    cases (w.host.disk.makeAt w.host.working w.store.folder).1 <;> rfl

/-- When reading is spared, a lookup tells the record and opens the store. -/
theorem run_get?_of_spared (ht : t.SparesReading) (w : World) (hk : Store.isKey key = true) :
    w.run t (Store.get? key) = (w.record key, (w.run calm Store.ensureFolder).2) := by
  unfold record
  rw [run_get? t w hk, run_get? calm w hk, run_ensureFolder_of_spared ht]
  rcases w.run calm Store.ensureFolder with ⟨_ | folder, w₁⟩
  · rfl
  · dsimp only
    rw [follow_readText_of_spared ht, follow_readText_of_spared calm_sparesReading]

/-! ## What the work on a store keeps -/

theorem keeps_entry_save (hk : Store.isKey key = true) (hne : key ≠ other) (e : Event) :
    Keeps (fun w => w.entry key) (Store.save other e) := fun t w =>
  entry_save_other t w e (Store.plainName_of_isKey hk) (Store.ne_temporary hk other) hne

/-- Work that leaves the file of a key leaves its record. -/
theorem Keeps.record {ε : Type} {x : ExceptT ε (StateT Store Plan) α} (hk : Store.isKey key = true)
    (h : Keeps (fun w => w.entry key) x) : Keeps (fun w => w.record key) x :=
  fun t w => record_of_entry hk (h t w)

theorem follow_request_offers (t : Trouble) (w : World) {q : Request} (hq : q.offer = []) :
    (w.answer t q).2.offers = w.offers := by
  show w.offers ++ q.offer = w.offers
  rw [hq, List.append_nil]

theorem keeps_offers_access {q : Request} {p : Plan (Except FileFault α)} (path : String)
    (hp : ∀ t w, (w.follow t p).2 = (World.answer t w q).2) (hq : q.offer = []) :
    Keeps World.offers (Store.access path p) := by
  intro t w
  rw [run_access_snd, hp, follow_request_offers t w hq]

theorem keeps_offers_ensureFolder : Keeps World.offers Store.ensureFolder := by
  intro t w
  rcases run_ensureFolder_snd t w with h | ⟨made, h⟩ <;> rw [h]
  exact follow_request_offers t w rfl

theorem keeps_folder_ensureFolder : Keeps (fun w => w.store.folder) Store.ensureFolder := by
  intro t w
  rcases run_ensureFolder_snd t w with h | ⟨made, h⟩ <;> rw [h]
  rfl

theorem keeps_get? {γ : Type} {f : World → γ} (hf : Keeps f Store.ensureFolder) (key : String) :
    Keeps f (Store.get? key) := by
  intro t w
  by_cases hk : Store.isKey key = true
  · rw [run_get?_snd t w hk]
    exact hf t w
  · rw [run_get?_of_not_key t w hk]

/-- A save hands nothing to the sink. -/
theorem keeps_offers_save (key : String) (e : Event) :
    Keeps World.offers (Store.save key e) := by
  intro t w
  by_cases hk : Store.isKey key = true
  · have hopen := keeps_offers_ensureFolder t w
    have hwrite (folder : String) :
        Keeps World.offers (Store.write folder key (Store.recordText e.identity).toUTF8) := by
      refine keeps_bind (keeps_bind ?_ fun _ => keeps_bind ?_ fun _ => ?_) fun _ => ?_ <;>
        exact keeps_offers_access _ (fun _ _ => rfl) rfl
    rw [Store.run_save t w hk]
    rcases hf : w.run t Store.ensureFolder with ⟨_ | folder, w₁⟩
    · rw [hf] at hopen
      exact hopen
    · rw [hf] at hopen
      exact (hwrite folder t w₁).trans hopen
  · rw [Store.run_save_of_not_key t w hk]

/-! ## Sources -/

theorem answer_clock (t : Trouble) (w : World) : w.answer t .clock = (w.host.now, w) := by
  have hhost : w.host.answerAmid t .clock = (w.host.now, w.host) := by
    unfold Host.answerAmid
    cases t .clock <;> rfl
  unfold answer
  rw [hhost]
  exact Prod.ext rfl (by rw [show Request.offer .clock = [] from rfl, List.append_nil])

theorem follow_events_payload (t : Trouble) (w : World) (text : String) :
    w.follow t (Source.payload text).events =
      ((Source.eventsOfPayload text).mapError .badPayload, w) := by
  unfold Source.events
  cases h : Source.eventsOfPayload text <;> simp only [h] <;> rfl

theorem follow_events_logFile (t : Trouble) (w : World) (path : String) (limit : Time.TimeLimit) :
    w.follow t (Source.logFile path limit).events =
      (match (w.follow t (Plan.readText path)).1 with
        | .error fault => .error (.unreadable path fault)
        | .ok log =>
          (Source.eventsOfLog (Time.windowStart w.host.now limit) log).mapError (.badLine path),
        w) := by
  unfold Source.events
  dsimp only
  rw [follow_bind, follow_request, answer_clock]
  dsimp only
  rw [follow_bind, follow_readText]
  cases (w.follow t (Plan.readText path)).1 with
  | error f => rfl
  | ok log =>
    dsimp only
    cases h : Source.eventsOfLog (Time.windowStart w.host.now limit) log <;> rfl

/-- Reading a source changes nothing. -/
theorem follow_events (t : Trouble) (w : World) (s : Source) : (w.follow t s.events).2 = w := by
  cases s with
  | payload text => rw [follow_events_payload]
  | logFile path limit => rw [follow_events_logFile]

/-! ## The work of a cycle -/

theorem run_onStore (t : Trouble) (w : World) (x : Store.Task α) :
    w.run t (Scanner.onStore x) =
      ((w.run t x).1.mapError Scanner.Error.store, (w.run t x).2) := by
  refine run_mapError (congrArg (x.run >>= ·) (funext fun r => ?_)) t w
  cases r <;> rfl

theorem keeps_onStore {γ : Type} {f : World → γ} {x : Store.Task α} (hx : Keeps f x) :
    Keeps f (Scanner.onStore x) := by
  intro t w
  rw [run_onStore]
  exact hx t w

/-- The sink's answer cannot be struck by trouble. -/
theorem answerAmid_deliver (t : Trouble) (h : Host) (events : List Event) (c : Configuration) :
    h.answerAmid t (.deliver events c) = h.answer (.deliver events c) := by
  unfold Host.answerAmid
  cases t (.deliver events c) <;> rfl

theorem answer_deliver_fst (t : Trouble) (w : World) (events : List Event) (c : Configuration) :
    (w.answer t (.deliver events c)).1 = (w.host.sink events c).map fun _ => () := by
  unfold answer
  rw [answerAmid_deliver]
  unfold Host.answer
  dsimp only
  cases w.host.sink events c <;> rfl

theorem entry_deliver (t : Trouble) (w : World) (events : List Event) (c : Configuration)
    (name : String) : (w.answer t (.deliver events c)).2.entry name = w.entry name := by
  have hkept : (w.host.answer (.deliver events c)).2.disk = w.host.disk ∧
      (w.host.answer (.deliver events c)).2.working = w.host.working := by
    unfold Host.answer
    dsimp only
    cases w.host.sink events c <;> exact ⟨rfl, rfl⟩
  have hhost : (w.answer t (.deliver events c)).2.host =
      (w.host.answer (.deliver events c)).2 := by
    unfold answer
    rw [answerAmid_deliver]
  apply entry_congr
  · rfl
  · rw [hhost, hkept.1]
  · rw [hhost, hkept.2]

end World

namespace Scanner

variable {t : Trouble} {w w' : World} {key : String}

/-- What opening the store leaves as it is, selecting leaves as it is. -/
theorem keeps_select {γ : Type} {f : World → γ} (hf : World.Keeps f Store.ensureFolder)
    (s : Scanner) : World.Keeps f s.select := by
  unfold select
  refine World.keeps_bind (World.keeps_plan fun t w => ?_) fun r => ?_
  · rw [World.follow_events]
  · cases r with
    | error e => exact World.keeps_throw _ _
    | ok events =>
      refine World.keeps_bind (World.keeps_onStore ?_) fun _ => World.keeps_pure _ _
      exact World.keeps_bind (World.keeps_get? hf _) fun _ => World.keeps_pure _ _

theorem keeps_entry_select (name : String) (s : Scanner) :
    World.Keeps (fun w => w.entry name) s.select :=
  keeps_select (fun t w => World.entry_ensureFolder t w name) s

/-- A cycle of another identity keeps the file of a key, whatever fails and however it ends. -/
theorem keeps_entry_run (hk : Store.isKey key = true) {s : Scanner} (hne : key ≠ s.identity) :
    World.Keeps (fun w => w.entry key) (s.run deliver) := by
  unfold run
  refine World.keeps_bind (keeps_entry_select key s) fun selection => ?_
  obtain ⟨matched, unreported⟩ := selection
  dsimp only
  split
  · next newest rest first more =>
    refine World.keeps_bind (World.keeps_plan fun t w => World.entry_deliver t w _ _ key) ?_
    intro r
    cases r with
    | error e => exact World.keeps_throw _ _
    | ok _ =>
      exact World.keeps_bind (World.keeps_onStore (World.keeps_entry_save hk hne newest))
        fun _ => World.keeps_pure _ _
  · exact World.keeps_pure _ _

/-- So it keeps the record. -/
theorem keeps_record_run (hk : Store.isKey key = true) {s : Scanner} (hne : key ≠ s.identity) :
    World.Keeps (fun w => w.record key) (s.run deliver) :=
  (keeps_entry_run hk hne).record hk

/-- The end of a cycle with news. -/
def hand (s : Scanner) (newest : Event) (fresh : List Event) : Cycle Outcome := do
  match ← (liftM (deliver fresh s.config) : Cycle (Except Report.Error Unit)) with
  | .error e => throw (.report e)
  | .ok () =>
    onStore (Store.save s.identity newest)
    return sentOutcome fresh.length

/-- The sink takes the report, and the save that follows succeeds. -/
structure Lands (t : Trouble) (w : World) (s : Scanner) (newest : Event) (fresh : List Event) :
    Prop where
  taken : ∃ report, w.host.sink fresh s.config = .ok report
  saved : ((w.answer t (.deliver fresh s.config)).2.run t (Store.save s.identity newest)).1 =
    .ok ()

/-- News are handed on once.  If they land the file of the identity holds the record of the newest
event, and otherwise it is kept. -/
theorem run_hand (t : Trouble) (w : World) {s : Scanner} (hk : Store.isKey s.identity = true)
    (newest : Event) (fresh : List Event) :
    (w.run t (s.hand newest fresh)).2.offers = w.offers ++ [fresh] ∧
      (¬Lands t w s newest fresh ∧ (∃ e, (w.run t (s.hand newest fresh)).1 = .error e) ∧
          (w.run t (s.hand newest fresh)).2.entry s.identity = w.entry s.identity ∨
        Lands t w s newest fresh ∧
          (w.run t (s.hand newest fresh)).1 = .ok (sentOutcome fresh.length) ∧
          (w.run t (s.hand newest fresh)).2.entry s.identity =
            .ok (joinPath w.store.folder s.identity,
              .ok (Store.recordText newest.identity).toUTF8)) := by
  have hoffers : (w.answer t (.deliver fresh s.config)).2.offers = w.offers ++ [fresh] := rfl
  have hfolder : (w.answer t (.deliver fresh s.config)).2.store = w.store := rfl
  have hentry := World.entry_deliver t w fresh s.config s.identity
  have hanswer := World.answer_deliver_fst t w fresh s.config
  have hfollow : w.follow t (deliver fresh s.config) = w.answer t (.deliver fresh s.config) := rfl
  have hland : Lands t w s newest fresh ↔ _ :=
    ⟨fun h => And.intro h.taken h.saved, fun h => ⟨h.1, h.2⟩⟩
  rw [hland]
  unfold hand
  rw [World.run_bind, World.run_plan, hfollow]
  rcases hq : w.answer t (.deliver fresh s.config) with ⟨e | _, w₂⟩ <;>
    rw [hq] at hoffers hfolder hentry hanswer
  · refine ⟨hoffers, .inl ⟨?_, ⟨_, rfl⟩, hentry⟩⟩
    rintro ⟨⟨report, hreport⟩, -⟩
    rw [hreport] at hanswer
    cases hanswer
  · have hsent := World.keeps_offers_save s.identity newest t w₂
    have htaken : ∃ report, w.host.sink fresh s.config = .ok report := by
      obtain ⟨report, hreport, -⟩ := map_eq_ok.mp hanswer.symm
      exact ⟨report, hreport⟩
    dsimp only at hoffers hfolder hentry ⊢
    rw [World.run_bind, World.run_onStore]
    rcases hs : w₂.run t (Store.save s.identity newest) with ⟨e | _, w₃⟩
    · rw [hs] at hsent
      refine ⟨hsent.trans hoffers, .inl ⟨fun h => ?_, ⟨_, rfl⟩, ?_⟩⟩
      · cases h.2
      · exact (World.entry_save_error hk hs).trans hentry
    · rw [hs] at hsent
      refine ⟨hsent.trans hoffers, .inr ⟨⟨htaken, rfl⟩, rfl, ?_⟩⟩
      rw [← hfolder]
      exact World.entry_save_ok hs

/-! ## How a cycle can go -/

/-- What a cycle selects, once its source has been read and its record found, or none. -/
def selected (t : Trouble) (w : World) (s : Scanner) : Except Error Selection := do
  let events ← (w.follow t s.source.events).1.mapError .source
  let last ← (w.run t (Store.get? s.identity)).1.mapError .store
  let matched := s.filter.select s.config.cap events
  return ⟨matched, LogWatch.unreported last matched⟩

theorem selected_eq_ok {s : Scanner} {selection : Selection} :
    selected t w s = .ok selection ↔
      ∃ events last, (w.follow t s.source.events).1 = .ok events ∧
        (w.run t (Store.get? s.identity)).1 = .ok last ∧
        selection = ⟨s.filter.select s.config.cap events,
          LogWatch.unreported last (s.filter.select s.config.cap events)⟩ := by
  unfold selected
  simp only [bind_eq_ok, mapError_eq_ok, pure, Except.pure, Except.ok.injEq,
    @eq_comm _ selection, exists_and_left]

/-- Selecting reads the source, and then looks up the record. -/
theorem run_select_eq (t : Trouble) (w : World) (s : Scanner) :
    w.run t s.select =
      (selected t w s,
        match (w.follow t s.source.events).1 with
        | .error _ => w
        | .ok _ => (w.run t (Store.get? s.identity)).2) := by
  have hread := World.follow_events t w s.source
  unfold select selected
  rw [World.run_bind, World.run_plan]
  rcases hevents : w.follow t s.source.events with ⟨_ | events, w₁⟩ <;> rw [hevents] at hread <;>
    dsimp only at hread ⊢ <;> rw [hread]
  · rfl
  · rw [World.run_bind, World.run_onStore]
    unfold Store.unreported
    rw [World.run_bind]
    rcases w.run t (Store.get? s.identity) with ⟨_ | last, w₂⟩ <;> rfl

theorem selected_of_select {s : Scanner} {result : Except Error Selection}
    (h : w.run t s.select = (result, w')) : selected t w s = result := by
  rw [run_select_eq] at h
  exact (Prod.mk.inj h).1

theorem run_preview (t : Trouble) (w : World) (s : Scanner) :
    w.run t s.preview =
      ((selected t w s).map Selection.unreported, (w.run t s.select).2) := by
  have hselect : (w.run t s.select).1 = selected t w s := by rw [run_select_eq]
  rw [← hselect]
  unfold preview
  rw [World.run_bind]
  rcases w.run t s.select with ⟨_ | selection, w'⟩ <;> rfl

/-- What is not reported is among what matches. -/
theorem eq_nil_of_selected {s : Scanner} {fresh : List Event}
    (h : selected t w s = .ok ⟨[], fresh⟩) : fresh = [] := by
  obtain ⟨events, last, -, -, hselection⟩ := selected_eq_ok.mp h
  obtain ⟨hmatched, rfl⟩ := Selection.mk.inj hselection
  rw [← hmatched]
  cases last <;> rfl

/-- A cycle ends before anything is handed on, with an error or because nothing is new, or it
hands on its news. -/
theorem run_cases (t : Trouble) (w : World) (s : Scanner) :
    let w' := (w.run t s.select).2
    (∃ e, selected t w s = .error e ∧ w.run t (s.run deliver) = (.error e, w')) ∨
      (∃ matched, selected t w s = .ok ⟨matched, []⟩ ∧
        w.run t (s.run deliver) = (.ok skippedOutcome, w')) ∨
      ∃ newest rest fresh, fresh ≠ [] ∧ selected t w s = .ok ⟨newest :: rest, fresh⟩ ∧
        w.run t (s.run deliver) = w'.run t (s.hand newest fresh) := by
  intro w'
  have hselect : w.run t s.select = (selected t w s, w') := Prod.ext (by rw [run_select_eq]) rfl
  have hrun : w.run t (s.run deliver) = _ := World.run_bind t w s.select _
  rw [hselect] at hrun
  rw [hrun]
  rcases hsel : selected t w s with e | ⟨matched, _ | ⟨first, more⟩⟩
  · exact .inl ⟨e, rfl, rfl⟩
  · exact .inr (.inl ⟨matched, rfl, by cases matched <;> rfl⟩)
  · cases matched with
    | nil => cases eq_nil_of_selected hsel
    | cons newest rest =>
      exact .inr (.inr ⟨newest, rest, first :: more, List.cons_ne_nil _ _, rfl, rfl⟩)

/-- A cycle is acknowledged when the sink has taken its report and the save has succeeded. -/
def acknowledged : Except Error Outcome → Bool
  | .ok outcome => !outcome.skipped
  | .error _ => false

section Own

variable {s : Scanner} {events : List Event} {last : Option Identity}

theorem run_select (ht : t.SparesReading) (hk : Store.isKey s.identity = true)
    (he : w.follow t s.source.events = (.ok events, w)) (hl : w.record s.identity = .ok last) :
    w.run t s.select =
      (.ok ⟨s.filter.select s.config.cap events,
          unreported last (s.filter.select s.config.cap events)⟩,
        (w.run calm Store.ensureFolder).2) := by
  have hlookup := World.run_get?_of_spared ht w hk
  rw [run_select_eq, he]
  unfold selected
  rw [he, hlookup, hl]
  rfl

/-- With news the cycle ends in handing it on. -/
theorem run_eq_hand {w' : World} {newest : Event} {rest fresh : List Event} (hne : fresh ≠ [])
    (hselect : w.run t s.select = (.ok ⟨newest :: rest, fresh⟩, w')) :
    w.run t (s.run deliver) = w'.run t (s.hand newest fresh) := by
  unfold run
  rw [World.run_bind, hselect]
  cases fresh with
  | nil => contradiction
  | cons first more => rfl

/-- A cycle whose report is refused ends there. -/
theorem run_of_refused {w' : World} {newest : Event} {rest fresh : List Event} {e : Report.Error}
    (hne : fresh ≠ []) (hselect : w.run t s.select = (.ok ⟨newest :: rest, fresh⟩, w'))
    (hsink : w'.host.sink fresh s.config = .error e) :
    w.run t (s.run deliver) =
      (.error (.report e), { w' with offers := w'.offers ++ [fresh] }) := by
  have hhost : w'.host.answer (.deliver fresh s.config) = (.error e, w'.host) := by
    unfold Host.answer
    dsimp only
    rw [hsink]
  have hanswer : w'.follow t (deliver fresh s.config) =
      (.error e, { w' with offers := w'.offers ++ [fresh] }) := by
    show w'.answer t (.deliver fresh s.config) = _
    unfold World.answer
    rw [World.answerAmid_deliver, hhost]
    rfl
  rw [run_eq_hand hne hselect]
  unfold hand
  rw [World.run_bind_of_ok (World.run_plan_of hanswer)]
  rfl

/-- A cycle whose report is taken ends with the save. -/
theorem run_of_taken {w' w'' : World} {newest : Event} {rest fresh : List Event}
    (hne : fresh ≠ []) (hselect : w.run t s.select = (.ok ⟨newest :: rest, fresh⟩, w'))
    (htaken : ∃ report, w'.host.sink fresh s.config = .ok report)
    (hsaved : (w'.answer t (.deliver fresh s.config)).2.run t (Store.save s.identity newest) =
      (.ok (), w'')) :
    w.run t (s.run deliver) = (.ok (sentOutcome fresh.length), w'') := by
  obtain ⟨report, hreport⟩ := htaken
  have hanswer : w'.follow t (deliver fresh s.config) =
      (.ok (), (w'.answer t (.deliver fresh s.config)).2) := by
    refine Prod.ext ((World.answer_deliver_fst t w' fresh s.config).trans ?_) rfl
    rw [hreport]
    rfl
  have hsave := World.run_onStore t (w'.answer t (.deliver fresh s.config)).2
    (Store.save s.identity newest)
  rw [hsaved] at hsave
  rw [run_eq_hand hne hselect]
  unfold hand
  rw [World.run_bind_of_ok (World.run_plan_of hanswer)]
  exact World.run_bind_of_ok hsave _

/-- A cycle hands on what is new, if anything, and once.  If it is acknowledged the record becomes
what the first selected event is read back as; otherwise the record is kept. -/
theorem run_spec (ht : t.SparesReading) (hk : Store.isKey s.identity = true)
    (he : w.follow t s.source.events = (.ok events, w)) (hl : w.record s.identity = .ok last)
    {matched fresh : List Event} (hmatched : s.filter.select s.config.cap events = matched)
    (hfresh : unreported last matched = fresh) :
    (w.run t (s.run deliver)).2.offers = w.offers ++ (if fresh = [] then [] else [fresh]) ∧
      ((w.run t (s.run deliver)).1 = .ok skippedOutcome ↔ fresh = []) ∧
      (acknowledged (w.run t (s.run deliver)).1 = true →
        fresh ≠ [] ∧ ∃ newest rest, matched = newest :: rest ∧
          (w.run t (s.run deliver)).2.record s.identity =
            Store.readBack (joinPath w.store.folder s.identity) newest.identity) ∧
      (acknowledged (w.run t (s.run deliver)).1 = false →
        (w.run t (s.run deliver)).2.record s.identity = .ok last) := by
  have hselected : selected t w s = .ok ⟨matched, fresh⟩ := by
    have hselect := run_select ht hk he hl
    rw [hmatched, hfresh] at hselect
    exact selected_of_select hselect
  have hoffers := keeps_select World.keeps_offers_ensureFolder s t w
  have hrecord := World.record_of_entry hk (keeps_entry_select s.identity s t w)
  have hfolder := keeps_select World.keeps_folder_ensureFolder s t w
  rw [hl] at hrecord
  rcases run_cases t w s with ⟨e, he, -⟩ | ⟨_, he, hrun⟩ | ⟨newest, rest, _, hne, he, hrun⟩ <;>
    rw [hselected] at he
  · cases he
  · obtain ⟨-, rfl⟩ := Selection.mk.inj (Except.ok.inj he)
    rw [hrun, if_pos rfl, List.append_nil]
    exact ⟨hoffers, by simp, nofun, fun _ => hrecord⟩
  · obtain ⟨rfl, rfl⟩ := Selection.mk.inj (Except.ok.inj he)
    obtain ⟨hsent, hend⟩ := run_hand t (w.run t s.select).2 hk newest fresh
    rw [hoffers] at hsent
    rw [hrun, if_neg hne]
    obtain ⟨-, ⟨e, hresult⟩, hkept⟩ | ⟨-, hresult, hmoved⟩ := hend <;> rw [hresult]
    · exact ⟨hsent, by simp [hne], nofun, fun _ => (World.record_of_entry hk hkept).trans hrecord⟩
    · have hread := World.record_of_recordText hk hmoved
      rw [hfolder] at hread
      exact ⟨hsent, by simp [sentOutcome, skippedOutcome, hne],
        fun _ => ⟨hne, newest, rest, rfl, hread⟩, nofun⟩

end Own

end Scanner
end LogWatch
