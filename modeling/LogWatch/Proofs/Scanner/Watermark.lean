import LogWatch.Proofs.Delivery.Log
import LogWatch.Proofs.Scanner.Acknowledgement
import LogWatch.Proofs.Selection.Kept
import LogWatch.Proofs.Store.Calm

/-!
# The course of a watermark

Scanners take turns on one store, over sources that change as they like, with sinks and disks that
fail as they like.  The walk to the watermark goes over what a turn has selected, so if it finds
anything new, the first selected event is new: it is the first of the report, and it is not before
the watermark.  The record written is that of this event.  So the record of an identity never moves
back, and always is that of the first event of a report that the sink has taken.

    unreported last (newest :: rest) = newest :: more → i ∈ last → i.instant ≤ newest.instant
-/

namespace LogWatch

/-- The world with another sink. -/
def World.withSink (w : World) (sink : Report.Sink) : World := { w with host.sink := sink }

theorem World.entry_withSink (w : World) (sink : Report.Sink) (key : String) :
    (w.withSink sink).entry key = w.entry key := by
  apply entry_congr <;> rfl

/-! ## The walk -/

theorem le_of_isPassedBy {i : Identity} {e : Event} (h : i.isPassedBy e = true) :
    i.instant ≤ e.instant := by
  unfold Identity.isPassedBy at h
  rw [Bool.or_eq_true, Bool.and_eq_true, decide_eq_true_iff, beq_iff_eq] at h
  rcases h with hlt | ⟨heq, -⟩
  · exact le_of_lt hlt
  · exact ge_of_eq heq

/-- If anything is new the first event is, and it is not before the watermark. -/
theorem unreported_cons {last : Option Identity} {newest : Event} {rest : List Event}
    (h : unreported last (newest :: rest) ≠ []) :
    (∃ more, unreported last (newest :: rest) = newest :: more) ∧
      ∀ i ∈ last, i.instant ≤ newest.instant := by
  cases last with
  | none => exact ⟨⟨rest, rfl⟩, by simp⟩
  | some i =>
    dsimp only [unreported] at h ⊢
    rw [List.takeWhile_cons] at h ⊢
    split at h
    · next hpass =>
      rw [if_pos hpass]
      refine ⟨⟨_, rfl⟩, ?_⟩
      rintro _ ⟨⟩
      exact le_of_isPassedBy hpass
    · exact absurd rfl h

namespace Scanner

/-! ## Turns -/

/-- One run of a scanner. -/
structure Turn where
  scanner : Scanner
  trouble : Trouble
  before : World

namespace Turn

def after (r : Turn) : World := (r.before.run r.trouble (r.scanner.run deliver)).2

def acknowledged (r : Turn) : Bool :=
  Scanner.acknowledged (r.before.run r.trouble (r.scanner.run deliver)).1

/-- What is known of a run is known of the turn. -/
theorem of_run {r : Turn} {result : Except Error Outcome} {w : World}
    (h : r.before.run r.trouble (r.scanner.run deliver) = (result, w)) :
    r.acknowledged = Scanner.acknowledged result ∧ r.after = w := by
  unfold acknowledged after
  rw [h]
  exact ⟨rfl, rfl⟩

/-- The turn writes the record of its first event. -/
structure Advances (r : Turn) (newest : Event) (more : List Event) : Prop where
  /-- The event is the first that is selected, and the first of the report. -/
  selects : ∃ rest, selected r.trouble r.before r.scanner = .ok ⟨newest :: rest, newest :: more⟩
  taken : ∃ report, r.before.host.sink (newest :: more) r.scanner.config = .ok report
  offered : r.after.offers = r.before.offers ++ [newest :: more]
  written : r.after.entry r.scanner.identity =
    .ok (joinPath r.before.store.folder r.scanner.identity,
      .ok (Store.recordText newest.identity).toUTF8)
  /-- There was no record, or one that is not later. -/
  later : ∃ last, r.before.record r.scanner.identity = .ok last ∧
    ∀ i ∈ last, i.instant ≤ newest.instant

end Turn

/-- Scanners take turns.  Between two turns anything may happen that keeps the records. -/
inductive Turns (origin : World) : List Turn → World → Prop
  | start : Turns origin [] origin
  | aside {rs : List Turn} {w w' : World} : Turns origin rs w →
      (∀ key, Store.isKey key = true → w'.entry key = w.entry key) → Turns origin rs w'
  | turn {rs : List Turn} {w : World} (s : Scanner) (t : Trouble) : Turns origin rs w →
      s.identity = s.config.identity → t.Honest →
      Turns origin (rs ++ [⟨s, t, w⟩]) (w.run t (s.run deliver)).2

theorem Turns.concat {origin : World} {rs : List Turn} {r : Turn} (h : Turns origin rs r.before)
    (hs : r.scanner.identity = r.scanner.config.identity) (ht : r.trouble.Honest) :
    Turns origin (rs ++ [r]) r.after :=
  .turn r.scanner r.trouble h hs ht

/-! ## One turn -/

/-- What is selected comes from the walk to the record. -/
theorem selected_walk {t : Trouble} {w : World} {s : Scanner} {newest : Event}
    {rest fresh : List Event} (ht : t.Honest) (hk : Store.isKey s.identity = true)
    (h : selected t w s = .ok ⟨newest :: rest, fresh⟩) :
    ∃ last, w.record s.identity = .ok last ∧ unreported last (newest :: rest) = fresh := by
  obtain ⟨events, last, -, hlast, hselection⟩ := selected_eq_ok.mp h
  obtain ⟨hmatched, hfresh⟩ := Selection.mk.inj hselection
  rw [← hmatched] at hfresh
  exact ⟨last, World.record_of_run_get? ht hk hlast, hfresh.symm⟩

namespace Turn

variable {r : Turn}

/-- A turn writes the record of its first event, or leaves all records. -/
theorem advances_or_keeps (hs : r.scanner.identity = r.scanner.config.identity)
    (ht : r.trouble.Honest) :
    (∀ key, Store.isKey key = true → key ≠ r.scanner.identity →
      r.after.entry key = r.before.entry key) ∧
    (r.acknowledged = true ∧ (∃ newest more, r.Advances newest more) ∨
      r.acknowledged = false ∧
        r.after.entry r.scanner.identity = r.before.entry r.scanner.identity) := by
  have hk : Store.isKey r.scanner.identity = true := hs ▸ Store.isKey_identity _
  have hkept := (preview_keeps r.trouble r.before r.scanner).2 r.scanner.identity
  refine ⟨fun key hkey hne => keeps_entry_run hkey hne r.trouble r.before, ?_⟩
  unfold acknowledged after
  obtain ⟨e, -, hended⟩ | ⟨matched, -, hended⟩ |
    ⟨newest, rest, fresh, hne, hselected, hsent, hend⟩ := run_ends r.trouble r.before hk
  · rw [hended]
    exact .inr ⟨rfl, hkept⟩
  · rw [hended]
    exact .inr ⟨rfl, hkept⟩
  · obtain ⟨-, ⟨e, hresult⟩, hsame⟩ | ⟨hlands, hresult, hmoved⟩ := hend
    · rw [hresult]
      exact .inr ⟨rfl, hsame⟩
    · rw [hresult]
      obtain ⟨last, hrecord, hwalk⟩ := selected_walk ht hk hselected
      obtain ⟨⟨more, hmore⟩, hlater⟩ := unreported_cons (hwalk ▸ hne)
      obtain rfl : newest :: more = fresh := hmore.symm.trans hwalk
      have htaken := (acknowledges_of_lands hselected hne hlands).taken
      exact .inl ⟨rfl, newest, more,
        ⟨rest, hselected⟩, htaken, hsent, hmoved, last, hrecord, hlater⟩

/-- For one key: its record stays, or the turn is the key's own and writes it. -/
theorem keeps_or_advances {key : String} (hs : r.scanner.identity = r.scanner.config.identity)
    (ht : r.trouble.Honest) (hk : Store.isKey key = true) :
    r.after.entry key = r.before.entry key ∨
      r.scanner.identity = key ∧ r.acknowledged = true ∧ ∃ newest more, r.Advances newest more := by
  obtain ⟨hothers, hown⟩ := advances_or_keeps hs ht
  by_cases hkey : key = r.scanner.identity
  · rcases hown with ⟨hack, hadv⟩ | ⟨-, hsame⟩
    · exact .inr ⟨hkey.symm, hack, hadv⟩
    · exact .inl (hkey ▸ hsame)
  · exact .inl (hothers key hk hkey)

/-- A record that is not before an instant, or that cannot be read. -/
def NotBefore (i : Identity) (found : Except Store.Error (Option Identity)) : Prop :=
  (∃ j, found = .ok (some j) ∧ i.instant ≤ j.instant) ∨ ∃ e, found = .error e

theorem Advances.notBefore {newest : Event} {more : List Event} {i : Identity}
    (h : r.Advances newest more) (hk : Store.isKey r.scanner.identity = true)
    (hi : NotBefore i (r.before.record r.scanner.identity)) :
    NotBefore i (r.after.record r.scanner.identity) := by
  obtain ⟨last, hrecord, hlater⟩ := h.later
  rw [World.record_of_recordText hk h.written]
  unfold Store.readBack
  split
  · left
    rcases hi with ⟨j, hj, hle⟩ | ⟨e, he⟩
    · rw [hrecord] at hj
      obtain rfl := Except.ok.inj hj
      exact ⟨_, rfl, le_trans hle (hlater j rfl)⟩
    · rw [hrecord] at he
      cases he
  · exact .inr ⟨_, rfl⟩

end Turn

/-! ## All turns -/

section Turns

variable {origin w : World} {rs : List Turn} {key : String}

theorem Turns.each (h : Turns origin rs w) : ∀ r ∈ rs,
    r.scanner.identity = r.scanner.config.identity ∧ r.trouble.Honest := by
  induction h with
  | start => simp
  | aside _ _ ih => exact ih
  | turn s t _ hs ht ih =>
    intro r hr
    rcases List.mem_append.mp hr with hr | hr
    · exact ih r hr
    · rw [List.mem_singleton.mp hr]
      exact ⟨hs, ht⟩

/-- The record of a key is the one it had, or the one that some turn has written. -/
theorem Turns.entry (h : Turns origin rs w) (hk : Store.isKey key = true) :
    w.entry key = origin.entry key ∨ ∃ r ∈ rs, r.scanner.identity = key ∧
      r.acknowledged = true ∧ w.entry key = r.after.entry key := by
  induction h with
  | start => exact .inl rfl
  | aside _ hsame ih =>
    rw [hsame key hk]
    exact ih
  | @turn rs w s t _ hs ht ih =>
    rcases Turn.keeps_or_advances (r := ⟨s, t, w⟩) hs ht hk with hsame | ⟨hkey, hack, -⟩
    · rw [show (w.run t (s.run deliver)).2.entry key = w.entry key from hsame]
      exact ih.imp_right fun ⟨r, hr, h⟩ => ⟨r, List.mem_append_left _ hr, h⟩
    · exact .inr ⟨⟨s, t, w⟩, by simp, hkey, hack, rfl⟩

theorem Turns.notBefore (h : Turns origin rs w) (hk : Store.isKey key = true) {i : Identity}
    (hi : origin.record key = .ok (some i)) : Turn.NotBefore i (w.record key) := by
  induction h with
  | start => exact .inl ⟨i, hi, le_refl _⟩
  | aside _ hsame ih =>
    rw [World.record_of_entry hk (hsame key hk)]
    exact ih
  | @turn rs w s t _ hs ht ih =>
    rcases Turn.keeps_or_advances (r := ⟨s, t, w⟩) hs ht hk with hsame | ⟨rfl, -, _, _, hadv⟩
    · rw [show (w.run t (s.run deliver)).2.record key = w.record key from
        World.record_of_entry hk hsame]
      exact ih
    · exact hadv.notBefore hk ih

/-! ## Top theorem -/

/-- Every turn that is acknowledged writes the record of the first event of the report that the
sink has taken, which is also the first that the turn has selected and not before the record it
replaces; every other turn leaves all records.  Hence over all turns a record that could be read
never moves back, and every record that was not there is one that a turn has written. -/
theorem watermark_advances (h : Turns origin rs w) :
    (∀ r ∈ rs,
      (∀ key, Store.isKey key = true → key ≠ r.scanner.identity →
        r.after.entry key = r.before.entry key) ∧
      (r.acknowledged = true ∧ (∃ newest more, r.Advances newest more) ∨
        r.acknowledged = false ∧
          r.after.entry r.scanner.identity = r.before.entry r.scanner.identity)) ∧
    (∀ key, Store.isKey key = true →
      w.entry key = origin.entry key ∨ ∃ r ∈ rs, r.scanner.identity = key ∧
        r.acknowledged = true ∧ w.entry key = r.after.entry key) ∧
    ∀ key i, Store.isKey key = true → origin.record key = .ok (some i) →
      w.record key ≠ .ok none ∧ ∀ j, w.record key = .ok (some j) → i.instant ≤ j.instant := by
  refine ⟨fun r hr => ?_, fun key hk => h.entry hk, fun key i hk hi => ?_⟩
  · obtain ⟨hs, ht⟩ := h.each r hr
    exact r.advances_or_keeps hs ht
  · rcases h.notBefore hk hi with ⟨j, hj, hle⟩ | ⟨e, he⟩
    · rw [hj]
      refine ⟨nofun, fun j' hj' => ?_⟩
      rw [← Option.some.inj (Except.ok.inj hj')]
      exact hle
    · rw [he]
      exact ⟨by simp, by simp⟩

end Turns

/-! ## A refused turn and one that is taken -/

namespace Sample

open LogWatch.Sample (occurring)

/-- Four events of one hour, which are not in order. -/
def nightLog : String :=
  "\x7b\"EventID\":4,\"TimeGenerated\":\"1969-12-31T23:40:00Z\"\x7d\n" ++
    "\x7b\"EventID\":5,\"TimeGenerated\":\"1969-12-31T23:20:00Z\"\x7d\n" ++
    "\x7b\"EventID\":6,\"TimeGenerated\":\"1969-12-31T23:50:00Z\"\x7d\n" ++
    "\x7b\"EventID\":7\x7d\n"

def night : List Event :=
  [occurring (-1200) 4, occurring (-2400) 5, occurring (-600) 6, occurring 0 7]

/-- The events before the one at which the walk ends. -/
def unseen : List Event := [occurring 0 7, occurring (-600) 6]

theorem holds_night : Source.Holds nightLog night := by decide +kernel

/-- Half an hour before the last event, in an older layout. -/
def oldText : String := "1969-12-31 23:30:00Z\r\nHASH\r\n"

def oldRecord : Identity := ⟨"HASH", (Time.Instant.ofSecond? (-1800) 0).getD .epoch⟩

/-- The log beside an old record, and a sink that has no room for a report. -/
def crowded : World where
  store := ⟨"s", true⟩
  host := {
    disk := ⟨[(["s", scanner.identity], .file oldText.toUTF8), (["s"], .folder),
      (["log"], .file nightLog.toUTF8)]⟩
    sink := .limited 0 "disk full" .text }

def refusedTurn : Turn := ⟨scanner, calm, crowded⟩

/-- The sink has been given room. -/
def cleared : World := refusedTurn.after.withSink (.writing .text)

def takenTurn : Turn := ⟨scanner, calm, cleared⟩

theorem isKey_scanner : Store.isKey scanner.identity = true := by decide

theorem identity_scanner : scanner.identity = scanner.config.identity :=
  (make_logFile make_config rfl rfl).2.1

theorem textAt_crowded : crowded.textAt "log" = .ok nightLog := by
  have hpath : crowded.host.disk.locate crowded.host.working "log" = .ok ["log"] := by
    decide +kernel
  exact World.textAt_of_file hpath rfl

theorem record_crowded : crowded.record scanner.identity = .ok (some oldRecord) := by
  have hfile : crowded.entry scanner.identity =
      .ok (joinPath "s" scanner.identity, .ok oldText.toUTF8) := by
    decide +kernel
  exact World.record_of_readRecord isKey_scanner hfile (by decide +kernel)

/-- All four events are selected, and the walk ends at the third, though the fourth is later than
the record. -/
theorem select_night {w : World} (hmade : w.store.made = true)
    (hlog : w.textAt "log" = .ok nightLog) (hnow : w.host.now = .epoch)
    (hrecord : w.record scanner.identity = .ok (some oldRecord)) :
    w.run calm scanner.select = (.ok ⟨night.reverse, unseen⟩, w) := by
  have hread : w.follow calm scanner.source.events = (.ok night.reverse, w) := by
    have hall : (night.reverse.takeWhile fun e =>
        Time.windowStart .epoch .hour < e.instant) = night.reverse := by
      decide +kernel
    rw [show scanner.source = .logFile "log" .hour from rfl,
      World.follow_log calm_sparesReading hlog, hnow, Source.eventsOfLog_eq holds_night, hall]
    rfl
  have hmatched : scanner.filter.select scanner.config.cap night.reverse = night.reverse := by
    decide +kernel
  have hfresh : unreported (some oldRecord) night.reverse = unseen := by decide +kernel
  rw [run_select calm_sparesReading isKey_scanner hread hrecord, hmatched, hfresh,
    World.run_ensureFolder_of_made calm hmade]

/-- The refused turn has handed its report to the sink, and that is all. -/
theorem refusedTurn_spec : refusedTurn.acknowledged = false ∧
    refusedTurn.after = { crowded with offers := [unseen] } := by
  have hselect := select_night rfl textAt_crowded rfl record_crowded
  have hfull : crowded.host.sink unseen scanner.config = .error (.io "disk full") := by
    rw [show crowded.host.sink = .limited 0 "disk full" .text from rfl]
    exact Report.Sink.limited_zero ..
  exact Turn.of_run (run_of_refused (List.cons_ne_nil _ _) hselect hfull)

theorem cleared_eq :
    cleared = { crowded with host.sink := .writing .text, offers := [unseen] } := by
  unfold cleared
  rw [refusedTurn_spec.2]
  rfl

theorem textAt_cleared : cleared.textAt "log" = .ok nightLog := by
  rw [cleared_eq]
  exact textAt_crowded

theorem record_cleared : cleared.record scanner.identity = .ok (some oldRecord) := by
  unfold cleared
  rw [World.record_of_entry isKey_scanner (World.entry_withSink _ _ _), refusedTurn_spec.2,
    ← record_crowded]
  apply World.record_of_entry isKey_scanner
  apply World.entry_congr <;> rfl

theorem made_cleared : cleared.store.made = true := by
  rw [cleared_eq]
  rfl

theorem now_cleared : cleared.host.now = .epoch := by
  rw [cleared_eq]
  rfl

theorem select_cleared : cleared.run calm scanner.select =
    (.ok ⟨night.reverse, unseen⟩, cleared) :=
  select_night made_cleared textAt_cleared now_cleared record_cleared

theorem selected_cleared : selected calm cleared scanner = .ok ⟨night.reverse, unseen⟩ :=
  selected_of_select select_cleared

/-- The report has been taken, and the save is to come. -/
def handed : World := (cleared.answer calm (.deliver unseen scanner.config)).2

theorem handed_eq : handed.store = crowded.store ∧ handed.host.disk = crowded.host.disk ∧
    handed.host.working = crowded.host.working := by
  unfold handed
  rw [cleared_eq]
  exact ⟨rfl, rfl, rfl⟩

theorem no_folder (name : String) : crowded.host.disk.get? ["s", name] ≠ some .folder := by
  simp only [crowded, Disk.get?, List.isEmpty_cons, Bool.false_eq_true, if_false,
    List.lookup_cons]
  cases ["s", name] == ["s", scanner.identity] <;> simp

/-- Nothing is in the way of the save. -/
theorem room_handed : Store.Room handed "s" scanner.identity ["s"] := by
  obtain ⟨-, hdisk, hworking⟩ := handed_eq
  have hplace : crowded.host.disk.folderAt crowded.host.working "s" = .ok ["s"] := by
    decide +kernel
  have hfits : Disk.Fits "s" scanner.identity ∧
      Disk.Fits "s" (Store.temporary scanner.identity) := by
    decide +kernel
  constructor
  · rw [hdisk, hworking, hplace]
  · exact hfits.1
  · exact hfits.2
  · rw [hdisk]
    exact no_folder _
  · rw [hdisk]
    exact no_folder _

/-- The disk with the new record. -/
def recorded : Disk :=
  (crowded.host.disk.erase ["s", Store.temporary scanner.identity]).set ["s", scanner.identity]
    (.file (Store.recordText (occurring 0 7).identity).toUTF8)

theorem run_cleared : cleared.run calm (scanner.run deliver) =
    (.ok (sentOutcome 2), handed.onDisk recorded) := by
  have hmade : handed.run calm Store.ensureFolder = (.ok "s", handed) := by
    rw [World.run_ensureFolder_of_made calm (by rw [handed_eq.1]; rfl), handed_eq.1]
    rfl
  have hsink : ∃ report, cleared.host.sink unseen scanner.config = .ok report := ⟨_, rfl⟩
  have hsaved : handed.run calm (Store.save scanner.identity (occurring 0 7)) =
      (.ok (), handed.onDisk recorded) := by
    rw [Store.run_save_calm isKey_scanner hmade room_handed, handed_eq.2.1]
    rfl
  exact run_of_taken (List.cons_ne_nil _ _) select_cleared hsink hsaved

end Sample

/-- The first report is refused and the old record stays; the second is taken, and the record is
that of its first event. -/
theorem watermark_advances_after_refusal :
    let key := Sample.scanner.identity
    Turns Sample.crowded [Sample.refusedTurn, Sample.takenTurn] Sample.takenTurn.after ∧
      Sample.crowded.record key = .ok (some Sample.oldRecord) ∧
      (Sample.refusedTurn.acknowledged = false ∧
        Sample.refusedTurn.after.entry key = Sample.crowded.entry key) ∧
      (Sample.takenTurn.acknowledged = true ∧
        ∃ newest more, Sample.takenTurn.Advances newest more ∧ newest :: more = Sample.unseen) ∧
      Sample.takenTurn.after.record key ≠ .ok none ∧
      ∀ i, Sample.takenTurn.after.record key = .ok (some i) →
        Sample.oldRecord.instant ≤ i.instant := by
  intro key
  have hrefused : Turns Sample.crowded [Sample.refusedTurn] Sample.refusedTurn.after :=
    .concat (r := Sample.refusedTurn) .start Sample.identity_scanner calm_sparesReading.honest
  have hturns : Turns Sample.crowded [Sample.refusedTurn, Sample.takenTurn]
      Sample.takenTurn.after :=
    .concat (r := Sample.takenTurn)
      (.aside hrefused fun other _ => World.entry_withSink _ _ other)
      Sample.identity_scanner calm_sparesReading.honest
  have htaken : Sample.takenTurn.acknowledged = true :=
    (Turn.of_run (r := Sample.takenTurn) Sample.run_cleared).1
  obtain ⟨heach, -, hnever⟩ := watermark_advances hturns
  refine ⟨hturns, Sample.record_crowded, ⟨Sample.refusedTurn_spec.1, ?_⟩, ⟨htaken, ?_⟩,
    hnever key _ Sample.isKey_scanner Sample.record_crowded⟩
  · obtain ⟨-, ⟨hack, -⟩ | ⟨-, hkept⟩⟩ := heach Sample.refusedTurn (by simp)
    · rw [Sample.refusedTurn_spec.1] at hack
      cases hack
    · exact hkept
  · obtain ⟨-, ⟨-, newest, more, hadv⟩ | ⟨hkept, -⟩⟩ := heach Sample.takenTurn (by simp)
    · obtain ⟨rest, hselected⟩ := hadv.selects
      have hsame := Except.ok.inj (hselected.symm.trans Sample.selected_cleared)
      exact ⟨newest, more, hadv, (Selection.mk.inj hsame).2⟩
    · rw [htaken] at hkept
      cases hkept

end Scanner
end LogWatch
