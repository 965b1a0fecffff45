import LogWatch.Proofs.Program.Execution
import LogWatch.Proofs.Delivery.Payload
import LogWatch.Proofs.Scanner.Acknowledgement
import LogWatch.Proofs.Store.Removal

/-!
# The record of a command line

Five settings make the identity of a configuration, and the source of its events is none of them.
So command lines that agree on these settings and on the state folder name the same record: the one
that `scan` writes, that `identity` prints the key of, and that `reset` removes.

    (f.override o p).SameLook (f.override o' p')                 (FilterSettings.sameLook_override)
-/

namespace LogWatch

/-! ## Settings of one identity -/

/-- The settings agree but for the source of events. -/
structure FilterSettings.SameLook (f f' : FilterSettings) : Prop where
  filter : f'.filter = f.filter
  timeLimit : f'.timeLimit = f.timeLimit
  maxMessages : f'.maxMessages = f.maxMessages
  remoteMachine : f'.remoteMachine = f.remoteMachine
  eventLog : f'.eventLog = f.eventLog

/-- The values of a command line agree but for the source of events. -/
structure Overrides.SameLook (o o' : Overrides) : Prop where
  filter : o'.filter = o.filter
  timeLimit : o'.timeLimit = o.timeLimit
  maxMessages : o'.maxMessages = o.maxMessages
  remoteMachine : o'.remoteMachine = o.remoteMachine
  eventLog : o'.eventLog = o.eventLog

/-- The command lines name the same settings file and the same state folder, and their values agree
but for the source of events. -/
structure CommandLine.SameLook (line line' : CommandLine) : Prop where
  config : line'.config = line.config
  stateFolder : line'.stateFolder = line.stateFolder
  overrides : line.overrides.SameLook line'.overrides

namespace FilterSettings

variable {f f' : FilterSettings}

/-- The source takes the place of the settings' own, and the other values of theirs. -/
theorem override_eq (f : FilterSettings) (o : Overrides) (p : Option String) :
    ∃ source path events, f.override o p =
      { filter := o.filter.getD f.filter
        timeLimit := o.timeLimit.getD f.timeLimit
        maxMessages := o.maxMessages.getD f.maxMessages
        remoteMachine := o.remoteMachine.getD f.remoteMachine
        eventLog := o.eventLog.getD f.eventLog
        source := source
        eventsPath := path
        externalEvents := events } := by
  cases hevents : o.events with
  | none =>
    cases p with
    | none => exact ⟨_, _, _, by rw [override, hevents]⟩
    | some text => exact ⟨_, _, _, by rw [override, hevents]⟩
  | some path =>
    cases p with
    | none => exact ⟨_, _, _, by rw [override, hevents]⟩
    | some text => exact ⟨_, _, _, by rw [override, hevents]⟩

theorem sameLook_override {o o' : Overrides} (h : o.SameLook o') (f : FilterSettings)
    (p p' : Option String) : (f.override o p).SameLook (f.override o' p') := by
  obtain ⟨_, _, _, hf⟩ := f.override_eq o p
  obtain ⟨_, _, _, hf'⟩ := f.override_eq o' p'
  rw [hf, hf', h.filter, h.timeLimit, h.maxMessages, h.remoteMachine, h.eventLog]
  exact ⟨rfl, rfl, rfl, rfl, rfl⟩

theorem SameLook.identityConfiguration_eq (h : f.SameLook f') :
    f'.identityConfiguration = f.identityConfiguration := by
  unfold identityConfiguration
  rw [h.filter, h.timeLimit, h.maxMessages, h.remoteMachine, h.eventLog]

/-- The source of a configuration is added to the one that has its identity. -/
theorem identity_of_configuration {c : Configuration} (h : f.configuration = .ok c) :
    ∃ c', f.identityConfiguration = .ok c' ∧ c'.identity = c.identity := by
  obtain ⟨c', hc', hsource⟩ := bind_eq_ok.mp h
  refine ⟨c', hc', ?_⟩
  split at hsource
  · rw [← Except.ok.inj hsource]
    rfl
  · rw [← Except.ok.inj hsource]
    rfl
  · cases hsource

end FilterSettings

theorem Scanner.identity_of_make {c : Configuration} {s : Scanner} (h : Scanner.make c = .ok s) :
    s.identity = c.identity := by
  unfold Scanner.make at h
  split at h
  · cases h
  · split at h
    · cases h
    · rw [← Except.ok.inj h]

namespace Program

variable {t t' : Trouble} {w w' : World} {sur : Surroundings} {line line' : CommandLine}
  {f : FilterSettings} {folder : String}

/-- Command lines that agree work in one state folder with settings of one identity. -/
theorem prepared_of_sameLook {p : Option String} (h : line.SameLook line')
    (hline : prepared t w sur line = .ok (f, folder))
    (hload : (w'.follow t' (Settings.load line'.config)).1 =
      (w.follow t (Settings.load line.config)).1)
    (hpayload : (w'.follow t' (payload line'.overrides)).1 = .ok p) :
    ∃ f', prepared t' w' sur line' = .ok (f', folder) ∧ f.SameLook f' := by
  obtain ⟨settings, p₀, hsettings, -, rfl, rfl⟩ := prepared_eq_ok.mp hline
  refine ⟨settings.filter.override line'.overrides p, prepared_eq_ok.mpr ?_,
    FilterSettings.sameLook_override h.overrides _ _ _⟩
  exact ⟨settings, p, hload.trans hsettings, hpayload, rfl, by rw [h.stateFolder]⟩

/-! ## The commands -/

variable {c : Configuration}

theorem run_identity (h : f.identityConfiguration = .ok c) :
    w.run calm (identity f) = (.ok (), w.printed (c.identity ++ "\n")) := by
  have hsettings : w.run calm (onSettings f.identityConfiguration) = (.ok c, w) := by
    rw [World.run_onSettings, h]
    rfl
  unfold identity
  rw [World.run_bind_of_ok hsettings, World.run_print]

theorem run_reset (h : f.identityConfiguration = .ok c)
    (hremoved : w.run calm (Store.reset c.identity) = (.ok true, w')) :
    w.run calm (reset f false) =
      (.ok (), w'.printed ("Removed watermark " ++ c.identity ++ "\n")) := by
  have hsettings : w.run calm (onSettings f.identityConfiguration) = (.ok c, w) := by
    rw [World.run_onSettings, h]
    rfl
  have hstore : w.run calm (onStore (Store.reset c.identity)) = (.ok true, w') := by
    rw [World.run_onStore_command, hremoved]
    rfl
  unfold reset
  rw [if_neg Bool.false_ne_true, World.run_bind_of_ok hsettings, World.run_bind_of_ok hstore,
    if_pos rfl, World.run_print]

/-- A cycle that has reported leaves the record of the first event that it has selected, however
the report has left the program. -/
theorem fileAt_of_acknowledged {s : Scanner} {send : Scanner.Send}
    (h : Scanner.acknowledged (w.run t (s.run send)).1 = true) :
    ∃ newest rest fresh, Scanner.selected t w s = .ok ⟨newest :: rest, fresh⟩ ∧
      (w.run t (s.run send)).2.host.disk.fileAt (w.run t (s.run send)).2.host.working
        (joinPath w.store.folder s.identity) = .ok (Store.recordText newest.identity).toUTF8 := by
  rcases hrun : w.run t (s.run send) with ⟨_ | outcome, w'⟩ <;> rw [hrun] at h
  · cases h
  · obtain ⟨⟨matched, fresh⟩, w₁, hselect, hrest⟩ := World.run_bind_eq_ok.mp hrun
    have hselected : Scanner.selected t w s = .ok ⟨matched, fresh⟩ :=
      Scanner.selected_of_select hselect
    have hfolder := Scanner.keeps_select World.keeps_folder_ensureFolder s t w
    rw [hselect] at hfolder
    dsimp only at hfolder hrest
    split at hrest
    · next newest rest first more =>
      obtain ⟨r, w₂, hsent, hend⟩ := World.run_bind_eq_ok.mp hrest
      have hstore : w₂.store = w₁.store := by
        rw [World.run_plan] at hsent
        rw [← (Prod.mk.inj hsent).2, World.follow_store]
      cases r with
      | error e => cases (Prod.mk.inj hend).1
      | ok _ =>
        obtain ⟨_, w₃, hsave, hreturn⟩ := World.run_bind_eq_ok.mp hend
        obtain rfl : w₃ = w' := (Prod.mk.inj hreturn).2
        rw [World.run_onStore] at hsave
        obtain ⟨hsaved, hworld⟩ := Prod.mk.inj hsave
        obtain ⟨-, -, hfile⟩ := World.fileAt_save (Prod.ext (mapError_eq_ok.mp hsaved) hworld)
        rw [hstore, hfolder] at hfile
        exact ⟨newest, rest, first :: more, hselected, hfile⟩
    · rw [← Except.ok.inj (Prod.mk.inj hrest).1] at h
      cases h

/-- After a cycle that has reported, a scan has nothing more to do. -/
theorem run_scan {s : Scanner} {format : Report.Format} (hc : f.configuration = .ok c)
    (hs : Scanner.make c = .ok s)
    (h : Scanner.acknowledged (w.run t (s.run (printReport format))).1 = true) :
    w.run t (scan format f false) = (.ok (), (w.run t (s.run (printReport format))).2) := by
  have hsettings : w.run t (onSettings f.configuration) = (.ok c, w) := by
    rw [World.run_onSettings, hc]
    rfl
  rcases hrun : w.run t (s.run (printReport format)) with ⟨_ | outcome, w'⟩ <;> rw [hrun] at h
  · cases h
  · have hcycle : w.run t (onCycle (s.run (printReport format))) = (.ok outcome, w') := by
      rw [World.run_onCycle, hrun]
      rfl
    have hreported : ¬outcome.skipped = true := by
      simpa [Scanner.acknowledged] using h
    unfold scan
    rw [World.run_bind_of_ok hsettings, hs]
    dsimp only
    rw [if_neg Bool.false_ne_true, World.run_bind_of_ok hcycle, if_neg hreported]
    rfl

/-- Without a record a scanner selects all that its filter accepts, up to its cap. -/
theorem select_of_no_record {s : Scanner} {events : List Event} (ht : t.SparesReading)
    (hk : Store.isKey s.identity = true) (hr : w.record s.identity = .ok none)
    (he : (w.follow t s.source.events).1 = .ok events) :
    (w.run t s.select).1 =
      .ok ⟨s.filter.select s.config.cap events, s.filter.select s.config.cap events⟩ := by
  rw [Scanner.run_select ht hk (Prod.ext he (World.follow_events t w s.source)) hr]
  rfl

section Prepared

variable (hline : prepared calm w sur line = .ok (f, folder)) (hc : f.identityConfiguration = .ok c)

include hline hc

theorem follow_identity (hcommand : line.command = .identity) :
    w.follow calm (execute sur line) = (.ok (), w.printed (c.identity ++ "\n")) := by
  rw [follow_execute hline]
  unfold perform
  rw [hcommand, run_identity hc]
  rfl

/-- A reset removes the file of its record and tells so; and a store that is opened then has no
record of the key, and all other records as before. -/
theorem follow_reset {bytes : ByteArray} (hcommand : line.command = .reset false)
    (hfile : w.host.disk.fileAt w.host.working
      (joinPath (Store.under folder).folder c.identity) = .ok bytes) :
    ∃ place after, w.host.disk.locate w.host.working
        (joinPath (Store.under folder).folder c.identity) = .ok place ∧
      after = (w.onDisk (w.host.disk.erase place)).printed
        ("Removed watermark " ++ c.identity ++ "\n") ∧
      w.follow calm (execute sur line) = (.ok (), after) ∧
      (after.withStore (Store.under folder)).record c.identity = .ok none ∧
      ∀ other, Store.isKey other = true → other ≠ c.identity →
        (after.withStore (Store.under folder)).record other =
          (w.withStore (Store.under folder)).record other := by
  have hk := Store.isKey_identity c
  obtain ⟨q, hfiled⟩ := Store.filed_of_fileAt (w := w.withStore (Store.under folder)) hk hfile
  have hexecute := follow_execute hline
  unfold perform at hexecute
  rw [hcommand] at hexecute
  dsimp only at hexecute
  rw [run_reset hc (hfiled.run_reset hk)] at hexecute
  have hremoved : Store.Removed (w.withStore (Store.under folder))
      (((w.onDisk (w.host.disk.erase (q ++ [c.identity]))).printed
        ("Removed watermark " ++ c.identity ++ "\n")).withStore (Store.under folder))
      (Store.under folder).folder (q ++ [c.identity]) := ⟨rfl, rfl, rfl⟩
  exact ⟨q ++ [c.identity], _, hfiled.located, rfl, hexecute, hfiled.record_none hremoved hk,
    fun other ho hne => hfiled.record_other hremoved ho hne⟩

end Prepared

/-- A scan that reports is done, and has left the record of the first event that it selected. -/
theorem follow_scan {s : Scanner} (hline : prepared t w sur line = .ok (f, folder))
    (hc : f.configuration = .ok c) (hs : Scanner.make c = .ok s)
    (hcommand : line.command = .scan false)
    (hack : Scanner.acknowledged ((w.withStore (Store.under folder)).run t
      (s.run (printReport line.format))).1 = true) :
    ∃ newest rest fresh after,
      Scanner.selected t (w.withStore (Store.under folder)) s = .ok ⟨newest :: rest, fresh⟩ ∧
      w.follow t (execute sur line) = (.ok (), after) ∧
      after.host.disk.fileAt after.host.working
          (joinPath (Store.under folder).folder s.identity) =
        .ok (Store.recordText newest.identity).toUTF8 := by
  obtain ⟨newest, rest, fresh, hselected, hfile⟩ := fileAt_of_acknowledged hack
  have hexecute := follow_execute hline
  unfold perform at hexecute
  rw [hcommand] at hexecute
  dsimp only at hexecute
  rw [run_scan hc hs hack] at hexecute
  exact ⟨newest, rest, fresh, _, hselected, hexecute, hfile⟩

/-! ## Top theorem -/

/-- Let `scan` be able to build its scanner.  A scan that reports leaves its record under the
identity of the scanner.  Any line of the same settings but for the source of events, over the same
state folder, has this identity: `identity` prints it, and `reset` removes the file of the record,
whatever is in it, and leaves all else on the disk and all other records; with that every scanner of
the identity selects as if nothing had been reported.  Such a line is one that names the same
settings file and the same values, and any source that can be read, or none. -/
theorem reset_addresses_scanned_record {scanLine : CommandLine} {s : Scanner}
    (hscan : prepared t w sur scanLine = .ok (f, folder)) (hc : f.configuration = .ok c)
    (hs : Scanner.make c = .ok s) :
    let records := Store.under folder
    let path := joinPath records.folder s.identity
    (∀ (t' : Trouble) (w' : World) (line : CommandLine) (p : Option String),
      scanLine.SameLook line →
      (w'.follow t' (Settings.load line.config)).1 =
        (w.follow t (Settings.load scanLine.config)).1 →
      (w'.follow t' (payload line.overrides)).1 = .ok p →
      ∃ f', prepared t' w' sur line = .ok (f', folder) ∧ f.SameLook f') ∧
    (scanLine.command = .scan false →
      Scanner.acknowledged
        ((w.withStore records).run t (s.run (printReport scanLine.format))).1 = true →
      ∃ newest rest fresh after,
        Scanner.selected t (w.withStore records) s = .ok ⟨newest :: rest, fresh⟩ ∧
        w.follow t (execute sur scanLine) = (.ok (), after) ∧
        after.host.disk.fileAt after.host.working path =
          .ok (Store.recordText newest.identity).toUTF8) ∧
    ∀ (w' : World) (sur' : Surroundings) (line : CommandLine) (f' : FilterSettings),
      prepared calm w' sur' line = .ok (f', folder) → f.SameLook f' →
      (∃ c', f'.identityConfiguration = .ok c' ∧ c'.identity = s.identity) ∧
      (line.command = .identity →
        w'.follow calm (execute sur' line) = (.ok (), w'.printed (s.identity ++ "\n"))) ∧
      (line.command = .reset false →
        ∀ bytes, w'.host.disk.fileAt w'.host.working path = .ok bytes →
        ∃ place after, w'.host.disk.locate w'.host.working path = .ok place ∧
          after = (w'.onDisk (w'.host.disk.erase place)).printed
            ("Removed watermark " ++ s.identity ++ "\n") ∧
          w'.follow calm (execute sur' line) = (.ok (), after) ∧
          (∀ other, Store.isKey other = true → other ≠ s.identity →
            (after.withStore records).record other = (w'.withStore records).record other) ∧
          ∀ (t' : Trouble) (s' : Scanner) (events : List Event), t'.SparesReading →
            s'.identity = s.identity → (after.follow t' s'.source.events).1 = .ok events →
            ((after.withStore records).run t' s'.select).1 =
              .ok ⟨s'.filter.select s'.config.cap events,
                s'.filter.select s'.config.cap events⟩) := by
  intro records path
  obtain ⟨c', hc', hidentity⟩ := FilterSettings.identity_of_configuration hc
  have hown : c'.identity = s.identity := hidentity.trans (Scanner.identity_of_make hs).symm
  have hk : Store.isKey s.identity = true := hown ▸ Store.isKey_identity c'
  refine ⟨fun t' w' line p hlook hload hpayload => prepared_of_sameLook hlook hscan hload hpayload,
    follow_scan hscan hc hs, fun w' sur' line f' hline hsame => ?_⟩
  have hconfig : f'.identityConfiguration = .ok c' := hsame.identityConfiguration_eq.trans hc'
  refine ⟨⟨c', hconfig, hown⟩, fun hcommand => ?_, fun hcommand bytes hfile => ?_⟩
  · rw [← hown]
    exact follow_identity hline hconfig hcommand
  · obtain ⟨place, after, hplace, hafter, hexecute, hnone, hothers⟩ :=
      follow_reset hline hconfig hcommand (by rw [hown]; exact hfile)
    rw [hown] at hplace hafter hnone hothers
    refine ⟨place, after, hplace, hafter, hexecute, hothers, fun t' s' events ht hs' he => ?_⟩
    refine select_of_no_record ht (hs' ▸ hk) (hs' ▸ hnone) ?_
    rw [World.follow_withStore]
    exact he

/-! ## Over a damaged record -/

namespace Sample

open Scanner.Sample

/-- A command line for the configuration `blank`. -/
def words (command : Command) (events external : Option String) : CommandLine where
  config := none
  stateFolder := some "s"
  format := .text
  verbose := 0
  command := command
  overrides :=
    { maxMessages := some 0, timeLimit := some "01:00:00", eventLog := some ""
      events := events, external := external }

def scanning : CommandLine := words (.scan false) none (some "e")

/-- The line names a log that is not there. -/
def resetting : CommandLine := words (.reset false) (some "missing") none

def settings : FilterSettings where
  timeLimit := "01:00:00"
  maxMessages := 0
  eventLog := ""
  source := .external
  externalEvents := single

/-- The scanner of the settings. -/
def scanner : Scanner := reader single

def recordPlace : Path := ["s", "watermarks", scanner.identity]

def desk : World where
  store := Store.under "s"
  host := { disk :=
    ⟨[(["s", "watermarks"], .folder), (["s"], .folder), (["e"], .file single.toUTF8)]⟩ }

/-- Nothing can be read back from the record. -/
def damagedDesk : World :=
  desk.onDisk ⟨(recordPlace, .file "junk".toUTF8) :: desk.host.disk.entries⟩

theorem sameLook : scanning.SameLook resetting :=
  ⟨rfl, rfl, ⟨rfl, rfl, rfl, rfl, rfl⟩⟩

theorem prepared_scanning : prepared calm desk {} scanning = .ok (settings, "s") := by
  have hread : (desk.follow calm (Plan.readText "e")).1 = .ok single := by decide +kernel
  have hpayload : (desk.follow calm (payload scanning.overrides)).1 = .ok (some single) := by
    show (desk.follow calm (Plan.readText "e" >>= _)).1 = _
    rw [World.follow_bind, hread]
    rfl
  exact prepared_eq_ok.mpr ⟨{}, some single, rfl, hpayload, rfl, rfl⟩

theorem configuration_settings : settings.configuration = .ok (blank.withPayload single) := by
  have hlimit : Settings.timeLimit settings.timeLimit = .ok .hour := by
    unfold Settings.timeLimit
    rw [show Time.TimeLimit.read settings.timeLimit = .ok .hour by decide +kernel]
  unfold FilterSettings.configuration FilterSettings.identityConfiguration
  rw [hlimit]
  rfl

theorem make_scanner : Scanner.make (blank.withPayload single) = .ok scanner :=
  make_blank single

theorem isKey_scanner : Store.isKey scanner.identity = true :=
  identity_blank single ▸ Store.isKey_identity blank

theorem select_desk : desk.run calm scanner.select =
    (.ok ⟨[{ eventId := 1 }], [{ eventId := 1 }]⟩, (desk.run calm Store.ensureFolder).2) := by
  have hrecord : desk.record scanner.identity = .ok none := by decide +kernel
  exact Scanner.run_select calm_sparesReading isKey_scanner (follow_once desk) hrecord

theorem acknowledged_scan :
    Scanner.acknowledged (desk.run calm (scanner.run (printReport .text))).1 = true := by
  unfold Scanner.run
  rw [World.run_bind, select_desk]
  decide +kernel

theorem selected_desk :
    Scanner.selected calm desk scanner = .ok ⟨[{ eventId := 1 }], [{ eventId := 1 }]⟩ :=
  Scanner.selected_of_select select_desk

theorem eq_of_selected {newest : Event} {rest fresh : List Event}
    (h : Scanner.selected calm desk scanner = .ok ⟨newest :: rest, fresh⟩) :
    newest = { eventId := 1 } := by
  have hselection := Except.ok.inj (h.symm.trans selected_desk)
  exact (List.cons.inj (Scanner.Selection.mk.inj hselection).1).1

theorem record_damaged : damagedDesk.record scanner.identity =
    .error (.malformedRecord (joinPath (Store.under "s").folder scanner.identity)
      .missingHash) := by
  decide +kernel

end Sample

/-- The scan leaves its record; and a record that has been damaged meanwhile is removed by a line
that names another source of events, and then the event is selected again. -/
theorem damaged_record_reset :
    let path := joinPath (Store.under "s").folder Sample.scanner.identity
    (∃ after, Sample.desk.follow calm (execute {} Sample.scanning) = (.ok (), after) ∧
      after.host.disk.fileAt after.host.working path =
        .ok (Store.recordText (Event.identity { eventId := 1 })).toUTF8) ∧
    Sample.damagedDesk.record Sample.scanner.identity =
      .error (.malformedRecord path .missingHash) ∧
    ∃ after, Sample.damagedDesk.follow calm (execute {} Sample.resetting) = (.ok (), after) ∧
      after.host.disk.entries = Sample.desk.host.disk.entries ∧
      (after.run calm Sample.scanner.select).1 =
        .ok ⟨[{ eventId := 1 }], [{ eventId := 1 }]⟩ := by
  intro path
  obtain ⟨hprepared, hscan, haddressed⟩ := reset_addresses_scanned_record Sample.prepared_scanning
    Sample.configuration_settings Sample.make_scanner
  obtain ⟨f', hline, hsame⟩ :=
    hprepared calm Sample.damagedDesk Sample.resetting none Sample.sameLook rfl rfl
  obtain ⟨-, -, hreset⟩ := haddressed Sample.damagedDesk {} Sample.resetting f' hline hsame
  obtain ⟨newest, rest, fresh, after, hselected, hexecute, hfile⟩ :=
    hscan rfl Sample.acknowledged_scan
  obtain rfl := Sample.eq_of_selected hselected
  have hlocated : Sample.damagedDesk.host.disk.locate [] path = .ok Sample.recordPlace := by
    decide +kernel
  have hjunk : Sample.damagedDesk.host.disk.fileAt [] path = .ok "junk".toUTF8 := by
    decide +kernel
  obtain ⟨place, after', hplace, rfl, hexecute', -, hagain⟩ := hreset rfl _ hjunk
  obtain rfl : Sample.recordPlace = place := Except.ok.inj (hlocated.symm.trans hplace)
  have herased : (Sample.damagedDesk.host.disk.erase Sample.recordPlace).entries =
      Sample.desk.host.disk.entries := by
    simp [Disk.erase, Sample.damagedDesk, World.onDisk, Sample.desk, Sample.recordPlace]
  refine ⟨⟨after, hexecute, hfile⟩, Sample.record_damaged, _, hexecute', herased, ?_⟩
  have hnext := hagain calm Sample.scanner _ calm_sparesReading rfl
    (congrArg Prod.fst (Scanner.Sample.follow_once _))
  exact hnext

end Program
end LogWatch
