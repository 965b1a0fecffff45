import LogWatch.Proofs.Scanner.Watermark
import LogWatch.Proofs.Time.Window

/-!
# Runs over an unchanged source

After an acknowledged run the record is that of the first event that the run has selected.  A later
run over the same content reads a beginning of what the acknowledged run has read, since the window
starts later, so it selects a beginning of what was selected then: nothing, or a list with the
reported event first, at which the walk ends at once.  The events need not be in order, or differ.

    (w.follow t s.events).1 = .ok older → ∃ events, … = (.ok events, w') ∧ events <+: older
                                                                        (follow_events_later)
-/

namespace LogWatch

/-- The source holds in `w` what it held in `origin`. -/
def Source.Unchanged (s : Source) (origin w : World) : Prop :=
  match s with
  | .payload _ => True
  | .logFile path _ => w.textAt path = origin.textAt path

namespace World

/-- The world at another time. -/
def atTime (w : World) (now : Time.Instant) : World := { w with host.now := now }

theorem entry_atTime (w : World) (now : Time.Instant) (key : String) :
    (w.atTime now).entry key = w.entry key := by
  apply entry_congr <;> rfl

theorem textAt_atTime (w : World) (now : Time.Instant) (path : String) :
    (w.atTime now).textAt path = w.textAt path := rfl

theorem textAt_onDisk (w : World) (d : Disk) (path : String) :
    (w.onDisk d).textAt path = textOf (d.fileAt w.host.working path) := rfl

variable {t t' : Trouble} {origin w : World}

/-- Later on a source gives a beginning of what it gave. -/
theorem follow_events_later {s : Source} {older : List Event} (ht : t'.SparesReading)
    (hread : (origin.follow t s.events).1 = .ok older) (hsame : s.Unchanged origin w)
    (hnow : ¬ origin.host.now.isLeap = true) (hnow' : ¬ w.host.now.isLeap = true)
    (hlater : origin.host.now ≤ w.host.now) :
    ∃ events, w.follow t' s.events = (.ok events, w) ∧ events <+: older := by
  cases s with
  | payload text =>
    rw [follow_events_payload] at hread
    exact ⟨older, by rw [follow_events_payload]; exact Prod.ext hread rfl, List.prefix_refl _⟩
  | logFile path limit =>
    obtain ⟨log, htext, hlog⟩ := World.textAt_of_follow hread
    have hsame : w.textAt path = origin.textAt path := hsame
    have hstart := Time.windowStart_mono hnow hnow' hlater (Int.le_refl limit.nanos)
    rw [World.follow_log ht (hsame.trans htext), Source.eventsOfLog_later hstart hlog]
    exact ⟨_, rfl, List.takeWhile_prefix _⟩

end World

namespace Scanner

variable {t t' : Trouble} {origin w : World} {s : Scanner}

/-- A run finds in `w` the content that it found in `origin`, and no earlier clock. -/
structure Revisits (s : Scanner) (origin w : World) : Prop where
  content : s.source.Unchanged origin w
  later : origin.host.now ≤ w.host.now
  clock : ¬ w.host.now.isLeap = true

/-- What may follow a run in `origin`: the scanner runs again over the same content, scanners of
other identities run, any scanner shows its news, and anything else happens that keeps the
scanner's record. -/
inductive Afterwards (s : Scanner) (t : Trouble) (origin : World) : World → Prop
  | run : Afterwards s t origin (origin.run t (s.run deliver)).2
  | aside {w w' : World} : Afterwards s t origin w →
      w'.record s.identity = w.record s.identity → Afterwards s t origin w'
  | preview {w : World} (o : Scanner) (t' : Trouble) : Afterwards s t origin w →
      Afterwards s t origin (w.run t' o.preview).2
  | other {w : World} (o : Scanner) (t' : Trouble) : Afterwards s t origin w →
      o.identity ≠ s.identity → Afterwards s t origin (w.run t' (o.run deliver)).2
  | again {w : World} (t' : Trouble) : Afterwards s t origin w → t'.SparesReading →
      Revisits s origin w → Afterwards s t origin (w.run t' (s.run deliver)).2

/-! ## One run -/

/-- At the reported event the walk ends. -/
theorem unreported_of_beginning {newest : Event} {rest events : List Event}
    (h : events <+: newest :: rest) : unreported (some newest.identity) events = [] := by
  cases events with
  | nil => rfl
  | cons e es =>
    obtain ⟨rfl, -⟩ := List.cons_prefix_cons.mp h
    dsimp only [unreported]
    rw [List.takeWhile_cons, if_neg (not_isPassedBy_self e)]

/-- Where the record is the first event once selected, a run over the same content finds nothing
new. -/
theorem run_again {newest : Event} {rest fresh : List Event}
    (hk : Store.isKey s.identity = true) (ht : t'.SparesReading)
    (hfirst : selected t origin s = .ok ⟨newest :: rest, fresh⟩)
    (hnow : ¬ origin.host.now.isLeap = true) (hw : Revisits s origin w)
    (hrecord : w.record s.identity = .ok (some newest.identity)) :
    (w.run t' s.preview).1 = .ok [] ∧
      w.run t' (s.run deliver) = (.ok skippedOutcome, (w.run t' s.preview).2) := by
  obtain ⟨older, last, hread, -, hselection⟩ := selected_eq_ok.mp hfirst
  have holder := (Selection.mk.inj hselection).1
  obtain ⟨events, hevents, hbegins⟩ :=
    World.follow_events_later ht hread hw.content hnow hw.clock hw.later
  have hmatched : s.filter.select s.config.cap events <+: newest :: rest := by
    rw [holder, Filter.select_eq, Filter.select_eq]
    exact capped_beginning _ (hbegins.filter _)
  have hselect := run_select ht hk hevents hrecord
  rw [unreported_of_beginning hmatched] at hselect
  have hselected := selected_of_select hselect
  refine ⟨by rw [preview_fst, hselected]; rfl, ?_⟩
  obtain ⟨e, he, -⟩ | ⟨-, -, hended⟩ | ⟨_, _, _, hne, he, -⟩ := run_ends t' w hk
  · rw [hselected] at he
    cases he
  · exact hended
  · rw [hselected] at he
    exact absurd (Selection.mk.inj (Except.ok.inj he)).2.symm hne

/-! ## All runs -/

/-- The record stays that of the event that was selected first. -/
theorem Afterwards.record {newest : Event} {rest fresh : List Event}
    (h : Afterwards s t origin w) (hk : Store.isKey s.identity = true)
    (hfirst : selected t origin s = .ok ⟨newest :: rest, fresh⟩)
    (hnow : ¬ origin.host.now.isLeap = true)
    (hmoved : (origin.run t (s.run deliver)).2.record s.identity = .ok (some newest.identity)) :
    w.record s.identity = .ok (some newest.identity) := by
  have hshown (o : Scanner) (t' : Trouble) (w : World) :
      (w.run t' o.preview).2.record s.identity = w.record s.identity :=
    World.record_of_entry hk ((preview_keeps t' w o).2 _)
  induction h with
  | run => exact hmoved
  | aside _ hsame ih => exact hsame.trans ih
  | preview o t' _ ih => exact (hshown o t' _).trans ih
  | other o t' _ hne ih => exact (keeps_record_run hk hne.symm t' _).trans ih
  | again t' _ ht hw ih =>
    rw [(run_again hk ht hfirst hnow hw ih).2]
    exact (hshown s t' _).trans ih

/-! ## Top theorem -/

/-- After an acknowledged run every run over the same content, at the same time or later, is
skipped: it hands nothing to the sink and leaves the record, and a preview shows nothing.  Before
it the scanner may have run again over the same content, and other scanners over any. -/
theorem rerun_reports_nothing (hs : s.identity = s.config.identity)
    (hack : acknowledged (origin.run t (s.run deliver)).1 = true)
    (hplain : ∀ selection, selected t origin s = .ok selection →
      ∀ newest ∈ selection.matched.head?, newest.instant.HasPlainYear)
    (hnow : ¬ origin.host.now.isLeap = true) (h : Afterwards s t origin w)
    (ht : t'.SparesReading) (hw : Revisits s origin w) :
    (w.run t' (s.run deliver)).1 = .ok skippedOutcome ∧
      (w.run t' (s.run deliver)).2.offers = w.offers ∧
      (w.run t' (s.run deliver)).2.entry s.identity = w.entry s.identity ∧
      (w.run t' s.preview).1 = .ok [] := by
  have hk : Store.isKey s.identity = true := hs ▸ Store.isKey_identity _
  obtain ⟨newest, fresh, hfirst⟩ := acknowledges_of_acknowledged hk hack
  obtain ⟨rest, hselects⟩ := hfirst.selects
  have hmoved := World.record_of_recordText hk (run_entry_of_acknowledges hk hfirst)
  rw [Store.readBack_of_plain (hplain _ hselects newest rfl)] at hmoved
  obtain ⟨hshown, hended⟩ :=
    run_again hk ht hselects hnow hw (h.record hk hselects hnow hmoved)
  obtain ⟨hoffers, hentry⟩ := preview_keeps t' w s
  rw [hended]
  exact ⟨rfl, hoffers, hentry _, hshown⟩

/-! ## In a window that has moved on -/

namespace Sample

theorem acknowledged_cleared :
    acknowledged (cleared.run calm (scanner.run deliver)).1 = true := by
  rw [run_cleared]
  rfl

/-- Twenty-five minutes past the acknowledged run. -/
def quietHour : Time.Instant := (Time.Instant.ofSecond? 1500 0).getD .epoch

def waited : World := (cleared.run calm (scanner.run deliver)).2.atTime quietHour

theorem afterwards_waited : Afterwards scanner calm cleared waited :=
  .aside .run (World.record_of_entry isKey_scanner (World.entry_atTime _ _ _))

/-- The run has left the log as it is. -/
theorem textAt_waited : waited.textAt "log" = .ok nightLog := by
  have hpath : recorded.locate crowded.host.working "log" = .ok ["log"] := by decide +kernel
  have hfile : recorded.get? ["log"] = some (.file nightLog.toUTF8) := by
    unfold recorded
    rw [Disk.get?_set _ (by simp), if_neg (by simp), Disk.get?_erase _ (by simp),
      if_neg (by simp)]
    rfl
  unfold waited
  rw [run_cleared, World.textAt_atTime, World.textAt_onDisk, handed_eq.2.2]
  exact World.textAt_of_file (w := crowded.onDisk recorded) hpath hfile

theorem revisits_waited : Revisits scanner cleared waited where
  content := textAt_waited.trans textAt_cleared.symm
  later := by
    show cleared.host.now ≤ quietHour
    rw [now_cleared]
    decide +kernel
  clock := show ¬quietHour.isLeap = true by decide +kernel

/-- The window has moved past the event at which the walk ended. -/
theorem follow_waited :
    waited.follow calm scanner.source.events = (.ok unseen, waited) := by
  have hall : (night.reverse.takeWhile fun e =>
      Time.windowStart quietHour .hour < e.instant) = unseen := by
    decide +kernel
  rw [show scanner.source = .logFile "log" .hour from rfl,
    World.follow_log calm_sparesReading textAt_waited, Source.eventsOfLog_eq holds_night,
    show waited.host.now = quietHour from rfl, hall]
  rfl

end Sample

/-- The acknowledged run has selected four events; later the first two of them are read again, and
nothing is reported. -/
theorem rerun_reports_nothing_in_later_window :
    acknowledged (Sample.cleared.run calm (Sample.scanner.run deliver)).1 = true ∧
      selected calm Sample.cleared Sample.scanner = .ok ⟨Sample.night.reverse, Sample.unseen⟩ ∧
      (Sample.waited.follow calm Sample.scanner.source.events).1 = .ok Sample.unseen ∧
      (Sample.waited.run calm (Sample.scanner.run deliver)).1 = .ok skippedOutcome ∧
      (Sample.waited.run calm (Sample.scanner.run deliver)).2.offers = Sample.waited.offers ∧
      (Sample.waited.run calm Sample.scanner.preview).1 = .ok [] := by
  have hplain : ∀ selection, selected calm Sample.cleared Sample.scanner = .ok selection →
      ∀ newest ∈ selection.matched.head?, newest.instant.HasPlainYear := by
    intro selection hselection newest hnewest
    obtain rfl := Except.ok.inj (Sample.selected_cleared.symm.trans hselection)
    obtain rfl : LogWatch.Sample.occurring 0 7 = newest := Option.some.inj hnewest
    decide +kernel
  have hnow : ¬Sample.cleared.host.now.isLeap = true := by
    rw [Sample.now_cleared]
    decide
  obtain ⟨hskipped, hoffers, -, hshown⟩ := rerun_reports_nothing Sample.identity_scanner
    Sample.acknowledged_cleared hplain hnow Sample.afterwards_waited calm_sparesReading
    Sample.revisits_waited
  exact ⟨Sample.acknowledged_cleared, Sample.selected_cleared,
    congrArg Prod.fst Sample.follow_waited, hskipped, hoffers, hshown⟩

end Scanner
end LogWatch
