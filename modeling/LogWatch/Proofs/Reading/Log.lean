import LogWatch.Proofs.Delivery.Log
import LogWatch.Proofs.Json.Blank
import LogWatch.Proofs.Text.Lines

/-!
# Reading a log from its end

A log is read backwards: blank lines are passed over, events after the start of the window are
taken, and reading ends at the first other line.  If that line is an event, what was taken is the
result, and if it is none, reading fails there.  So the result depends on the longest end of the log
that lies in the window, and on the line before it alone.

    eventsOfLog start log = .error bad ↔ FailsAt start (linesOf log) bad
                                                                      (eventsOfLog_eq_error_iff)
    linesOf log = before ++ run → eventsOfLog start log = …               (eventsOfLog_of_lines)
-/

namespace LogWatch

open Text

namespace Source

variable {start : Time.Instant}

/-! ## What is taken of a log -/

/-- The line is blank, or an event after the start. -/
def InWindow (start : Time.Instant) (line : String) : Prop :=
  isBlankText line = true ∨ ∃ e, Event.ofText line = .ok e ∧ start < e.instant

/-- The line is an event at the start or before it. -/
def Stops (start : Time.Instant) (line : String) : Prop :=
  ∃ e, Event.ofText line = .ok e ∧ e.instant ≤ start

/-- The events of some lines, in their order. -/
def eventsOfLines (lines : List String) : List Event :=
  lines.filterMap fun line => (Event.ofText line).toOption

/-- The line of this number is neither blank nor an event, and all behind it is in the window. -/
def FailsAt (start : Time.Instant) (lines : List String) (bad : BadLine) : Prop :=
  ∃ earlier line later, lines = earlier ++ line :: later ∧ bad.line = earlier.length + 1 ∧
    isBlankText line = false ∧ Event.ofText line = .error bad.fault ∧
    ∀ l ∈ later, InWindow start l

/-- The longest end that is in the window. -/
structure LastRun (start : Time.Instant) (lines run : List String) : Prop where
  isEnd : run <:+ lines
  inWindow : ∀ line ∈ run, InWindow start line
  longest : ∀ other, other <:+ lines → (∀ line ∈ other, InWindow start line) → other <:+ run

/-! ## One line after another -/

/-- A line is in the window, or reading ends at it. -/
theorem inWindow_or (start : Time.Instant) (line : String) :
    InWindow start line ∨ Stops start line ∨
      isBlankText line = false ∧ ∃ fault, Event.ofText line = .error fault := by
  cases hb : isBlankText line with
  | true => exact .inl (.inl hb)
  | false =>
    cases he : Event.ofText line with
    | error fault => exact .inr (.inr ⟨rfl, fault, rfl⟩)
    | ok e =>
      rcases lt_or_ge start e.instant with hlater | hle
      · exact .inl (.inr ⟨e, he, hlater⟩)
      · exact .inr (.inl ⟨e, he, hle⟩)

theorem eventsOfLines_cons_of_isBlankText {line : String} (h : isBlankText line = true)
    (lines : List String) : eventsOfLines (line :: lines) = eventsOfLines lines := by
  have hnone : (Event.ofText line).toOption = none := by
    cases he : Event.ofText line with
    | error fault => rfl
    | ok e =>
      rw [Event.not_isBlankText_of_ofText he] at h
      cases h
  exact List.filterMap_cons_none hnone

theorem eventsOfLines_cons {line : String} {e : Event} (h : Event.ofText line = .ok e)
    (lines : List String) : eventsOfLines (line :: lines) = e :: eventsOfLines lines :=
  List.filterMap_cons_some (toOption_eq_some.mpr h)

theorem eventsOfLines_reverse (lines : List String) :
    eventsOfLines lines.reverse = (eventsOfLines lines).reverse := List.filterMap_reverse ..

/-- What is in the window is taken, and reading goes on. -/
theorem recent_append {newer : List (String × Nat)} (h : ∀ l ∈ newer, InWindow start l.1)
    (older : List (String × Nat)) :
    recent start (newer ++ older) =
      (recent start older).map (eventsOfLines (newer.map Prod.fst) ++ ·) := by
  induction newer with
  | nil =>
    rw [List.nil_append]
    cases recent start older <;> rfl
  | cons numbered newer ih =>
    obtain ⟨line, n⟩ := numbered
    obtain ⟨hline, hnewer⟩ := List.forall_mem_cons.mp h
    rw [List.cons_append, List.map_cons]
    rcases hline with hb | ⟨e, he, hlater⟩
    · rw [recent_blank hb, ih hnewer, eventsOfLines_cons_of_isBlankText hb]
    · rw [recent_event he, if_neg (not_le_of_gt hlater), ih hnewer, eventsOfLines_cons he]
      cases recent start older <;> rfl

theorem recent_of_stops {line : String} (h : Stops start line) (n : Nat)
    (older : List (String × Nat)) : recent start ((line, n) :: older) = .ok [] := by
  obtain ⟨e, he, hle⟩ := h
  rw [recent_event he, if_pos hle]

/-! ## The end of a log -/

section Log

variable {log : String} {run earlier later : List String} {stop line : String}

/-- An end of the log that is in the window is taken, and reading goes on before it. -/
theorem eventsOfLog_of_lines (before run : List String) (h : linesOf log = before ++ run)
    (hrun : ∀ l ∈ run, InWindow start l) :
    eventsOfLog start log =
      (recent start (before.zipIdx 1).reverse).map ((eventsOfLines run).reverse ++ ·) := by
  have hfst : ((run.zipIdx (1 + before.length)).reverse.map Prod.fst) = run.reverse := by
    rw [List.map_reverse, List.zipIdx_map_fst]
  have hin : ∀ l ∈ (run.zipIdx (1 + before.length)).reverse, InWindow start l.1 := by
    intro l hl
    have hmem : l.1 ∈ (run.zipIdx (1 + before.length)).reverse.map Prod.fst :=
      List.mem_map_of_mem hl
    rw [hfst] at hmem
    exact hrun _ (List.mem_reverse.mp hmem)
  rw [eventsOfLog, h, List.zipIdx_append, List.reverse_append, recent_append hin, hfst,
    eventsOfLines_reverse]

theorem zipIdx_concat_reverse (earlier : List String) (line : String) :
    ((earlier ++ [line]).zipIdx 1).reverse =
      (line, earlier.length + 1) :: (earlier.zipIdx 1).reverse := by
  rw [List.zipIdx_append, List.reverse_append, Nat.add_comm]
  rfl

/-- All of the log is in the window. -/
theorem eventsOfLog_of_inWindow (h : ∀ l ∈ linesOf log, InWindow start l) :
    eventsOfLog start log = .ok (eventsOfLines (linesOf log)).reverse := by
  rw [eventsOfLog_of_lines [] (linesOf log) rfl h]
  show Except.ok ((eventsOfLines (linesOf log)).reverse ++ []) = _
  rw [List.append_nil]

theorem eventsOfLog_of_stops (h : linesOf log = earlier ++ stop :: later)
    (hstop : Stops start stop) (hlater : ∀ l ∈ later, InWindow start l) :
    eventsOfLog start log = .ok (eventsOfLines later).reverse := by
  rw [eventsOfLog_of_lines (earlier ++ [stop]) later (by rw [h]; simp) hlater,
    zipIdx_concat_reverse, recent_of_stops hstop]
  show Except.ok ((eventsOfLines later).reverse ++ []) = _
  rw [List.append_nil]

theorem FailsAt.eventsOfLog {bad : BadLine} (h : FailsAt start (linesOf log) bad) :
    eventsOfLog start log = .error bad := by
  obtain ⟨earlier, line, later, hlines, hn, hb, hline, hlater⟩ := h
  rw [eventsOfLog_of_lines (earlier ++ [line]) later (by rw [hlines]; simp) hlater,
    zipIdx_concat_reverse, recent_bad hb hline, ← hn]
  rfl

/-- The lines of a log are all in the window, or the last that is not stands before an end that
is. -/
theorem exists_last_run (start : Time.Instant) (lines : List String) :
    (∀ l ∈ lines, InWindow start l) ∨
      ∃ earlier line later, lines = earlier ++ line :: later ∧ ¬InWindow start line ∧
        ∀ l ∈ later, InWindow start l := by
  induction lines with
  | nil => exact .inl nofun
  | cons line lines ih =>
    rcases ih with hall | ⟨earlier, last, later, rfl, hlast, hlater⟩
    · by_cases hline : InWindow start line
      · exact .inl (List.forall_mem_cons.mpr ⟨hline, hall⟩)
      · exact .inr ⟨[], line, lines, rfl, hline, hall⟩
    · exact .inr ⟨line :: earlier, last, later, rfl, hlast, hlater⟩

theorem lastRun_of_inWindow {lines : List String} (h : ∀ l ∈ lines, InWindow start l) :
    LastRun start lines lines where
  isEnd := List.suffix_refl _
  inWindow := h
  longest := fun _ hother _ => hother

theorem lastRun_of_not_inWindow (hline : ¬InWindow start line)
    (hlater : ∀ l ∈ later, InWindow start l) :
    LastRun start (earlier ++ line :: later) later where
  isEnd := ⟨earlier ++ [line], by simp⟩
  inWindow := hlater
  longest := by
    intro other hother hin
    rcases List.suffix_or_suffix_of_suffix hother
      (⟨earlier, rfl⟩ : line :: later <:+ earlier ++ line :: later) with h | h
    · rcases List.suffix_cons_iff.mp h with rfl | h
      · exact absurd (hin line List.mem_cons_self) hline
      · exact h
    · exact absurd (hin line (h.subset List.mem_cons_self)) hline

theorem LastRun.unique {lines run' : List String} (h : LastRun start lines run)
    (h' : LastRun start lines run') : run = run' :=
  (h'.longest run h.isEnd h.inWindow).eq_of_length_le
    (h.longest run' h'.isEnd h'.inWindow).length_le

/-- Reading fails at a line, or it takes the longest end in the window. -/
theorem eventsOfLog_cases (start : Time.Instant) (log : String) :
    (∃ bad, FailsAt start (linesOf log) bad) ∨
      ∃ run, LastRun start (linesOf log) run ∧
        eventsOfLog start log = .ok (eventsOfLines run).reverse := by
  rcases exists_last_run start (linesOf log) with hall | ⟨earlier, line, later, h, hline, hlater⟩
  · exact .inr ⟨_, lastRun_of_inWindow hall, eventsOfLog_of_inWindow hall⟩
  · rcases inWindow_or start line with hin | hstop | ⟨hb, fault, hfault⟩
    · exact absurd hin hline
    · refine .inr ⟨later, ?_, eventsOfLog_of_stops h hstop hlater⟩
      rw [h]
      exact lastRun_of_not_inWindow hline hlater
    · exact .inl ⟨⟨earlier.length + 1, fault⟩, earlier, line, later, h, rfl, hb, hfault, hlater⟩

theorem eventsOfLog_eq_error_iff {bad : BadLine} :
    eventsOfLog start log = .error bad ↔ FailsAt start (linesOf log) bad := by
  refine ⟨fun h => ?_, FailsAt.eventsOfLog⟩
  rcases eventsOfLog_cases start log with ⟨bad', hbad⟩ | ⟨run, -, hrun⟩
  · obtain rfl := Except.error.inj (h.symm.trans hbad.eventsOfLog)
    exact hbad
  · cases h.symm.trans hrun

theorem eventsOfLog_eq_ok_iff {events : List Event} :
    eventsOfLog start log = .ok events ↔ (∀ bad, ¬FailsAt start (linesOf log) bad) ∧
      ∃ run, LastRun start (linesOf log) run ∧ events = (eventsOfLines run).reverse := by
  constructor
  · intro h
    refine ⟨fun bad hbad => ?_, ?_⟩
    · cases h.symm.trans hbad.eventsOfLog
    rcases eventsOfLog_cases start log with ⟨bad, hbad⟩ | ⟨run, hrun, hread⟩
    · cases h.symm.trans hbad.eventsOfLog
    · exact ⟨run, hrun, Except.ok.inj (h.symm.trans hread)⟩
  · rintro ⟨hnone, run, hrun, rfl⟩
    rcases eventsOfLog_cases start log with ⟨bad, hbad⟩ | ⟨run', hrun', hread⟩
    · exact absurd hbad (hnone bad)
    · rw [hread, hrun.unique hrun']

/-- Reading ends at an event, and takes these lines behind it. -/
def EndsBefore (start : Time.Instant) (lines later : List String) : Prop :=
  ∃ earlier stop, lines = earlier ++ stop :: later ∧ Stops start stop ∧
    ∀ l ∈ later, InWindow start l

theorem EndsBefore.append {lines : List String} (h : EndsBefore start lines later)
    (front : List String) : EndsBefore start (front ++ lines) later := by
  obtain ⟨earlier, stop, rfl, hstop, hlater⟩ := h
  exact ⟨front ++ earlier, stop, by rw [List.append_assoc], hstop, hlater⟩

theorem EndsBefore.eventsOfLog (h : EndsBefore start (linesOf log) later) :
    eventsOfLog start log = .ok (eventsOfLines later).reverse := by
  obtain ⟨earlier, stop, hlines, hstop, hlater⟩ := h
  exact eventsOfLog_of_stops hlines hstop hlater

end Log

/-! ## Top theorem -/

/-- A log file is read from its end.  Reading fails at a line that is neither blank nor an event if
all behind it is in the window, and takes the longest end in the window if there is no such line.
Once it ends at an event, nothing before the lines behind that event matters, whether the text
before is another one or missing.  Of a log in order, all of whose lines decode, it takes all events
after the start of the window. -/
theorem log_is_read_from_its_end (path : String) (now : Time.Instant) (limit : Time.TimeLimit)
    (log : String) :
    let start := Time.windowStart now limit
    (∀ (t : Trouble) (w : World), t.SparesReading → w.textAt path = .ok log → w.host.now = now →
      w.follow t (Source.logFile path limit).events =
        ((eventsOfLog start log).mapError (.badLine path), w)) ∧
    (∀ bad, eventsOfLog start log = .error bad ↔ FailsAt start (linesOf log) bad) ∧
    (∀ events, eventsOfLog start log = .ok events ↔
      (∀ bad, ¬FailsAt start (linesOf log) bad) ∧
        ∃ run, LastRun start (linesOf log) run ∧ events = (eventsOfLines run).reverse) ∧
    (∀ log' later, EndsBefore start (linesOf log) later → EndsBefore start (linesOf log') later →
      eventsOfLog start log' = eventsOfLog start log) ∧
    (∀ earlier later, EndsBefore start (linesOf log) later →
      eventsOfLog start (earlier ++ "\n" ++ log) = eventsOfLog start log) ∧
    ∀ events, Holds log events → Ordered events →
      eventsOfLog start log = .ok (events.filter fun e => start < e.instant).reverse := by
  intro start
  refine ⟨fun t w ht htext hnow => ?_, fun _ => eventsOfLog_eq_error_iff,
    fun _ => eventsOfLog_eq_ok_iff, fun log' later h h' => ?_, fun earlier later h => ?_,
    fun events hholds hordered => ?_⟩
  · rw [World.follow_log ht htext, hnow]
  · rw [h.eventsOfLog, h'.eventsOfLog]
  · have hmore : EndsBefore start (linesOf (earlier ++ "\n" ++ log)) later := by
      rw [linesOf_append_break]
      exact h.append _
    rw [h.eventsOfLog, hmore.eventsOfLog]
  · rw [eventsOfLog_eq hholds, takeWhile_recent hordered]

/-! ## A bad line in the window and one before it -/

namespace Sample

def pastLine : String :=
  "\x7b\"EventID\":1,\"TimeGenerated\":\"1969-12-31T22:00:00Z\"\x7d"

def past : Event where
  eventId := 1
  time := .ofInstant
    { Time.Instant.epoch with second := -7200, inRange := by decide, leap := by decide }

def lateLine : String := "\x7b\"EventID\":4\x7d"

def late : Event := { eventId := 4 }

/-- An event long past and one within the hour, with a blank line between them. -/
def log : String := pastLine ++ "\n \r\n" ++ lateLine

/-- Another end, with a line that is no event. -/
def spoilt : String := pastLine ++ "\nnot json\r\n \n" ++ lateLine

def hourAgo : Time.Instant := Time.windowStart .epoch .hour

/-- The log in a file. -/
def world : World where
  store := ⟨"s", false⟩
  host.disk := ⟨[(["log"], .file log.toUTF8)]⟩

theorem textAt_world : world.textAt "log" = .ok log := by
  have hpath : world.host.disk.locate world.host.working "log" = .ok ["log"] := by decide +kernel
  exact World.textAt_of_file hpath rfl

/-- What the lines are, and where their events lie. -/
theorem read_lines :
    (linesOf log = [pastLine, " ", lateLine] ∧
        linesOf spoilt = [pastLine, "not json", " ", lateLine]) ∧
      ((Event.ofText pastLine).toOption = some past ∧
        (Event.ofText lateLine).toOption = some late ∧
        (Event.ofText "not json").toOption = none) ∧
      past.instant ≤ hourAgo ∧ hourAgo < late.instant := by
  decide +kernel

theorem holds_log : Holds log [past, late] := by
  obtain ⟨⟨hlines, -⟩, ⟨hpast, hlate, -⟩, -⟩ := read_lines
  have hfilled : ([pastLine, " ", lateLine].filter fun line => !isBlankText line) =
      [pastLine, lateLine] := by decide
  rw [Holds, hlines, hfilled, List.map_cons, List.map_singleton, hpast, hlate]
  rfl

theorem inWindow_ends : ∀ l ∈ [" ", lateLine], InWindow hourAgo l := by
  obtain ⟨-, ⟨-, hlate, -⟩, -, hafter⟩ := read_lines
  intro l hl
  simp only [List.mem_cons, List.not_mem_nil, or_false] at hl
  obtain rfl | rfl := hl
  · exact .inl (by decide)
  · exact .inr ⟨late, toOption_eq_some.mp hlate, hafter⟩

theorem failsAt_spoilt : ∃ fault, FailsAt hourAgo (linesOf spoilt) ⟨2, fault⟩ := by
  obtain ⟨⟨-, hlines⟩, ⟨-, -, hbad⟩, -⟩ := read_lines
  cases hfault : Event.ofText "not json" with
  | error fault =>
    exact ⟨fault, [pastLine], "not json", _, hlines, rfl, by decide, hfault, inWindow_ends⟩
  | ok e =>
    rw [hfault] at hbad
    cases hbad

theorem endsBefore_log : EndsBefore hourAgo (linesOf log) [" ", lateLine] := by
  obtain ⟨⟨hlines, -⟩, ⟨hpast, -⟩, hbefore, -⟩ := read_lines
  exact ⟨[], pastLine, hlines, ⟨past, toOption_eq_some.mp hpast, hbefore⟩, inWindow_ends⟩

end Sample

/-- A bad line before the event at which reading ends is not seen; behind it, reading fails. -/
theorem log_is_read_from_its_end_past_bad_lines :
    Sample.world.follow calm (Source.logFile "log" .hour).events =
        (.ok [Sample.late], Sample.world) ∧
      eventsOfLog Sample.hourAgo ("not json" ++ "\n" ++ Sample.log) = .ok [Sample.late] ∧
      ∃ fault, eventsOfLog Sample.hourAgo Sample.spoilt = .error ⟨2, fault⟩ := by
  obtain ⟨hworld, -, -, -, hearlier, hordered⟩ :=
    log_is_read_from_its_end "log" .epoch .hour Sample.log
  obtain ⟨-, hfails, -⟩ := log_is_read_from_its_end "log" .epoch .hour Sample.spoilt
  have hread : eventsOfLog Sample.hourAgo Sample.log = .ok [Sample.late] := by
    obtain ⟨-, -, hbefore, hafter⟩ := Sample.read_lines
    refine (hordered _ Sample.holds_log (by decide)).trans (congrArg Except.ok ?_)
    have hpast : ¬Sample.hourAgo < Sample.past.instant := not_lt_of_ge hbefore
    show ([Sample.past, Sample.late].filter fun e => Sample.hourAgo < e.instant).reverse = _
    simp [hpast, hafter]
  obtain ⟨fault, hfault⟩ := Sample.failsAt_spoilt
  refine ⟨?_, (hearlier _ _ Sample.endsBefore_log).trans hread, fault, (hfails _).mpr hfault⟩
  rw [hworld calm Sample.world calm_sparesReading Sample.textAt_world rfl]
  show (Except.mapError _ (eventsOfLog Sample.hourAgo Sample.log), _) = _
  rw [hread]
  rfl

end Source
end LogWatch
