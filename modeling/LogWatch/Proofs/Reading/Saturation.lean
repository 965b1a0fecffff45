import LogWatch.Proofs.Reading.Window

/-!
# Reading with a limit beyond the range of instants

Where the clock less the limit lies before the first instant, the window starts at the first
instant, and where it lies after the last, the window starts at the last.  Reading ends at the first
event that is not after the start.  So the first window lets in every event but one at the very
first instant, and the last window shuts out every event but one in the leap second behind it.

    windowStart now d = first → read = events.reverse.takeWhile (·.instant ≠ first)
    windowStart now d = last → read = events.reverse.takeWhile (last < ·.instant)
                                                        (saturated_window_reads_all_or_none)
-/

namespace LogWatch

namespace Source

open Time (Instant)

variable {log : String} {events : List Event}

/-! ## The two ends of the range -/

theorem eventsOfLog_first (h : Holds log events) :
    eventsOfLog .first log = .ok (events.reverse.takeWhile fun e => e.instant ≠ .first) := by
  rw [eventsOfLog_eq h]
  simp only [Instant.first_lt_iff]

/-- Everything is read unless an event is at the very first instant. -/
theorem takeWhile_ne_first_eq_self :
    (events.reverse.takeWhile fun e => e.instant ≠ .first) = events.reverse ↔
      ∀ e ∈ events, e.instant ≠ .first := by
  simp only [List.takeWhile_eq_self_iff, List.mem_reverse, decide_eq_true_eq]

/-- Nothing is read unless the last event is in the leap second that ends the range. -/
theorem takeWhile_last_lt_eq_nil :
    (events.reverse.takeWhile fun e => Instant.last < e.instant) = [] ↔
      ∀ e ∈ events.getLast?, ¬(e.instant.second = Time.lastSecond ∧ e.instant.isLeap = true) := by
  simp only [← Instant.last_lt_iff]
  rw [← List.head?_reverse]
  cases events.reverse with
  | nil => simp
  | cons e es => simp [List.takeWhile_cons]

/-! ## Top theorem -/

/-- With a window from before the first instant a log file, all of whose lines decode, is read up
to the last event at the first instant, and with one from after the last instant only the events
in the leap second at its end are read. -/
theorem saturated_window_reads_all_or_none {t : Trouble} {w : World} {path : String}
    (ht : t.SparesReading) (htext : w.textAt path = .ok log) (hholds : Holds log events)
    (hnow : ¬w.host.now.isLeap = true) (limit : Time.TimeLimit) :
    let read := w.follow t (Source.logFile path limit).events
    (w.host.now.nanos - limit.nanos < Instant.first.nanos →
      read = (.ok (events.reverse.takeWhile fun e => e.instant ≠ .first), w) ∧
      (read.1 = .ok events.reverse ↔ ∀ e ∈ events, e.instant ≠ .first)) ∧
    (Instant.last.nanos < w.host.now.nanos - limit.nanos →
      read = (.ok (events.reverse.takeWhile fun e => Instant.last < e.instant), w) ∧
      (read.1 = .ok [] ↔
        ∀ e ∈ events.getLast?, ¬(e.instant.second = Time.lastSecond ∧ e.instant.isLeap = true))) := by
  intro read
  have hread : read = ((eventsOfLog (.ofNanos (w.host.now.nanos - limit.nanos)) log).mapError
      (.badLine path), w) := by
    rw [← Time.windowStart_eq hnow]
    exact World.follow_log ht htext limit
  refine ⟨fun hearly => ?_, fun hlate => ?_⟩
  · rw [Instant.ofNanos_of_lt_first hearly, eventsOfLog_first hholds] at hread
    refine ⟨hread, ?_⟩
    rw [hread, ← takeWhile_ne_first_eq_self]
    exact ⟨Except.ok.inj, congrArg Except.ok⟩
  · rw [Instant.ofNanos_of_last_lt hlate, eventsOfLog_eq hholds] at hread
    refine ⟨hread, ?_⟩
    rw [hread, ← takeWhile_last_lt_eq_nil]
    exact ⟨Except.ok.inj, congrArg Except.ok⟩

namespace Sample

/-- With the longest limit the window starts before the first instant, with its opposite after the
last. -/
theorem longest_is_beyond :
    world.host.now.nanos - longest.nanos < Instant.first.nanos ∧
      Instant.last.nanos < world.host.now.nanos - longest.neg.nanos := by
  decide

/-- At the first instant there is. -/
def dawn : Event := { time := .ofInstant .first }

/-- In the leap second that ends the range. -/
def dusk : Event where
  time := .ofInstant
    { Instant.last with nano := Time.nanosPerSecond, nano_lt := by decide, leap := by decide }

/-- A log from one end of the range to the other. -/
def ages : String :=
  "\x7b\"TimeGenerated\":\"-262143-01-01T00:00:00Z\"\x7d\n" ++
    "\x7b\"TimeGenerated\":\"+262142-12-31T23:59:60Z\"\x7d"

def agesWorld : World where
  store := ⟨"s", false⟩
  host.disk := ⟨[(["log"], .file ages.toUTF8)]⟩

end Sample

theorem saturated_window_reads_all_or_none_of_longest :
    Sample.world.follow calm (Source.logFile "log" Sample.longest).events =
        (.ok [Sample.late, Sample.past], Sample.world) ∧
      (Sample.world.follow calm (Source.logFile "log" Sample.longest.neg).events).1 = .ok [] := by
  have hread := saturated_window_reads_all_or_none calm_sparesReading Sample.textAt_world
    Sample.holds_log (by decide)
  obtain ⟨hall, -⟩ := hread Sample.longest
  obtain ⟨-, hnone⟩ := hread Sample.longest.neg
  obtain ⟨hbegins, heverything⟩ := hall Sample.longest_is_beyond.1
  obtain ⟨-, hnothing⟩ := hnone Sample.longest_is_beyond.2
  exact ⟨Prod.ext (heverything.mpr (by decide)) (congrArg Prod.snd hbegins),
    hnothing.mpr (by decide)⟩

/-- Of a log that begins at the first instant and ends in the last leap second, the window from
before the first instant does not let in the beginning, and the one from after the last instant
does not shut out the end. -/
theorem ends_of_range_are_misread :
    Holds Sample.ages [Sample.dawn, Sample.dusk] ∧
      Sample.agesWorld.textAt "log" = .ok Sample.ages ∧
      Instant.epoch.nanos - Sample.longest.nanos < Instant.first.nanos ∧
      Sample.agesWorld.follow calm (Source.logFile "log" Sample.longest).events =
        (.ok [Sample.dusk], Sample.agesWorld) ∧
      Instant.last.nanos < Instant.epoch.nanos - Sample.longest.neg.nanos ∧
      Sample.agesWorld.follow calm (Source.logFile "log" Sample.longest.neg).events =
        (.ok [Sample.dusk], Sample.agesWorld) := by
  have hholds : Holds Sample.ages [Sample.dawn, Sample.dusk] := by decide +kernel
  have htext : Sample.agesWorld.textAt "log" = .ok Sample.ages :=
    World.textAt_of_file (p := ["log"]) (by decide +kernel) rfl
  have hread (limit : Time.TimeLimit) (h : ([Sample.dusk, Sample.dawn].takeWhile fun e =>
      Time.windowStart .epoch limit < e.instant) = [Sample.dusk]) :
      Sample.agesWorld.follow calm (Source.logFile "log" limit).events =
        (.ok [Sample.dusk], Sample.agesWorld) := by
    rw [World.follow_log calm_sparesReading htext, eventsOfLog_eq hholds]
    exact Prod.ext (congrArg Except.ok h) rfl
  exact ⟨hholds, htext, Sample.longest_is_beyond.1, hread _ (by decide +kernel),
    Sample.longest_is_beyond.2, hread _ (by decide +kernel)⟩

end Source
end LogWatch
