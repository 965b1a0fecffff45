import LogWatch.Proofs.Reading.Log
import LogWatch.Proofs.Time.Window

/-!
# Reading with a longer limit

A longer limit, or an earlier clock, moves the start of the window back, if only to the end of the
range of instants.  What is read from an earlier start begins with what is read from a later one;
and a line at which reading fails from the later start is met from the earlier one as well.

    windowStart now longer ≤ windowStart later shorter                         (windowStart_mono)
    eventsOfLog start log = .ok older → eventsOfLog later log = .ok (older.takeWhile …)
                                                                               (eventsOfLog_later)
-/

namespace LogWatch

namespace Source

/-! ## Top theorem -/

/-- Where a log file has been read with some limit, it is read with every limit that is no longer,
at that time or later, and what is read is a beginning of what was read: the events up to the first
that is not after the start of the new window. -/
theorem longer_limit_adds_older_events {t t' : Trouble} {w w' : World} {path : String}
    {shorter longer : Time.TimeLimit} {older : List Event}
    (hread : (w.follow t (Source.logFile path longer).events).1 = .ok older)
    (ht : t'.SparesReading) (hsame : w'.textAt path = w.textAt path)
    (hnow : ¬w.host.now.isLeap = true) (hnow' : ¬w'.host.now.isLeap = true)
    (hlater : w.host.now ≤ w'.host.now) (hlimits : shorter.nanos ≤ longer.nanos) :
    ∃ events, w'.follow t' (Source.logFile path shorter).events = (.ok events, w') ∧
      events <+: older ∧
      events = older.takeWhile fun e => Time.windowStart w'.host.now shorter < e.instant := by
  obtain ⟨log, htext, hlog⟩ := World.textAt_of_follow hread
  have hstart := Time.windowStart_mono hnow hnow' hlater hlimits
  have hrest := eventsOfLog_later hstart hlog
  refine ⟨_, ?_, List.takeWhile_prefix _, rfl⟩
  rw [World.follow_log ht (hsame.trans htext), hrest]
  rfl

namespace Sample

/-- The longest limit: its window starts at the first instant, that of its opposite at the last. -/
def longest : Time.TimeLimit := ⟨Time.longestLimit, by decide⟩

/-- All that the log holds. -/
theorem read_longest :
    (world.follow calm (Source.logFile "log" longest).events).1 = .ok [late, past] := by
  rw [World.follow_log calm_sparesReading textAt_world, eventsOfLog_eq holds_log]
  refine congrArg Except.ok ?_
  decide +kernel

/-- The window of an hour starts between the two events. -/
theorem takeWhile_hour :
    ([late, past].takeWhile fun e => Time.windowStart world.host.now .hour < e.instant) =
      [late] := by
  obtain ⟨-, -, hpast, hlate⟩ := read_lines
  have hstop : ¬hourAgo < past.instant := not_lt_of_ge hpast
  show ([late, past].takeWhile fun e => hourAgo < e.instant) = _
  rw [List.takeWhile_cons_of_pos (by simpa using hlate),
    List.takeWhile_cons_of_neg (by simpa using hstop)]

end Sample

/-- An hour reads the last event, and the longest limit adds the one long past. -/
theorem longest_limit_adds_past_event :
    Sample.world.follow calm (Source.logFile "log" .hour).events =
        (.ok [Sample.late], Sample.world) ∧
      [Sample.late] <+: [Sample.late, Sample.past] ∧
      [Sample.late] = [Sample.late, Sample.past].takeWhile fun e =>
        Time.windowStart Sample.world.host.now .hour < e.instant := by
  have hlimits : Time.TimeLimit.hour.nanos ≤ Sample.longest.nanos := by decide
  obtain ⟨events, hread, hbegins, hevents⟩ := longer_limit_adds_older_events Sample.read_longest
    calm_sparesReading rfl (by decide) (by decide) (le_refl _) hlimits
  obtain rfl : events = [Sample.late] := hevents.trans Sample.takeWhile_hour
  exact ⟨hread, hbegins, hevents⟩

end Source
end LogWatch
