import LogWatch.Report
import LogWatch.Source.Basic
import LogWatch.Proofs.Event.Record
import LogWatch.Proofs.Source.Events

/-!
# What a JSON report holds

A report is a well-formed document.  Its events are the ones that were reported, in their order
and with everything that was read of them, and its count is their number.  The array of events
is a payload of its own: a source that is given it lists the same events again.

    parse? (jsonText events c) = some (json events c)                            (parse?_jsonText)
-/

namespace LogWatch

open Text

/-- The value of the first member with this key. -/
def Json.member? (key : String) : Json → Option Json
  | .object members => (members.find? fun m => m.1 == some key).map Prod.snd
  | _ => none

namespace Report

theorem legible_json (events : List Event) (c : Configuration) : (json events c).Legible := by
  refine .record fun m hm => ?_
  simp only [List.mem_cons, List.not_mem_nil, or_false] at hm
  obtain rfl | rfl | rfl | rfl | rfl | rfl | rfl := hm
  · exact .text _
  · exact Json.legible_int _
  · exact .text _
  · exact Event.legible_array events
  · exact .text _
  · exact .text _
  · exact .text _

theorem parse?_jsonText (events : List Event) (c : Configuration) :
    Json.parse? (jsonText events c) = some (json events c) :=
  Json.parse?_prettyAt (legible_json events c) 0

/-! ## The events of a report as a payload -/

/-- A payload is the array that it holds, whatever its layout. -/
theorem eventsOfPayload_of_array {payload : String} {items : List Json} {events : List Event}
    (h : Json.parse? payload = some (.array items))
    (hevents : Event.listOfJson (.array items) = .ok events) :
    Source.eventsOfPayload payload = .ok (Source.newestFirst events) :=
  Source.eventsOfPayload_of_listOfText ((Event.whole_of_parse? h).trans hevents)

/-! ## Top theorem -/

/-- The text of a report is a well-formed document.  Its member `events` decodes to the reported
events, in their order and equal in all that an event has, and its member `count` is their
number.  The array of events stands in the text of the report; this part of the text, and any
other text of the same array, is a payload of the same events, put in order, the newest first. -/
theorem report_carries_events (events : List Event) (c : Configuration) :
    ∃ document listed : Json,
      Json.parse? (jsonText events c) = some document ∧
      document.member? "events" = some listed ∧ Event.listOfJson listed = .ok events ∧
      document.member? "count" = some (.int events.length) ∧
      (∃ payload : String, payload.toList <:+: (jsonText events c).toList ∧
        Json.parse? payload = some listed) ∧
      ∀ payload : String, Json.parse? payload = some listed →
        Source.eventsOfPayload payload = .ok (Source.newestFirst events) ∧
          ((events.Pairwise fun e f => f.instant ≤ e.instant) →
            Source.eventsOfPayload payload = .ok events) := by
  refine ⟨json events c, .array (events.map Event.toJson), parse?_jsonText events c, rfl,
    Event.listOfJson_array events, rfl, ?_, ?_⟩
  · refine ⟨String.ofList (Json.prettyAt 1 (.array (events.map Event.toJson))), ?_,
      Json.parse?_prettyAt (Event.legible_array events) 1⟩
    rw [String.toList_ofList, jsonText, Json.pretty, String.toList_ofList]
    exact Json.prettyAt_infix_record (m := ("events", .array (events.map Event.toJson)))
      (by simp) 0
  · intro payload hpayload
    have hread := eventsOfPayload_of_array hpayload (Event.listOfJson_array events)
    refine ⟨hread, fun hordered => ?_⟩
    rw [hread, Source.newestFirst_of_pairwise hordered]

/-- Half a second into a leap second, on a clock ahead of UTC, with a text that has to be escaped,
and the least numbers of all widths on an event of the first instant of the year 0. -/
def extremes : List Event :=
  [{ message := "\"\\\né\x01"
     entryType := .failureAudit
     errorLevel := -1
     time :=
      ⟨⟨1435708799, 1250000000, by decide, by decide, by decide⟩, 345, by decide, by decide⟩ },
   { categoryNumber := -32768, eventId := 32767, index := -2147483648
     instanceId := -9223372036854775808
     time := .ofInstant
      { Time.Instant.epoch with second := -62167219200, inRange := by decide, leap := by decide } }]

/-- The array in a report on these events is a payload of these events. -/
theorem report_carries_extremes :
    (extremes.Pairwise fun e f => f.instant ≤ e.instant) ∧
      ∃ payload : String,
        payload.toList <:+: (jsonText extremes (.make "" .hour 0 "" "System")).toList ∧
          Source.eventsOfPayload payload = .ok extremes := by
  have hordered : extremes.Pairwise fun e f => f.instant ≤ e.instant := by decide
  obtain ⟨document, listed, -, -, -, -, ⟨payload, hpart, hpayload⟩, hread⟩ :=
    report_carries_events extremes (.make "" .hour 0 "" "System")
  exact ⟨hordered, payload, hpart, (hread payload hpayload).2 hordered⟩

end Report
end LogWatch
