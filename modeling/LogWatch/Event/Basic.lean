import LogWatch.Event.EntryType
import LogWatch.Time.Instant

/-!
# Events

One entry of an event log.  Its index is given out by the log and may change between two
readings; nothing that decides about reporting looks at it.
-/

namespace LogWatch

structure Event where
  category : String := ""
  categoryNumber : Int16 := 0
  message : String := ""
  source : String := ""
  /-- When the event was generated, on the clock of its source. -/
  time : Time.Timestamp := .ofInstant .epoch
  entryType : EntryType := .information
  instanceId : Int64 := 0
  index : Int32 := 0
  eventId : Int16 := 0
  errorLevel : Int32 := entryType.severity
  deriving DecidableEq

namespace Event

/-- When the event was generated, in UTC. -/
def instant (e : Event) : Time.Instant := e.time.instant

end Event
end LogWatch
