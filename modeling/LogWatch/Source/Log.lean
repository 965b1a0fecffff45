import LogWatch.Event.Record

/-!
# Events of a log and of a payload

A log holds one event on each line, the oldest first.  It is read from its last line
backwards, and reading ends at the first event that lies at or before the start of the time
window: what stands before it is never looked at.  A payload is an array of events, which
are put in order, the newest first; events of one instant keep their order.
-/

namespace LogWatch

open LogWatch.Text

/-- A line of a log that is no event, counted from one. -/
structure BadLine where
  line : Nat
  fault : Event.Fault

namespace Source

/-- The events after `start` from numbered lines, the last line first. -/
def recent (start : Time.Instant) : List (String × Nat) → Except BadLine (List Event)
  | [] => .ok []
  | (line, n) :: older =>
    if isBlankText line then recent start older
    else
      match Event.ofText line with
      | .error fault => .error ⟨n, fault⟩
      | .ok e =>
        if e.instant ≤ start then .ok []
        else do
          let more ← recent start older
          return e :: more

/-- The events of a log that lie after `start`, the newest line first. -/
def eventsOfLog (start : Time.Instant) (log : String) : Except BadLine (List Event) :=
  recent start ((linesOf log).zipIdx 1).reverse

/-- The newest first; events of one instant stay as they are. -/
def newestFirst (events : List Event) : List Event :=
  events.mergeSort fun a b => b.instant ≤ a.instant

/-- The events of a payload.  A blank payload has none. -/
def eventsOfPayload (payload : String) : Except Event.Fault (List Event) :=
  if isBlankText payload then .ok [] else (Event.listOfText payload).map newestFirst

end Source
end LogWatch
