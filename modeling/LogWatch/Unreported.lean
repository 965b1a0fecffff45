import LogWatch.Store.Basic

/-!
# Events not yet reported

Of events that stand newest first, those before the watermark are new: a later instant is
new, and so is the same instant with another hash; the walk ends at the first event that is
neither.  Without a watermark all are new.
-/

namespace LogWatch

/-- The event comes after the watermark. -/
def Identity.isPassedBy (w : Identity) (e : Event) : Bool :=
  w.instant < e.instant || (e.instant == w.instant && e.identity.hash != w.hash)

/-- The events at the front that have not been reported. -/
def unreported (w : Option Identity) (events : List Event) : List Event :=
  match w with
  | none => events
  | some w => events.takeWhile w.isPassedBy

/-- The events not covered by the watermark of a key. -/
def Store.unreported (key : String) (events : List Event) : Store.Task (List Event) := do
  return LogWatch.unreported (← Store.get? key) events

end LogWatch
