import LogWatch.Event.Record
import LogWatch.Identity

/-!
# Reports

A report on a list of events has a subject, a text with a line for each event, and a JSON
document.  A sink takes the events and tells whether they were delivered.
-/

namespace LogWatch.Report

open LogWatch.Text

/-- The number of events and where they come from. -/
def subject (events : List Event) (c : Configuration) : String :=
  let log := if c.eventLog.isEmpty then "events" else c.eventLog
  let machine := if c.remoteMachine.isEmpty then "localhost" else c.remoteMachine
  "Radon report: " ++ ofNat events.length ++ " new event" ++
    (if events.length = 1 then "" else "s") ++ " from " ++ log ++ "@" ++ machine

/-! ## Text -/

/-- A line feed inside a message is shown as a backslash and an n. -/
def shownMessage (s : String) : String :=
  String.ofList (s.toList.flatMap fun c => if c = '\n' then ['\\', 'n'] else [c])

/-- The line of an event. -/
def line (e : Event) : String :=
  e.instant.toString ++ " [" ++ String.ofList (padEnd 12 ' ' e.entryType.name.toList) ++ "] " ++
    String.ofList (padStart 5 ' ' (signedDigits e.eventId.toInt)) ++ " " ++ e.source ++ " | " ++
    shownMessage e.message

/-- The subject, the filter if there is one, an empty line, and the lines of the events. -/
def text (events : List Event) (c : Configuration) : String :=
  let filter := if c.filter.isEmpty then "" else "Filter: " ++ c.filter ++ "\n"
  subject events c ++ "\n" ++ filter ++ "\n" ++ String.join (events.map fun e => line e ++ "\n")

/-! ## JSON -/

/-- The members stand in the order of their keys. -/
def json (events : List Event) (c : Configuration) : Json :=
  .record [
    ("config_identity", .text c.identity),
    ("count", .int events.length),
    ("event_log", .text c.eventLog),
    ("events", .array (events.map Event.toJson)),
    ("filter", .text c.filter),
    ("remote_machine", .text c.remoteMachine),
    ("subject", .text (subject events c))]

def jsonText (events : List Event) (c : Configuration) : String := (json events c).pretty

/-! ## Delivery -/

/-- Why a report was not delivered. -/
inductive Error
  | io (cause : String)
  | delivery (reason : String)
  deriving DecidableEq

def Error.message : Error → String
  | .io cause => "Failed to write report: " ++ cause
  | .delivery reason => "Report delivery failed: " ++ reason

/-- What becomes of a report: the text that was passed on, or why there is none. -/
abbrev Sink := List Event → Configuration → Except Error String

inductive Format
  | text
  | json
  deriving DecidableEq, Repr

/-- A report as it is written out. -/
def Format.render (f : Format) (events : List Event) (c : Configuration) : String :=
  match f with
  | .text => Report.text events c
  | .json => jsonText events c ++ "\n"

namespace Sink

/-- Passes on the report in a format. -/
def writing (f : Format) : Sink := fun events c => .ok (f.render events c)

/-- Has room for a number of bytes, and fails on a report that needs more. -/
def limited (room : Nat) (cause : String) (f : Format) : Sink := fun events c =>
  let report := f.render events c
  if report.utf8ByteSize ≤ room then .ok report else .error (.io cause)

/-- No report fits where there is no room. -/
theorem limited_zero (cause : String) (f : Format) (events : List Event) (c : Configuration) :
    limited 0 cause f events c = .error (.io cause) := by
  unfold limited
  cases f <;> simp [Format.render, text, jsonText]

/-- Never delivers. -/
def refusing (reason : String) : Sink := fun _ _ => .error (.delivery reason)

end Sink
end LogWatch.Report
