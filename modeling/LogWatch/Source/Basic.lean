import LogWatch.Disk.Plan
import LogWatch.Source.Log

/-!
# Sources of events

A cycle reads its events from a log file, within a time limit before the present, or from
a payload.
-/

namespace LogWatch

inductive Source
  | logFile (path : String) (limit : Time.TimeLimit)
  | payload (text : String)

namespace Source

inductive Error
  | unreadable (path : String) (fault : FileFault)
  | badLine (path : String) (bad : BadLine)
  | badPayload (fault : Event.Fault)
  | missingPath

/-- The message up to the cause. -/
def Error.heading : Error → String
  | .unreadable path _ => "Failed to read event log '" ++ path ++ "': "
  | .badLine path bad =>
    "Failed to parse event at '" ++ path ++ "' line " ++ Text.ofNat bad.line ++ ": "
  | .badPayload _ =>
    "Failed to parse external events payload (expected a JSON array of events): "
  | .missingPath => "No event log file configured"

/-- The cause that a fault in an event gives. -/
def faultText (fault : Event.Fault) : String := fault.message?.getD "malformed JSON"

def Error.message (e : Error) : String :=
  match e with
  | .unreadable _ fault => e.heading ++ fault.message
  | .badLine _ bad => e.heading ++ faultText bad.fault
  | .badPayload fault => e.heading ++ faultText fault
  | .missingPath => e.heading

/-- The source that a configuration names. -/
def ofConfiguration (c : Configuration) : Except Error Source :=
  match c.source with
  | .external => .ok (.payload c.payload)
  | .logFile =>
    match c.eventsPath with
    | some path => .ok (.logFile path c.timeLimit)
    | none => .error .missingPath

/-- The events of a source, the newest first. -/
def events (s : Source) : Plan (Except Error (List Event)) :=
  match s with
  | .payload text =>
    match eventsOfPayload text with
    | .ok events => return .ok events
    | .error fault => return .error (.badPayload fault)
  | .logFile path limit => do
    let now ← Plan.request .clock
    match ← Plan.readText path with
    | .error fault => return .error (.unreadable path fault)
    | .ok log =>
      match eventsOfLog (Time.windowStart now limit) log with
      | .ok events => return .ok events
      | .error bad => return .error (.badLine path bad)

end Source
end LogWatch
