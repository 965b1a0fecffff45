import LogWatch.Text.Blank
import LogWatch.Time.Limit

/-!
# Configurations

What one polling cycle looks for and where.  All but the source takes part in the
configuration's identity.
-/

namespace LogWatch

/-- Where the events of a cycle come from. -/
inductive SourceKind
  | logFile
  | external
  deriving DecidableEq, Repr

namespace SourceKind

def name : SourceKind → String
  | .logFile => "log_file"
  | .external => "external"

end SourceKind

structure Configuration where
  filter : String
  timeLimit : Time.TimeLimit
  maxMessages : Int32
  remoteMachine : String
  eventLog : String
  source : SourceKind := .logFile
  eventsPath : Option String := none
  payload : String := ""

namespace Configuration

/-- A configuration without a source; the names of the machine and of the log are trimmed. -/
def make (filter : String) (timeLimit : Time.TimeLimit) (maxMessages : Int32)
    (remoteMachine eventLog : String) : Configuration :=
  { filter, timeLimit, maxMessages,
    remoteMachine := Text.trimmed remoteMachine
    eventLog := Text.trimmed eventLog }

def withLogFile (c : Configuration) (path : String) : Configuration :=
  { c with source := .logFile, eventsPath := some path }

def withPayload (c : Configuration) (payload : String) : Configuration :=
  { c with source := .external, payload := payload }

/-- A maximum counts only if it is positive. -/
def hasMaximum (c : Configuration) : Bool := 0 < c.maxMessages.toInt

/-- The greatest number of events in a report, if there is one. -/
def cap (c : Configuration) : Option Nat :=
  if c.hasMaximum then some c.maxMessages.toInt.toNat else none

end Configuration
end LogWatch
