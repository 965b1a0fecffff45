import LogWatch.Filter.Basic
import LogWatch.Source.Basic
import LogWatch.Unreported

/-!
# Polling cycles

One cycle reads the events of a source, keeps those that the filter accepts, up to the cap,
leaves out those already reported, hands the rest to a sink, and then makes the newest
accepted event the watermark.  The watermark moves only when the sink has taken the report.
-/

namespace LogWatch

structure Scanner where
  config : Configuration
  identity : String
  filter : Filter
  source : Source

namespace Scanner

/-- What ends a cycle; nothing is tried again. -/
inductive Error
  | filter (r : Filter.Refusal)
  | source (e : Source.Error)
  | store (e : Store.Error)
  | report (e : Report.Error)

def Error.message : Error → String
  | .filter r => r.message
  | .source e => e.message
  | .store e => e.message
  | .report e => e.message

/-- The scanner of a configuration: its source is looked up first, then its filter compiled. -/
def make (c : Configuration) : Except Error Scanner :=
  match Source.ofConfiguration c with
  | .error e => .error (.source e)
  | .ok source =>
    match Filter.compile c.filter with
    | .error r => .error (.filter r)
    | .ok filter => .ok ⟨c, c.identity, filter, source⟩

/-- The accepted events of a cycle, before and after leaving out the reported ones. -/
structure Selection where
  matched : List Event
  unreported : List Event

structure Outcome where
  /-- The number of events handed to the sink. -/
  reported : Nat
  /-- Nothing was new, and no report was sent. -/
  skipped : Bool
  message : String
  deriving DecidableEq

/-- Work of a cycle on a store. -/
abbrev Cycle := ExceptT Error (StateT Store Plan)

/-- Passes on what ends the work of a store. -/
def onStore {α : Type} (t : Store.Task α) : Cycle α :=
  ExceptT.mk do
    match ← t.run with
    | .ok a => return .ok a
    | .error e => return .error (.store e)

def select (s : Scanner) : Cycle Selection := do
  match ← s.source.events with
  | .error e => throw (.source e)
  | .ok events =>
    let matched := s.filter.select s.config.cap events
    let unreported ← onStore (Store.unreported s.identity matched)
    return ⟨matched, unreported⟩

/-- The events that a report would hold now. -/
def preview (s : Scanner) : Cycle (List Event) := do
  return (← s.select).unreported

def skippedOutcome : Outcome := ⟨0, true, "No events. No report has been sent."⟩

def sentOutcome (n : Nat) : Outcome :=
  ⟨n, false, "Report sent with " ++ Text.ofNat n ++ " new event(s)"⟩

/-- How a report leaves the program. -/
abbrev Send := List Event → Configuration → Plan (Except Report.Error Unit)

/-- One cycle. -/
def run (s : Scanner) (send : Send) : Cycle Outcome := do
  let selection ← s.select
  match selection.matched, selection.unreported with
  | newest :: _, fresh@(_ :: _) =>
    match ← send fresh s.config with
    | .error e => throw (.report e)
    | .ok () =>
      onStore (Store.save s.identity newest)
      return sentOutcome fresh.length
  | _, _ => return skippedOutcome

/-- Hands the report to the reader of reports. -/
def deliver : Send := fun events config => Plan.request (.deliver events config)

end Scanner
end LogWatch
