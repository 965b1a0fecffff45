import LogWatch.Report
import LogWatch.Text.Range

/-!
# Switches of the command line

A switch has a long name, some have a letter too.  Most take a value, which is checked as
soon as it is known to be complete.
-/

namespace LogWatch.CommandLine

open LogWatch.Text

inductive Switch
  | config
  | stateDir
  | format
  | verbose
  | help
  | version
  | filter
  | maxMessages
  | timeLimit
  | events
  | external
  | eventLog
  | remoteMachine
  | dryRun
  | all
  deriving DecidableEq, Repr

namespace Switch

def longName : Switch → String
  | .config => "config"
  | .stateDir => "state-dir"
  | .format => "format"
  | .verbose => "verbose"
  | .help => "help"
  | .version => "version"
  | .filter => "filter"
  | .maxMessages => "max-messages"
  | .timeLimit => "time-limit"
  | .events => "events"
  | .external => "external"
  | .eventLog => "event-log"
  | .remoteMachine => "remote-machine"
  | .dryRun => "dry-run"
  | .all => "all"

def letter? : Switch → Option Char
  | .format => some 'F'
  | .verbose => some 'v'
  | .help => some 'h'
  | .version => some 'V'
  | _ => none

def takesValue : Switch → Bool
  | .verbose | .help | .version | .dryRun | .all => false
  | _ => true

/-- The values that a switch takes: a format is `text` or `json`, a maximum is an integer of 32
bits, and a path is not empty. -/
def accepts : Switch → String → Bool
  | .format, s => s == "text" || s == "json"
  | .maxMessages, s => ((readInt? s.toList).bind int32?).isSome
  | .config, s => !s.isEmpty
  | .stateDir, s => !s.isEmpty
  | .events, s => !s.isEmpty
  | .external, s => !s.isEmpty
  | _, _ => true

end Switch

/-- The switches that stand before or after the command. -/
def commonSwitches : List Switch := [.config, .stateDir, .format, .verbose, .help]

/-- The switches that change the settings of a filter. -/
def overrideSwitches : List Switch :=
  [.filter, .maxMessages, .timeLimit, .events, .external, .eventLog, .remoteMachine]

/-- What the program is told to do. -/
inductive Verb
  | scan
  | check
  | identity
  | reset
  deriving DecidableEq, Repr

namespace Verb

def all : List Verb := [.scan, .check, .identity, .reset]

def name : Verb → String
  | .scan => "scan"
  | .check => "check"
  | .identity => "identity"
  | .reset => "reset"

def ofName? (s : String) : Option Verb := all.find? fun v => v.name == s

/-- The switches that may follow a verb. -/
def switches : Verb → List Switch
  | .scan => commonSwitches ++ overrideSwitches ++ [.dryRun]
  | .check => commonSwitches
  | .identity => commonSwitches ++ overrideSwitches
  | .reset => commonSwitches ++ overrideSwitches ++ [.all]

/-- The number of plain words that may follow a verb. -/
def words : Verb → Nat
  | .check => 1
  | _ => 0

end Verb
end LogWatch.CommandLine
