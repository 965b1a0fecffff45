import LogWatch.Configuration
import LogWatch.Disk.Plan
import LogWatch.Text.Range
import LogWatch.Toml.Read

/-!
# Settings

The settings file is a TOML document with the sections `filter`, `store` and `logging`.
Every section and every field may be missing and then has its default; unknown keys are
passed over.  A section may also be an array of its fields in their order.
-/

namespace LogWatch

/-- The section that describes what is looked for. -/
structure FilterSettings where
  filter : String := ""
  timeLimit : String := "1.00:00:00"
  maxMessages : Int32 := 100
  remoteMachine : String := ""
  eventLog : String := "Application"
  source : SourceKind := .logFile
  eventsPath : Option String := none
  externalEvents : String := ""

structure Settings where
  filter : FilterSettings := {}
  /-- The state folder. -/
  storeFolder : Option String := none
  logLevel : String := "info"
  logJson : Bool := false

namespace Settings

inductive Error
  | unreadable (path : String) (fault : FileFault)
  | malformed (path : String)
  | badTimeLimit (text : String)
  /-- A time limit in range, but for its fraction of a second; the program ends there. -/
  | limitOverflow
  | noEventsPath

/-- The message up to the cause. -/
def Error.heading : Error → String
  | .unreadable path _ => "Failed to read config file '" ++ path ++ "': "
  | .malformed path => "Failed to parse config file '" ++ path ++ "': "
  | .badTimeLimit text => "Invalid configuration: invalid time limit '" ++ text ++ "'"
  | .limitOverflow => "`TimeDelta + TimeDelta` overflowed"
  | .noEventsPath =>
    "Invalid configuration: filter.events_path is required when source = \"log_file\""

def Error.message (e : Error) : String :=
  match e with
  | .unreadable _ fault => e.heading ++ fault.message
  | .malformed _ => e.heading ++ "malformed TOML"
  | _ => e.heading

/-! ## Sections -/

/-- The fields of a section, by name or by position. -/
abbrev Section := String → Nat → Option Toml.Item

/-- A date stands for a section without fields; other plain values are no section. -/
def sectionOf? : Toml.Item → Option Section
  | .table _ entries => some fun name _ => entries.lookup name
  | .array items => some fun _ position => items[position]?
  | .tables elements =>
    some fun _ position => (elements.reverse[position]?).map (Toml.Item.table .header)
  | .datetime => some fun _ _ => none
  | _ => none

/-- A section of the document, empty if it is missing. -/
def section? (root : Toml.Entries) (name : String) : Option Section :=
  match root.lookup name with
  | none => some fun _ _ => none
  | some item => sectionOf? item

/-- A field, or its default if it is missing. -/
def field? {α : Type} (s : Section) (name : String) (position : Nat) (read : Toml.Item → Option α)
    (default : α) : Option α :=
  match s name position with
  | none => some default
  | some item => read item

def string? : Toml.Item → Option String
  | .string s => some s
  | _ => none

def int32? : Toml.Item → Option Int32
  | .integer n => Text.int32? n
  | _ => none

def bool? : Toml.Item → Option Bool
  | .boolean b => some b
  | _ => none

/-- A table or an array without anything in it. -/
def isEmptyItem : Toml.Item → Bool
  | .table _ entries => entries.isEmpty
  | .array items => items.isEmpty
  | _ => false

def kindOfName? (name : String) : Option SourceKind :=
  [SourceKind.logFile, .external].find? fun kind => kind.name == name

/-- A source is given by its name, or by a table with its name as the only key and nothing
behind it. -/
def sourceKind? : Toml.Item → Option SourceKind
  | .string s => kindOfName? s
  | .table _ [(name, item)] => if isEmptyItem item then kindOfName? name else none
  | _ => none

def filterSettings? (s : Section) : Option FilterSettings := do
  let d : FilterSettings := {}
  return {
    filter := ← field? s "filter_string" 0 string? d.filter
    timeLimit := ← field? s "time_limit" 1 string? d.timeLimit
    maxMessages := ← field? s "max_messages" 2 int32? d.maxMessages
    remoteMachine := ← field? s "remote_machine" 3 string? d.remoteMachine
    eventLog := ← field? s "event_log_name" 4 string? d.eventLog
    source := ← field? s "source" 5 sourceKind? d.source
    eventsPath := ← field? s "events_path" 6 (fun item => (string? item).map some) d.eventsPath
    externalEvents := ← field? s "external_events" 7 string? d.externalEvents }

/-- The settings of a document. -/
def ofEntries? (root : Toml.Entries) : Option Settings := do
  let filter ← filterSettings? (← section? root "filter")
  let store ← section? root "store"
  let storeFolder ← field? store "dir" 0 (fun item => (string? item).map some) none
  let logging ← section? root "logging"
  let logLevel ← field? logging "level" 0 string? "info"
  let logJson ← field? logging "json" 1 bool? false
  return { filter, storeFolder, logLevel, logJson }

/-- The settings of a text. -/
def parse? (s : String) : Option Settings := (Toml.parse? s).bind ofEntries?

/-- The settings of a file, or the defaults if no file is named. -/
def load : Option String → Plan (Except Error Settings)
  | none => return .ok {}
  | some path => do
    match ← Plan.readText path with
    | .error fault => return .error (.unreadable path fault)
    | .ok s =>
      match parse? s with
      | some settings => return .ok settings
      | none => return .error (.malformed path)

/-- A time limit from its text. -/
def timeLimit (s : String) : Except Error Time.TimeLimit :=
  match Time.TimeLimit.read s with
  | .ok d => .ok d
  | .error .invalid => .error (.badTimeLimit s)
  | .error .overflow => .error .limitOverflow

end Settings

namespace FilterSettings

/-- The configuration that has the identity of these settings, without a source. -/
def identityConfiguration (f : FilterSettings) : Except Settings.Error Configuration := do
  let limit ← Settings.timeLimit f.timeLimit
  return .make f.filter limit f.maxMessages f.remoteMachine f.eventLog

/-- The configuration of these settings with its source. -/
def configuration (f : FilterSettings) : Except Settings.Error Configuration := do
  let c ← f.identityConfiguration
  match f.source, f.eventsPath with
  | .external, _ => return c.withPayload f.externalEvents
  | .logFile, some path => return c.withLogFile path
  | .logFile, none => throw .noEventsPath

end FilterSettings
end LogWatch
