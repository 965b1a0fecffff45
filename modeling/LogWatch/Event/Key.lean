import LogWatch.Json.Number
import LogWatch.Text.Quoted
import LogWatch.Text.Shortest
import LogWatch.Event.Basic

/-!
# Keys of an event record and faults in it

An event is recorded as an object with the keys below, or as an array of its fields in their
order.  A fault is either a text that is not well formed or data that is no event; the
second kind has a message.
-/

namespace LogWatch.Event

open LogWatch.Text

inductive Key
  | category
  | categoryNumber
  | message
  | source
  | time
  | entryType
  | instanceId
  | index
  | eventId
  | errorLevel
  deriving DecidableEq, Repr

namespace Key

/-- All keys, in the order of the array form. -/
def all : List Key :=
  [.category, .categoryNumber, .message, .source, .time, .entryType, .instanceId, .index, .eventId,
    .errorLevel]

def name : Key → String
  | .category => "Category"
  | .categoryNumber => "CategoryNumber"
  | .message => "Message"
  | .source => "Source"
  | .time => "TimeGenerated"
  | .entryType => "EntryType"
  | .instanceId => "InstanceID"
  | .index => "Index"
  | .eventId => "EventID"
  | .errorLevel => "ErrorLevel"

/-- The key of this exact name. -/
def ofName? (s : String) : Option Key := all.find? fun k => k.name == s

end Key

/-- What a place in a record calls for. -/
inductive Want
  | int16
  | int32
  | int64
  | text
  | time
  | event
  | sequence
  deriving DecidableEq, Repr

def Want.describe : Want → String
  | .int16 => "i16"
  | .int32 => "i32"
  | .int64 => "i64"
  | .text => "a string"
  | .time => "an RFC 3339 formatted date and time string"
  | .event => "struct RawLogEvent"
  | .sequence => "a sequence"

/-- What stands there instead. -/
inductive Found
  | null
  | bool (b : Bool)
  | int (n : Int)
  | float (x : Float)
  | text (s : String)
  | sequence
  | map

def Found.describe : Found → String
  | .null => "null"
  | .bool b => "boolean `" ++ (if b then "true" else "false") ++ "`"
  | .int n => "integer `" ++ ofInt n ++ "`"
  | .float x => "floating point `" ++ String.ofList (Shortest.text x) ++ "`"
  | .text s => "string " ++ quoted s
  | .sequence => "sequence"
  | .map => "map"

/-- Why a text is no event. -/
inductive Fault
  | malformed
  | wrongType (found : Found) (want : Want)
  | outOfRange (n : Int) (want : Want)
  | duplicate (key : Key)
  | unknownEntryType (name : String)
  | badTime

/-- The message of a fault in the data; a text that is not well formed has none. -/
def Fault.message? : Fault → Option String
  | .malformed => none
  | .wrongType found want =>
    some ("invalid type: " ++ found.describe ++ ", expected " ++ want.describe)
  | .outOfRange n want =>
    some ("invalid value: " ++ (Found.int n).describe ++ ", expected " ++ want.describe)
  | .duplicate key => some ("duplicate field `" ++ key.name ++ "`")
  | .unknownEntryType name => some (EntryType.unknownMessage name)
  | .badTime => some "invalid timestamp"

theorem Key.ofName?_name (k : Key) : ofName? k.name = some k := by cases k <;> decide +kernel

end LogWatch.Event
