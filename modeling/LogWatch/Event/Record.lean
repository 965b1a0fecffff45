import LogWatch.Event.Key
import LogWatch.Json.Read
import LogWatch.Time.Text

/-!
# Events as JSON

An event is read from an object or an array, from left to right up to the first fault.
Every field may be missing or null: it then has its default, which for the error level is
the severity of the entry type.  Unknown keys are passed over, but their values must be well
formed.  A key that has already been seen is a fault before its value is looked at.
-/

namespace LogWatch.Event

open LogWatch.Text

/-! ## Reading -/

abbrev Result (α : Type) := Except Fault α

/-- A value that is not what is wanted, which may also turn out not to be well formed. -/
def refuse {α : Type} (want : Want) : Json → Result α
  | .null => .error (.wrongType .null want)
  | .bool b => .error (.wrongType (.bool b) want)
  | .number n =>
    match n.value with
    | .int i => .error (.wrongType (.int i) want)
    | .float x => .error (.wrongType (.float x) want)
    | .outOfRange => .error .malformed
  | .string (some s) => .error (.wrongType (.text s) want)
  | .string none => .error .malformed
  | .array _ => .error (.wrongType .sequence want)
  | .object _ => .error (.wrongType .map want)
  | .torn => .error .malformed

/-- An integer that fits a word. -/
def integer {α : Type} (want : Want) (fit : Int → Option α) (j : Json) : Result α :=
  match j with
  | .number n =>
    match n.value with
    | .int i =>
      match fit i with
      | some a => .ok a
      | none => .error (.outOfRange i want)
    | _ => refuse want j
  | _ => refuse want j

def string (want : Want) (j : Json) : Result String :=
  match j with
  | .string (some s) => .ok s
  | _ => refuse want j

def timestamp (j : Json) : Result Time.Timestamp := do
  match Time.Timestamp.readRelaxed? (← string .time j) with
  | some t => return t
  | none => throw .badTime

def entryTypeOf (j : Json) : Result EntryType := do
  let name ← string .text j
  match EntryType.ofName? name with
  | some t => return t
  | none => throw (.unknownEntryType name)

/-- A value that may be null. -/
def optional {α : Type} (read : Json → Result α) : Json → Result (Option α)
  | .null => .ok none
  | j => (read j).map some

/-- The fields of an event that have been read, and the keys that have been seen. -/
structure Parts where
  seen : List Key := []
  category : Option String := none
  categoryNumber : Option Int16 := none
  message : Option String := none
  source : Option String := none
  time : Option Time.Timestamp := none
  entryType : Option EntryType := none
  instanceId : Option Int64 := none
  index : Option Int32 := none
  eventId : Option Int16 := none
  errorLevel : Option Int32 := none

namespace Parts

/-- Reads the value of a key. -/
def put (p : Parts) (key : Key) (j : Json) : Result Parts :=
  let p := { p with seen := key :: p.seen }
  match key with
  | .category => (optional (string .text) j).map fun v => { p with category := v }
  | .categoryNumber =>
    (optional (integer .int16 int16?) j).map fun v => { p with categoryNumber := v }
  | .message => (optional (string .text) j).map fun v => { p with message := v }
  | .source => (optional (string .text) j).map fun v => { p with source := v }
  | .time => (optional timestamp j).map fun v => { p with time := v }
  | .entryType => (optional entryTypeOf j).map fun v => { p with entryType := v }
  | .instanceId => (optional (integer .int64 int64?) j).map fun v => { p with instanceId := v }
  | .index => (optional (integer .int32 int32?) j).map fun v => { p with index := v }
  | .eventId => (optional (integer .int16 int16?) j).map fun v => { p with eventId := v }
  | .errorLevel => (optional (integer .int32 int32?) j).map fun v => { p with errorLevel := v }

/-- Reads one member of an object. -/
def member (p : Parts) : Option String × Json → Result Parts
  | (none, _) => .error .malformed
  | (some name, value) =>
    match Key.ofName? name with
    | none => if value.isWhole then .ok p else .error .malformed
    | some key => if key ∈ p.seen then .error (.duplicate key) else p.put key value

/-- Reads the elements of an array, which belong to these keys; there may be fewer. -/
def elements (p : Parts) : List Key → List Json → Result Parts
  | _, [] => .ok p
  | [], _ :: _ => .error .malformed
  | key :: keys, item :: items => do
    let p ← p.put key item
    elements p keys items

/-- The event with these fields, the others at their defaults. -/
def event (p : Parts) : Event :=
  let entryType := p.entryType.getD .information
  { category := p.category.getD ""
    categoryNumber := p.categoryNumber.getD 0
    message := p.message.getD ""
    source := p.source.getD ""
    time := p.time.getD (.ofInstant .epoch)
    entryType := entryType
    instanceId := p.instanceId.getD 0
    index := p.index.getD 0
    eventId := p.eventId.getD 0
    errorLevel := p.errorLevel.getD entryType.severity }

end Parts

def ofJson (j : Json) : Result Event :=
  match j with
  | .object members => (members.foldlM Parts.member {}).map Parts.event
  | .array items => (Parts.elements {} Key.all items).map Parts.event
  | j => refuse .event j

/-- The events of an array. -/
def listOfJson (j : Json) : Result (List Event) :=
  match j with
  | .array items => items.mapM ofJson
  | j => refuse .sequence j

/-- What a document holds, if nothing follows it. -/
def whole {α : Type} (read : Json → Result α) (s : String) : Result α := do
  let d := Json.Document.ofText s
  let a ← read d.root
  if d.ended then return a else throw .malformed

/-- The event of a text. -/
def ofText (s : String) : Result Event := whole ofJson s

/-- The events of a text that holds an array. -/
def listOfText (s : String) : Result (List Event) := whole listOfJson s

/-! ## Writing -/

/-- The object of an event, its keys in the order of their letters. -/
def toJson (e : Event) : Json :=
  .record [
    (Key.category.name, .text e.category),
    (Key.categoryNumber.name, .int e.categoryNumber.toInt),
    (Key.entryType.name, .text e.entryType.name),
    (Key.errorLevel.name, .int e.errorLevel.toInt),
    (Key.eventId.name, .int e.eventId.toInt),
    (Key.index.name, .int e.index.toInt),
    (Key.instanceId.name, .int e.instanceId.toInt),
    (Key.message.name, .text e.message),
    (Key.source.name, .text e.source),
    (Key.time.name, .text e.time.toString)]

end LogWatch.Event
