import LogWatch.Event.Basic
import LogWatch.Text.Case

/-!
# What a filter can ask of an event

The fields of an event with their values, the comparison operators, and the tests on
text.  Field and method names are read in any ASCII case.
-/

namespace LogWatch.Filter

/-- A comparison operator. -/
inductive Comparison
  | eq
  | ne
  | lt
  | le
  | gt
  | ge
  deriving DecidableEq, Repr

namespace Comparison

def symbol : Comparison → String
  | .eq => "="
  | .ne => "<>"
  | .lt => "<"
  | .le => "<="
  | .gt => ">"
  | .ge => ">="

def isEquality : Comparison → Bool
  | .eq | .ne => true
  | _ => false

/-- Whether two values in this order satisfy the operator. -/
def holds : Comparison → Ordering → Bool
  | .eq, o => o == .eq
  | .ne, o => o != .eq
  | .lt, o => o == .lt
  | .le, o => o != .gt
  | .gt, o => o == .gt
  | .ge, o => o != .lt

end Comparison

inductive Field
  | eventId
  | entryType
  | errorLevel
  | source
  | message
  | category
  | categoryNumber
  | instanceId
  | index
  deriving DecidableEq, Repr

/-- The value of a field, or a literal to compare it with. -/
inductive Value
  | int (n : Int64)
  | text (s : String)
  deriving DecidableEq

namespace Field

def all : List Field :=
  [.eventId, .entryType, .errorLevel, .source, .message, .category, .categoryNumber, .instanceId,
    .index]

def name : Field → String
  | .eventId => "EventID"
  | .entryType => "EntryType"
  | .errorLevel => "ErrorLevel"
  | .source => "Source"
  | .message => "Message"
  | .category => "Category"
  | .categoryNumber => "CategoryNumber"
  | .instanceId => "InstanceID"
  | .index => "Index"

def ofName? (s : String) : Option Field := all.find? fun f => Text.sameWord f.name.toList s.toList

def isNumeric : Field → Bool
  | .eventId | .errorLevel | .categoryNumber | .instanceId | .index => true
  | .entryType | .source | .message | .category => false

/-- The value that an event has in a field; an entry type counts as its name. -/
def value (e : Event) : Field → Value
  | .eventId => .int e.eventId.toInt64
  | .entryType => .text e.entryType.name
  | .errorLevel => .int e.errorLevel.toInt64
  | .source => .text e.source
  | .message => .text e.message
  | .category => .text e.category
  | .categoryNumber => .int e.categoryNumber.toInt64
  | .instanceId => .int e.instanceId
  | .index => .int e.index.toInt64

end Field

/-- A test on the text of a field. -/
inductive TextMethod
  | contains
  | startsWith
  | endsWith
  deriving DecidableEq, Repr

namespace TextMethod

def all : List TextMethod := [.contains, .startsWith, .endsWith]

def name : TextMethod → String
  | .contains => "Contains"
  | .startsWith => "StartsWith"
  | .endsWith => "EndsWith"

def ofName? (s : String) : Option TextMethod :=
  all.find? fun m => Text.sameWord m.name.toList s.toList

/-- `part` stands somewhere in the text. -/
def occursIn (part : List Char) : List Char → Bool
  | [] => part.isEmpty
  | c :: rest => part.isPrefixOf (c :: rest) || occursIn part rest

def holds (text part : List Char) : TextMethod → Bool
  | .contains => occursIn part text
  | .startsWith => part.isPrefixOf text
  | .endsWith => part.isSuffixOf text

end TextMethod

/-! ## Lemmas -/

theorem Field.ofName?_name (f : Field) : ofName? f.name = some f := by
  cases f <;> decide +kernel

theorem TextMethod.ofName?_name (m : TextMethod) : ofName? m.name = some m := by
  cases m <;> decide +kernel

theorem TextMethod.occursIn_iff {part text : List Char} :
    occursIn part text = true ↔ part <:+: text := by
  induction text with
  | nil => simp [occursIn]
  | cons c rest ih =>
    rw [occursIn, Bool.or_eq_true, ih, List.isPrefixOf_iff_prefix, List.infix_cons_iff]

end LogWatch.Filter
