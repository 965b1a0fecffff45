import LogWatch.Text.Blank
import LogWatch.Text.Case

/-!
# Entry types

The kind of an event as its log reports it.  Each has a name, used for display, for
filters and for identities, and a severity.
-/

namespace LogWatch

inductive EntryType
  | error
  | warning
  | information
  | successAudit
  | failureAudit
  deriving DecidableEq, Repr

namespace EntryType

def all : List EntryType := [.error, .warning, .information, .successAudit, .failureAudit]

def name : EntryType → String
  | .error => "Error"
  | .warning => "Warning"
  | .information => "Information"
  | .successAudit => "SuccessAudit"
  | .failureAudit => "FailureAudit"

/-- FailureAudit is the most severe, then SuccessAudit, Error, Warning, Information. -/
def severity : EntryType → Int32
  | .failureAudit => 4
  | .successAudit => 3
  | .error => 2
  | .warning => 1
  | .information => 0

/-- The entry type of a name in any ASCII case, with blanks around it. -/
def ofName? (s : String) : Option EntryType :=
  all.find? fun t => Text.sameWord t.name.toList (Text.trim s.toList)

/-- What is said of a name that no entry type has. -/
def unknownMessage (s : String) : String :=
  "unknown entry type '" ++ s ++ "'. Valid types are: " ++ ", ".intercalate (all.map name)

/-! ## Lemmas -/

theorem ofName?_name (t : EntryType) : ofName? t.name = some t := by cases t <;> decide +kernel

theorem name_injective {s t : EntryType} (h : s.name = t.name) : s = t := by
  cases s <;> cases t <;> first | rfl | exact absurd h (by decide)

end EntryType
end LogWatch
