import LogWatch.Filter.Field
import LogWatch.Text.Decimal

/-!
# Tokens of a filter and reasons to refuse one

Every token knows how it is named in a message.  A fault is a reason with the place of the
character or token that cannot be accepted, counted in characters.
-/

namespace LogWatch.Filter

inductive Token
  | word (name : String)
  | text (value : String)
  | int (value : Int64)
  | opening
  | closing
  | dot
  | compare (op : Comparison)
  | and
  | or
  | not
  deriving DecidableEq

/-- How a message names a token. -/
def Token.describe : Token → String
  | .word name => "'" ++ name ++ "'"
  | .text value => "string \"" ++ value ++ "\""
  | .int value => "number " ++ Text.ofInt value.toInt
  | .opening => "'('"
  | .closing => "')'"
  | .dot => "'.'"
  | .compare op => "'" ++ op.symbol ++ "'"
  | .and => "'And'"
  | .or => "'Or'"
  | .not => "'Not'"

/-- How a message names a token, or the end of the filter. -/
def describe : Option Token → String
  | some t => t.describe
  | none => "end of filter"

/-- A token and the offset of its first character. -/
structure Placed where
  offset : Nat
  token : Token
  deriving DecidableEq

/-- The tokens of a filter and the offset where the text ends. -/
structure Tokens where
  items : List Placed
  stop : Nat
  deriving DecidableEq

/-- What could have stood where a filter goes wrong. -/
inductive Expectation
  | operand
  | operator
  | method
  | argument
  | literal
  | opening
  | closing
  | connective
  deriving DecidableEq, Repr

def Expectation.describe : Expectation → String
  | .operand => "field name, '(' or 'Not'"
  | .operator => "comparison operator or '.'"
  | .method => "method name"
  | .argument => "string literal"
  | .literal => "literal value"
  | .opening => "'('"
  | .closing => "')'"
  | .connective => "'And', 'Or' or end of filter"

/-- The deepest nesting of parentheses and `Not` that a filter may have. -/
def nestingLimit : Nat := 128

/-- Why a filter is refused; `none` is the end of the filter. -/
inductive Reason
  | unexpectedChar (c : Char)
  | unterminatedText
  | invalidNumber (lexeme : String)
  | unknownField (name : String)
  | unknownMethod (name : String)
  | methodOnNumber (method : String) (field : Field)
  | expected (what : Expectation) (found : Option Token)
  | typeMismatch (field : Field) (found : Option Token)
  | unsupportedOperator (op : Comparison) (field : Field)
  | unknownEntryType (name : String)
  | tooDeep
  deriving DecidableEq

def Reason.message : Reason → String
  | .unexpectedChar c => "unexpected character '" ++ c.toString ++ "'"
  | .unterminatedText => "unterminated string literal"
  | .invalidNumber lexeme => "invalid number '" ++ lexeme ++ "'"
  | .unknownField name =>
    "unknown field '" ++ name ++ "'. Valid fields are: " ++
      ", ".intercalate (Field.all.map Field.name)
  | .unknownMethod name =>
    "unknown method '" ++ name ++ "'. Valid methods are: " ++
      ", ".intercalate (TextMethod.all.map TextMethod.name)
  | .methodOnNumber method field =>
    "method '" ++ method ++ "' is not available on numeric field '" ++ field.name ++ "'"
  | .expected what found => "expected " ++ what.describe ++ ", found " ++ describe found
  | .typeMismatch field found =>
    "field '" ++ field.name ++ "' cannot be compared with " ++ describe found
  | .unsupportedOperator op field =>
    "operator '" ++ op.symbol ++ "' is not supported on text field '" ++ field.name ++ "'"
  | .unknownEntryType name => EntryType.unknownMessage name
  | .tooDeep =>
    "nesting deeper than " ++ Text.ofNat nestingLimit ++ " levels of parentheses or 'Not'"

/-- A reason and the offset where it arises. -/
structure Fault where
  offset : Nat
  reason : Reason
  deriving DecidableEq

/-- A filter text that was refused. -/
structure Refusal where
  filter : String
  fault : Fault
  deriving DecidableEq

def Refusal.message (r : Refusal) : String :=
  "Could not parse filter string '" ++ r.filter ++ "': " ++ r.fault.reason.message ++
    " at index " ++ Text.ofNat r.fault.offset

end LogWatch.Filter
