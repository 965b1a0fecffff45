import LogWatch.Filter.Token

/-!
# Filter expressions

The tree of a filter, what it says of an event, and how it is built from tokens.  Reading
follows the grammar

    or      =  and (`Or` and)*
    and     =  operand (`And` operand)*
    operand =  `Not` operand  |  `(` or `)`  |  field test
    test    =  comparison literal  |  `.` method `(` text `)`

A chain of two operands or more is one node, a single operand stands for itself, and
parentheses add no node.  `Not` and parentheses each use up one level of nesting.
-/

namespace LogWatch.Filter

inductive Expr
  | or (terms : List Expr)
  | and (terms : List Expr)
  | not (term : Expr)
  | compare (field : Field) (op : Comparison) (value : Value)
  | method (field : Field) (method : TextMethod) (argument : String)

namespace Expr

/-! ## Meaning -/

/-- Values of one kind are compared; a number and a text never match. -/
def compareHolds (op : Comparison) : Value → Value → Bool
  | .int actual, .int literal => op.holds (Ord.compare actual.toInt literal.toInt)
  | .text actual, .text literal => op.holds (Ord.compare actual literal)
  | _, _ => false

def methodHolds (m : TextMethod) (argument : String) : Value → Bool
  | .text actual => m.holds actual.toList argument.toList
  | .int _ => false

mutual

/-- The expression accepts the event. -/
def holds (e : Event) : Expr → Bool
  | .or terms => anyHolds e terms
  | .and terms => allHold e terms
  | .not term => !holds e term
  | .compare field op value => compareHolds op (field.value e) value
  | .method field m argument => methodHolds m argument (field.value e)

def anyHolds (e : Event) : List Expr → Bool
  | [] => false
  | term :: terms => holds e term || anyHolds e terms

def allHold (e : Event) : List Expr → Bool
  | [] => true
  | term :: terms => holds e term && allHold e terms

end

/-! ## Reading -/

/-- Takes a part of a filter off the front of its tokens. -/
abbrev Reader (α : Type) := List Placed → Except Fault (α × List Placed)

/-- The next token, or the end of the filter at offset `stop`, is not what is wanted. -/
def refuse {α : Type} (stop : Nat) (what : Expectation) : List Placed → Except Fault α
  | [] => .error ⟨stop, .expected what none⟩
  | t :: _ => .error ⟨t.offset, .expected what (some t.token)⟩

/-- Takes one certain token. -/
def expect (stop : Nat) (token : Token) (what : Expectation) (ts : List Placed) :
    Except Fault (List Placed) :=
  match ts with
  | t :: rest => if t.token = token then .ok rest else refuse stop what ts
  | [] => refuse stop what ts

/-- The entry type that a literal names. -/
def entryTypeLiteral (offset : Nat) (name : String) : Except Fault Value :=
  match EntryType.ofName? name with
  | some t => .ok (.text t.name)
  | none => .error ⟨offset, .unknownEntryType name⟩

/-- A literal that the field can be compared with. -/
def literal (stop : Nat) (field : Field) : Reader Value
  | [] => refuse stop .literal []
  | t :: rest =>
    let mismatch := .error ⟨t.offset, .typeMismatch field (some t.token)⟩
    match t.token with
    | .int n => if field.isNumeric then .ok (.int n, rest) else mismatch
    | .text s =>
      if field = .entryType then (entryTypeLiteral t.offset s).map (·, rest)
      else if field.isNumeric then mismatch
      else .ok (.text s, rest)
    | .word s =>
      if field = .entryType then (entryTypeLiteral t.offset s).map (·, rest) else mismatch
    | _ => refuse stop .literal (t :: rest)

/-- The rest of a comparison, after an operator at `offset`.  Texts are only compared for
equality. -/
def comparison (stop : Nat) (field : Field) (op : Comparison) (offset : Nat) : Reader Expr :=
  fun ts =>
    if !field.isNumeric && !op.isEquality then .error ⟨offset, .unsupportedOperator op field⟩
    else (literal stop field ts).map fun (value, rest) => (.compare field op value, rest)

/-- The method of a text field, its name at the front. -/
def methodName (stop : Nat) (field : Field) : Reader TextMethod
  | ⟨offset, .word name⟩ :: rest =>
    match TextMethod.ofName? name with
    | none => .error ⟨offset, .unknownMethod name⟩
    | some m =>
      if field.isNumeric then .error ⟨offset, .methodOnNumber name field⟩ else .ok (m, rest)
  | ts => refuse stop .method ts

/-- A text in parentheses. -/
def argument (stop : Nat) : Reader String := fun ts => do
  let ts ← expect stop .opening .opening ts
  match ts with
  | ⟨_, .text s⟩ :: rest => do
    let rest ← expect stop .closing .closing rest
    return (s, rest)
  | ts => refuse stop .argument ts

/-- The test on a field, after its name. -/
def test (stop : Nat) (field : Field) : Reader Expr
  | ⟨_, .dot⟩ :: rest => do
    let (m, rest) ← methodName stop field rest
    let (s, rest) ← argument stop rest
    return (.method field m s, rest)
  | ⟨offset, .compare op⟩ :: rest => comparison stop field op offset rest
  | ts => refuse stop .operator ts

/-- A field and its test. -/
def predicate (stop : Nat) : Reader Expr
  | ⟨offset, .word name⟩ :: rest =>
    match Field.ofName? name with
    | some field => test stop field rest
    | none => .error ⟨offset, .unknownField name⟩
  | ts => refuse stop .operand ts

/-- The operands that follow, each after a `joiner`; at most `n` of them. -/
def joined (joiner : Token) (operand : Reader Expr) : Nat → Reader (List Expr)
  | 0, ts => .ok ([], ts)
  | _ + 1, [] => .ok ([], [])
  | n + 1, t :: rest =>
    if t.token = joiner then do
      let (term, rest) ← operand rest
      let (terms, rest) ← joined joiner operand n rest
      return (term :: terms, rest)
    else .ok ([], t :: rest)

/-- One operand, or a chain of them as one node. -/
def chain (joiner : Token) (node : List Expr → Expr) (operand : Reader Expr) : Reader Expr :=
  fun ts => do
    let (first, rest) ← operand ts
    let (more, rest) ← joined joiner operand rest.length rest
    return (if more.isEmpty then first else node (first :: more), rest)

/-- An `Or` of `And`s of operands. -/
def disjunction (operand : Reader Expr) : Reader Expr := chain .or .or (chain .and .and operand)

/-- An operand, with as many levels of nesting left. -/
def operand (stop : Nat) : Nat → Reader Expr
  | 0, ts =>
    match ts with
    | ⟨offset, .not⟩ :: _ => .error ⟨offset, .tooDeep⟩
    | ⟨offset, .opening⟩ :: _ => .error ⟨offset, .tooDeep⟩
    | ts => predicate stop ts
  | depth + 1, ts =>
    match ts with
    | ⟨_, .not⟩ :: rest => do
      let (term, rest) ← operand stop depth rest
      return (.not term, rest)
    | ⟨_, .opening⟩ :: rest => do
      let (term, rest) ← disjunction (operand stop depth) rest
      let rest ← expect stop .closing .closing rest
      return (term, rest)
    | ts => predicate stop ts

/-- The tree of a whole filter. -/
def ofTokens (ts : Tokens) : Except Fault Expr := do
  let (term, rest) ← disjunction (operand ts.stop nestingLimit) ts.items
  match rest with
  | [] => return term
  | rest => refuse ts.stop .connective rest

end Expr

/-! ## Lemmas -/

namespace Expr

theorem anyHolds_eq (e : Event) (terms : List Expr) : anyHolds e terms = terms.any (holds e) := by
  induction terms with
  | nil => rfl
  | cons term terms ih => rw [anyHolds, List.any_cons, ih]

theorem allHold_eq (e : Event) (terms : List Expr) : allHold e terms = terms.all (holds e) := by
  induction terms with
  | nil => rfl
  | cons term terms ih => rw [allHold, List.all_cons, ih]

end Expr
end LogWatch.Filter
