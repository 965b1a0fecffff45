import LogWatch.Json.Basic

/-!
# Reading JSON

A reader gives the tree that it could build and what is left of the text behind it, or
`none` when the text is not well formed: the tree is then torn at that place.  The levels of
nesting are not limited.  Between values stand spaces, tabs, line feeds and carriage returns.
-/

namespace LogWatch.Json

open LogWatch.Text

def isSpace (c : Char) : Bool := c == ' ' || c == '\t' || c == '\n' || c == '\r'

def skipSpace (cs : List Char) : List Char := cs.dropWhile isSpace

/-! ## Strings -/

def hexValue? (c : Char) : Option Nat :=
  if c.isDigit then some (c.toNat - '0'.toNat)
  else if 'a' ≤ c ∧ c ≤ 'f' then some (c.toNat - 'a'.toNat + 10)
  else if 'A' ≤ c ∧ c ≤ 'F' then some (c.toNat - 'A'.toNat + 10)
  else none

/-- The unit that four hexadecimal digits stand for. -/
def hexUnit? (a b c d : Char) : Option Nat := do
  return (((← hexValue? a) * 16 + (← hexValue? b)) * 16 + (← hexValue? c)) * 16 + (← hexValue? d)

/-- The character that an escape with one letter stands for. -/
def escape? : Char → Option Char
  | '"' => some '"'
  | '\\' => some '\\'
  | '/' => some '/'
  | 'b' => some '\x08'
  | 'f' => some '\x0c'
  | 'n' => some '\n'
  | 'r' => some '\r'
  | 't' => some '\t'
  | _ => none

/-- The code points of a string after its opening quote, halves of surrogate pairs among them,
and what follows its closing quote. -/
def stringUnits : List Char → Option (List Nat × List Char)
  | [] => none
  | '"' :: rest => some ([], rest)
  | '\\' :: 'u' :: a :: b :: c :: d :: rest =>
    match hexUnit? a b c d with
    | none => none
    | some n => (stringUnits rest).map fun (units, left) => (n :: units, left)
  | '\\' :: c :: rest =>
    match escape? c with
    | none => none
    | some e => (stringUnits rest).map fun (units, left) => (e.toNat :: units, left)
  | c :: rest =>
    if c.toNat < 0x20 then none
    else (stringUnits rest).map fun (units, left) => (c.toNat :: units, left)

def isHighHalf (n : Nat) : Bool := 0xD800 ≤ n && n < 0xDC00

def isLowHalf (n : Nat) : Bool := 0xDC00 ≤ n && n < 0xE000

/-- The text of code points in which surrogate pairs are joined; `none` if a half stands
alone. -/
def joinHalves : List Nat → Option (List Char)
  | [] => some []
  | n :: rest =>
    if isHighHalf n then
      match rest with
      | m :: rest =>
        if isLowHalf m then
          (joinHalves rest).map (Char.ofNat (0x10000 + (n - 0xD800) * 0x400 + (m - 0xDC00)) :: ·)
        else none
      | [] => none
    else if isLowHalf n then none
    else (joinHalves rest).map (Char.ofNat n :: ·)

/-- A string after its opening quote. -/
def readString (cs : List Char) : Option (Option String × List Char) :=
  (stringUnits cs).map fun (units, left) => ((joinHalves units).map String.ofList, left)

/-! ## Numbers -/

/-- One digit or more. -/
def readDigits (cs : List Char) : Option (List Char × List Char) :=
  let run := cs.takeWhile Char.isDigit
  if run.isEmpty then none else some (run, cs.drop run.length)

/-- The digits before the point: a zero is the only one. -/
def readWhole (cs : List Char) : Option (List Char × List Char) :=
  match readDigits cs with
  | some ('0' :: _ :: _, _) => none
  | r => r

def readFraction : List Char → Option (List Char × List Char)
  | '.' :: rest => readDigits rest
  | cs => some ([], cs)

def readExponent (cs : List Char) : Option (Option Int × List Char) :=
  match cs with
  | [] => some (none, [])
  | c :: rest =>
    if c == 'e' || c == 'E' then
      match rest with
      | '-' :: rest => (readDigits rest).map fun (ds, left) => (some (-natOfDigits ds), left)
      | '+' :: rest => (readDigits rest).map fun (ds, left) => (some (natOfDigits ds), left)
      | rest => (readDigits rest).map fun (ds, left) => (some (natOfDigits ds), left)
    else some (none, cs)

/-- A number without its sign. -/
def readUnsigned (negative : Bool) (cs : List Char) : Option (Number × List Char) := do
  let (whole, cs) ← readWhole cs
  let (fraction, cs) ← readFraction cs
  let (exponent, cs) ← readExponent cs
  return (⟨negative, whole, fraction, exponent⟩, cs)

def readNumber : List Char → Option (Number × List Char)
  | '-' :: rest => readUnsigned true rest
  | cs => readUnsigned false cs

/-! ## Trees -/

/-- A literal or a number. -/
def readPlain (cs : List Char) : Option (Json × List Char) :=
  match cs with
  | 'n' :: 'u' :: 'l' :: 'l' :: rest => some (.null, rest)
  | 't' :: 'r' :: 'u' :: 'e' :: rest => some (.bool true, rest)
  | 'f' :: 'a' :: 'l' :: 's' :: 'e' :: rest => some (.bool false, rest)
  | cs => (readNumber cs).map fun (n, left) => (.number n, left)

/-- The members of an object read so far and what is left. -/
abbrev Members := List (Option String × Json) × Option (List Char)

/-- What is left after the value of an object's member: more members after a comma, or
nothing after the closing brace. -/
def Members.after (key : Option String) (more : List Char → Members) :
    Json × Option (List Char) → Members
  | (value, none) => ([(key, value)], none)
  | (value, some rest) =>
    match skipSpace rest with
    | ',' :: rest => let (members, left) := more rest; ((key, value) :: members, left)
    | '\x7d' :: rest => ([(key, value)], some rest)
    | _ => ([(key, value), (none, .torn)], none)

/-- The elements of an array read so far and what is left. -/
abbrev Items := List Json × Option (List Char)

/-- What is left after an element of an array. -/
def Items.after (more : List Char → Items) : Json × Option (List Char) → Items
  | (value, none) => ([value], none)
  | (value, some rest) =>
    match skipSpace rest with
    | ',' :: rest => let (items, left) := more rest; (value :: items, left)
    | ']' :: rest => ([value], some rest)
    | _ => ([value, .torn], none)

mutual

/-- A value with at most `fuel` steps inside it. -/
def readValue : Nat → List Char → Json × Option (List Char)
  | 0, _ => (.torn, none)
  | fuel + 1, cs =>
    match skipSpace cs with
    | '[' :: rest =>
      match skipSpace rest with
      | ']' :: rest => (.array [], some rest)
      | rest => let (items, left) := readItems fuel rest; (.array items, left)
    | '\x7b' :: rest =>
      match skipSpace rest with
      | '\x7d' :: rest => (.object [], some rest)
      | rest => let (members, left) := readMembers fuel rest; (.object members, left)
    | '"' :: rest =>
      match readString rest with
      | some (s, rest) => (.string s, some rest)
      | none => (.torn, none)
    | cs =>
      match readPlain cs with
      | some (j, rest) => (j, some rest)
      | none => (.torn, none)

/-- Elements of an array, at least one. -/
def readItems : Nat → List Char → Items
  | 0, _ => ([.torn], none)
  | fuel + 1, cs => Items.after (readItems fuel) (readValue fuel cs)

/-- Members of an object, at least one. -/
def readMembers : Nat → List Char → Members
  | 0, _ => ([(none, .torn)], none)
  | fuel + 1, cs =>
    match skipSpace cs with
    | '"' :: rest =>
      match readString rest with
      | none => ([(none, .torn)], none)
      | some (key, rest) =>
        match skipSpace rest with
        | ':' :: rest => Members.after key (readMembers fuel) (readValue fuel rest)
        | _ => ([(key, .torn)], none)
    | _ => ([(none, .torn)], none)

end

/-- A text as a tree, with a sign whether nothing but space follows it. -/
structure Document where
  root : Json
  ended : Bool

/-- Two steps for every character are enough: each level takes one for its bracket and one
for its first element. -/
def Document.ofText (s : String) : Document :=
  let cs := s.toList
  match readValue (2 * cs.length + 2) cs with
  | (root, none) => ⟨root, false⟩
  | (root, some rest) => ⟨root, (skipSpace rest).isEmpty⟩

/-- The tree of a text that is well formed as a whole. -/
def parse? (s : String) : Option Json :=
  let d := Document.ofText s
  if d.ended && d.root.isWhole then some d.root else none

end LogWatch.Json
