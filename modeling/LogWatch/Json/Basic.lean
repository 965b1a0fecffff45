import LogWatch.Text.Decimal

/-!
# JSON trees

A tree keeps everything of a text that its reader may ask for.  Numbers keep their digits.
A string that holds half of a surrogate pair is well formed but has no text.  Where a text
stops being well formed its tree ends in `torn`, as a value or as the last element or member
of what was being read, so that whoever walks a tree from left to right meets what was read
before the fault and then the fault.

Trees are written over several lines, two spaces deeper at each level.
-/

namespace LogWatch

open LogWatch.Text

namespace Json

/-- A number: its sign, the digits before and after the point, and the exponent. -/
structure Number where
  negative : Bool := false
  whole : List Char
  fraction : List Char := []
  exponent : Option Int := none
  deriving DecidableEq

def Number.ofInt (n : Int) : Number := { negative := n < 0, whole := digits n.natAbs }

end Json

inductive Json
  | null
  | bool (b : Bool)
  | number (n : Json.Number)
  /-- `none` is a string with an unpaired surrogate. -/
  | string (s : Option String)
  | array (items : List Json)
  | object (members : List (Option String × Json))
  /-- Here the text is not well formed, and nothing after this point was read. -/
  | torn

namespace Json

def text (s : String) : Json := .string (some s)

def int (n : Int) : Json := .number (.ofInt n)

/-- An object with these members. -/
def record (members : List (String × Json)) : Json :=
  .object (members.map fun (key, value) => (some key, value))

mutual

/-- No part of the tree is torn. -/
def isWhole : Json → Bool
  | .array items => allWhole items
  | .object members => membersWhole members
  | .torn => false
  | _ => true

def allWhole : List Json → Bool
  | [] => true
  | item :: items => isWhole item && allWhole items

def membersWhole : List (Option String × Json) → Bool
  | [] => true
  | (_, value) :: members => isWhole value && membersWhole members

end

/-! ## Writing -/

/-- A character inside a string. -/
def escapedChar (c : Char) : List Char :=
  match c with
  | '"' => ['\\', '"']
  | '\\' => ['\\', '\\']
  | '\x08' => ['\\', 'b']
  | '\x0c' => ['\\', 'f']
  | '\n' => ['\\', 'n']
  | '\r' => ['\\', 'r']
  | '\t' => ['\\', 't']
  | c =>
    if c.toNat < 0x20 then
      ['\\', 'u', '0', '0', Nat.digitChar (c.toNat / 16), Nat.digitChar (c.toNat % 16)]
    else [c]

def stringText (cs : List Char) : List Char := '"' :: cs.flatMap escapedChar ++ ['"']

def Number.text (n : Number) : List Char :=
  (if n.negative then ['-'] else []) ++ n.whole ++
    (if n.fraction.isEmpty then [] else '.' :: n.fraction) ++
    (match n.exponent with
      | none => []
      | some e => 'e' :: signedDigits e)

/-- A new line, `depth` levels deep. -/
def lineBreak (depth : Nat) : List Char := '\n' :: List.replicate (2 * depth) ' '

mutual

/-- The text of a tree that stands `depth` levels deep.  What has no text is written as
`null`. -/
def prettyAt (depth : Nat) : Json → List Char
  | .null => ['n', 'u', 'l', 'l']
  | .bool true => ['t', 'r', 'u', 'e']
  | .bool false => ['f', 'a', 'l', 's', 'e']
  | .number n => n.text
  | .string (some s) => stringText s.toList
  | .string none => ['n', 'u', 'l', 'l']
  | .array [] => ['[', ']']
  | .array (item :: items) =>
    '[' :: lineBreak (depth + 1) ++ prettyAt (depth + 1) item ++ prettyItems (depth + 1) items ++
      lineBreak depth ++ [']']
  | .object [] => ['\x7b', '\x7d']
  | .object ((key, value) :: members) =>
    '\x7b' :: lineBreak (depth + 1) ++ stringText (key.getD "").toList ++ ':' :: ' ' ::
      prettyAt (depth + 1) value ++ prettyMembers (depth + 1) members ++
      lineBreak depth ++ ['\x7d']
  | .torn => ['n', 'u', 'l', 'l']

/-- Elements after the first. -/
def prettyItems (depth : Nat) : List Json → List Char
  | [] => []
  | item :: items => ',' :: lineBreak depth ++ prettyAt depth item ++ prettyItems depth items

/-- Members after the first. -/
def prettyMembers (depth : Nat) : List (Option String × Json) → List Char
  | [] => []
  | (key, value) :: members =>
    ',' :: lineBreak depth ++ stringText (key.getD "").toList ++ ':' :: ' ' ::
      prettyAt depth value ++ prettyMembers depth members

end

def pretty (j : Json) : String := String.ofList (prettyAt 0 j)

end Json
end LogWatch
