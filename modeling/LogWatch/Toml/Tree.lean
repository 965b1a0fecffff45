/-!
# TOML documents

A document is a list of statements: headers of tables, headers of elements of an array of
tables, and pairs of a dotted key and a value.  A pair belongs to the table of the last
header before it.

Every table remembers how it came to be, because that decides who may add to it.  A header may
go through any table but an inline one, and may claim once a table that only other headers
implied.  A dotted key may go through tables that were implied or made by dotted keys, and
may add to the latter only.  No key is given twice.
-/

namespace LogWatch.Toml

/-- How a table came to be. -/
inductive Origin
  /-- By a header of its own, or as the root. -/
  | header
  /-- By the header of a table inside it. -/
  | implied
  /-- By a dotted key. -/
  | dotted
  /-- Between braces. -/
  | inline
  deriving DecidableEq, Repr

/-- A value.  Floats and dates are only told apart from other values. -/
inductive Item
  | string (s : String)
  | integer (n : Int)
  | float
  | boolean (b : Bool)
  | datetime
  | array (items : List Item)
  | table (origin : Origin) (entries : List (String × Item))
  /-- An array of tables made by headers, the last one first. -/
  | tables (elements : List (List (String × Item)))

abbrev Entries := List (String × Item)

inductive Statement
  | table (path : List String)
  | element (path : List String)
  | pair (path : List String) (value : Item)

/-! ## Algorithm -/

/-- Puts an item at a key, in place of the one that is there. -/
def Entries.put (es : Entries) (key : String) (item : Item) : Entries :=
  (key, item) :: es.filter fun e => e.1 != key

/-- Changes the table at the end of a path; `change` sees how that table came to be.  Tables
missing on the way are made, as if by a header or by a dotted key. -/
def Entries.descend (dotted : Bool) (change : Origin → Entries → Option Entries) :
    List String → Origin → Entries → Option Entries
  | [], origin, es => change origin es
  | key :: path, _, es =>
    match es.lookup key with
    | none => do
      let made := if dotted then Origin.dotted else Origin.implied
      let inner ← descend dotted change path made []
      return es.put key (.table made inner)
    | some (.table origin inner) =>
      if origin = .inline ∨ (dotted ∧ origin = .header) then none
      else do
        let inner ← descend dotted change path origin inner
        return es.put key (.table origin inner)
    | some (.tables (last :: before)) => do
      let last ← descend dotted change path .header last
      return es.put key (.tables (last :: before))
    | some _ => none

/-- Adds a pair; `viaDots` tells that its key is dotted, and then its table must have been made
by dotted keys. -/
def Entries.add (viaDots : Bool) (key : String) (value : Item) (origin : Origin) (es : Entries) :
    Option Entries :=
  if viaDots ∧ origin ≠ .dotted then none
  else
    match es.lookup key with
    | none => some (es.put key value)
    | some _ => none

/-- Adds a pair with a key of at least one part. -/
def Entries.addPair (origin : Origin) (es : Entries) (path : List String) (value : Item) :
    Option Entries :=
  match path.getLast? with
  | none => none
  | some key =>
    let way := path.dropLast
    es.descend true (Entries.add (!way.isEmpty) key value) way origin

/-- Makes the table of a header, or claims it if it was implied. -/
def Entries.claim (key : String) (_ : Origin) (es : Entries) : Option Entries :=
  match es.lookup key with
  | none => some (es.put key (.table .header []))
  | some (.table .implied inner) => some (es.put key (.table .header inner))
  | some _ => none

/-- Makes one more element of an array of tables. -/
def Entries.extend (key : String) (_ : Origin) (es : Entries) : Option Entries :=
  match es.lookup key with
  | none => some (es.put key (.tables [[]]))
  | some (.tables elements) => some (es.put key (.tables ([] :: elements)))
  | some _ => none

/-- The root and the path of the table that pairs now belong to. -/
structure Draft where
  root : Entries := []
  path : List String := []

def Draft.apply (d : Draft) : Statement → Option Draft
  | .table path => do
    let key ← path.getLast?
    let root ← d.root.descend false (Entries.claim key) path.dropLast .header
    return ⟨root, path⟩
  | .element path => do
    let key ← path.getLast?
    let root ← d.root.descend false (Entries.extend key) path.dropLast .header
    return ⟨root, path⟩
  | .pair path value => do
    let root ← d.root.descend false (fun origin es => es.addPair origin path value) d.path .header
    return { d with root }

/-- The root table of a document, unless its statements contradict each other. -/
def build (statements : List Statement) : Option Entries :=
  (statements.foldlM Draft.apply {}).map Draft.root

/-- The table between braces of these pairs. -/
def inlineTable (pairs : List (List String × Item)) : Option Item :=
  (pairs.foldlM (fun es (path, value) => Entries.addPair .header es path value) []).map
    (Item.table .inline)

end LogWatch.Toml
