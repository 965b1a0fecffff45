import LogWatch.Text.Range
import LogWatch.Text.Reader
import LogWatch.Time.Calendar
import LogWatch.Toml.Tree

/-!
# Reading TOML

The grammar of TOML 1.0.  Arrays and inline tables may be nested 79 levels deep, and a dotted
key may have 79 parts.  Lines end with a line feed, which may have a carriage return before
it.  Control characters other than the tab are refused everywhere.
-/

namespace LogWatch.Toml

open LogWatch.Text LogWatch.Text.Reader

/-- The number of levels, and of parts of a key, that is allowed. -/
def depthLimit : Nat := 79

/-! ## Characters and lines -/

def isSpace (c : Char) : Bool := c == ' ' || c == '\t'

/-- What a comment or a string may hold. -/
def isPlain (c : Char) : Bool := c == '\t' || (0x20 ≤ c.toNat && c.toNat != 0x7F)

def isHex (c : Char) : Bool := c.isDigit || ('a' ≤ c && c ≤ 'f') || ('A' ≤ c && c ≤ 'F')

def isKeyChar (c : Char) : Bool := c.isAlphanum || c == '-' || c == '_'

def space : Reader Unit := skip isSpace

/-- The end of a line. -/
def newline : Reader Unit := fun cs =>
  match cs with
  | '\n' :: rest => some ((), rest)
  | '\r' :: '\n' :: rest => some ((), rest)
  | _ => none

/-- The end of a line or of the document. -/
def lineEnd : Reader Unit := fun cs => if cs.isEmpty then some ((), []) else newline cs

/-- A comment, if there is one. -/
def comment : Reader Unit := do
  if ← optionally '#' then skip isPlain

/-- What may follow a statement on its line. -/
def trailing : Reader Unit := do
  space
  comment
  lineEnd

/-- Spaces, comments and line ends, of at most so many lines. -/
def gap : Nat → Reader Unit
  | 0 => space
  | lines + 1 => do
    space
    match ← peek? with
    | some '#' => do
      comment
      newline
      gap lines
    | some '\n' => do
      newline
      gap lines
    | some '\r' => do
      newline
      gap lines
    | _ => return ()

/-! ## Strings -/

/-- The number of hexadecimal digits. -/
def natOfHex (cs : List Char) : Nat :=
  cs.foldl (fun n c =>
    n * 16 + if c.isDigit then c.toNat - 48 else (c.toNat - 55) % 32) 0

/-- A code point of exactly this many hexadecimal digits. -/
def codePoint (size : Nat) (cs : List Char) : Option (Char × List Char) :=
  let run := cs.take size
  let n := natOfHex run
  if run.length = size ∧ run.all isHex ∧ n.isValidChar then some (Char.ofNat n, cs.drop size)
  else none

/-- A character after a backslash. -/
def escape : Reader Char := fun cs =>
  match cs with
  | 'b' :: rest => some ('\x08', rest)
  | 't' :: rest => some ('\t', rest)
  | 'n' :: rest => some ('\n', rest)
  | 'f' :: rest => some ('\x0c', rest)
  | 'r' :: rest => some ('\r', rest)
  | '"' :: rest => some ('"', rest)
  | '\\' :: rest => some ('\\', rest)
  | 'u' :: rest => codePoint 4 rest
  | 'U' :: rest => codePoint 8 rest
  | _ => none

/-- A string on one line after its opening quote, of at most so many characters. -/
def basicBody : Nat → Reader (List Char)
  | 0 => failure
  | fuel + 1 => do
    let c ← one isPlain
    if c == '"' then return []
    else if c == '\\' then
      let e ← escape
      return e :: (← basicBody fuel)
    else return c :: (← basicBody fuel)

/-- A string on one line without escapes, after its opening apostrophe. -/
def literalBody : Reader (List Char) := do
  let run ← span fun c => isPlain c && c != '\''
  exactly '\''
  return run

/-- The closing quotes of a string of several lines, if they come next: three, after one or two
that belong to the string. -/
def closing? (quote : Char) (cs : List Char) : Option (List Char × List Char) :=
  let run := cs.takeWhile (· == quote)
  if run.length < 3 then none
  else
    let inside := min (run.length - 3) 2
    some (List.replicate inside quote, cs.drop (inside + 3))

/-- After a backslash: spaces and a line end, and all the space and line ends that follow. -/
def foldedLine? (cs : List Char) : Option (List Char) :=
  match newline (cs.dropWhile isSpace) with
  | none => none
  | some ((), rest) => some (skipLines rest.length rest)
where
  skipLines : Nat → List Char → List Char
    | 0, cs => cs
    | lines + 1, cs =>
      match newline (cs.dropWhile isSpace) with
      | some ((), rest) => skipLines lines rest
      | none => cs.dropWhile isSpace

/-- A string of several lines after its opening quotes.  Line ends become line feeds. -/
def longBody (quote : Char) : Nat → Reader (List Char)
  | 0 => failure
  | fuel + 1 => fun cs =>
    match closing? quote cs with
    | some found => some found
    | none =>
      match newline cs with
      | some ((), rest) => more ['\n'] fuel rest
      | none =>
        match cs with
        | [] => none
        | c :: rest =>
          if c == '\\' && quote == '"' then
            match foldedLine? rest with
            | some rest => more [] fuel rest
            | none =>
              match escape rest with
              | some (e, rest) => more [e] fuel rest
              | none => none
          else if isPlain c then more [c] fuel rest
          else none
where
  more (read : List Char) (fuel : Nat) (rest : List Char) : Option (List Char × List Char) :=
    match longBody quote fuel rest with
    | some (body, rest) => some (read ++ body, rest)
    | none => none

/-- A line end right after the opening quotes does not count. -/
def longString (quote : Char) : Reader (List Char) := fun cs =>
  let cs := match newline cs with
    | some ((), rest) => rest
    | none => cs
  longBody quote (cs.length + 1) cs

/-- A string on one line. -/
def shortString : Reader (List Char) := fun cs =>
  match cs with
  | '"' :: rest => basicBody rest.length rest
  | '\'' :: rest => literalBody rest
  | _ => none

def string : Reader (List Char) := fun cs =>
  match cs with
  | '"' :: '"' :: '"' :: rest => longString '"' rest
  | '\'' :: '\'' :: '\'' :: rest => longString '\'' rest
  | cs => shortString cs

/-! ## Keys -/

def keyPart : Reader String := do
  space
  let part ←
    match ← peek? with
    | some '"' => shortString
    | some '\'' => shortString
    | _ => span1 isKeyChar
  space
  return String.ofList part

/-- The parts of a key after the first, at most so many. -/
def keyRest : Nat → Reader (List String)
  | 0 => do
    guard (!(← optionally '.'))
    return []
  | parts + 1 => do
    if ← optionally '.' then
      let part ← keyPart
      return part :: (← keyRest parts)
    else return []

def key : Reader (List String) := do
  let part ← keyPart
  return part :: (← keyRest (depthLimit - 1))

/-! ## Numbers -/

/-- Digits of a kind with single low lines between them; gives the digits. -/
def grouped (isDigit : Char → Bool) : Reader (List Char) := fun cs =>
  let run := cs.takeWhile fun c => isDigit c || c == '_'
  if wellGrouped false run then some (run.filter (· != '_'), cs.drop run.length) else none
where
  /-- No low line at either end or beside another; `after` tells that a digit comes before. -/
  wellGrouped (after : Bool) : List Char → Bool
    | [] => after
    | c :: rest => if c == '_' then after && wellGrouped false rest else wellGrouped true rest

/-- A sign, if there is one; tells whether it is a minus sign. -/
def sign : Reader Bool := do
  if ← optionally '-' then return true
  let _ ← optionally '+'
  return false

/-- The digits before the point: a zero stands alone. -/
def wholeDigits : Reader (List Char) := fun cs =>
  match cs with
  | '0' :: rest => some (['0'], rest)
  | cs => grouped Char.isDigit cs

/-- An integer of 64 bits in another base, after its prefix. -/
def based (isDigit : Char → Bool) (base : Nat) : Reader Item := do
  let ds ← grouped isDigit
  let n := ds.foldl (fun n c => n * base + natOfHex [c]) 0
  guard (int64? n).isSome
  return .integer n

/-- The positive number `m * 10^e` is beyond the doubles: it is not below the middle between
the greatest double and the next power of two. -/
def overflows (m : Nat) (e : Int) : Bool :=
  let bound := Nat.pow 2 1024 - Nat.pow 2 970
  let places := (digits m).length + e
  if m = 0 ∨ places < 300 then false
  else if 320 < places then true
  else bound * Nat.pow 10 (-e).toNat ≤ m * Nat.pow 10 e.toNat

/-- The exponent of a float, after its letter. -/
def exponent : Reader Int := do
  let negative ← sign
  let n := natOfDigits (← grouped Char.isDigit)
  return if negative then -(n : Int) else n

/-- What follows the digits before the point: nothing, and they are an integer, or the rest of
a float.  Only a float that is not negative must stay within the doubles. -/
def decimalRest (negative : Bool) (whole : List Char) : Reader Item := do
  let fraction ←
    if ← optionally '.' then some <$> grouped Char.isDigit else pure none
  let exponent ←
    match ← peek? with
    | some 'e' => do exactly 'e'; some <$> exponent
    | some 'E' => do exactly 'E'; some <$> exponent
    | _ => pure none
  match fraction, exponent with
  | none, none => do
    let n : Int := natOfDigits whole
    let n := if negative then -n else n
    guard (int64? n).isSome
    return .integer n
  | fraction, exponent => do
    let fraction := fraction.getD []
    let e := exponent.getD 0 - fraction.length
    guard (negative || !overflows (natOfDigits (whole ++ fraction)) e)
    return .float

/-- A number with a sign, or one of the names of the floats that are no numbers. -/
def decimal : Reader Item := do
  let negative ← sign
  match ← get with
  | 'i' :: 'n' :: 'f' :: rest => do set rest; return .float
  | 'n' :: 'a' :: 'n' :: rest => do set rest; return .float
  | _ => do
    let whole ← wholeDigits
    decimalRest negative whole

/-! ## Dates and times -/

def clockTime : Reader Unit := do
  let hour ← number 2 2
  guard (hour ≤ 23)
  exactly ':'
  let minute ← number 2 2
  guard (minute ≤ 59)
  exactly ':'
  let second ← number 2 2
  guard (second ≤ 60)
  if ← optionally '.' then
    let _ ← span1 Char.isDigit

/-- An offset from UTC of at most a day, if there is one. -/
def clockOffset : Reader Unit := do
  match ← get with
  | 'Z' :: rest => set rest
  | 'z' :: rest => set rest
  | c :: rest =>
    if c == '+' || c == '-' then
      set rest
      let hour ← number 2 2
      guard (hour ≤ 23)
      exactly ':'
      let minute ← number 2 2
      guard (minute ≤ 59)
  | [] => return ()

def calendarDate : Reader Unit := do
  let year ← number 4 4
  exactly '-'
  let month ← number 2 2
  exactly '-'
  let day ← number 2 2
  guard (Time.Date.mk year month day).Exists

/-- A date, and perhaps a time and an offset. -/
def dateTime : Reader Unit := do
  calendarDate
  match ← get with
  | c :: a :: b :: rest =>
    -- a space may also end the value
    if c == 'T' || c == 't' || (c == ' ' && a.isDigit && b.isDigit) then
      set (a :: b :: rest)
      clockTime
      clockOffset
  | _ => return ()

/-- A date, a time of day or a number, after a look at the characters that tell them apart. -/
def numeral : Reader Item := fun cs =>
  match cs with
  | '0' :: 'x' :: rest => based isHex 16 rest
  | '0' :: 'o' :: rest => based (fun c => '0' ≤ c && c ≤ '7') 8 rest
  | '0' :: 'b' :: rest => based (fun c => c == '0' || c == '1') 2 rest
  | cs =>
    let run := cs.takeWhile Char.isDigit
    match run.length, cs[run.length]? with
    | 4, some '-' => (dateTime cs).map fun ((), rest) => (.datetime, rest)
    | 2, some ':' => (clockTime cs).map fun ((), rest) => (.datetime, rest)
    | _, _ => decimal cs

/-! ## Values -/

/-- Elements of an array after its bracket, at most so many; a gap before or behind one of
them has at most as many lines. -/
def arrayItems (item : Reader Item) : Nat → Reader (List Item)
  | 0 => failure
  | fuel + 1 => do
    gap fuel
    if ← optionally ']' then return []
    let first ← item
    gap fuel
    if ← optionally ',' then return first :: (← arrayItems item fuel)
    exactly ']'
    return [first]

/-- A key, an equals sign and a value. -/
def pair (item : Reader Item) : Reader (List String × Item) := do
  let path ← key
  exactly '='
  space
  return (path, ← item)

/-- Pairs of an inline table, at least one and at most so many. -/
def inlinePairs (item : Reader Item) : Nat → Reader (List (List String × Item))
  | 0 => failure
  | fuel + 1 => do
    let first ← pair item
    space
    if ← optionally ',' then return first :: (← inlinePairs item fuel)
    exactly '\x7d'
    return [first]

/-- A table between braces, after the first of them. -/
def inlineRest (item : Reader Item) : Reader Item := fun cs =>
  match cs.dropWhile isSpace with
  | '\x7d' :: rest => some (.table .inline [], rest)
  | cs => do
    let (pairs, rest) ← inlinePairs item (cs.length + 1) cs
    return (← inlineTable pairs, rest)

/-- A value that holds no other. -/
def scalar : Reader Item := fun cs =>
  match cs with
  | 't' :: 'r' :: 'u' :: 'e' :: rest => some (.boolean true, rest)
  | 'f' :: 'a' :: 'l' :: 's' :: 'e' :: rest => some (.boolean false, rest)
  | c :: _ =>
    if c == '"' || c == '\'' then (string cs).map fun (s, rest) => (.string (String.ofList s), rest)
    else numeral cs
  | [] => none

/-- A value with so many levels left inside it. -/
def value : Nat → Reader Item
  | 0 => scalar
  | depth + 1 => fun cs =>
    match cs with
    | '[' :: rest =>
      (arrayItems (value depth) (rest.length + 1) rest).map fun (items, rest) =>
        (.array items, rest)
    | '\x7b' :: rest => inlineRest (value depth) rest
    | cs => scalar cs

/-! ## Statements -/

/-- The header of a table or of an element, after its first bracket. -/
def header : Reader Statement := do
  if ← optionally '[' then
    let path ← key
    exactly ']'
    exactly ']'
    trailing
    return .element path
  else
    let path ← key
    exactly ']'
    trailing
    return .table path

/-- One line; it may hold no statement. -/
def line : Reader (Option Statement) := do
  space
  match ← peek? with
  | none => return none
  | some '#' => do
    comment
    lineEnd
    return none
  | some '\n' => do
    newline
    return none
  | some '\r' => do
    newline
    return none
  | some '[' => do
    exactly '['
    some <$> header
  | some _ => do
    let (path, item) ← pair (value depthLimit)
    trailing
    return some (.pair path item)

/-- The statements of a text of at most so many lines. -/
def statements : Nat → List Char → Option (List Statement)
  | _, [] => some []
  | 0, _ => none
  | lines + 1, cs => do
    let (found, rest) ← line cs
    let more ← statements lines rest
    return found.toList ++ more

/-- The root table of a text, which may start with a byte order mark. -/
def parse? (s : String) : Option Entries := do
  let cs := match s.toList with
    | '\uFEFF' :: rest => rest
    | cs => cs
  build (← statements (cs.length + 1) cs)

end LogWatch.Toml
