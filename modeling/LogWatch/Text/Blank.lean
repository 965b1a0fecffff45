/-!
# Blanks, trimming and lines

A blank is a character with the Unicode White_Space property.  `trim` drops the
blanks at both ends of a text, `lines` cuts a text after each line feed.
All functions work on lists of characters; the `String` forms are at the end.
-/

namespace LogWatch.Text

/-- White_Space: tab to carriage return, space, U+0085, U+00A0, U+1680, U+2000 to
U+200A, U+2028, U+2029, U+202F, U+205F and U+3000. -/
def isBlank (c : Char) : Bool :=
  let n := c.toNat
  (9 ≤ n && n ≤ 13) || n == 0x20 || n == 0x85 || n == 0xA0 || n == 0x1680 ||
  (0x2000 ≤ n && n ≤ 0x200A) || n == 0x2028 || n == 0x2029 || n == 0x202F || n == 0x205F ||
  n == 0x3000

def trimStart (cs : List Char) : List Char := cs.dropWhile isBlank

def trimEnd (cs : List Char) : List Char := (cs.reverse.dropWhile isBlank).reverse

/-- The text without the blanks before its first and after its last other character. -/
def trim (cs : List Char) : List Char := trimEnd (trimStart cs)

/-- The lines of a text.  A line ends with a line feed, which with one carriage return
before it is not part of the line; what follows the last line feed is a line unless
it is empty, and keeps a carriage return at its end. -/
def lines : List Char → List (List Char)
  | [] => []
  | '\n' :: rest => [] :: lines rest
  | '\r' :: '\n' :: rest => [] :: lines rest
  | c :: rest =>
    match lines rest with
    | [] => [[c]]
    | line :: more => (c :: line) :: more

/-! ## Strings -/

def trimmed (s : String) : String := String.ofList (trim s.toList)

/-- Nothing but blanks. -/
def isBlankText (s : String) : Bool := s.toList.all isBlank

def linesOf (s : String) : List String := (lines s.toList).map String.ofList

end LogWatch.Text
