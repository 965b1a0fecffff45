import LogWatch.Text.Blank
import LogWatch.Text.Decimal

/-!
# Readers

A reader takes something off the front of a text, or fails.
-/

namespace LogWatch.Text

abbrev Reader (α : Type) := StateT (List Char) Option α

namespace Reader

/-- The next character, if there is one; it stays. -/
def peek? : Reader (Option Char) := fun cs => some (cs.head?, cs)

/-- One character that passes a test. -/
def one (test : Char → Bool) : Reader Char := fun cs =>
  match cs with
  | c :: rest => if test c then some (c, rest) else none
  | [] => none

def exactly (c : Char) : Reader Unit := do
  let _ ← one (· == c)

/-- A character if it comes next; tells whether it did. -/
def optionally (c : Char) : Reader Bool := fun cs =>
  match cs with
  | d :: rest => if d == c then some (true, rest) else some (false, cs)
  | [] => some (false, cs)

/-- All the characters at the front that pass a test. -/
def span (test : Char → Bool) : Reader (List Char) := fun cs =>
  some (cs.takeWhile test, cs.dropWhile test)

def skip (test : Char → Bool) : Reader Unit := fun cs => some ((), cs.dropWhile test)

def blanks : Reader Unit := skip isBlank

/-- At least one character that passes a test. -/
def span1 (test : Char → Bool) : Reader (List Char) := do
  let run ← span test
  guard (!run.isEmpty)
  return run

/-- From `least` digits to at most `most`, as a number. -/
def number (least most : Nat) : Reader Nat := fun cs =>
  let run := (cs.take most).takeWhile Char.isDigit
  if run.length < least then none else some (natOfDigits run, cs.drop run.length)

/-- All the digits at the front, at least one. -/
def wholeNumber : Reader Nat := do
  return natOfDigits (← span1 Char.isDigit)

/-- Reads the whole text. -/
def whole {α : Type} (r : Reader α) (cs : List Char) : Option α :=
  match r.run cs with
  | some (a, []) => some a
  | _ => none

end Reader
end LogWatch.Text
