import LogWatch.Filter.Token
import LogWatch.Text.Blank
import LogWatch.Text.Letter
import LogWatch.Text.Range

/-!
# From a filter text to its tokens

Blanks separate tokens and are otherwise skipped.  A token is the longest one that starts at
its first character: `firstToken` gives it together with the number of characters it takes
beyond the first.  Tokens are placed by the offset of their first character; the end of the
text is the offset where the tokens stop.
-/

namespace LogWatch.Filter

open LogWatch.Text

/-! ## Algorithm -/

/-- What is left of a quoted text after its opening quote: the value, and how many characters
it takes with its closing quote.  A backslash before a quote or a backslash is dropped. -/
def quotedText : List Char → Option (List Char × Nat)
  | [] => none
  | '"' :: _ => some ([], 1)
  | '\\' :: '"' :: rest => (quotedText rest).map fun (value, n) => ('"' :: value, n + 2)
  | '\\' :: '\\' :: rest => (quotedText rest).map fun (value, n) => ('\\' :: value, n + 2)
  | c :: rest => (quotedText rest).map fun (value, n) => (c :: value, n + 1)

/-- The token of a whole word. -/
def Token.ofWord (cs : List Char) : Token :=
  if sameWord ['a', 'n', 'd'] cs then .and
  else if sameWord ['o', 'r'] cs then .or
  else if sameWord ['n', 'o', 't'] cs then .not
  else .word (String.ofList cs)

/-- A number runs on through ASCII letters and digits, which must be digits only. -/
def numberToken (c : Char) (rest : List Char) : Except Reason (Token × Nat) :=
  let more := rest.takeWhile Char.isAlphanum
  match (readInt? (c :: more)).bind int64? with
  | some n => .ok (.int n, more.length)
  | none => .error (.invalidNumber (String.ofList (c :: more)))

def wordToken (c : Char) (rest : List Char) : Token × Nat :=
  let more := rest.takeWhile continuesWord
  (.ofWord (c :: more), more.length)

/-- The token that starts with `c`, which is no blank, and the number of characters of `rest`
that belong to it. -/
def firstToken (c : Char) (rest : List Char) : Except Reason (Token × Nat) :=
  match c, rest with
  | '(', _ => .ok (.opening, 0)
  | ')', _ => .ok (.closing, 0)
  | '.', _ => .ok (.dot, 0)
  | '=', '=' :: _ => .ok (.compare .eq, 1)
  | '=', _ => .ok (.compare .eq, 0)
  | '!', '=' :: _ => .ok (.compare .ne, 1)
  | '!', _ => .ok (.not, 0)
  | '<', '>' :: _ => .ok (.compare .ne, 1)
  | '<', '=' :: _ => .ok (.compare .le, 1)
  | '<', _ => .ok (.compare .lt, 0)
  | '>', '=' :: _ => .ok (.compare .ge, 1)
  | '>', _ => .ok (.compare .gt, 0)
  | '&', '&' :: _ => .ok (.and, 1)
  | '|', '|' :: _ => .ok (.or, 1)
  | '"', rest =>
    match quotedText rest with
    | some (value, n) => .ok (.text (String.ofList value), n)
    | none => .error .unterminatedText
  | c, rest =>
    if c.isDigit || (c == '-' && (rest.head?.any Char.isDigit)) then numberToken c rest
    else if startsWord c then .ok (wordToken c rest)
    else .error (.unexpectedChar c)

/-- The tokens of a text whose first character has this offset. -/
def tokensFrom (offset : Nat) : List Char → Except Fault (List Placed)
  | [] => .ok []
  | c :: rest =>
    if isBlank c then tokensFrom (offset + 1) rest
    else
      match firstToken c rest with
      | .error reason => .error ⟨offset, reason⟩
      | .ok (token, n) => do
        let more ← tokensFrom (offset + 1 + n) (rest.drop n)
        return ⟨offset, token⟩ :: more
termination_by cs => cs.length
decreasing_by all_goals simp only [List.length_cons, List.length_drop]; omega

/-- The tokens of a filter text, or the first character that starts none. -/
def Tokens.ofText (s : String) : Except Fault Tokens := do
  let items ← tokensFrom 0 s.toList
  return ⟨items, s.length⟩

/-! ## Lemmas -/

theorem tokensFrom_nil (offset : Nat) : tokensFrom offset [] = .ok [] := by
  rw [tokensFrom]

theorem tokensFrom_blank (offset : Nat) (c : Char) (rest : List Char) (h : isBlank c = true) :
    tokensFrom offset (c :: rest) = tokensFrom (offset + 1) rest := by
  rw [tokensFrom, if_pos h]

end LogWatch.Filter
