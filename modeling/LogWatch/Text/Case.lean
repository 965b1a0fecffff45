/-!
# Comparing words without regard to ASCII case

Keywords, field names, method names and entry types are all written in ASCII letters,
so folding the letters `A` to `Z` is enough to compare a word with one of them.
-/

namespace LogWatch.Text

/-- Equal up to the case of ASCII letters; every other character stands for itself. -/
def sameWord (a b : List Char) : Bool := a.map Char.toLower == b.map Char.toLower

/-! ## Lemmas -/

theorem sameWord_iff {a b : List Char} :
    sameWord a b = true ↔ a.map Char.toLower = b.map Char.toLower := by
  simp [sameWord]

theorem sameWord_refl (a : List Char) : sameWord a a = true := by simp [sameWord]

end LogWatch.Text
