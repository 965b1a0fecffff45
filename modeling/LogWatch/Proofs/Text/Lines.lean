import LogWatch.Text.Blank

/-!
# Lines without blanks

A piece of text without blanks that a line feed follows is the next line, and trimming does
not change it.  Whatever follows a line feed is cut into lines on its own.  A separator that two
texts hold equally often before it parts them in one way.
-/

namespace LogWatch.Text

/-- Where two texts agree and hold a separator equally often before it, they agree on both sides
of it. -/
theorem append_cons_inj_of_count {c : Char} {xs ys as bs : List Char}
    (hc : xs.count c = ys.count c) (h : xs ++ c :: as = ys ++ c :: bs) : xs = ys ∧ as = bs := by
  rcases List.append_eq_append_iff.mp h with ⟨cs, hy, ha⟩ | ⟨cs, hx, hb⟩
  · cases cs with
    | nil => exact ⟨by simpa using hy.symm, by simpa using ha⟩
    | cons d cs =>
      obtain ⟨rfl, -⟩ := List.cons.inj ha
      rw [hy, List.count_append, List.count_cons_self] at hc
      omega
  · cases cs with
    | nil => exact ⟨by simpa using hx, by simpa using hb.symm⟩
    | cons d cs =>
      obtain ⟨rfl, -⟩ := List.cons.inj hb
      rw [hx, List.count_append, List.count_cons_self] at hc
      omega

theorem append_cons_inj_of_not_mem {c : Char} {xs ys as bs : List Char} (hx : c ∉ xs)
    (hy : c ∉ ys) (h : xs ++ c :: as = ys ++ c :: bs) : xs = ys ∧ as = bs :=
  append_cons_inj_of_count
    ((List.count_eq_zero.mpr hx).trans (List.count_eq_zero.mpr hy).symm) h

/-- A test tells characters apart. -/
theorem ne_of_test {test : Char → Bool} {c d : Char} (hc : test c = true) (hd : test d = false) :
    c ≠ d := by
  rintro rfl
  rw [hc] at hd
  contradiction

/-- No character is a blank. -/
def NoBlanks (cs : List Char) : Prop := ∀ c ∈ cs, isBlank c = false

theorem NoBlanks.append {xs ys : List Char} (hx : NoBlanks xs) (hy : NoBlanks ys) :
    NoBlanks (xs ++ ys) := by
  intro c hc
  rcases List.mem_append.mp hc with h | h
  · exact hx c h
  · exact hy c h

theorem NoBlanks.cons {c : Char} {xs : List Char} (hc : isBlank c = false) (hx : NoBlanks xs) :
    NoBlanks (c :: xs) := by
  intro d hd
  rcases List.mem_cons.mp hd with rfl | h
  · exact hc
  · exact hx d h

theorem NoBlanks.nil : NoBlanks [] := fun _ h => absurd h (by simp)

/-- A line feed, or a carriage return and a line feed. -/
def IsLineEnd (cs : List Char) : Prop := cs = ['\n'] ∨ cs = ['\r', '\n']

instance (cs : List Char) : Decidable (IsLineEnd cs) := inferInstanceAs (Decidable (_ ∨ _))

/-- No character is part of a line's end. -/
def OnOneLine (cs : List Char) : Prop := ∀ c ∈ cs, c ≠ '\n' ∧ c ≠ '\r'

theorem NoBlanks.onOneLine {cs : List Char} (h : NoBlanks cs) : OnOneLine cs := by
  intro c hc
  exact ⟨(ne_of_test rfl (h c hc)).symm, (ne_of_test rfl (h c hc)).symm⟩

theorem lines_cons {c : Char} (hn : c ≠ '\n') (hr : c ≠ '\r') {rest line : List Char}
    {more : List (List Char)} (h : lines rest = line :: more) :
    lines (c :: rest) = (c :: line) :: more := by
  rw [lines, h]
  · exact hn
  · intro _ hc _
    exact hr hc

theorem lines_append_end {xs ending : List Char} (h : OnOneLine xs) (he : IsLineEnd ending)
    (rest : List Char) : lines (xs ++ (ending ++ rest)) = xs :: lines rest := by
  induction xs with
  | nil => rcases he with rfl | rfl <;> rfl
  | cons c xs ih =>
    obtain ⟨hn, hr⟩ := h c List.mem_cons_self
    exact lines_cons hn hr (ih fun d hd => h d (List.mem_cons_of_mem c hd))

theorem lines_of_onOneLine {xs : List Char} (h : OnOneLine xs) (hne : xs ≠ []) :
    lines xs = [xs] := by
  induction xs with
  | nil => exact absurd rfl hne
  | cons c xs ih =>
    obtain ⟨hn, hr⟩ := h c List.mem_cons_self
    cases xs with
    | nil =>
      rw [lines]
      · rfl
      · exact hn
      · nofun
    | cons d xs =>
      exact lines_cons hn hr (ih (fun x hx => h x (List.mem_cons_of_mem c hx)) (by simp))

theorem lines_append_newline {xs : List Char} (h : NoBlanks xs) (rest : List Char) :
    lines (xs ++ '\n' :: rest) = xs :: lines rest :=
  lines_append_end h.onOneLine (.inl rfl) rest

theorem lines_ne_nil {cs : List Char} (h : cs ≠ []) : lines cs ≠ [] := by
  fun_cases lines cs with
  | case1 => exact absurd rfl h
  | case2 => exact List.cons_ne_nil _ _
  | case3 => exact List.cons_ne_nil _ _
  | case4 => exact List.cons_ne_nil _ _
  | case5 => exact List.cons_ne_nil _ _

/-- A character that ends no line stands at the front of one. -/
theorem lines_append_break_cons {c : Char} {rest ys : List Char} (hn : c ≠ '\n')
    (hr : ∀ r, c = '\r' → rest = '\n' :: r → False)
    (ih : lines (rest ++ '\n' :: ys) = lines (rest ++ ['\n']) ++ lines ys) :
    lines (c :: (rest ++ '\n' :: ys)) = lines (c :: (rest ++ ['\n'])) ++ lines ys := by
  by_cases hlone : c = '\r' ∧ rest = []
  · obtain ⟨rfl, rfl⟩ := hlone
    rfl
  · have hfirst (zs : List Char) : ∀ r, c = '\r' → rest ++ '\n' :: zs = '\n' :: r → False := by
      intro r hc hrest
      cases rest with
      | nil => exact hlone ⟨hc, rfl⟩
      | cons d rest => exact hr rest hc (by rw [(List.cons.inj hrest).1])
    have hmore : lines (rest ++ ['\n']) ≠ [] := lines_ne_nil (by simp)
    rw [lines, lines, ih]
    · cases hlines : lines (rest ++ ['\n']) with
      | nil => exact absurd hlines hmore
      | cons line more => rfl
    · exact hn
    · exact hfirst []
    · exact hn
    · exact hfirst ys

/-- What follows a line feed is cut into lines on its own. -/
theorem lines_append_break (xs ys : List Char) :
    lines (xs ++ '\n' :: ys) = lines (xs ++ ['\n']) ++ lines ys := by
  fun_induction lines xs with
  | case1 => rfl
  | case2 rest ih => exact congrArg ([] :: ·) ih
  | case3 rest ih => exact congrArg ([] :: ·) ih
  | case4 c rest hn hr _ ih => exact lines_append_break_cons hn hr ih
  | case5 c rest hn hr _ _ _ ih => exact lines_append_break_cons hn hr ih

theorem linesOf_append_break (earlier rest : String) :
    linesOf (earlier ++ "\n" ++ rest) = linesOf (earlier ++ "\n") ++ linesOf rest := by
  have hbreak := lines_append_break earlier.toList rest.toList
  simp only [linesOf, String.toList_append, List.append_assoc]
  rw [← List.map_append]
  exact congrArg (List.map String.ofList) hbreak

/-- What has no blank at either end is not changed by trimming. -/
theorem trim_of_ends {cs : List Char} (hfirst : ∀ c ∈ cs.head?, isBlank c = false)
    (hlast : ∀ c ∈ cs.getLast?, isBlank c = false) : trim cs = cs := by
  have hdrop : ∀ {ds : List Char}, (∀ c ∈ ds.head?, isBlank c = false) →
      ds.dropWhile isBlank = ds := by
    intro ds hd
    cases ds with
    | nil => rfl
    | cons d ds => simp [hd d rfl]
  unfold trim trimStart trimEnd
  rw [hdrop hfirst, hdrop (List.head?_reverse ▸ hlast), List.reverse_reverse]

theorem trim_eq_self {cs : List Char} (h : NoBlanks cs) : trim cs = cs :=
  trim_of_ends (fun c hc => h c (List.mem_of_mem_head? hc))
    fun c hc => h c (List.mem_of_mem_getLast? hc)

end LogWatch.Text
