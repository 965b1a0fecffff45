import LogWatch.Proofs.Filter.Quotes

/-!
# Filters in another spelling

Keywords have signs that stand for them, and two comparisons have a second sign; names are read in
any case, and the name of an entry type stands bare or in quotes, with blanks around it.  However
the words of a filter are spelled, and whichever blanks stand between them, it compiles to the same
tree or is refused in every spelling.  Other quoted texts are part of the tree as they stand.

    Respelled ws ws' → Renamed ks ks'  for the tokens of the words                (Respelled.tokens)
-/

namespace LogWatch.Filter

open LogWatch.Text

/-! ## Words -/

theorem isToken_ofWord {cs : List Char} (hstart : cs.head?.any startsWord = true)
    (hall : cs.all continuesWord = true) : IsToken cs (.ofWord cs) := by
  cases cs with
  | nil => cases hstart
  | cons c body =>
    rw [List.all_cons, Bool.and_eq_true] at hall
    exact spells_ofWord c body hstart hall.2 (stopsAt_nil _)

/-- In another case a word is one token too. -/
theorem isToken_of_sameWord {w w' : List Char} (hstart : w.head?.any startsWord = true)
    (hall : w.all continuesWord = true) (same : sameWord w w' = true) :
    IsToken w' (.ofWord w') :=
  isToken_ofWord (caseBlind_startsWord.any_head?_eq same ▸ hstart)
    (caseBlind_continuesWord.all_eq same ▸ hall)

/-- In another case a keyword is the same keyword, and a name is a name. -/
theorem Token.ofWord_of_sameWord {w w' : List Char} (same : sameWord w w' = true) :
    Token.ofWord w' = if Token.ofWord w = .word (String.ofList w) then .word (String.ofList w')
      else Token.ofWord w := by
  unfold Token.ofWord
  simp only [sameWord_congr same]
  split
  · rfl
  · split
    · rfl
    · split
      · rfl
      · simp

theorem isToken_keyword {k w : List Char} {t : Token} (hk : Token.ofWord k = t)
    (ht : t.isName = false) (hstart : k.head?.any startsWord = true)
    (hall : k.all continuesWord = true) (same : sameWord k w = true) : IsToken w t := by
  have hname : ¬t = .word (String.ofList k) := by
    rintro rfl
    cases ht
  have hword : Token.ofWord w = t := by rw [Token.ofWord_of_sameWord same, hk, if_neg hname]
  rw [← hword]
  exact isToken_of_sameWord hstart hall same

theorem IsWord.isToken {w w' : List Char} (h : IsWord w) (same : sameWord w w' = true) :
    IsToken w' (.word (String.ofList w')) := by
  obtain ⟨hstart, hall, hword⟩ := h
  have hname : Token.ofWord w' = .word (String.ofList w') := by
    rw [Token.ofWord_of_sameWord same, if_pos hword]
  rw [← hname]
  exact isToken_of_sameWord hstart hall same

/-! ## Signs -/

/-- The words for a connective or a comparison. -/
inductive Sign : Token → List Char → Prop
  | and {w : List Char} (same : sameWord ['a', 'n', 'd'] w = true) : Sign .and w
  | ampersands : Sign .and ['&', '&']
  | or {w : List Char} (same : sameWord ['o', 'r'] w = true) : Sign .or w
  | bars : Sign .or ['|', '|']
  | not {w : List Char} (same : sameWord ['n', 'o', 't'] w = true) : Sign .not w
  | exclamation : Sign .not ['!']
  | symbol (op : Comparison) : Sign (.compare op) op.symbol.toList
  | equals : Sign (.compare .eq) ['=', '=']
  | unequal : Sign (.compare .ne) ['!', '=']

theorem Sign.isToken {t : Token} {w : List Char} (h : Sign t w) : IsToken w t := by
  cases h with
  | and same => exact isToken_keyword rfl rfl (by decide +kernel) (by decide +kernel) same
  | or same => exact isToken_keyword rfl rfl (by decide +kernel) (by decide +kernel) same
  | not same => exact isToken_keyword rfl rfl (by decide +kernel) (by decide +kernel) same
  | ampersands => exact ⟨'&', ['&'], rfl, rfl, rfl⟩
  | bars => exact ⟨'|', ['|'], rfl, rfl, rfl⟩
  | exclamation => exact ⟨'!', [], rfl, rfl, rfl⟩
  | symbol op => exact spells_compare op (stopsAt_nil _)
  | equals => exact ⟨'=', ['='], rfl, rfl, rfl⟩
  | unequal => exact ⟨'!', ['='], rfl, rfl, rfl⟩

/-! ## Entry types -/

/-- The words for an entry type: its name in any case, bare or in quotes. -/
inductive NamesEntryType (t : EntryType) : List Char → Prop
  | bare {w : List Char} (same : sameWord t.name.toList w = true) : NamesEntryType t w
  | quoted {front w back : List Char} (blank : front.all isBlank = true)
    (blank' : back.all isBlank = true) (same : sameWord t.name.toList w = true) :
    NamesEntryType t ('"' :: (front ++ (w ++ back) ++ ['"']))

/-- Quotes and backslashes. -/
def isMark (c : Char) : Bool := c == '"' || c == '\\'

theorem escaped_eq_self {cs : List Char} (h : (cs.all fun c => !isMark c) = true) :
    escaped cs = cs := by
  induction cs with
  | nil => rfl
  | cons c cs ih =>
    rw [List.all_cons, Bool.and_eq_true] at h
    have hc : ¬(c = '"' ∨ c = '\\') := by simpa [isMark] using h.1
    rw [escaped, if_neg hc, ih h.2]

theorem not_isMark_of_isBlank {c : Char} (h : isBlank c = true) : isMark c = false := by
  have hquote : c ≠ '"' := ne_of_test h rfl
  have hbackslash : c ≠ '\\' := ne_of_test h rfl
  simp [isMark, hquote, hbackslash]

theorem no_marks_of_blanks {cs : List Char} (h : cs.all isBlank = true) :
    (cs.all fun c => !isMark c) = true := by
  rw [List.all_eq_true] at h ⊢
  intro c hc
  rw [not_isMark_of_isBlank (h c hc)]
  rfl

theorem caseBlind_isMark : CaseBlind fun c => !isMark c := caseBlind_of_capitals (by decide +kernel)

/-- Without marks a text stands between its quotes as it is. -/
theorem isToken_quoted {cs : List Char} (h : (cs.all fun c => !isMark c) = true) :
    IsToken ('"' :: (cs ++ ['"'])) (.text (String.ofList cs)) := by
  have hspells := spells_text (String.ofList cs) []
  rw [Token.spelling, String.toList_ofList, escaped_eq_self h] at hspells
  exact hspells

theorem isWord_entryType (t : EntryType) : IsWord t.name.toList := by
  cases t <;> decide +kernel

theorem no_marks_entryType (t : EntryType) : (t.name.toList.all fun c => !isMark c) = true := by
  cases t <;> decide +kernel

theorem NamesEntryType.exists_denotes {t : EntryType} {w : List Char} (h : NamesEntryType t w) :
    ∃ l, IsToken w l ∧ Denotes .entryType l (.text t.name) := by
  cases h with
  | bare same =>
    refine ⟨_, (isWord_entryType t).isToken same, .bareType (EntryType.ofName?_of_trim ?_)⟩
    rwa [String.toList_ofList, trim_eq_self (t.noBlanks_name.of_sameWord same)]
  | @quoted front w back blank blank' same =>
    have hname : (w.all fun c => !isMark c) = true :=
      caseBlind_isMark.all_eq same ▸ no_marks_entryType t
    have hmarks : ((front ++ (w ++ back)).all fun c => !isMark c) = true := by
      rw [List.all_append, List.all_append, no_marks_of_blanks blank, hname,
        no_marks_of_blanks blank']
      rfl
    have hne : w ≠ [] := by
      rintro rfl
      cases t <;> exact absurd same (by decide)
    refine ⟨_, isToken_quoted hmarks, .quotedType (EntryType.ofName?_of_trim ?_)⟩
    rwa [String.toList_ofList,
      trim_between blank blank' (t.noBlanks_name.of_sameWord same) hne]

/-! ## Respelled words -/

/-- The words are spelled in another way: connectives and comparisons by any of their signs, names
in any case, and the entry type that the field of entry types is compared with in any way that
names it.  All other words stay. -/
inductive Respelled : List (List Char) → List (List Char) → Prop
  | nil : Respelled [] []
  | keep {w : List Char} {t : Token} {ws ws' : List (List Char)} (token : IsToken w t)
    (more : Respelled ws ws') : Respelled (w :: ws) (w :: ws')
  | sign {t : Token} {w w' : List Char} {ws ws' : List (List Char)} (sign : Sign t w)
    (sign' : Sign t w') (more : Respelled ws ws') : Respelled (w :: ws) (w' :: ws')
  | name {w w' : List Char} {ws ws' : List (List Char)} (word : IsWord w)
    (same : sameWord w w' = true) (more : Respelled ws ws') : Respelled (w :: ws) (w' :: ws')
  | entryType {n n' o o' l l' : List Char} {op : Comparison} {t : EntryType}
    {ws ws' : List (List Char)} (field : sameWord Field.entryType.name.toList n = true)
    (field' : sameWord Field.entryType.name.toList n' = true) (sign : Sign (.compare op) o)
    (sign' : Sign (.compare op) o') (names : NamesEntryType t l) (names' : NamesEntryType t l')
    (more : Respelled ws ws') : Respelled (n :: o :: l :: ws) (n' :: o' :: l' :: ws')

theorem isWord_entryTypeField : IsWord Field.entryType.name.toList := by decide +kernel

theorem Field.ofName?_of_sameWord {field : Field} {w : List Char}
    (same : sameWord field.name.toList w = true) :
    Field.ofName? (String.ofList w) = some field := by
  rw [← Field.ofName?_name field]
  exact (Field.ofName?_congr (by rwa [String.toList_ofList])).symm

theorem Respelled.tokens {ws ws' : List (List Char)} (h : Respelled ws ws') :
    ∃ ks ks', List.Forall₂ IsToken ws ks ∧ List.Forall₂ IsToken ws' ks' ∧ Renamed ks ks' := by
  induction h with
  | nil => exact ⟨[], [], .nil, .nil, .nil⟩
  | @keep w t _ _ token _ ih =>
    obtain ⟨ks, ks', hks, hks', hrenamed⟩ := ih
    exact ⟨t :: ks, t :: ks', .cons token hks, .cons token hks', hrenamed.keep t⟩
  | @sign t _ _ _ _ sign sign' _ ih =>
    obtain ⟨ks, ks', hks, hks', hrenamed⟩ := ih
    exact ⟨t :: ks, t :: ks', .cons sign.isToken hks, .cons sign'.isToken hks', hrenamed.keep t⟩
  | @name w w' _ _ word same _ ih =>
    obtain ⟨ks, ks', hks, hks', hrenamed⟩ := ih
    exact ⟨_, _, .cons (word.isToken (sameWord_refl w)) hks, .cons (word.isToken same) hks',
      hrenamed.name (by rwa [String.toList_ofList, String.toList_ofList])⟩
  | entryType field field' sign sign' names names' _ ih =>
    obtain ⟨ks, ks', hks, hks', hrenamed⟩ := ih
    obtain ⟨l, hl, denotes⟩ := names.exists_denotes
    obtain ⟨l', hl', denotes'⟩ := names'.exists_denotes
    exact ⟨_, _, .cons (isWord_entryTypeField.isToken field) (.cons sign.isToken (.cons hl hks)),
      .cons (isWord_entryTypeField.isToken field') (.cons sign'.isToken (.cons hl' hks')),
      hrenamed.entryType (Field.ofName?_of_sameWord field) (Field.ofName?_of_sameWord field')
        denotes denotes'⟩

/-! ## Texts -/

/-- Nothing stands behind the words of either text, or what no tokens can be read from. -/
def SameEnd (tail tail' : List Char) : Prop :=
  tail = [] ∧ tail' = [] ∨ Unreadable tail ∧ Unreadable tail'

theorem compile_renamed {s s' : String} {ks ks' : List Token} {tree : Option Expr}
    (hs : Lexes s.toList ks) (hs' : Lexes s'.toList ks') (hne : ks ≠ []) (hne' : ks' ≠ [])
    (h : Renamed ks ks') (hf : ∃ f, compile s = .ok f ∧ f.expr = tree) :
    ∃ f, compile s' = .ok f ∧ f.expr = tree := by
  obtain ⟨d, rfl, hn, rfl⟩ := (compile_iff_of_lexes hs hne).mp hf
  obtain ⟨d', hd', htree, hnesting⟩ := h.exists_derivation
  exact (compile_iff_of_lexes hs' hne').mpr ⟨d', hd', hnesting ▸ hn, congrArg some htree⟩

theorem compile_respelled {ws ws' : List (List Char)} {tail tail' : List Char} {s s' : String}
    (hw : Respelled ws ws') (hs : Spread tail ws s.toList) (hs' : Spread tail' ws' s'.toList)
    (hend : SameEnd tail tail') (tree : Option Expr) :
    (∃ f, compile s = .ok f ∧ f.expr = tree) ↔ ∃ f, compile s' = .ok f ∧ f.expr = tree := by
  obtain ⟨ks, ks', hks, hks', hrenamed⟩ := hw.tokens
  obtain ⟨rfl, rfl⟩ | ⟨hbad, hbad'⟩ := hend
  · have hlexes := hs.lexes hks
    have hlexes' := hs'.lexes hks'
    by_cases hnil : ks = []
    · subst hnil
      obtain rfl := hrenamed.eq_nil
      cases hks
      cases hks'
      rw [compile_of_isBlankText hs.all_isBlank, compile_of_isBlankText hs'.all_isBlank]
    · have hnil' : ks' ≠ [] := by
        rintro rfl
        exact hnil hrenamed.symm.eq_nil
      exact ⟨compile_renamed hlexes hlexes' hnil hnil' hrenamed,
        compile_renamed hlexes' hlexes hnil' hnil hrenamed.symm⟩
  · have hnone := compile_of_unreadable (hs.unreadable hks hbad)
    have hnone' := compile_of_unreadable (hs'.unreadable hks' hbad')
    constructor
    · rintro ⟨f, hf, -⟩
      exact absurd hf (hnone f)
    · rintro ⟨f, hf, -⟩
      exact absurd hf (hnone' f)

/-! ## Top theorem -/

/-- Where the text of a method is found in another text. -/
def TextMethod.Finds (part text : List Char) : TextMethod → Prop
  | .contains => part <:+: text
  | .startsWith => part <+: text
  | .endsWith => part <:+ text

theorem TextMethod.holds_iff {part text : List Char} (m : TextMethod) :
    m.holds text part = true ↔ m.Finds part text := by
  cases m with
  | contains => exact occursIn_iff
  | startsWith => exact List.isPrefixOf_iff_prefix
  | endsWith => exact List.isSuffixOf_iff_suffix

/-- Texts are matched character for character. -/
theorem holds_text_iff {field : Field} {e : Event} {text : String} (h : field.value e = .text text)
    (v : String) :
    ((Expr.compare field .eq (.text v)).holds e = true ↔ text = v) ∧
      ((Expr.compare field .ne (.text v)).holds e = true ↔ text ≠ v) ∧
      ∀ m, (Expr.method field m v).holds e = true ↔ m.Finds v.toList text.toList := by
  refine ⟨?_, ?_, fun m => ?_⟩
  · rw [Expr.holds, h]
    exact beq_iff_eq.trans Std.compare_eq_iff_eq
  · rw [Expr.holds, h]
    exact bne_iff_ne.trans (not_congr Std.compare_eq_iff_eq)
  · rw [Expr.holds, h]
    exact m.holds_iff

/-- However the words of a filter are spelled, and whichever blanks stand between them, it compiles
to the same tree or does not compile in any spelling.  The texts of a tree are the quoted texts of
its tokens, but for names of entry types; each stands between its quotes character for character,
and is matched so. -/
theorem spelling_never_matters {ws ws' : List (List Char)} {tail tail' : List Char} {s s' : String}
    (hw : Respelled ws ws') (hs : Spread tail ws s.toList) (hs' : Spread tail' ws' s'.toList)
    (hend : SameEnd tail tail') :
    (∀ tree, (∃ f, compile s = .ok f ∧ f.expr = tree) ↔
      ∃ f, compile s' = .ok f ∧ f.expr = tree) ∧
    (∀ u f x, compile u = .ok f → f.expr = some x →
      ∃ ts, Tokens.ofText u = .ok ts ∧ x.quotes = quotes (kinds ts.items)) ∧
    (∀ v : String, IsToken ('"' :: (escaped v.toList ++ ['"'])) (.text v)) ∧
    ∀ (field : Field) (e : Event) (text v : String), field.value e = .text text →
      ((Expr.compare field .eq (.text v)).holds e = true ↔ text = v) ∧
      ((Expr.compare field .ne (.text v)).holds e = true ↔ text ≠ v) ∧
      ∀ m, (Expr.method field m v).holds e = true ↔ m.Finds v.toList text.toList :=
  ⟨fun tree => compile_respelled hw hs hs' hend tree, fun _ _ _ => quotes_compile,
    fun v => spells_text v [], fun _ _ _ v h => holds_text_iff h v⟩

/-! ## One filter in two spellings -/

namespace Sample

def usual : String := "EntryType = \"Error\" And Not Source <> \"A b\""

def usualWords : List (List Char) :=
  ["EntryType".toList, "=".toList, "\"Error\"".toList, "And".toList, "Not".toList,
    "Source".toList, "<>".toList, "\"A b\"".toList]

def unusual : String := "\tENTRYTYPE ==  error && ! SOURCE != \"A b\"\n"

def unusualWords : List (List Char) :=
  ["ENTRYTYPE".toList, "==".toList, "error".toList, "&&".toList, "!".toList, "SOURCE".toList,
    "!=".toList, "\"A b\"".toList]

theorem respelled : Respelled usualWords unusualWords :=
  .entryType (by decide) (by decide) (.symbol .eq) .equals
    (@NamesEntryType.quoted .error [] "Error".toList [] rfl rfl (by decide))
    (.bare (by decide)) <|
  .sign (.and (by decide)) .ampersands <|
  .sign (.not (by decide)) .exclamation <|
  .name (by decide +kernel) (by decide) <|
  .sign (.symbol .ne) .unequal <|
  .keep (spells_text "A b" []) .nil

theorem apart_blank {b : Char} {rest : List Char} (h : isBlank b = true) :
    ∀ c ∈ ([b] ++ rest).head?, isBlank c = true := by
  rintro _ ⟨⟩
  exact h

theorem spread_usual : Spread [] usualWords usual.toList := by
  have htext : usual.toList = [] ++ ("EntryType".toList ++ ([' '] ++ ("=".toList ++ ([' '] ++
      ("\"Error\"".toList ++ ([' '] ++ ("And".toList ++ ([' '] ++ ("Not".toList ++ ([' '] ++
      ("Source".toList ++ ([' '] ++ ("<>".toList ++ ([' '] ++ ("\"A b\"".toList ++
      ([] ++ [])))))))))))))))) := by
    decide +kernel
  have hspace {rest : List Char} : ∀ c ∈ ([' '] ++ rest).head?, isBlank c = true := apart_blank rfl
  rw [htext]
  exact .word rfl hspace (.word rfl hspace (.word rfl hspace (.word rfl hspace (.word rfl hspace
    (.word rfl hspace (.word rfl hspace (.word rfl nofun (.done rfl))))))))

theorem spread_unusual : Spread [] unusualWords unusual.toList := by
  have htext : unusual.toList = ['\t'] ++ ("ENTRYTYPE".toList ++ ([' '] ++ ("==".toList ++
      ([' ', ' '] ++ ("error".toList ++ ([' '] ++ ("&&".toList ++ ([' '] ++ ("!".toList ++
      ([' '] ++ ("SOURCE".toList ++ ([' '] ++ ("!=".toList ++ ([' '] ++ ("\"A b\"".toList ++
      (['\n'] ++ [])))))))))))))))) := by
    decide +kernel
  have hspace {rest : List Char} : ∀ c ∈ ([' '] ++ rest).head?, isBlank c = true := apart_blank rfl
  rw [htext]
  exact .word rfl hspace (.word rfl (apart_blank rfl) (.word rfl hspace (.word rfl hspace
    (.word rfl hspace (.word rfl hspace (.word rfl hspace
    (.word rfl (apart_blank rfl) (.done rfl))))))))

end Sample

/-- Both texts compile, and to the same tree. -/
theorem spelling_never_matters_for_errors :
    (compile Sample.usual).isOk = true ∧
      ∀ tree, (∃ f, compile Sample.usual = .ok f ∧ f.expr = tree) ↔
        ∃ f, compile Sample.unusual = .ok f ∧ f.expr = tree := by
  obtain ⟨hsame, -⟩ := spelling_never_matters Sample.respelled Sample.spread_usual
    Sample.spread_unusual (.inl ⟨rfl, rfl⟩)
  exact ⟨by decide +kernel, hsame⟩

end LogWatch.Filter
