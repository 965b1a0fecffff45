import LogWatch.Json.Read
import LogWatch.Proofs.Text.Reader

/-!
# Reading what was written

A tree is legible if no part of it is torn, every string has a text, and every number is spelled
as the reader wants it.  A legible tree is read back from its text, at any depth, with space
before it and whatever does not run on from it behind it.

    j.Legible → parse? j.pretty = some j                                        (parse?_pretty)
-/

namespace LogWatch.Json

open LogWatch.Text

/-! ## Legible trees -/

/-- Digits only, and no zero before others; the fraction may be missing. -/
structure Number.Legible (n : Number) : Prop where
  whole_ne_nil : n.whole ≠ []
  whole_digits : n.whole.all Char.isDigit = true
  whole_plain : ∀ cs, n.whole = '0' :: cs → cs = []
  fraction_digits : n.fraction.all Char.isDigit = true

inductive Legible : Json → Prop
  | null : Legible .null
  | bool (b : Bool) : Legible (.bool b)
  | number {n : Number} (h : n.Legible) : Legible (.number n)
  | text (s : String) : Legible (.text s)
  | array {items : List Json} (all : ∀ j ∈ items, Legible j) : Legible (.array items)
  | record {members : List (String × Json)} (all : ∀ m ∈ members, Legible m.2) :
    Legible (.record members)

theorem allWhole_eq (items : List Json) : allWhole items = items.all isWhole := by
  induction items with
  | nil => rfl
  | cons item items ih => rw [allWhole, ih, List.all_cons]

theorem membersWhole_eq (members : List (Option String × Json)) :
    membersWhole members = members.all fun m => m.2.isWhole := by
  induction members with
  | nil => rfl
  | cons m members ih => rw [membersWhole, ih, List.all_cons]

theorem Legible.isWhole {j : Json} (h : j.Legible) : j.isWhole = true := by
  induction h with
  | array all ih =>
    rw [Json.isWhole, allWhole_eq, List.all_eq_true]
    exact ih
  | @record members all ih =>
    rw [Json.record, Json.isWhole, membersWhole_eq, List.all_map, List.all_eq_true]
    exact ih
  | _ => rfl

/-! ## Strings -/

theorem hexValue?_digitChar : ∀ n < 16, hexValue? (Nat.digitChar n) = some n := by decide

/-- A control character without a letter of its own is written by its code point. -/
theorem hexUnit?_control {n : Nat} (h : n < 0x20) :
    hexUnit? '0' '0' (Nat.digitChar (n / 16)) (Nat.digitChar (n % 16)) = some n := by
  have hvalue : n / 16 * 16 + n % 16 = n := Nat.div_add_mod' n 16
  have hzero : hexValue? '0' = some 0 := rfl
  simp [hexUnit?, hzero, hexValue?_digitChar (n / 16) (by omega),
    hexValue?_digitChar (n % 16) (by omega), hvalue]

theorem stringUnits_escapedChar (c : Char) (rest : List Char) :
    stringUnits (escapedChar c ++ rest) =
      (stringUnits rest).map fun (units, left) => (c.toNat :: units, left) := by
  unfold escapedChar
  split
  · rfl
  · rfl
  · rfl
  · rfl
  · rfl
  · rfl
  · rfl
  · next hquote hbackslash _ _ _ _ _ =>
    split
    · next hlow => simp [stringUnits, hexUnit?_control hlow]
    · next hplain =>
      rw [List.singleton_append, stringUnits, if_neg hplain]
      · exact hquote
      · exact fun _ _ _ _ _ h _ => hbackslash h
      · exact fun _ _ h _ => hbackslash h

theorem stringUnits_escaped (cs rest : List Char) :
    stringUnits (cs.flatMap escapedChar ++ '"' :: rest) = some (cs.map Char.toNat, rest) := by
  induction cs with
  | nil => rfl
  | cons c cs ih =>
    rw [List.flatMap_cons, List.append_assoc, stringUnits_escapedChar, ih]
    rfl

/-- No character is half of a surrogate pair. -/
theorem joinHalves_toNat (cs : List Char) : joinHalves (cs.map Char.toNat) = some cs := by
  induction cs with
  | nil => rfl
  | cons c cs ih =>
    have hvalid : c.toNat < 0xD800 ∨ 0xDFFF < c.toNat ∧ c.toNat < 0x110000 := c.valid
    have hhigh : isHighHalf c.toNat = false := by
      simp only [isHighHalf, Bool.and_eq_false_iff, decide_eq_false_iff_not]
      omega
    have hlow : isLowHalf c.toNat = false := by
      simp only [isLowHalf, Bool.and_eq_false_iff, decide_eq_false_iff_not]
      omega
    rw [List.map_cons]
    unfold joinHalves
    simp [hhigh, hlow, ih]

theorem readString_escaped (cs rest : List Char) :
    readString (cs.flatMap escapedChar ++ '"' :: rest) = some (some (String.ofList cs), rest) := by
  rw [readString, stringUnits_escaped, Option.map_some]
  simp only [joinHalves_toNat, Option.map_some]

/-! ## Numbers -/

/-- The number would be another one if this character followed it. -/
def Number.runsOn (c : Char) : Bool := c.isDigit || c == '.' || c == 'e' || c == 'E'

theorem readDigits_append {ds rest : List Char} (hne : ds ≠ [])
    (hds : ds.all Char.isDigit = true) (hrest : StopsAt Char.isDigit rest) :
    readDigits (ds ++ rest) = some (ds, rest) := by
  have hempty : ds.isEmpty = false := List.isEmpty_eq_false_iff.mpr hne
  simp only [readDigits, takeWhile_append_of_stopsAt hds hrest, hempty, List.drop_left]
  rfl

theorem readWhole_append {ds rest : List Char} (hne : ds ≠ [])
    (hds : ds.all Char.isDigit = true) (hplain : ∀ cs, ds = '0' :: cs → cs = [])
    (hrest : StopsAt Char.isDigit rest) : readWhole (ds ++ rest) = some (ds, rest) := by
  rw [readWhole, readDigits_append hne hds hrest]
  split
  · next c cs _ h =>
    obtain ⟨rfl, -⟩ := Prod.mk.inj (Option.some.inj h)
    exact absurd (hplain _ rfl) (List.cons_ne_nil c cs)
  · rfl

theorem not_runsOn {c : Char} (h : Number.runsOn c = false) :
    c.isDigit = false ∧ c ≠ '.' ∧ (c == 'e' || c == 'E') = false := by
  simp only [Number.runsOn, Bool.or_eq_false_iff, beq_eq_false_iff_ne] at h ⊢
  exact ⟨h.1.1.1, h.1.1.2, h.1.2, h.2⟩

theorem stopsAt_isDigit {rest : List Char} (h : StopsAt Number.runsOn rest) :
    StopsAt Char.isDigit rest :=
  fun c hc => (not_runsOn (h c hc)).1

namespace Number

/-- The point and the digits behind it, if there are any. -/
def fractionText (n : Number) : List Char :=
  if n.fraction.isEmpty then [] else '.' :: n.fraction

/-- The exponent, if there is one. -/
def exponentText (n : Number) : List Char :=
  match n.exponent with
  | none => []
  | some e => 'e' :: signedDigits e

theorem text_eq (n : Number) :
    n.text =
      (if n.negative then ['-'] else []) ++ (n.whole ++ (n.fractionText ++ n.exponentText)) := by
  simp only [text, List.append_assoc]
  rfl

theorem readExponent_append (n : Number) {rest : List Char} (hrest : StopsAt runsOn rest) :
    readExponent (n.exponentText ++ rest) = some (n.exponent, rest) := by
  unfold exponentText
  split
  next hn =>
    rw [hn, List.nil_append]
    cases rest with
    | nil => rfl
    | cons c rest => simp [readExponent, (not_runsOn (stopsAt_cons.mp hrest)).2.2]
  next e hn =>
    have hread := readDigits_append (digits_ne_nil e.natAbs) (digits_all_isDigit e.natAbs)
      (stopsAt_isDigit hrest)
    rw [hn, signedDigits]
    split
    next he =>
      have hvalue : -(e.natAbs : Int) = e := by omega
      simp only [List.cons_append, readExponent, hread, Option.map_some, natOfDigits_digits, hvalue]
      rfl
    next he =>
      obtain ⟨d, ds, hds, hd⟩ := exists_digits_cons e.natAbs
      have hvalue : (natOfDigits (d :: ds) : Int) = e := by
        rw [← hds, natOfDigits_digits]
        omega
      rw [hds, List.cons_append] at hread
      have hminus : d ≠ '-' := ne_of_test hd rfl
      have hplus : d ≠ '+' := ne_of_test hd rfl
      rw [hds, List.cons_append, readExponent, if_pos (by decide), List.cons_append]
      · simp only [hread, Option.map_some, hvalue]
      · exact fun _ h => hminus (List.cons.inj h).1
      · exact fun _ h => hplus (List.cons.inj h).1

theorem stopsAt_exponentText (n : Number) {rest : List Char} (hrest : StopsAt runsOn rest) :
    StopsAt (fun c => c.isDigit || c == '.') (n.exponentText ++ rest) := by
  unfold exponentText
  split
  · intro c hc
    obtain ⟨hdigit, hpoint, -⟩ := not_runsOn (hrest c hc)
    simp [hdigit, hpoint]
  · exact stopsAt_cons.mpr (by decide)

theorem readFraction_append {n : Number} (h : n.Legible) {rest : List Char}
    (hrest : StopsAt (fun c => c.isDigit || c == '.') rest) :
    readFraction (n.fractionText ++ rest) = some (n.fraction, rest) := by
  unfold fractionText
  cases hn : n.fraction with
  | nil =>
    cases rest with
    | nil => rfl
    | cons c rest =>
      have hc := stopsAt_cons.mp hrest
      rw [Bool.or_eq_false_iff, beq_eq_false_iff_ne] at hc
      simp [readFraction, hc.2]
  | cons d ds =>
    have hds := h.fraction_digits
    rw [hn] at hds
    refine readDigits_append (List.cons_ne_nil d ds) hds fun c hc => ?_
    exact (Bool.or_eq_false_iff.mp (hrest c hc)).1

theorem stopsAt_fractionText (n : Number) {rest : List Char}
    (hrest : StopsAt (fun c => c.isDigit || c == '.') rest) :
    StopsAt Char.isDigit (n.fractionText ++ rest) := by
  unfold fractionText
  split
  · exact fun c hc => (Bool.or_eq_false_iff.mp (hrest c hc)).1
  · exact stopsAt_cons.mpr (by decide)

theorem readUnsigned_append {n : Number} (h : n.Legible) {rest : List Char}
    (hrest : StopsAt runsOn rest) :
    readUnsigned n.negative (n.whole ++ (n.fractionText ++ (n.exponentText ++ rest))) =
      some (n, rest) := by
  have hexponent := n.stopsAt_exponentText hrest
  have hwhole := readWhole_append h.whole_ne_nil h.whole_digits h.whole_plain
    (n.stopsAt_fractionText hexponent)
  simp [readUnsigned, hwhole, readFraction_append h hexponent, n.readExponent_append hrest]

theorem readNumber_text {n : Number} (h : n.Legible) {rest : List Char}
    (hrest : StopsAt runsOn rest) : readNumber (n.text ++ rest) = some (n, rest) := by
  have hread := readUnsigned_append h hrest
  rw [text_eq]
  simp only [List.append_assoc]
  cases hn : n.negative with
  | true =>
    rw [hn] at hread
    exact hread
  | false =>
    obtain ⟨d, ds, hds⟩ := List.exists_cons_of_ne_nil h.whole_ne_nil
    have hd := h.whole_digits
    rw [hds, List.all_cons, Bool.and_eq_true] at hd
    have hminus : d ≠ '-' := ne_of_test hd.1 rfl
    rw [hn, hds] at hread
    simp only [hds, Bool.false_eq_true, if_false, List.nil_append, List.cons_append] at hread ⊢
    rw [readNumber]
    · exact hread
    · rintro _ ⟨⟩
      contradiction

/-- A number starts with a hyphen or a digit. -/
theorem Legible.head {n : Number} (h : n.Legible) :
    ∃ c cs, n.text = c :: cs ∧ ∀ x : Char, x.isDigit = false → x ≠ '-' → c ≠ x := by
  rw [text_eq]
  cases n.negative with
  | true =>
    refine ⟨'-', _, rfl, ?_⟩
    rintro x - hx rfl
    exact hx rfl
  | false =>
    obtain ⟨d, ds, hds⟩ := List.exists_cons_of_ne_nil h.whole_ne_nil
    have hd := h.whole_digits
    rw [hds, List.all_cons, Bool.and_eq_true] at hd
    refine ⟨d, _, by rw [hds]; rfl, ?_⟩
    rintro x hx - rfl
    rw [hx] at hd
    exact absurd hd.1 Bool.false_ne_true

theorem legible_ofInt (n : Int) : (ofInt n).Legible where
  whole_ne_nil := digits_ne_nil _
  whole_digits := digits_all_isDigit _
  whole_plain := fun _ h => eq_nil_of_digits_eq_zero_cons h
  fraction_digits := rfl

end Number

/-! ## Trees -/

theorem legible_int (n : Int) : (int n).Legible := .number (Number.legible_ofInt n)

theorem skipSpace_append {spaces cs : List Char} (hs : spaces.all isSpace = true)
    (hcs : StopsAt isSpace cs) : skipSpace (spaces ++ cs) = cs :=
  dropWhile_append_of_stopsAt hs hcs

theorem lineBreak_all_isSpace (depth : Nat) : (lineBreak depth).all isSpace = true := by
  rw [lineBreak, List.all_cons, List.all_replicate]
  simp [isSpace]

theorem skipSpace_lineBreak (depth : Nat) {c : Char} (hc : isSpace c = false) (rest : List Char) :
    skipSpace (lineBreak depth ++ c :: rest) = c :: rest :=
  skipSpace_append (lineBreak_all_isSpace depth) (stopsAt_cons.mpr hc)

theorem isSpace_of_ne {c : Char} (hc : ∀ x : Char, x.isDigit = false → x ≠ '-' → c ≠ x) :
    isSpace c = false := by
  simp [isSpace, hc ' ' (by decide) (by decide), hc '\t' (by decide) (by decide),
    hc '\n' (by decide) (by decide), hc '\r' (by decide) (by decide)]

/-- A text starts with no space and no bracket that closes a list. -/
theorem Legible.head {j : Json} (h : j.Legible) (depth : Nat) :
    ∃ c cs, prettyAt depth j = c :: cs ∧ isSpace c = false ∧ c ≠ ']' := by
  cases h with
  | null => exact ⟨'n', _, rfl, rfl, by decide⟩
  | bool b => cases b <;> exact ⟨_, _, rfl, rfl, by decide⟩
  | number h =>
    obtain ⟨c, cs, hcs, hc⟩ := h.head
    exact ⟨c, cs, hcs, isSpace_of_ne hc, hc ']' (by decide) (by decide)⟩
  | text s => exact ⟨'"', _, rfl, rfl, by decide⟩
  | @array items all => cases items <;> exact ⟨'[', _, rfl, rfl, by decide⟩
  | @record members all => cases members <;> exact ⟨'\x7b', _, rfl, rfl, by decide⟩

/-- The tree is read back from its text. -/
def ReadsBack (j : Json) : Prop :=
  ∀ (depth fuel : Nat) (spaces rest : List Char), spaces.all isSpace = true →
    (prettyAt depth j).length ≤ fuel → StopsAt Number.runsOn rest →
    readValue fuel (spaces ++ (prettyAt depth j ++ rest)) = (j, some rest)

theorem stopsAt_lineBreak (depth : Nat) (rest : List Char) :
    StopsAt Number.runsOn (lineBreak depth ++ rest) :=
  stopsAt_cons.mpr (by decide)

theorem stopsAt_prettyItems (depth depth' : Nat) (items : List Json) (rest : List Char) :
    StopsAt Number.runsOn (prettyItems depth items ++ (lineBreak depth' ++ rest)) := by
  cases items with
  | nil => exact stopsAt_lineBreak depth' rest
  | cons item items => exact stopsAt_cons.mpr (by decide)

theorem readItems_pretty {item : Json} {items : List Json}
    (h : ∀ j ∈ item :: items, j.ReadsBack) {depth fuel : Nat}
    (hf : (prettyAt depth item).length + (prettyItems depth items).length < fuel)
    {spaces : List Char} (hs : spaces.all isSpace = true) (depth' : Nat) (rest : List Char) :
    readItems fuel (spaces ++ (prettyAt depth item ++ (prettyItems depth items ++
      (lineBreak depth' ++ ']' :: rest)))) = (item :: items, some rest) := by
  induction items generalizing item fuel spaces with
  | nil =>
    obtain ⟨fuel, rfl⟩ := Nat.exists_eq_add_one_of_ne_zero (Nat.ne_zero_of_lt hf)
    have hitem := h item List.mem_cons_self depth fuel spaces _ hs (by omega)
      (stopsAt_prettyItems depth depth' [] (']' :: rest))
    rw [readItems, hitem, Items.after, prettyItems, List.nil_append,
      skipSpace_lineBreak depth' (by decide)]
    rfl
  | cons next items ih =>
    obtain ⟨fuel, rfl⟩ := Nat.exists_eq_add_one_of_ne_zero (Nat.ne_zero_of_lt hf)
    obtain ⟨hitem, hmore⟩ := List.forall_mem_cons.mp h
    have hitem := hitem depth fuel spaces _ hs (by omega)
      (stopsAt_prettyItems depth depth' (next :: items) (']' :: rest))
    have hshort : (prettyAt depth next).length + (prettyItems depth items).length < fuel := by
      simp only [prettyItems, List.length_cons, List.length_append] at hf
      omega
    have hnext := ih hmore hshort (lineBreak_all_isSpace depth)
    rw [readItems, hitem, Items.after, prettyItems]
    simp only [List.cons_append, List.append_assoc]
    rw [skipSpace, List.dropWhile_cons_of_neg (by decide)]
    simp only [hnext]

/-- A member of an object after what parts it from the one before. -/
def memberText (depth : Nat) (m : String × Json) : List Char :=
  stringText m.1.toList ++ ':' :: ' ' :: prettyAt depth m.2

/-- The members of an object with their keys as they are kept in the tree. -/
abbrev keyed (members : List (String × Json)) : List (Option String × Json) :=
  members.map fun (key, value) => (some key, value)

theorem prettyMembers_cons (depth : Nat) (m : String × Json) (members : List (String × Json)) :
    prettyMembers depth (keyed (m :: members)) =
      ',' :: (lineBreak depth ++ (memberText depth m ++ prettyMembers depth (keyed members))) := by
  simp [prettyMembers, memberText]

theorem stopsAt_prettyMembers (depth depth' : Nat) (members : List (String × Json))
    (rest : List Char) :
    StopsAt Number.runsOn (prettyMembers depth (keyed members) ++ (lineBreak depth' ++ rest)) := by
  cases members with
  | nil => exact stopsAt_lineBreak depth' rest
  | cons m members => exact stopsAt_cons.mpr (by decide)

theorem prettyAt_record (depth : Nat) (m : String × Json) (members : List (String × Json)) :
    prettyAt depth (.record (m :: members)) =
      '\x7b' :: (lineBreak (depth + 1) ++ (memberText (depth + 1) m ++
        (prettyMembers (depth + 1) (keyed members) ++ (lineBreak depth ++ ['\x7d'])))) := by
  simp [record, prettyAt, memberText]

theorem memberText_infix_prettyMembers {m : String × Json} {members : List (String × Json)}
    (h : m ∈ members) (depth : Nat) :
    memberText depth m <:+: prettyMembers depth (keyed members) := by
  induction members with
  | nil => cases h
  | cons next members ih =>
    rw [prettyMembers_cons]
    rcases List.mem_cons.mp h with rfl | h
    · exact ⟨',' :: lineBreak depth, prettyMembers depth (keyed members), by simp⟩
    · obtain ⟨before, after, htext⟩ := ih h
      exact ⟨',' :: (lineBreak depth ++ memberText depth next) ++ before, after, by simp [← htext]⟩

/-- The text of a record holds the texts of its members. -/
theorem prettyAt_infix_record {m : String × Json} {members : List (String × Json)}
    (h : m ∈ members) (depth : Nat) :
    prettyAt (depth + 1) m.2 <:+: prettyAt depth (.record members) := by
  have hvalue : prettyAt (depth + 1) m.2 <:+: memberText (depth + 1) m :=
    ⟨stringText m.1.toList ++ [':', ' '], [], by simp [memberText]⟩
  cases members with
  | nil => cases h
  | cons first members =>
    rw [prettyAt_record]
    rcases List.mem_cons.mp h with rfl | h
    · exact hvalue.trans ⟨'\x7b' :: lineBreak (depth + 1), _, by simp; rfl⟩
    · obtain ⟨before, after, htext⟩ := memberText_infix_prettyMembers h (depth + 1)
      refine hvalue.trans ⟨'\x7b' :: (lineBreak (depth + 1) ++ memberText (depth + 1) first) ++
        before, after ++ (lineBreak depth ++ ['\x7d']), ?_⟩
      simp [← htext]

/-- A member is read up to its value, and the value up to where it ends. -/
theorem readMembers_member {m : String × Json} (h : m.2.ReadsBack) {depth fuel : Nat}
    (hf : (memberText depth m).length ≤ fuel) {spaces : List Char}
    (hs : spaces.all isSpace = true) {rest : List Char} (hrest : StopsAt Number.runsOn rest) :
    readMembers (fuel + 1) (spaces ++ (memberText depth m ++ rest)) =
      Members.after (some m.1) (readMembers fuel) (m.2, some rest) := by
  obtain ⟨key, value⟩ := m
  have hshort : (prettyAt depth value).length ≤ fuel := by
    simp only [memberText, List.length_append, List.length_cons] at hf
    omega
  have hvalue := h depth fuel [' '] rest rfl hshort hrest
  have hquote : StopsAt isSpace (memberText depth (key, value) ++ rest) :=
    stopsAt_cons.mpr (by decide)
  rw [readMembers, skipSpace_append hs hquote]
  simp only [memberText, stringText, List.cons_append, List.append_assoc, List.nil_append]
  rw [readString_escaped]
  simp only [String.ofList_toList]
  rw [skipSpace, List.dropWhile_cons_of_neg (by decide)]
  rw [List.singleton_append] at hvalue
  simp only [hvalue]

theorem readMembers_pretty {m : String × Json} {members : List (String × Json)}
    (h : ∀ m' ∈ m :: members, m'.2.ReadsBack) {depth fuel : Nat}
    (hf : (memberText depth m).length + (prettyMembers depth (keyed members)).length < fuel)
    {spaces : List Char} (hs : spaces.all isSpace = true) (depth' : Nat) (rest : List Char) :
    readMembers fuel (spaces ++ (memberText depth m ++ (prettyMembers depth (keyed members) ++
      (lineBreak depth' ++ '\x7d' :: rest)))) = (keyed (m :: members), some rest) := by
  induction members generalizing m fuel spaces with
  | nil =>
    obtain ⟨fuel, rfl⟩ := Nat.exists_eq_add_one_of_ne_zero (Nat.ne_zero_of_lt hf)
    rw [readMembers_member (h m List.mem_cons_self) (by omega) hs
      (stopsAt_prettyMembers depth depth' [] ('\x7d' :: rest)), Members.after]
    simp only [keyed, List.map_nil, prettyMembers, List.nil_append]
    rw [skipSpace_lineBreak depth' (by decide)]
    rfl
  | cons next members ih =>
    obtain ⟨fuel, rfl⟩ := Nat.exists_eq_add_one_of_ne_zero (Nat.ne_zero_of_lt hf)
    obtain ⟨hm, hmore⟩ := List.forall_mem_cons.mp h
    have hshort : (memberText depth next).length +
        (prettyMembers depth (keyed members)).length < fuel := by
      rw [prettyMembers_cons] at hf
      simp only [List.length_cons, List.length_append] at hf
      omega
    have hnext := ih hmore hshort (lineBreak_all_isSpace depth)
    rw [readMembers_member hm (by omega) hs
      (stopsAt_prettyMembers depth depth' (next :: members) ('\x7d' :: rest)), Members.after,
      prettyMembers_cons]
    simp only [List.cons_append, List.append_assoc]
    rw [skipSpace, List.dropWhile_cons_of_neg (by decide)]
    simp only [hnext]
    rfl

theorem readPlain_number {n : Number} (h : n.Legible) {rest : List Char}
    (hrest : StopsAt Number.runsOn rest) :
    readPlain (n.text ++ rest) = some (.number n, rest) := by
  obtain ⟨c, cs, hcs, hc⟩ := h.head
  have hread := Number.readNumber_text h hrest
  rw [hcs, List.cons_append] at hread ⊢
  unfold readPlain
  split
  · next he => exact absurd (List.cons.inj he).1 (hc 'n' (by decide) (by decide))
  · next he => exact absurd (List.cons.inj he).1 (hc 't' (by decide) (by decide))
  · next he => exact absurd (List.cons.inj he).1 (hc 'f' (by decide) (by decide))
  · rw [hread, Option.map_some]

/-- Space before a text changes nothing, and a text takes a step at least. -/
theorem Legible.readsBack_of {j : Json} (h : j.Legible)
    (hread : ∀ (depth fuel : Nat) (rest : List Char), (prettyAt depth j).length ≤ fuel + 1 →
      StopsAt Number.runsOn rest →
      readValue (fuel + 1) (prettyAt depth j ++ rest) = (j, some rest)) : j.ReadsBack := by
  intro depth fuel spaces rest hs hf hrest
  obtain ⟨c, cs, hcs, hspace, -⟩ := h.head depth
  have hfuel : fuel ≠ 0 := by
    rw [hcs] at hf
    exact Nat.ne_zero_of_lt hf
  obtain ⟨fuel, rfl⟩ := Nat.exists_eq_add_one_of_ne_zero hfuel
  have hj := hread depth fuel rest hf hrest
  have hstop : StopsAt isSpace (c :: (cs ++ rest)) := stopsAt_cons.mpr hspace
  have hskip : skipSpace (c :: (cs ++ rest)) = c :: (cs ++ rest) :=
    skipSpace_append List.all_nil hstop
  rw [hcs, List.cons_append] at hj ⊢
  rw [readValue, hskip] at hj
  rw [readValue, skipSpace_append hs hstop, hj]

theorem readValue_number {n : Number} (h : n.Legible) (fuel : Nat) {rest : List Char}
    (hrest : StopsAt Number.runsOn rest) :
    readValue (fuel + 1) (n.text ++ rest) = (.number n, some rest) := by
  obtain ⟨c, cs, hcs, hc⟩ := h.head
  have hspace : isSpace c = false := isSpace_of_ne hc
  have hread := readPlain_number h hrest
  rw [hcs, List.cons_append] at hread ⊢
  rw [readValue, skipSpace, List.dropWhile_cons_of_neg (by simp [hspace])]
  split
  · next he => exact absurd (List.cons.inj he).1 (hc '[' (by decide) (by decide))
  · next he => exact absurd (List.cons.inj he).1 (hc '\x7b' (by decide) (by decide))
  · next he => exact absurd (List.cons.inj he).1 (hc '"' (by decide) (by decide))
  · rw [hread]

theorem readValue_array {item : Json} {items : List Json}
    (h : ∀ j ∈ item :: items, j.Legible ∧ j.ReadsBack) {depth fuel : Nat}
    (hf : (prettyAt depth (.array (item :: items))).length ≤ fuel + 1) (rest : List Char) :
    readValue (fuel + 1) (prettyAt depth (.array (item :: items)) ++ rest) =
      (.array (item :: items), some rest) := by
  obtain ⟨c, cs, hcs, hspace, hbracket⟩ := (h item List.mem_cons_self).1.head (depth + 1)
  have hshort : (prettyAt (depth + 1) item).length + (prettyItems (depth + 1) items).length <
      fuel := by
    simp only [prettyAt, lineBreak, List.length_cons, List.length_append] at hf
    omega
  have hitems := readItems_pretty (fun j hj => (h j hj).2) hshort List.all_nil depth rest
  have hskip (rest : List Char) : skipSpace (lineBreak (depth + 1) ++ c :: rest) = c :: rest :=
    skipSpace_lineBreak (depth + 1) hspace rest
  rw [List.nil_append] at hitems
  simp only [prettyAt, hcs, List.cons_append, List.append_assoc, List.nil_append] at hitems ⊢
  rw [readValue, skipSpace, List.dropWhile_cons_of_neg (by decide)]
  simp only [hskip]
  split
  · next he => exact absurd (List.cons.inj he).1 hbracket
  · rw [hitems]

theorem readValue_record {m : String × Json} {members : List (String × Json)}
    (h : ∀ m' ∈ m :: members, m'.2.ReadsBack) {depth fuel : Nat}
    (hf : (prettyAt depth (.record (m :: members))).length ≤ fuel + 1) (rest : List Char) :
    readValue (fuel + 1) (prettyAt depth (.record (m :: members)) ++ rest) =
      (.record (m :: members), some rest) := by
  have htext := congrArg (· ++ rest) (prettyAt_record depth m members)
  simp only [List.cons_append, List.append_assoc, List.nil_append] at htext
  have hshort : (memberText (depth + 1) m).length +
      (prettyMembers (depth + 1) (keyed members)).length < fuel := by
    have hlength := congrArg List.length htext
    simp only [lineBreak, List.length_append, List.length_cons] at hlength
    omega
  have hmembers := readMembers_pretty h hshort List.all_nil depth rest
  have hquote : StopsAt isSpace (memberText (depth + 1) m ++
      (prettyMembers (depth + 1) (keyed members) ++ (lineBreak depth ++ '\x7d' :: rest))) :=
    stopsAt_cons.mpr (by decide)
  rw [htext, readValue, skipSpace, List.dropWhile_cons_of_neg (by decide)]
  simp only [skipSpace_append (lineBreak_all_isSpace (depth + 1)) hquote]
  rw [List.nil_append] at hmembers
  split
  · next he => simp [memberText, stringText] at he
  · rw [hmembers]
    rfl

theorem Legible.readsBack {j : Json} (h : j.Legible) : j.ReadsBack := by
  induction h with
  | null => exact Legible.null.readsBack_of fun _ _ _ _ _ => rfl
  | bool b =>
    refine (Legible.bool b).readsBack_of fun _ _ _ _ _ => ?_
    cases b <;> rfl
  | @number n h =>
    exact (Legible.number h).readsBack_of fun _ fuel _ _ hrest => readValue_number h fuel hrest
  | text s =>
    refine (Legible.text s).readsBack_of fun depth fuel rest _ _ => ?_
    have hread := readString_escaped s.toList rest
    rw [String.ofList_toList] at hread
    simp only [Json.text, prettyAt, stringText, List.cons_append, List.append_assoc,
      List.nil_append]
    rw [readValue, skipSpace, List.dropWhile_cons_of_neg (by decide)]
    simp only [hread]
  | @array items all ih =>
    refine (Legible.array all).readsBack_of fun depth fuel rest hf _ => ?_
    cases items with
    | nil => rfl
    | cons item items => exact readValue_array (fun j hj => ⟨all j hj, ih j hj⟩) hf rest
  | @record members all ih =>
    refine (Legible.record all).readsBack_of fun depth fuel rest hf _ => ?_
    cases members with
    | nil => rfl
    | cons m members => exact readValue_record ih hf rest

/-! ## Top theorem -/

theorem ofText_prettyAt {j : Json} (h : j.Legible) (depth : Nat) :
    Document.ofText (String.ofList (prettyAt depth j)) = ⟨j, true⟩ := by
  have hread := h.readsBack depth (2 * (prettyAt depth j).length + 2) [] [] rfl (by omega)
    (stopsAt_nil _)
  rw [List.nil_append, List.append_nil] at hread
  simp only [Document.ofText, String.toList_ofList, hread]
  rfl

/-- A legible tree is what its text holds. -/
theorem parse?_prettyAt {j : Json} (h : j.Legible) (depth : Nat) :
    parse? (String.ofList (prettyAt depth j)) = some j := by
  simp only [parse?, ofText_prettyAt h depth, h.isWhole]
  rfl

end LogWatch.Json
