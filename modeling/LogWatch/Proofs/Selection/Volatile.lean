import LogWatch.Proofs.Filter.Shape
import LogWatch.Proofs.Identity.Event
import LogWatch.Proofs.Selection.Positions

/-!
# Volatile data

A log may number its events anew, and its clock may be set to another offset; neither changes what
an event is.  What a filter says of an event depends on the fields that it mentions only, and the
identity of an event depends on neither its index nor its offset.  So two readings of one log that
differ in nothing else are selected, walked and recorded alike, unless the filter asks for the
index.

    (∀ field, x.Mentions field → field.value e = field.value e') → x.holds e = x.holds e'
                                                                                     (holds_congr)
-/

namespace LogWatch

/-! ## Fields that a filter mentions -/

namespace Filter

namespace Expr

/-- The field that a test asks for. -/
def field? : Expr → Option Field
  | .compare field _ _ => some field
  | .method field _ _ => some field
  | .or _ | .and _ | .not _ => none

/-- Some test in the expression asks for the field. -/
def Mentions (x : Expr) (field : Field) : Prop := ∃ part, Part part x ∧ part.field? = some field

theorem mentions_iff {x : Expr} {field : Field} :
    x.Mentions field ↔ x.field? = some field ∨ ∃ t ∈ x.terms, t.Mentions field := by
  constructor
  · rintro ⟨part, hpart, hfield⟩
    obtain rfl | ⟨t, ht, hrest⟩ := Relation.ReflTransGen.cases_head_iff.mp hpart
    · exact .inl hfield
    · exact .inr ⟨t, ht, part, hrest, hfield⟩
  · rintro (hfield | ⟨t, ht, part, hpart, hfield⟩)
    · exact ⟨x, .refl, hfield⟩
    · exact ⟨part, .head ht hpart, hfield⟩

theorem mentions_compare {op : Comparison} {value : Value} {asked field : Field} :
    (compare asked op value).Mentions field ↔ asked = field := by
  rw [mentions_iff, field?, Option.some_inj]
  exact or_iff_left fun ⟨_, ht, _⟩ => List.not_mem_nil ht

theorem mentions_and {terms : List Expr} {field : Field} :
    (and terms).Mentions field ↔ ∃ t ∈ terms, t.Mentions field := by
  rw [mentions_iff]
  exact or_iff_right nofun

/-- An expression has a property if it passes from the terms right under any expression to it. -/
theorem induct {motive : Expr → Prop} (h : ∀ x, (∀ t ∈ x.terms, motive t) → motive x) :
    (x : Expr) → motive x
  | .or terms => h _ fun t (_ : t ∈ terms) => induct h t
  | .and terms => h _ fun t (_ : t ∈ terms) => induct h t
  | .not term => h _ fun t ht => List.mem_singleton.mp ht ▸ induct h term
  | .compare .. => h _ fun _ ht => absurd ht List.not_mem_nil
  | .method .. => h _ fun _ ht => absurd ht List.not_mem_nil

/-- What an expression says of an event depends on the fields that it mentions. -/
theorem holds_congr {e e' : Event} (x : Expr)
    (h : ∀ field, x.Mentions field → field.value e = field.value e') :
    x.holds e = x.holds e' := by
  induction x using induct with
  | h x ih =>
    have hterm : ∀ t ∈ x.terms, t.holds e = t.holds e' := fun t ht =>
      ih t ht fun field hfield => h field (mentions_iff.mpr (.inr ⟨t, ht, hfield⟩))
    have htest : ∀ field, x.field? = some field → field.value e = field.value e' :=
      fun field hfield => h field (mentions_iff.mpr (.inl hfield))
    cases x with
    | or terms =>
      rw [holds, holds, anyHolds_eq, anyHolds_eq, Bool.eq_iff_iff, List.any_eq_true,
        List.any_eq_true]
      exact exists_congr fun t => and_congr_right fun ht => by rw [hterm t ht]
    | and terms =>
      rw [holds, holds, allHold_eq, allHold_eq, Bool.eq_iff_iff, List.all_eq_true,
        List.all_eq_true]
      exact forall₂_congr fun t ht => by rw [hterm t ht]
    | not term => rw [holds, holds, hterm term List.mem_cons_self]
    | compare field op value => rw [holds, holds, htest field rfl]
    | method field m argument => rw [holds, holds, htest field rfl]

end Expr

/-- The filter asks for the field somewhere; a blank filter asks for none. -/
def Mentions (f : Filter) (field : Field) : Prop := ∃ x ∈ f.expr, x.Mentions field

/-- Fields other than the index tell of what the event is. -/
theorem Field.value_congr {field : Field} (h : field ≠ .index) {e e' : Event}
    (hsame : e.SameContent e') : field.value e = field.value e' := by
  cases field with
  | index => exact absurd rfl h
  | eventId => exact congrArg (Value.int ·.toInt64) hsame.eventId
  | entryType => exact congrArg (Value.text ·.name) hsame.entryType
  | errorLevel => exact congrArg (Value.int ·.toInt64) hsame.errorLevel
  | source => exact congrArg Value.text hsame.source
  | message => exact congrArg Value.text hsame.message
  | category => exact congrArg Value.text hsame.category
  | categoryNumber => exact congrArg (Value.int ·.toInt64) hsame.categoryNumber
  | instanceId => exact congrArg Value.int hsame.instanceId

theorem accepts_congr {f : Filter} (hf : ¬f.Mentions .index) {e e' : Event}
    (hsame : e.SameContent e') : f.accepts e = f.accepts e' := by
  unfold accepts
  cases hx : f.expr with
  | none => rfl
  | some x =>
    refine x.holds_congr fun field hfield => Field.value_congr ?_ hsame
    rintro rfl
    exact hf ⟨x, hx, hfield⟩

end Filter

/-! ## Two readings of one log -/

theorem Event.SameContent.identity_eq {e e' : Event} (h : e.SameContent e') :
    e.identity = e'.identity := by
  unfold Event.identity
  rw [h.canonicalText_eq, h.instant]

/-- The events of two lists agree one by one, but for their indices and offsets. -/
def SameReading (xs ys : List Event) : Prop := List.Forall₂ Event.SameContent xs ys

namespace SameReading

variable {xs ys : List Event} {f : Filter}

theorem map_identity (h : SameReading xs ys) :
    xs.map Event.identity = ys.map Event.identity := by
  induction h with
  | nil => rfl
  | cons hsame _ ih => rw [List.map_cons, List.map_cons, hsame.identity_eq, ih]

theorem map_accepts (h : SameReading xs ys) (hf : ¬f.Mentions .index) :
    xs.map f.accepts = ys.map f.accepts := by
  induction h with
  | nil => rfl
  | cons hsame _ ih => rw [List.map_cons, List.map_cons, Filter.accepts_congr hf hsame, ih]

theorem select (h : SameReading xs ys) (hf : ¬f.Mentions .index) (cap : Option Nat) :
    SameReading (f.select cap xs) (f.select cap ys) := by
  have hanswer {e e' : Event} (hsame : e.SameContent e') :
      f.accepts e = true ↔ f.accepts e' = true := by
    rw [Filter.accepts_congr hf hsame]
  have hfilter : SameReading (xs.filter f.accepts) (ys.filter f.accepts) :=
    List.rel_filter (fun _ _ hsame => hanswer hsame) h
  cases cap with
  | none => exact hfilter
  | some n => exact List.forall₂_take n hfilter

/-- Whether there is an accepted event at a position, and how many are before it, is seen in the
answers of the filter. -/
theorem selects_iff (h : SameReading xs ys) (hf : ¬f.Mentions .index) (cap : Option Nat) (i : Nat) :
    f.Selects cap xs i ↔ f.Selects cap ys i := by
  have hanswers (zs : List Event) : f.Selects cap zs i ↔
      (zs.map f.accepts)[i]? = some true ∧
        ∀ n ∈ cap, ((zs.map f.accepts).take i).countP id < n := by
    unfold Filter.Selects
    rw [← List.map_take, List.countP_map, List.getElem?_map]
    simp
  rw [hanswers, hanswers, h.map_accepts hf]

/-- The walk to the watermark sees identities only. -/
theorem length_unreported (h : SameReading xs ys) (w : Option Identity) :
    (unreported w xs).length = (unreported w ys).length := by
  cases w with
  | none => exact h.length_eq
  | some w =>
    let passes (i : Identity) : Bool :=
      w.instant < i.instant || (i.instant == w.instant && i.hash != w.hash)
    have hwalk (zs : List Event) :
        (unreported (some w) zs).length = ((zs.map Event.identity).takeWhile passes).length := by
      rw [List.takeWhile_map, List.length_map]
      rfl
    rw [hwalk, hwalk, h.map_identity]

theorem newest_record (h : SameReading xs ys) :
    (xs.head?.map fun e => Store.recordText e.identity) =
      ys.head?.map fun e => Store.recordText e.identity := by
  cases h with
  | nil => rfl
  | cons hsame _ => exact congrArg (fun i => some (Store.recordText i)) hsame.identity_eq

end SameReading

/-! ## Top theorem -/

/-- Two readings of one log, and a filter that does not ask for the index: the same positions match
and are selected, the walk to any watermark keeps equally many, of the readings and of what is
selected of them, and the record of the newest selected event is the same text. -/
theorem volatile_data_never_steers {xs ys : List Event} {f : Filter} (h : SameReading xs ys)
    (hf : ¬f.Mentions .index) (cap : Option Nat) (w : Option Identity) :
    xs.map f.accepts = ys.map f.accepts ∧
    (f.select cap xs = itemsAt xs (f.Selects cap xs) ∧
      f.select cap ys = itemsAt ys (f.Selects cap ys) ∧
      ∀ i, f.Selects cap xs i ↔ f.Selects cap ys i) ∧
    ((unreported w xs).length = (unreported w ys).length ∧
      (unreported w (f.select cap xs)).length = (unreported w (f.select cap ys)).length) ∧
    ((f.select cap xs).head?.map fun e => Store.recordText e.identity) =
      (f.select cap ys).head?.map fun e => Store.recordText e.identity := by
  have hselect := h.select hf cap
  exact ⟨h.map_accepts hf,
    ⟨f.select_eq_itemsAt cap xs, f.select_eq_itemsAt cap ys, h.selects_iff hf cap⟩,
    ⟨h.length_unreported w, hselect.length_unreported w⟩, hselect.newest_record⟩

/-! ## A log numbered anew -/

namespace Sample

/-- Noon in UTC, on a clock some hours ahead. -/
def noonAhead (hours : Fin 12) : Time.Timestamp where
  instant := { Time.Instant.epoch with second := 43200, inRange := by decide, leap := by decide }
  offset := hours * 60
  offset_lt := by omega
  shown := by unfold Time.firstSecond Time.lastSecond; dsimp only; omega

def printed (index : Int32) (hours : Fin 12) : Event :=
  { message := "printed", index, time := noonAhead hours }

def jammed (index : Int32) (hours : Fin 12) : Event :=
  { message := "paper jam", entryType := .error, index, time := noonAhead hours }

def jams : Filter :=
  ⟨"EntryType = Error And ErrorLevel > 0",
    some (.and [.compare .entryType .eq (.text "Error"), .compare .errorLevel .gt (.int 0)])⟩

end Sample

/-- The same jam is found and recorded, whatever it is numbered and on whichever clock. -/
theorem volatile_data_never_steers_jams :
    let first := [Sample.printed 8 0, Sample.jammed 7 0]
    let again := [Sample.printed 2 5, Sample.jammed 1 5]
    SameReading first again ∧ ¬Sample.jams.Mentions .index ∧
      (∀ i, Sample.jams.Selects (some 1) first i ↔ Sample.jams.Selects (some 1) again i) ∧
      (unreported (some (Sample.jammed 7 0).identity) again).length = 1 ∧
      (Sample.jams.select (some 1) again).head?.map (fun e => Store.recordText e.identity) =
        some (Store.recordText (Sample.jammed 7 0).identity) := by
  intro first again
  have hreading : SameReading first again :=
    .cons ⟨rfl, rfl, rfl, rfl, rfl, rfl, rfl, rfl, rfl⟩
      (.cons ⟨rfl, rfl, rfl, rfl, rfl, rfl, rfl, rfl, rfl⟩ .nil)
  have hjams : ¬Sample.jams.Mentions .index := by
    simp [Filter.Mentions, Sample.jams, Filter.Expr.mentions_and, Filter.Expr.mentions_compare]
  obtain ⟨-, ⟨-, -, hselects⟩, ⟨hlength, -⟩, hrecord⟩ := volatile_data_never_steers hreading hjams
    (some 1) (some (Sample.jammed 7 0).identity)
  refine ⟨hreading, hjams, hselects, hlength.symm.trans ?_, hrecord.symm.trans ?_⟩
  · decide +kernel
  · rfl

end LogWatch
