import LogWatch.Proofs.Event.Member
import LogWatch.Proofs.Json.Pretty
import Mathlib.Logic.Relation

/-!
# What the decoding of an event depends on

An event is decoded from what the members of its object say of the fields.  So it stays the same
when the members are put in another order, when members with other keys come or go, and when
nulls come or go for fields of which nothing else is said.  An array is read as the object in which
its values stand under the keys in their order.

    Change members other → Gives members fields → Gives other fields          (Change.gives)
    items.length ≤ 10 → ofJson (.array items) = ofJson (.object (named Key.all items))
                                                                              (ofJson_array)
    ofText text = .ok e ↔ ∃ j, Json.parse? text = some j ∧ ofJson j = .ok e   (ofText_eq_ok_iff)
-/

namespace LogWatch.Event

open LogWatch.Text

/-! ## Objects -/

theorem optional_of_ne_null {α : Type} (read : Json → Result α) {j : Json} (h : j ≠ .null) :
    optional read j = (read j).map some := by
  rw [optional]
  exact h

/-- An object of these members is decoded, with these fields. -/
def Gives (members : List Member) (fields : Fields) : Prop := ({} : Parts).Takes members fields

variable {members other : List Member} {fields : Fields} {e : Event}

/-- An event is decoded from an object if the members give its fields, and the fields that they do
not give are those of a missing key. -/
theorem ofJson_object_iff : ofJson (.object members) = .ok e ↔
    ∃ fields, Gives members fields ∧
      ∀ key, e.field key = (fields key).getD (key.missing e.entryType) := by
  simp only [Gives, Parts.takes_iff, ofJson, map_eq_ok]
  constructor
  · rintro ⟨p, hp, rfl⟩
    exact ⟨_, ⟨p, hp, rfl⟩, fun key => p.field_event key⟩
  · rintro ⟨_, ⟨p, hp, rfl⟩, hfields⟩
    have htype : p.event.entryType = e.entryType :=
      (p.field_event .entryType).trans (hfields .entryType).symm
    refine ⟨p, hp, ext_field fun key => ?_⟩
    rw [p.field_event, hfields, htype]

/-- What a key with a value other than null gives is kept. -/
theorem field_of_given (h : ofJson (.object members) = .ok e) {key : Key} {value : Json}
    (hm : (some key.name, value) ∈ members) (hvalue : value ≠ .null) :
    key.read value = .ok (e.field key) := by
  obtain ⟨fields, hgives, hfields⟩ := ofJson_object_iff.mp h
  have hgiven := hgives.given key value hm
  rw [optional_of_ne_null _ hvalue, map_eq_ok] at hgiven
  obtain ⟨v, hread, hv⟩ := hgiven
  rw [hread, hfields key, ← hv]
  rfl

theorem field_of_missing (h : ofJson (.object members) = .ok e) {key : Key}
    (hm : ∀ value, (some key.name, value) ∈ members → value = .null) :
    e.field key = key.missing e.entryType := by
  obtain ⟨fields, hgives, hfields⟩ := ofJson_object_iff.mp h
  have hnone : fields key = none := by
    by_cases hknown : key ∈ knownKeys members
    · obtain ⟨value, hvalue⟩ := mem_knownKeys.mp hknown
      have hgiven := hgives.given key value hvalue
      rw [hm value hvalue] at hgiven
      exact (Except.ok.inj hgiven).symm
    · rw [hgives.kept key hknown, Parts.get_empty]
  rw [hfields key, hnone]
  rfl

/-- A change after which the members say the same of an event.  Members come and go in front, and so
anywhere, as the order is free. -/
inductive Change : List Member → List Member → Prop
  | reorder {members other : List Member} (h : members.Perm other) : Change members other
  | addUnknown {members : List Member} {name : String} {value : Json}
    (hname : Key.ofName? name = none) (hvalue : value.isWhole = true) :
    Change members ((some name, value) :: members)
  | dropUnknown {members : List Member} {name : String} {value : Json}
    (hname : Key.ofName? name = none) : Change ((some name, value) :: members) members
  | addNull {members : List Member} {key : Key} (hnew : key ∉ knownKeys members) :
    Change members ((some key.name, .null) :: members)
  | dropNull {members : List Member} {key : Key} :
    Change ((some key.name, .null) :: members) members

theorem Change.gives (h : Change members other) (hgives : Gives members fields) :
    Gives other fields := by
  cases h with
  | reorder hperm => exact hgives.perm hperm
  | addUnknown hname hvalue => exact (Parts.takes_cons_unknown hname).mpr ⟨hvalue, hgives⟩
  | dropUnknown hname => exact ((Parts.takes_cons_unknown hname).mp hgives).2
  | addNull hnew =>
    exact (Parts.takes_cons_null List.not_mem_nil (Parts.get_empty _)).mpr ⟨hnew, hgives⟩
  | dropNull =>
    exact ((Parts.takes_cons_null List.not_mem_nil (Parts.get_empty _)).mp hgives).2

/-- Whatever changes are made one after the other, the event stays. -/
theorem ofJson_of_changes (h : ofJson (.object members) = .ok e)
    (hchanges : Relation.ReflTransGen Change members other) : ofJson (.object other) = .ok e := by
  obtain ⟨fields, hgives, hfields⟩ := ofJson_object_iff.mp h
  refine ofJson_object_iff.mpr ⟨fields, ?_, hfields⟩
  induction hchanges with
  | refl => exact hgives
  | tail _ hlast ih => exact hlast.gives ih

/-! ## Arrays -/

/-- The values with the names of these keys. -/
def named (keys : List Key) (items : List Json) : List Member :=
  List.zipWith (fun key item => (some key.name, item)) keys items

theorem Parts.elements_eq {keys : List Key} {items : List Json} {p : Parts}
    (hlength : items.length ≤ keys.length) (hdistinct : keys.Nodup)
    (hunseen : ∀ key ∈ keys, key ∉ p.seen) :
    p.elements keys items = (named keys items).foldlM member p := by
  induction items generalizing keys p with
  | nil =>
    rw [named, List.zipWith_nil_right]
    cases keys <;> rfl
  | cons item items ih =>
    cases keys with
    | nil => simp at hlength
    | cons key keys =>
      obtain ⟨hnew, hdistinct⟩ := List.nodup_cons.mp hdistinct
      obtain ⟨hseen, hunseen⟩ := List.forall_mem_cons.mp hunseen
      rw [named, List.zipWith_cons_cons, List.foldlM_cons, member_known, if_neg hseen, elements,
        put_eq]
      cases optional key.read item with
      | error fault => rfl
      | ok v =>
        refine ih (Nat.le_of_succ_le_succ hlength) hdistinct fun other hother => ?_
        exact (not_mem_seen_add ..).mpr ⟨fun hsame => hnew (hsame ▸ hother), hunseen other hother⟩

/-- An array is read as the object in which its values stand under their keys. -/
theorem ofJson_array {items : List Json} (h : items.length ≤ Key.all.length) :
    ofJson (.array items) = ofJson (.object (named Key.all items)) := by
  rw [ofJson, ofJson, Parts.elements_eq h (by decide) fun _ _ => List.not_mem_nil]

theorem Parts.length_of_elements {keys : List Key} {items : List Json} {p q : Parts}
    (h : p.elements keys items = .ok q) : items.length ≤ keys.length := by
  induction items generalizing keys p with
  | nil => exact Nat.zero_le _
  | cons item items ih =>
    cases keys with
    | nil => cases h
    | cons key keys =>
      obtain ⟨r, -, hr⟩ := bind_eq_ok.mp h
      exact Nat.succ_le_succ (ih hr)

/-! ## Texts -/

theorem refuse_ne_ok {α : Type} (want : Want) (j : Json) (a : α) : refuse want j ≠ .ok a := by
  unfold refuse
  split
  · exact nofun
  · exact nofun
  · split <;> exact nofun
  · exact nofun
  · exact nofun
  · exact nofun
  · exact nofun
  · exact nofun

theorem isWhole_of_string {want : Want} {j : Json} {s : String} (h : string want j = .ok s) :
    j.isWhole = true := by
  unfold string at h
  split at h
  · rfl
  · exact absurd h (refuse_ne_ok want j s)

theorem isWhole_of_integer {α : Type} {want : Want} {fit : Int → Option α} {j : Json} {a : α}
    (h : integer want fit j = .ok a) : j.isWhole = true := by
  unfold integer at h
  split at h
  · rfl
  · exact absurd h (refuse_ne_ok want j a)

theorem Key.isWhole_of_read {key : Key} {j : Json} {v : key.Value} (h : key.read j = .ok v) :
    j.isWhole = true := by
  have hstring : ∀ {α : Type} {want : Want} {f : String → Result α} {a : α},
      (string want j >>= f) = .ok a → j.isWhole = true := by
    intro α want f a h
    obtain ⟨s, hs, -⟩ := bind_eq_ok.mp h
    exact isWhole_of_string hs
  cases key with
  | category | message | source => exact isWhole_of_string h
  | time | entryType => exact hstring h
  | categoryNumber | instanceId | index | eventId | errorLevel => exact isWhole_of_integer h

theorem Gives.isWhole (h : Gives members fields) : (Json.object members).isWhole = true := by
  rw [Json.isWhole, Json.membersWhole_eq, List.all_eq_true]
  rintro ⟨name, value⟩ hm
  obtain ⟨name, rfl, hunknown⟩ := h.readable _ hm
  cases hname : Key.ofName? name with
  | none => exact hunknown hname
  | some key =>
    obtain rfl := Key.ofName?_eq_some_iff.mp hname
    by_cases hnull : value = .null
    · rw [hnull]
      rfl
    · have hgiven := h.given key value hm
      rw [optional_of_ne_null _ hnull, map_eq_ok] at hgiven
      obtain ⟨v, hread, -⟩ := hgiven
      exact Key.isWhole_of_read hread

theorem isWhole_named {keys : List Key} {items : List Json} (h : items.length ≤ keys.length) :
    (Json.object (named keys items)).isWhole = (Json.array items).isWhole := by
  rw [Json.isWhole, Json.isWhole]
  induction items generalizing keys with
  | nil =>
    rw [named, List.zipWith_nil_right]
    rfl
  | cons item items ih =>
    cases keys with
    | nil => simp at h
    | cons key keys => exact congrArg (item.isWhole && ·) (ih (Nat.le_of_succ_le_succ h))

theorem isWhole_of_ofJson {j : Json} (h : ofJson j = .ok e) : j.isWhole = true := by
  fun_cases ofJson j with
  | case1 members =>
    obtain ⟨_, hgives, -⟩ := ofJson_object_iff.mp h
    exact hgives.isWhole
  | case2 items =>
    -- An array with more values than keys is refused, so all values stand under a key.
    obtain ⟨p, hp, -⟩ := map_eq_ok.mp h
    have hlength := Parts.length_of_elements hp
    rw [ofJson_array hlength] at h
    obtain ⟨_, hgives, -⟩ := ofJson_object_iff.mp h
    rw [← isWhole_named hlength]
    exact hgives.isWhole
  | case3 j hobject harray =>
    rw [ofJson] at h
    · exact absurd h (refuse_ne_ok .event j e)
    · exact hobject
    · exact harray

/-- Of a text that is well formed as a whole the tree is read. -/
theorem whole_of_parse? {α : Type} {read : Json → Result α} {text : String} {j : Json}
    (h : Json.parse? text = some j) : whole read text = read j := by
  simp only [Json.parse?, Option.ite_none_right_eq_some, Bool.and_eq_true, Option.some.injEq] at h
  obtain ⟨⟨hended, -⟩, rfl⟩ := h
  simp only [whole, hended, if_true]
  exact bind_pure _

/-- A text holds an event if it is well formed and its tree is decoded. -/
theorem ofText_eq_ok_iff {text : String} :
    ofText text = .ok e ↔ ∃ j, Json.parse? text = some j ∧ ofJson j = .ok e := by
  constructor
  · intro h
    obtain ⟨f, hf, hended⟩ := bind_eq_ok.mp h
    split at hended
    · next hend =>
      cases hended
      refine ⟨_, ?_, hf⟩
      rw [Json.parse?]
      simp only [hend, isWhole_of_ofJson hf, Bool.and_self, if_true]
    · cases hended
  · rintro ⟨j, hparse, hj⟩
    exact (whole_of_parse? hparse).trans hj

/-! ## Top theorem -/

/-- A text holds an event if it is well formed and its tree is decoded.  Of an object that is
decoded the members may be put in another order, members with unknown keys and well-formed values
may come and go, and so may nulls for fields with no other member: the event stays the same.  Its
fields are what the members say; an error level of which they say nothing is the severity of the
entry type.  An array of up to ten values is decoded as the object with those values. -/
theorem decoding_ignores_order_and_noise :
    (∀ (text : String) (e : Event), ofText text = .ok e ↔
      ∃ j, Json.parse? text = some j ∧ ofJson j = .ok e) ∧
    (∀ (members other : List Member) (e : Event), ofJson (.object members) = .ok e →
      Relation.ReflTransGen Change members other → ofJson (.object other) = .ok e) ∧
    (∀ (members : List Member) (e : Event), ofJson (.object members) = .ok e →
      (∀ (key : Key) (value : Json), (some key.name, value) ∈ members → value ≠ .null →
        key.read value = .ok (e.field key)) ∧
      ((∀ value, (some Key.errorLevel.name, value) ∈ members → value = .null) →
        e.errorLevel = e.entryType.severity) ∧
      ∀ value, (some Key.errorLevel.name, value) ∈ members → value ≠ .null →
        integer .int32 int32? value = .ok e.errorLevel) ∧
    ∀ items : List Json, items.length ≤ 10 →
      ofJson (.array items) = ofJson (.object (named Key.all items)) := by
  refine ⟨fun text e => ofText_eq_ok_iff, fun members other e h => ofJson_of_changes h,
    fun members e h => ⟨fun key value => field_of_given h, ?_, fun value hm hvalue => ?_⟩,
    fun items => ofJson_array⟩
  · exact @field_of_missing _ _ h .errorLevel
  · exact field_of_given h hm hvalue

namespace Sample

def plain : List Member := [(some "EventID", .int 7), (some "EntryType", .text "Error")]

/-- The entry type stands behind the error level, and an unknown key holds a known one. -/
def noisy : List Member :=
  [(some "Colour", .object [(some "EventID", .int 8)]), (some "ErrorLevel", .null),
    (some "EntryType", .text "Error"), (some "EventID", .int 7)]

/-- The same in the array form. -/
def row : List Json := [.null, .null, .null, .null, .null, .text "Error", .null, .null, .int 7]

def failure : Event := { entryType := .error, eventId := 7, errorLevel := 2 }

theorem changes_noisy : Relation.ReflTransGen Change plain noisy :=
  .head (.reorder (.swap _ _ [])) <| .head (@Change.addNull _ .errorLevel (by decide +kernel)) <|
    .single (.addUnknown (by decide +kernel) rfl)

end Sample

theorem decoding_ignores_order_and_noise_of_failure :
    ofJson (.object Sample.noisy) = .ok Sample.failure ∧
      ofJson (.array Sample.row) = .ok Sample.failure := by
  obtain ⟨-, hsame, -, harray⟩ := decoding_ignores_order_and_noise
  have hplain : (ofJson (.object Sample.plain)).toOption = some Sample.failure := by
    decide +kernel
  have hrow : (ofJson (.object (named Key.all Sample.row))).toOption = some Sample.failure := by
    decide +kernel
  refine ⟨hsame _ _ _ (toOption_eq_some.mp hplain) Sample.changes_noisy, ?_⟩
  rw [harray _ (by decide)]
  exact toOption_eq_some.mp hrow

end LogWatch.Event
