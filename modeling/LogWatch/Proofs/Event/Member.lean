import LogWatch.Event.Record
import LogWatch.Proofs.Result
import Mathlib.Data.List.Perm.Basic

/-!
# The members of an event's object

Every key of a record has a field with a type, a reader and a value of its own for when it is
missing.  Members are read one after the other, but whether they can be read, and what is known
of the fields then, can be said of all of them at once: every key is a text, no field is given
twice, and every field is what its member says, whatever the order.

    p.put key j = (optional key.read j).map (p.add key)                      (Parts.put_eq)
    p.Takes members fields ↔ ∃ q, members.foldlM member p = .ok q ∧ q.get = fields
                                                                             (Parts.takes_iff)
-/

namespace LogWatch.Event

open LogWatch.Text

/-! ## The field of a key -/

/-- What the field of a key holds. -/
def Key.Value : Key → Type
  | .category | .message | .source => String
  | .categoryNumber | .eventId => Int16
  | .time => Time.Timestamp
  | .entryType => EntryType
  | .instanceId => Int64
  | .index | .errorLevel => Int32

/-- Reads a field from a value that is not null. -/
def Key.read : (key : Key) → Json → Result key.Value
  | .category | .message | .source => string .text
  | .categoryNumber | .eventId => integer .int16 int16?
  | .time => timestamp
  | .entryType => entryTypeOf
  | .instanceId => integer .int64 int64?
  | .index | .errorLevel => integer .int32 int32?

/-- What a field holds that is missing or null, in an event of this entry type. -/
def Key.missing (t : EntryType) : (key : Key) → key.Value
  | .category | .message | .source => ""
  | .categoryNumber | .eventId => (0 : Int16)
  | .time => .ofInstant .epoch
  | .entryType => EntryType.information
  | .instanceId => (0 : Int64)
  | .index => (0 : Int32)
  | .errorLevel => t.severity

def field (e : Event) : (key : Key) → key.Value
  | .category => e.category
  | .categoryNumber => e.categoryNumber
  | .message => e.message
  | .source => e.source
  | .time => e.time
  | .entryType => e.entryType
  | .instanceId => e.instanceId
  | .index => e.index
  | .eventId => e.eventId
  | .errorLevel => e.errorLevel

theorem ext_field {e f : Event} (h : ∀ key, e.field key = f.field key) : e = f := by
  obtain ⟨_, _, _, _, _, _, _, _, _, _⟩ := e
  obtain ⟨_, _, _, _, _, _, _, _, _, _⟩ := f
  rw [mk.injEq]
  exact ⟨h .category, h .categoryNumber, h .message, h .source, h .time, h .entryType,
    h .instanceId, h .index, h .eventId, h .errorLevel⟩

/-- What is known of each field: nothing, or its value. -/
abbrev Fields := (key : Key) → Option key.Value

namespace Parts

def get (p : Parts) : Fields
  | .category => p.category
  | .categoryNumber => p.categoryNumber
  | .message => p.message
  | .source => p.source
  | .time => p.time
  | .entryType => p.entryType
  | .instanceId => p.instanceId
  | .index => p.index
  | .eventId => p.eventId
  | .errorLevel => p.errorLevel

/-- A key has been seen, and this is what was read of it. -/
def add (p : Parts) (key : Key) (v : Option key.Value) : Parts :=
  let p := { p with seen := key :: p.seen }
  match key, v with
  | .category, v => { p with category := v }
  | .categoryNumber, v => { p with categoryNumber := v }
  | .message, v => { p with message := v }
  | .source, v => { p with source := v }
  | .time, v => { p with time := v }
  | .entryType, v => { p with entryType := v }
  | .instanceId, v => { p with instanceId := v }
  | .index, v => { p with index := v }
  | .eventId, v => { p with eventId := v }
  | .errorLevel, v => { p with errorLevel := v }

variable (p : Parts) (key : Key) (v : Option key.Value)

theorem put_eq (j : Json) : p.put key j = (optional key.read j).map (p.add key) := by
  cases key <;> rfl

theorem seen_add : (p.add key v).seen = key :: p.seen := by cases key <;> rfl

theorem not_mem_seen_add {other : Key} :
    other ∉ (p.add key v).seen ↔ other ≠ key ∧ other ∉ p.seen := by
  rw [seen_add, List.mem_cons, not_or]

theorem get_add_self : (p.add key v).get key = v := by cases key <;> rfl

theorem get_add_of_ne {other : Key} (h : other ≠ key) : (p.add key v).get other = p.get other := by
  cases key <;> cases other <;> first | rfl | exact absurd rfl h

theorem get_empty : ({} : Parts).get key = none := by cases key <;> rfl

theorem field_event : p.event.field key = (p.get key).getD (key.missing p.event.entryType) := by
  cases key <;> rfl

end Parts

/-! ## Members -/

abbrev Member := Option String × Json

theorem Key.ofName?_eq_some_iff {name : String} {key : Key} :
    Key.ofName? name = some key ↔ name = key.name := by
  constructor
  · intro h
    have hfound := List.find?_some (show Key.all.find? (fun k => k.name == name) = some key from h)
    exact (beq_iff_eq.mp hfound).symm
  · rintro rfl
    exact key.ofName?_name

theorem Key.name_injective {key other : Key} (h : key.name = other.name) : key = other := by
  have hname := key.ofName?_name
  rw [h, other.ofName?_name] at hname
  exact (Option.some.inj hname).symm

/-- The fields that members are about, in their order. -/
def knownKeys (members : List Member) : List Key :=
  members.filterMap fun m => m.1.bind Key.ofName?

/-- A member that is no fault in itself: its key is a text, and if no field has this key its value
is well formed. -/
def Readable (m : Member) : Prop :=
  ∃ name, m.1 = some name ∧ (Key.ofName? name = none → m.2.isWhole = true)

theorem readable_known (key : Key) (value : Json) : Readable (some key.name, value) := by
  refine ⟨key.name, rfl, fun hnone => ?_⟩
  cases hnone.symm.trans key.ofName?_name

theorem mem_knownKeys {members : List Member} {key : Key} :
    key ∈ knownKeys members ↔ ∃ value, (some key.name, value) ∈ members := by
  simp only [knownKeys, List.mem_filterMap, Prod.exists, Option.bind_eq_some_iff,
    Key.ofName?_eq_some_iff]
  constructor
  · rintro ⟨_, value, hm, _, rfl, rfl⟩
    exact ⟨value, hm⟩
  · rintro ⟨value, hm⟩
    exact ⟨_, value, hm, _, rfl, rfl⟩

theorem knownKeys_cons_unknown {name : String} (h : Key.ofName? name = none) (value : Json)
    (members : List Member) : knownKeys ((some name, value) :: members) = knownKeys members :=
  List.filterMap_cons_none h

theorem knownKeys_cons_known (key : Key) (value : Json) (members : List Member) :
    knownKeys ((some key.name, value) :: members) = key :: knownKeys members :=
  List.filterMap_cons_some key.ofName?_name

namespace Parts

/-- Members that can be taken one after the other, and what is known of the fields after them.  The
order of the members does not come into it. -/
structure Takes (p : Parts) (members : List Member) (fields : Fields) : Prop where
  readable : ∀ m ∈ members, Readable m
  distinct : (knownKeys members).Nodup
  unseen : ∀ key ∈ knownKeys members, key ∉ p.seen
  given : ∀ key value, (some key.name, value) ∈ members →
    optional key.read value = .ok (fields key)
  kept : ∀ key, key ∉ knownKeys members → fields key = p.get key

variable {p : Parts} {members other : List Member} {fields : Fields} {name : String} {value : Json}
  {key : Key}

theorem takes_nil : p.Takes [] fields ↔ p.get = fields := by
  constructor
  · intro h
    exact funext fun key => (h.kept key List.not_mem_nil).symm
  · rintro rfl
    exact ⟨nofun, List.nodup_nil, nofun, nofun, fun _ _ => rfl⟩

theorem Takes.perm (h : p.Takes members fields) (hperm : members.Perm other) :
    p.Takes other fields where
  readable m hm := h.readable m (hperm.mem_iff.mpr hm)
  distinct := (hperm.filterMap _).nodup_iff.mp h.distinct
  unseen key hkey := h.unseen key ((hperm.filterMap _).mem_iff.mpr hkey)
  given key value hm := h.given key value (hperm.mem_iff.mpr hm)
  kept key hkey := h.kept key fun hm => hkey ((hperm.filterMap _).mem_iff.mp hm)

/-- A member that no field has the key of may have any well-formed value. -/
theorem takes_cons_unknown (hname : Key.ofName? name = none) :
    p.Takes ((some name, value) :: members) fields ↔
      value.isWhole = true ∧ p.Takes members fields := by
  have hkeys := knownKeys_cons_unknown hname value members
  have hne : ∀ key : Key, key.name ≠ name := by
    rintro key rfl
    cases hname.symm.trans key.ofName?_name
  constructor
  · rintro ⟨hreadable, hdistinct, hunseen, hgiven, hkept⟩
    rw [hkeys] at hdistinct hunseen hkept
    obtain ⟨⟨_, hsame, hwhole⟩, hreadable⟩ := List.forall_mem_cons.mp hreadable
    cases hsame
    exact ⟨hwhole hname, hreadable, hdistinct, hunseen,
      fun key value hm => hgiven key value (List.mem_cons_of_mem _ hm), hkept⟩
  · rintro ⟨hwhole, hreadable, hdistinct, hunseen, hgiven, hkept⟩
    refine ⟨List.forall_mem_cons.mpr ⟨⟨name, rfl, fun _ => hwhole⟩, hreadable⟩,
      hkeys ▸ hdistinct, hkeys ▸ hunseen, fun key value hm => ?_, hkeys ▸ hkept⟩
    rcases List.mem_cons.mp hm with hsame | hm
    · exact absurd (Option.some.inj (congrArg Prod.fst hsame)) (hne key)
    · exact hgiven key value hm

/-- A member with the key of a field is taken if the key is new and the value can be read. -/
theorem takes_cons_known :
    p.Takes ((some key.name, value) :: members) fields ↔
      key ∉ p.seen ∧ ∃ v, optional key.read value = .ok v ∧ (p.add key v).Takes members fields := by
  have hkeys := knownKeys_cons_known key value members
  constructor
  · rintro ⟨hreadable, hdistinct, hunseen, hgiven, hkept⟩
    rw [hkeys] at hdistinct hunseen hkept
    obtain ⟨hnew, hdistinct⟩ := List.nodup_cons.mp hdistinct
    obtain ⟨hseen, hunseen⟩ := List.forall_mem_cons.mp hunseen
    refine ⟨hseen, fields key, hgiven key value List.mem_cons_self,
      (List.forall_mem_cons.mp hreadable).2, hdistinct, fun other hother => ?_,
      fun other value hm => hgiven other value (List.mem_cons_of_mem _ hm), fun other hother => ?_⟩
    · exact (not_mem_seen_add ..).mpr ⟨fun hsame => hnew (hsame ▸ hother), hunseen other hother⟩
    · by_cases hsame : other = key
      · subst hsame
        exact (get_add_self ..).symm
      · rw [get_add_of_ne _ _ _ hsame]
        exact hkept other (by simp [hsame, hother])
  · rintro ⟨hseen, v, hread, hreadable, hdistinct, hunseen, hgiven, hkept⟩
    -- The key has been seen by now, so none of the members behind has it.
    have hunseen : ∀ other ∈ knownKeys members, other ≠ key ∧ other ∉ p.seen :=
      fun other hm => (not_mem_seen_add ..).mp (hunseen other hm)
    have hnew : key ∉ knownKeys members := fun hm => (hunseen key hm).1 rfl
    have hfield : fields key = v := (hkept key hnew).trans (get_add_self ..)
    refine ⟨List.forall_mem_cons.mpr ⟨readable_known key value, hreadable⟩,
      hkeys ▸ List.nodup_cons.mpr ⟨hnew, hdistinct⟩, fun other hother => ?_,
      fun other value' hm => ?_, fun other hother => ?_⟩
    · rw [hkeys] at hother
      rcases List.mem_cons.mp hother with rfl | hother
      · exact hseen
      · exact (hunseen other hother).2
    · rcases List.mem_cons.mp hm with hsame | hm
      · obtain ⟨hname, rfl⟩ := Prod.mk.inj hsame
        obtain rfl := Key.name_injective (Option.some.inj hname)
        rw [hread, hfield]
      · exact hgiven other value' hm
    · rw [hkeys, List.mem_cons, not_or] at hother
      rw [hkept other hother.2, get_add_of_ne _ _ _ hother.1]

/-- That nothing is known of a key that has been seen only keeps it from being seen again. -/
theorem takes_add_none (h : p.get key = none) :
    (p.add key none).Takes members fields ↔ key ∉ knownKeys members ∧ p.Takes members fields := by
  have hget : ∀ other, (p.add key none).get other = p.get other := by
    intro other
    by_cases hsame : other = key
    · subst hsame
      rw [get_add_self, h]
    · exact get_add_of_ne _ _ _ hsame
  constructor
  · rintro ⟨hreadable, hdistinct, hunseen, hgiven, hkept⟩
    have hunseen : ∀ other ∈ knownKeys members, other ≠ key ∧ other ∉ p.seen :=
      fun other hm => (not_mem_seen_add ..).mp (hunseen other hm)
    exact ⟨fun hm => (hunseen key hm).1 rfl, hreadable, hdistinct,
      fun other hm => (hunseen other hm).2, hgiven,
      fun other hm => (hkept other hm).trans (hget other)⟩
  · rintro ⟨hnew, hreadable, hdistinct, hunseen, hgiven, hkept⟩
    exact ⟨hreadable, hdistinct,
      fun other hm => (not_mem_seen_add ..).mpr ⟨fun hsame => hnew (hsame ▸ hm), hunseen other hm⟩,
      hgiven, fun other hm => (hkept other hm).trans (hget other).symm⟩

/-- A null says of a field what saying nothing does. -/
theorem takes_cons_null (hseen : key ∉ p.seen) (h : p.get key = none) :
    p.Takes ((some key.name, .null) :: members) fields ↔
      key ∉ knownKeys members ∧ p.Takes members fields := by
  rw [takes_cons_known, ← takes_add_none h]
  constructor
  · rintro ⟨-, v, hv, htakes⟩
    cases hv
    exact htakes
  · exact fun htakes => ⟨hseen, none, rfl, htakes⟩

theorem member_known (p : Parts) (key : Key) (value : Json) :
    p.member (some key.name, value) =
      if key ∈ p.seen then .error (.duplicate key)
      else (optional key.read value).map (p.add key) := by
  simp only [member, key.ofName?_name, put_eq]

theorem member_unknown (p : Parts) (h : Key.ofName? name = none) (value : Json) :
    p.member (some name, value) = if value.isWhole = true then .ok p else .error .malformed := by
  simp only [member, h]

/-- One member is taken as `member` takes it. -/
theorem takes_cons {m : Member} :
    p.Takes (m :: members) fields ↔ ∃ q, p.member m = .ok q ∧ q.Takes members fields := by
  obtain ⟨_ | name, value⟩ := m
  · constructor
    · intro h
      obtain ⟨_, hname, -⟩ := h.readable _ List.mem_cons_self
      cases hname
    · rintro ⟨q, hq, -⟩
      cases hq
  cases hname : Key.ofName? name with
  | none =>
    rw [takes_cons_unknown hname, member_unknown p hname]
    by_cases hwhole : value.isWhole = true
    · simp [hwhole]
    · simp [hwhole]
  | some key =>
    obtain rfl := Key.ofName?_eq_some_iff.mp hname
    rw [takes_cons_known, member_known]
    by_cases hseen : key ∈ p.seen
    · simp [hseen]
    · simp only [hseen, not_false_eq_true, true_and, if_false, map_eq_ok]
      constructor
      · rintro ⟨v, hv, h⟩
        exact ⟨_, ⟨v, hv, rfl⟩, h⟩
      · rintro ⟨_, ⟨v, hv, rfl⟩, h⟩
        exact ⟨v, hv, h⟩

/-- Members are taken one after the other exactly if they can be taken at once. -/
theorem takes_iff : p.Takes members fields ↔
    ∃ q, members.foldlM member p = .ok q ∧ q.get = fields := by
  induction members generalizing p with
  | nil =>
    rw [takes_nil]
    constructor
    · exact fun h => ⟨p, rfl, h⟩
    · rintro ⟨q, hq, h⟩
      cases hq
      exact h
  | cons m members ih =>
    simp only [takes_cons, ih, List.foldlM_cons, bind_eq_ok]
    constructor
    · rintro ⟨q, hm, r, hr, h⟩
      exact ⟨r, ⟨q, hm, hr⟩, h⟩
    · rintro ⟨r, ⟨q, hm, hr⟩, h⟩
      exact ⟨q, hm, r, hr, h⟩

end Parts

end LogWatch.Event
