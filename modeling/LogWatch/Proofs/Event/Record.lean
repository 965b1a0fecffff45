import LogWatch.Proofs.Event.Decoding
import LogWatch.Proofs.Time.Text

/-!
# Events written and read back

The object of an event has a member for every key, with a value from which the field is read back
as it was: the text, the number of the field's width, the time with its offset, the name of the
entry type.  The order of the members does not matter.

    keys.Perm Key.all → ofJson (objectOf keys e) = .ok e                      (ofJson_objectOf)
-/

namespace LogWatch

open Text

/-! ## Integers -/

namespace Json.Number

/-- Digits whose value fits a word are all taken. -/
theorem absorb_of_lt {n : Nat} {cs : List Char}
    (h : cs.foldl (fun n c => n * 10 + digitValue c) n < wordLimit) :
    absorb n cs = (cs.foldl (fun n c => n * 10 + digitValue c) n, []) := by
  have grows : ∀ (cs : List Char) (n : Nat),
      n ≤ cs.foldl (fun n c => n * 10 + digitValue c) n := by
    intro cs
    induction cs with
    | nil => exact fun n => Nat.le_refl n
    | cons c cs ih =>
      intro n
      have := ih (n * 10 + digitValue c)
      rw [List.foldl_cons]
      omega
  induction cs generalizing n with
  | nil => rfl
  | cons c cs ih =>
    rw [List.foldl_cons] at h ⊢
    have hfits : n * 10 + digitValue c < wordLimit := Nat.lt_of_le_of_lt (grows cs _) h
    rw [absorb]
    simp only [if_pos hfits, ih h]

theorem absorb_digits {n : Nat} (h : n < wordLimit) : absorb 0 (digits n) = (n, []) := by
  have hvalue : (digits n).foldl (fun n c => n * 10 + digitValue c) 0 = n := natOfDigits_digits n
  rw [absorb_of_lt (by rwa [hvalue]), hvalue]

/-- A signed word is the value of its digits. -/
theorem value_ofInt (x : Int64) : (ofInt x.toInt).value = .int x.toInt := by
  have hlow : -2 ^ 63 ≤ x.toInt := x.le_toInt
  have hhigh : x.toInt < 2 ^ 63 := x.toInt_lt
  have hword : wordLimit = 2 ^ 64 := rfl
  have habsorb := absorb_digits (n := x.toInt.natAbs) (by omega)
  simp only [value, ofInt, habsorb]
  by_cases hx : x.toInt < 0
  · have hfits : 0 < x.toInt.natAbs ∧ 2 * x.toInt.natAbs ≤ wordLimit := by omega
    have hvalue : -(x.toInt.natAbs : Int) = x.toInt := by omega
    simp only [hx, decide_true, List.isEmpty_nil, Bool.not_true, Bool.false_eq_true, if_false,
      if_pos hfits, hvalue]
  · have hvalue : (x.toInt.natAbs : Int) = x.toInt := by omega
    simp only [hx, decide_false, List.isEmpty_nil, Bool.not_true, Bool.not_false,
      Bool.false_eq_true, if_false, if_true, hvalue]

end Json.Number

namespace Event

/-! ## Values -/

theorem string_text (want : Want) (s : String) : string want (.text s) = .ok s := rfl

theorem integer_int {α : Type} {want : Want} {fit : Int → Option α} {x : Int64} {a : α}
    (h : fit x.toInt = some a) : integer want fit (.int x.toInt) = .ok a := by
  simp only [integer, Json.int, Json.Number.value_ofInt, h]

theorem timestamp_text (t : Time.Timestamp) : timestamp (.text t.toString) = .ok t := by
  have hread : Time.Timestamp.readRelaxed? t.toString = some t := by
    rw [Time.Timestamp.readRelaxed?, Time.Timestamp.toString, String.toList_ofList]
    exact t.read?_relaxed_text
  refine bind_eq_ok.mpr ⟨t.toString, string_text .time t.toString, ?_⟩
  simp only [hread]
  rfl

theorem entryTypeOf_name (t : EntryType) : entryTypeOf (.text t.name) = .ok t := by
  refine bind_eq_ok.mpr ⟨t.name, string_text .text t.name, ?_⟩
  simp only [t.ofName?_name]
  rfl

/-! ## Fields -/

/-- The value of a key in the object of an event. -/
def jsonOf (e : Event) : Key → Json
  | .category => .text e.category
  | .categoryNumber => .int e.categoryNumber.toInt
  | .message => .text e.message
  | .source => .text e.source
  | .time => .text e.time.toString
  | .entryType => .text e.entryType.name
  | .instanceId => .int e.instanceId.toInt
  | .index => .int e.index.toInt
  | .eventId => .int e.eventId.toInt
  | .errorLevel => .int e.errorLevel.toInt

theorem integer_int16 (x : Int16) : integer .int16 int16? (.int x.toInt) = .ok x := by
  have h : int16? x.toInt64.toInt = some x := by rw [Int16.toInt_toInt64, int16?_toInt]
  have hread : integer .int16 int16? (.int x.toInt64.toInt) = .ok x := integer_int h
  rwa [Int16.toInt_toInt64] at hread

theorem integer_int32 (x : Int32) : integer .int32 int32? (.int x.toInt) = .ok x := by
  have h : int32? x.toInt64.toInt = some x := by rw [Int32.toInt_toInt64, int32?_toInt]
  have hread : integer .int32 int32? (.int x.toInt64.toInt) = .ok x := integer_int h
  rwa [Int32.toInt_toInt64] at hread

/-- Every field is read from the value of its key. -/
theorem read_jsonOf (e : Event) (key : Key) : key.read (e.jsonOf key) = .ok (e.field key) := by
  cases key with
  | category => exact string_text .text e.category
  | message => exact string_text .text e.message
  | source => exact string_text .text e.source
  | time => exact timestamp_text e.time
  | entryType => exact entryTypeOf_name e.entryType
  | categoryNumber => exact integer_int16 e.categoryNumber
  | eventId => exact integer_int16 e.eventId
  | index => exact integer_int32 e.index
  | errorLevel => exact integer_int32 e.errorLevel
  | instanceId => exact integer_int (int64?_toInt e.instanceId)

theorem optional_jsonOf (e : Event) (key : Key) :
    optional key.read (e.jsonOf key) = .ok (some (e.field key)) := by
  have hvalue : e.jsonOf key ≠ .null := by cases key <;> nofun
  rw [optional_of_ne_null _ hvalue, read_jsonOf]
  rfl

/-! ## Events -/

theorem knownKeys_map (keys : List Key) (value : Key → Json) :
    knownKeys (keys.map fun key => (some key.name, value key)) = keys := by
  rw [knownKeys, List.filterMap_map]
  simp only [Function.comp_def, Option.bind_some, Key.ofName?_name, List.filterMap_some]

/-- Members with all keys, in any order, give all fields. -/
theorem gives_jsonOf {keys : List Key} (h : keys.Perm Key.all) (e : Event) :
    Gives (keys.map fun key => (some key.name, e.jsonOf key)) fun key => some (e.field key) where
  readable m hm := by
    obtain ⟨key, -, rfl⟩ := List.mem_map.mp hm
    exact readable_known key _
  distinct := by
    rw [knownKeys_map]
    exact h.nodup_iff.mpr (by decide)
  unseen _ _ := List.not_mem_nil
  given key value hm := by
    obtain ⟨other, -, hsame⟩ := List.mem_map.mp hm
    obtain ⟨hname, rfl⟩ := Prod.mk.inj hsame
    obtain rfl := Key.name_injective (Option.some.inj hname)
    exact optional_jsonOf e other
  kept key hkey := by
    rw [knownKeys_map, h.mem_iff] at hkey
    exact absurd (by cases key <;> decide) hkey

/-- The object of an event with its keys in some order. -/
def objectOf (keys : List Key) (e : Event) : Json :=
  .record (keys.map fun key => (key.name, e.jsonOf key))

/-- An event is read back from its object, whatever the order of the keys. -/
theorem ofJson_objectOf {keys : List Key} (h : keys.Perm Key.all) (e : Event) :
    ofJson (objectOf keys e) = .ok e := by
  rw [objectOf, Json.record, List.map_map]
  exact ofJson_object_iff.mpr ⟨_, gives_jsonOf h e, fun _ => rfl⟩

theorem legible_objectOf (keys : List Key) (e : Event) : (objectOf keys e).Legible := by
  refine .record fun m hm => ?_
  obtain ⟨key, -, rfl⟩ := List.mem_map.mp hm
  cases key <;> first | exact .text _ | exact Json.legible_int _

theorem legible_objects (keys : List Key) (events : List Event) :
    (Json.array (events.map (objectOf keys))).Legible := by
  refine .array fun j hj => ?_
  obtain ⟨e, -, rfl⟩ := List.mem_map.mp hj
  exact legible_objectOf keys e

theorem listOfJson_objects {keys : List Key} (h : keys.Perm Key.all) (events : List Event) :
    listOfJson (.array (events.map (objectOf keys))) = .ok events := by
  rw [listOfJson]
  induction events with
  | nil => rfl
  | cons e events ih =>
    rw [List.map_cons, List.mapM_cons, ofJson_objectOf h]
    exact bind_eq_ok.mpr ⟨e, rfl, bind_eq_ok.mpr ⟨events, ih, rfl⟩⟩

/-! ## The order in which they are written -/

def writtenKeys : List Key :=
  [.category, .categoryNumber, .entryType, .errorLevel, .eventId, .index, .instanceId, .message,
    .source, .time]

theorem writtenKeys_perm : writtenKeys.Perm Key.all := by decide

theorem toJson_eq : toJson = objectOf writtenKeys := rfl

theorem legible_array (events : List Event) : (Json.array (events.map toJson)).Legible := by
  rw [toJson_eq]
  exact legible_objects writtenKeys events

theorem listOfJson_array (events : List Event) :
    listOfJson (.array (events.map toJson)) = .ok events := by
  rw [toJson_eq]
  exact listOfJson_objects writtenKeys_perm events

end Event
end LogWatch
