import AbilityFramework.Library.JsonDepth

/-! # JSON values as they are written

The texts of JSON have no floating-point values but finite ones: for the others `dump()` writes null.  What a text
is read as is the value with a null in the place of each (`asWritten`); a value is written as it is if and only
if it has none (`asWritten_eq_self_iff`). -/

namespace AbilityFramework.Library.Json

mutual

def asWritten : Json → Json
  | .float value => if value.isFinite then .float value else .null
  | .array items => .array (itemsAsWritten items)
  | .object members => .object (membersAsWritten members)
  | .null => .null
  | .boolean value => .boolean value
  | .integer value => .integer value
  | .string value => .string value

def itemsAsWritten : List Json → List Json
  | [] => []
  | item :: items => item.asWritten :: itemsAsWritten items

def membersAsWritten : List (String × Json) → List (String × Json)
  | [] => []
  | (key, value) :: members => (key, value.asWritten) :: membersAsWritten members

end

/-- A value of its own that a text can have. -/
def isWritable : Json → Bool
  | .float value => value.isFinite
  | .null | .boolean _ | .integer _ | .string _ | .array _ | .object _ => true

/-- No floating-point value at any depth is infinite or no number. -/
def Writable (json : Json) : Prop := json.everywhere isWritable = true

instance (json : Json) : Decidable json.Writable := inferInstanceAs (Decidable (_ = _))

@[simp] theorem asWritten_null : null.asWritten = null := rfl

@[simp] theorem asWritten_boolean (value : Bool) : (boolean value).asWritten = boolean value := rfl

@[simp] theorem asWritten_integer (value : Int) : (integer value).asWritten = integer value := rfl

@[simp] theorem asWritten_string (value : String) : (string value).asWritten = string value := rfl

variable {json : Json} {items : List Json} {members : List (String × Json)}

theorem itemsAsWritten_eq (items : List Json) : itemsAsWritten items = items.map asWritten := by
  induction items with
  | nil => rfl
  | cons item items inductionHypothesis => rw [itemsAsWritten, inductionHypothesis, List.map_cons]

theorem membersAsWritten_eq (members : List (String × Json)) :
    membersAsWritten members = members.map fun member => (member.1, member.2.asWritten) := by
  induction members with
  | nil => rfl
  | cons member members inductionHypothesis => rw [membersAsWritten, inductionHypothesis, List.map_cons]

theorem asWritten_array (items : List Json) : (array items).asWritten = array (items.map asWritten) := by
  rw [asWritten, itemsAsWritten_eq]

theorem asWritten_object (members : List (String × Json)) :
    (object members).asWritten = object (members.map fun member => (member.1, member.2.asWritten)) := by
  rw [asWritten, membersAsWritten_eq]

/-! ## What is written as it is -/

theorem writable_array : (array items).Writable ↔ ∀ item ∈ items, item.Writable := by
  rw [Writable, everywhere_array, isWritable, and_iff_right rfl]
  rfl

theorem writable_object : (object members).Writable ↔ ∀ member ∈ members, member.2.Writable := by
  rw [Writable, everywhere_object, isWritable, and_iff_right rfl]
  rfl

theorem asWritten_eq_self_iff (json : Json) : json.asWritten = json ↔ json.Writable := by
  induction json using depthInduction with
  | null => exact iff_of_true rfl rfl
  | boolean => exact iff_of_true rfl rfl
  | integer => exact iff_of_true rfl rfl
  | string => exact iff_of_true rfl rfl
  | float value =>
    rw [asWritten, Writable, everywhere, isWritable]
    cases value.isFinite with
    | true => exact iff_of_true (if_pos rfl) rfl
    | false =>
      rw [if_neg Bool.false_ne_true]
      exact iff_of_false (fun impossible => by cases impossible) Bool.false_ne_true
  | array items inductionHypothesis =>
    rw [asWritten_array, array.injEq, writable_array, map_eq_self]
    exact forall₂_congr inductionHypothesis
  | object members inductionHypothesis =>
    rw [asWritten_object, object.injEq, writable_object, map_eq_self]
    refine forall₂_congr fun member isMember => ?_
    rw [← inductionHypothesis member isMember, Prod.ext_iff, and_iff_right rfl]

theorem asWritten_writable (json : Json) : json.asWritten.Writable := by
  induction json using depthInduction with
  | null => rfl
  | boolean => rfl
  | integer => rfl
  | string => rfl
  | float value =>
    rw [asWritten]
    split
    · assumption
    · rfl
  | array items inductionHypothesis =>
    rw [asWritten_array, writable_array]
    intro _ isWritten
    obtain ⟨item, isItem, rfl⟩ := List.mem_map.mp isWritten
    exact inductionHypothesis item isItem
  | object members inductionHypothesis =>
    rw [asWritten_object, writable_object]
    intro _ isWritten
    obtain ⟨member, isMember, rfl⟩ := List.mem_map.mp isWritten
    exact inductionHypothesis member isMember

/-- What a text is read as is written as that text again. -/
@[simp] theorem asWritten_asWritten (json : Json) : json.asWritten.asWritten = json.asWritten :=
  (asWritten_eq_self_iff _).mpr (asWritten_writable json)

/-- What is empty once it is written was so before, or is null now. -/
theorem asWritten_of_isEmpty (empty : json.asWritten.isEmpty = true) : json.isEmpty = true ∨ json.asWritten = null := by
  cases json with
  | null => exact .inl rfl
  | float value =>
    rw [asWritten] at empty ⊢
    split at empty
    · cases empty
    · rename_i notFinite
      exact .inr (if_neg notFinite)
  | array items =>
    cases items with
    | nil => exact .inl rfl
    | cons => cases empty
  | object members =>
    cases members with
    | nil => exact .inl rfl
    | cons => cases empty
  | boolean | integer | string => cases empty

/-! ## Members -/

theorem find_asWritten (json : Json) (key : String) : json.asWritten.find key = (json.find key).map asWritten := by
  cases json with
  | object members =>
    rw [asWritten_object, find, find]
    induction members with
    | nil => rfl
    | cons member members inductionHypothesis =>
      obtain ⟨first, value⟩ := member
      rw [List.map_cons, List.lookup_cons, List.lookup_cons]
      cases key == first with
      | true => rfl
      | false => exact inductionHypothesis
  | float value =>
    rw [asWritten]
    split <;> rfl
  | null | boolean | integer | string | array => rfl

theorem asWritten_pack (members : List (String × Option Json)) :
    (pack members).asWritten = pack (members.map fun member => (member.1, member.2.map asWritten)) := by
  rw [pack, pack, asWritten_object, List.map_filterMap, List.filterMap_map]
  congr 2
  funext member
  rcases member with ⟨_, _ | value⟩ <;> rfl

end AbilityFramework.Library.Json
