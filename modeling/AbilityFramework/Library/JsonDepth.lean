import AbilityFramework.Library.Json

/-! # JSON values at any depth

Induction on a JSON value, and properties of a value and of every value inside it. -/

namespace AbilityFramework.Library.Json

/-! ## Induction -/

/-- An array or an object is reached when all that it holds has been. -/
@[elab_as_elim]
theorem depthInduction {motive : Json → Prop} (null : motive .null) (boolean : ∀ value, motive (.boolean value))
    (integer : ∀ value, motive (.integer value)) (float : ∀ value, motive (.float value))
    (string : ∀ value, motive (.string value))
    (array : ∀ items, (∀ item ∈ items, motive item) → motive (.array items))
    (object : ∀ members, (∀ member ∈ members, motive member.2) → motive (.object members)) (json : Json) :
    motive json :=
  @Json.rec motive (fun items => ∀ item ∈ items, motive item) (fun members => ∀ member ∈ members, motive member.2)
    (fun member => motive member.2) null boolean integer float string array object
    (fun _ isItem => absurd isItem List.not_mem_nil)
    (fun _ _ first later => List.forall_mem_cons.mpr ⟨first, later⟩)
    (fun _ isMember => absurd isMember List.not_mem_nil)
    (fun _ _ first later => List.forall_mem_cons.mpr ⟨first, later⟩) (fun _ _ value => value) json

theorem map_eq_self {α : Type} {change : α → α} {items : List α} :
    items.map change = items ↔ ∀ item ∈ items, change item = item :=
  calc items.map change = items ↔ items.map change = items.map id := by rw [List.map_id]
    _ ↔ ∀ item ∈ items, change item = item := List.map_inj_left

/-! ## Properties everywhere -/

mutual

def everywhere (holds : Json → Bool) : Json → Bool
  | .array items => holds (.array items) && everywhereItems holds items
  | .object members => holds (.object members) && everywhereMembers holds members
  | .null => holds .null
  | .boolean value => holds (.boolean value)
  | .integer value => holds (.integer value)
  | .float value => holds (.float value)
  | .string value => holds (.string value)

def everywhereItems (holds : Json → Bool) : List Json → Bool
  | [] => true
  | item :: items => everywhere holds item && everywhereItems holds items

def everywhereMembers (holds : Json → Bool) : List (String × Json) → Bool
  | [] => true
  | (_, value) :: members => everywhere holds value && everywhereMembers holds members

end

variable {holds : Json → Bool}

theorem everywhereItems_iff {items : List Json} :
    everywhereItems holds items = true ↔ ∀ item ∈ items, item.everywhere holds = true := by
  induction items with
  | nil => simp [everywhereItems]
  | cons item items inductionHypothesis => rw [everywhereItems, Bool.and_eq_true, inductionHypothesis, List.forall_mem_cons]

theorem everywhereMembers_iff {members : List (String × Json)} :
    everywhereMembers holds members = true ↔ ∀ member ∈ members, member.2.everywhere holds = true := by
  induction members with
  | nil => simp [everywhereMembers]
  | cons member members inductionHypothesis =>
    rw [everywhereMembers, Bool.and_eq_true, inductionHypothesis, List.forall_mem_cons]

theorem everywhere_array {items : List Json} : (array items).everywhere holds = true ↔
    holds (array items) = true ∧ ∀ item ∈ items, item.everywhere holds = true := by
  rw [everywhere, Bool.and_eq_true, everywhereItems_iff]

theorem everywhere_object {members : List (String × Json)} : (object members).everywhere holds = true ↔
    holds (object members) = true ∧ ∀ member ∈ members, member.2.everywhere holds = true := by
  rw [everywhere, Bool.and_eq_true, everywhereMembers_iff]

end AbilityFramework.Library.Json
