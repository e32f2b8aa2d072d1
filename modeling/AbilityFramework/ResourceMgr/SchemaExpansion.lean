import AbilityFramework.Library.JsonDepth
import AbilityFramework.ResourceMgr.CRSchema
import AbilityFramework.ResourceMgr.PlainDocuments

/-! # What the expansion of a schema leaves

`expand_intentable` and `expand_ref` build a schema anew, from null.  A schema without markers comes out unchanged
exactly if it has no empty object and no empty array, which become null, and no array so long that an index is no `int`
(`expansion_unchanged_iff`). -/

namespace AbilityFramework.ResourceMgr.Document

open Library

def noMarker (json : Json) : Bool := !json.contains "x-intentable" && !json.contains "x-ref"

/-- Neither `x-intentable` nor `x-ref` at any depth. -/
def MarkerFree (json : Json) : Prop := json.everywhere noMarker = true

instance (json : Json) : Decidable (MarkerFree json) := inferInstanceAs (Decidable (_ = true))

theorem noMarker_object {members : List (String × Json)} :
    noMarker (.object members) = true ↔ members.lookup "x-intentable" = none ∧ members.lookup "x-ref" = none := by
  simp [noMarker, Json.contains, Json.find]

theorem markerFree_object {members : List (String × Json)} : MarkerFree (.object members) ↔
    (members.lookup "x-intentable" = none ∧ members.lookup "x-ref" = none) ∧ ∀ member ∈ members, MarkerFree member.2 := by
  rw [MarkerFree, Json.everywhere_object, noMarker_object]
  exact Iff.rfl

theorem markerFree_array {items : List Json} : MarkerFree (.array items) ↔ ∀ item ∈ items, MarkerFree item := by
  rw [MarkerFree, Json.everywhere_array]
  exact and_iff_right rfl

/-! ## Expansion of parts -/

section Parts

variable {manifests : PackageManifests} {spec : AbilitySpec} {current : String} {index : Nat} {items results : List Json}
  {members expanded : List (String × Json)}

theorem cons_eq_ok {α β : Type} {make : α → β} {first : Except ErrorMsg α} {later : Except ErrorMsg (List β)}
    {made : List β} : (first >>= fun value => later >>= fun values => pure (make value :: values)) = .ok made ↔
      ∃ value values, first = .ok value ∧ later = .ok values ∧ make value :: values = made := by
  simp only [except_bind_eq_ok, pure, Except.pure, Except.ok.injEq, exists_and_left]

theorem expandIntentableItems_cons {item : Json} :
    expandIntentableItems current index (item :: items) = .ok results ↔ index < 2147483648 ∧
      ∃ result later, expandIntentable (current ++ pointerToken (toString index)) item = .ok result ∧
        expandIntentableItems current (index + 1) items = .ok later ∧ result :: later = results := by
  rw [expandIntentableItems]
  by_cases tooLong : 2147483647 < index
  · rw [if_pos tooLong]
    exact iff_of_false (fun impossible => by cases impossible) fun few => by omega
  · rw [if_neg tooLong, and_iff_right (by omega)]
    exact @cons_eq_ok _ _ id _ _ _

/-- Each item is expanded at its own place, and no place is beyond `int`. -/
theorem items_of_ok (isOk : expandIntentableItems current index items = .ok results) :
    (items ≠ [] → index + items.length ≤ 2147483648) ∧
      List.Forall₂ (fun item result => ∃ path, expandIntentable path item = .ok result) items results := by
  induction items generalizing index results with
  | nil =>
    cases isOk
    exact ⟨fun some => absurd rfl some, .nil⟩
  | cons item items inductionHypothesis =>
    obtain ⟨few, result, later, isResult, areLater, rfl⟩ := expandIntentableItems_cons.mp isOk
    obtain ⟨fewLater, each⟩ := inductionHypothesis areLater
    refine ⟨fun _ => ?_, .cons ⟨_, isResult⟩ each⟩
    cases items with
    | nil => exact few
    | cons second items =>
      have bound := fewLater (List.cons_ne_nil _ _)
      rw [List.length_cons]
      omega

theorem items_unchanged (few : index + items.length ≤ 2147483648)
    (each : ∀ item ∈ items, ∀ path, expandIntentable path item = .ok item) :
    expandIntentableItems current index items = .ok items := by
  induction items generalizing index with
  | nil => rfl
  | cons item items inductionHypothesis =>
    obtain ⟨first, later⟩ := List.forall_mem_cons.mp each
    rw [List.length_cons] at few
    exact expandIntentableItems_cons.mpr ⟨by omega, item, items, first _, inductionHypothesis (by omega) later, rfl⟩

theorem members_eq_ok {expand : String × Json → Except ErrorMsg Json}
    {expandAll : List (String × Json) → Except ErrorMsg (List (String × Json))} (nil : expandAll [] = .ok [])
    (cons : ∀ member members, expandAll (member :: members) =
      expand member >>= fun result => expandAll members >>= fun later => pure ((member.1, result) :: later)) :
    expandAll members = .ok expanded ↔
      List.Forall₂ (fun member result => member.1 = result.1 ∧ expand member = .ok result.2) members expanded := by
  induction members generalizing expanded with
  | nil =>
    rw [List.forall₂_nil_left_iff, nil, Except.ok.injEq]
    exact eq_comm
  | cons member members inductionHypothesis =>
    rw [cons, cons_eq_ok, List.forall₂_cons_left_iff]
    constructor
    · rintro ⟨result, later, isResult, areLater, rfl⟩
      exact ⟨(member.1, result), later, ⟨rfl, isResult⟩, inductionHypothesis.mp areLater, rfl⟩
    · rintro ⟨⟨key, result⟩, later, ⟨rfl, isResult⟩, areLater, rfl⟩
      exact ⟨result, later, isResult, inductionHypothesis.mpr areLater, rfl⟩

theorem expandIntentableMembers_eq_ok : expandIntentableMembers current members = .ok expanded ↔
    List.Forall₂ (fun member result => member.1 = result.1 ∧
      expandIntentable (current ++ pointerToken member.1) member.2 = .ok result.2) members expanded :=
  members_eq_ok rfl fun _ _ => rfl

theorem expandRefMembers_eq_ok : expandRefMembers manifests spec current members = .ok expanded ↔
    List.Forall₂ (fun member result => member.1 = result.1 ∧
      expandRef manifests spec (current ++ pointerToken member.1) member.2 = .ok result.2) members expanded :=
  members_eq_ok rfl fun _ _ => rfl

/-- An object or an array is built from null. -/
def BuiltFrom {Item : Type} (container : List Item → Json) (parts : List Item) (built : Json) : Prop :=
  parts ≠ [] ∧ built = container parts ∨ parts = [] ∧ built = .null

theorem container_eq_ok {Item : Type} {container : List Item → Json} {result : Except ErrorMsg (List Item)}
    {built : Json} :
    (result >>= fun expanded => pure (if expanded.isEmpty then Json.null else container expanded)) = .ok built ↔
      ∃ parts, result = .ok parts ∧ BuiltFrom container parts built := by
  rw [except_bind_eq_ok]
  refine exists_congr fun parts => and_congr_right fun _ => ?_
  cases parts with
  | nil => simp [BuiltFrom, pure, Except.pure, eq_comm]
  | cons first parts => simp [BuiltFrom, pure, Except.pure, eq_comm]

/-- One that is unchanged is not empty. -/
theorem container_unchanged {Item : Type} {container : List Item → Json} (injective : Function.Injective container)
    (notNull : ∀ items, container items ≠ .null) {items : List Item} {result : Except ErrorMsg (List Item)} :
    (result >>= fun expanded => pure (if expanded.isEmpty then Json.null else container expanded)) =
        .ok (container items) ↔ items ≠ [] ∧ result = .ok items := by
  rw [container_eq_ok]
  constructor
  · rintro ⟨parts, rfl, ⟨some, same⟩ | ⟨_, isNull⟩⟩
    · rw [injective same]
      exact ⟨some, rfl⟩
    · exact absurd isNull (notNull items)
  · rintro ⟨some, rfl⟩
    exact ⟨items, rfl, .inl ⟨some, rfl⟩⟩

theorem object_unchanged {result : Except ErrorMsg (List (String × Json))} :
    (result >>= fun expanded => pure (if expanded.isEmpty then Json.null else .object expanded)) = .ok (.object members) ↔
      members ≠ [] ∧ result = .ok members :=
  container_unchanged (fun _ _ => Json.object.inj) fun _ => Json.noConfusion

theorem array_unchanged {result : Except ErrorMsg (List Json)} :
    (result >>= fun expanded => pure (if expanded.isEmpty then Json.null else .array expanded)) = .ok (.array items) ↔
      items ≠ [] ∧ result = .ok items :=
  container_unchanged (fun _ _ => Json.array.inj) fun _ => Json.noConfusion

end Parts

/-! ## Schemas without markers -/

/-- Not an empty object or array, and not an array with an index beyond `int`. -/
def keptWhole : Json → Bool
  | .object members => !members.isEmpty
  | .array items => !items.isEmpty && items.length ≤ 2147483648
  | .null | .boolean _ | .integer _ | .float _ | .string _ => true

theorem everywhere_keptWhole_object {members : List (String × Json)} :
    (Json.object members).everywhere keptWhole = true ↔
      members ≠ [] ∧ ∀ member ∈ members, member.2.everywhere keptWhole = true := by
  rw [Json.everywhere_object, keptWhole, Bool.not_eq_true', List.isEmpty_eq_false_iff]

theorem everywhere_keptWhole_array {items : List Json} : (Json.array items).everywhere keptWhole = true ↔
    (items ≠ [] ∧ items.length ≤ 2147483648) ∧ ∀ item ∈ items, item.everywhere keptWhole = true := by
  rw [Json.everywhere_array, keptWhole, Bool.and_eq_true, Bool.not_eq_true', List.isEmpty_eq_false_iff, decide_eq_true_eq]

section Unchanged

variable {manifests : PackageManifests} {spec : AbilitySpec} {current : String} {items : List Json}

theorem expandIntentableItems_unchanged_iff
    (each : ∀ item ∈ items, ∀ path, expandIntentable path item = .ok item ↔ item.everywhere keptWhole = true) :
    (items ≠ [] ∧ expandIntentableItems current 0 items = .ok items) ↔
      (Json.array items).everywhere keptWhole = true := by
  rw [everywhere_keptWhole_array]
  constructor
  · rintro ⟨some, isOk⟩
    obtain ⟨few, same⟩ := items_of_ok isOk
    refine ⟨⟨some, by simpa using few some⟩, fun item isItem => ?_⟩
    obtain ⟨path, unchanged⟩ := List.forall₂_same.mp same item isItem
    exact (each item isItem path).mp unchanged
  · rintro ⟨⟨some, few⟩, whole⟩
    exact ⟨some, items_unchanged (by omega) fun item isItem path => (each item isItem path).mpr (whole item isItem)⟩

theorem expandIntentable_unchanged_iff {json : Json} (markerFree : MarkerFree json) :
    ∀ current, expandIntentable current json = .ok json ↔ json.everywhere keptWhole = true := by
  induction json using Json.depthInduction with
  | null | boolean | integer | float | string => exact fun _ => iff_of_true rfl rfl
  | array items inductionHypothesis =>
    intro current
    rw [expandIntentable, array_unchanged]
    exact expandIntentableItems_unchanged_iff fun item isItem =>
      inductionHypothesis item isItem (markerFree_array.mp markerFree item isItem)
  | object members inductionHypothesis =>
    intro current
    obtain ⟨⟨unmarked, _⟩, free⟩ := markerFree_object.mp markerFree
    simp only [expandIntentable, unmarked]
    rw [object_unchanged, everywhere_keptWhole_object]
    rw [expandIntentableMembers_eq_ok, List.forall₂_same]
    refine and_congr_right fun _ => forall₂_congr fun member isMember => ?_
    rw [and_iff_right rfl, inductionHypothesis member isMember (free member isMember)]

theorem expandRef_unchanged_iff {json : Json} (markerFree : MarkerFree json) :
    ∀ current, expandRef manifests spec current json = .ok json ↔ json.everywhere keptWhole = true := by
  induction json using Json.depthInduction with
  | null | boolean | integer | float | string => exact fun _ => iff_of_true rfl rfl
  | array items =>
    intro current
    rw [expandRef, array_unchanged]
    exact expandIntentableItems_unchanged_iff fun item isItem =>
      expandIntentable_unchanged_iff (markerFree_array.mp markerFree item isItem)
  | object members inductionHypothesis =>
    intro current
    obtain ⟨⟨_, unmarked⟩, free⟩ := markerFree_object.mp markerFree
    simp only [expandRef, unmarked]
    rw [object_unchanged, everywhere_keptWhole_object]
    rw [expandRefMembers_eq_ok, List.forall₂_same]
    refine and_congr_right fun _ => forall₂_congr fun member isMember => ?_
    rw [and_iff_right rfl, inductionHypothesis member isMember (free member isMember)]

end Unchanged

theorem expansion_unchanged_iff (manifests : PackageManifests) (spec : AbilitySpec) (current : String) {schema : Json}
    (markerFree : MarkerFree schema) :
    (expandIntentable current schema = .ok schema ∧ expandRef manifests spec current schema = .ok schema) ↔
      schema.everywhere keptWhole = true := by
  rw [expandIntentable_unchanged_iff markerFree, expandRef_unchanged_iff markerFree, and_self]

/-- The schema of a CR whose status has a state. -/
def statusSchema : Json :=
  .object [("type", .string "object"), ("properties", .object [("status", .object [("type", .string "string")])])]

theorem statusSchema_unchanged : MarkerFree statusSchema ∧ expandIntentable "/" statusSchema = .ok statusSchema ∧
    expandRef (fun _ _ => .missing) cameraSpec "/" statusSchema = .ok statusSchema :=
  ⟨by decide, (expansion_unchanged_iff (fun _ _ => .missing) cameraSpec "/" (by decide)).mpr (by decide)⟩

/-- A schema that allows everything becomes null. -/
theorem anything_changed : ¬ (MarkerFree (.object [("config", .object [])]) →
    expandIntentable "/" (.object [("config", .object [])]) = .ok (.object [("config", .object [])]) ∧
      expandRef (fun _ _ => .missing) cameraSpec "/" (.object [("config", .object [])]) =
        .ok (.object [("config", .object [])])) := by
  intro unchanged
  obtain ⟨same, _⟩ := unchanged (by decide)
  have changed : expandIntentable "/" (.object [("config", .object [])]) = .ok (.object [("config", .null)]) := by rfl
  rw [changed] at same
  cases same

end AbilityFramework.ResourceMgr.Document
