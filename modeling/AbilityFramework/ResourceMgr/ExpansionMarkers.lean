import AbilityFramework.ResourceMgr.SchemaExpansion

/-! # The markers that expansion leaves

`expand_intentable` puts the schema of an `x-intentable` in its place as it is, `expand_ref` does not go into arrays,
and neither goes into what it has put in.  The result has no marker exactly if the markers of the schema, and those of
the status that an `x-ref` refers to, stand no deeper than that (`expansion_complete_iff`). -/

namespace AbilityFramework.ResourceMgr.Document

open Library

/-- `is_primitive` -/
def isPrimitive : Json → Bool
  | .array _ | .object _ => false
  | .null | .boolean _ | .integer _ | .float _ | .string _ => true

/-- Expanding `x-intentable` so many times leaves no marker. -/
inductive ExpandsBy : Nat → Json → Prop
  | primitive {count : Nat} {json : Json} (primitive : isPrimitive json = true) : ExpandsBy count json
  | array {count : Nat} {items : List Json} (each : ∀ item ∈ items, ExpandsBy count item) :
    ExpandsBy count (.array items)
  | object {count : Nat} {members : List (String × Json)} (plain : members.lookup "x-intentable" = none)
    (noRef : members.lookup "x-ref" = none) (each : ∀ member ∈ members, ExpandsBy count member.2) :
    ExpandsBy count (.object members)
  | intentable {count : Nat} {members : List (String × Json)} {inner : Json}
    (marked : members.lookup "x-intentable" = some inner) (expands : ExpandsBy count inner) :
    ExpandsBy (count + 1) (.object members)

section ExpandsBy

variable {count : Nat} {items : List Json} {members : List (String × Json)} {inner json : Json} {current : String}

theorem expandsBy_array : ExpandsBy count (.array items) ↔ ∀ item ∈ items, ExpandsBy count item := by
  refine ⟨fun expands => ?_, .array⟩
  cases expands with
  | primitive primitive => cases primitive
  | array each => exact each

theorem expandsBy_object (plain : members.lookup "x-intentable" = none) : ExpandsBy count (.object members) ↔
    members.lookup "x-ref" = none ∧ ∀ member ∈ members, ExpandsBy count member.2 := by
  refine ⟨fun expands => ?_, fun ⟨noRef, each⟩ => .object plain noRef each⟩
  cases expands with
  | primitive primitive => cases primitive
  | object _ noRef each => exact ⟨noRef, each⟩
  | intentable marked _ =>
    rw [plain] at marked
    cases marked

theorem expandsBy_intentable (marked : members.lookup "x-intentable" = some inner) :
    ExpandsBy (count + 1) (.object members) ↔ ExpandsBy count inner := by
  refine ⟨fun expands => ?_, .intentable marked⟩
  cases expands with
  | primitive primitive => cases primitive
  | object plain =>
    rw [plain] at marked
    cases marked
  | intentable isMarked expands =>
    rw [isMarked] at marked
    cases marked
    exact expands

theorem expandsBy_zero : ExpandsBy 0 json ↔ MarkerFree json := by
  induction json using Json.depthInduction with
  | null | boolean | integer | float | string => exact iff_of_true (.primitive rfl) rfl
  | array items inductionHypothesis =>
    rw [expandsBy_array, markerFree_array]
    exact forall₂_congr inductionHypothesis
  | object members inductionHypothesis =>
    rw [markerFree_object]
    cases plain : members.lookup "x-intentable" with
    | none =>
      rw [expandsBy_object plain, and_iff_right rfl]
      exact and_congr_right fun _ => forall₂_congr inductionHypothesis
    | some inner =>
      refine iff_of_false (fun expands => ?_) fun free => by cases free.1.1
      cases expands with
      | primitive primitive => cases primitive
      | object unmarked =>
        rw [plain] at unmarked
        cases unmarked

/-- The value and the intent have the schema, the rest has no marker. -/
theorem expandsBy_intentSchema : ExpandsBy count (intentSchema inner) ↔ ExpandsBy count inner := by
  rw [intentSchema, expandsBy_object rfl]
  have text (value : String) : ExpandsBy count (.string value) := .primitive rfl
  have properties : ExpandsBy count (.object [("value", inner), ("intent", inner)]) ↔ ExpandsBy count inner := by
    rw [expandsBy_object rfl]
    simp
  simp [properties, text, expandsBy_array]

/-- What can be said of each value by what it is expanded to can be said of all. -/
theorem forall_iff_of_forall₂ {α β : Type} {relation : α → β → Prop} {source : α → Prop} {target : β → Prop}
    {firsts : List α} {seconds : List β} (related : List.Forall₂ relation firsts seconds)
    (each : ∀ first ∈ firsts, ∀ second, relation first second → (target second ↔ source first)) :
    (∀ second ∈ seconds, target second) ↔ ∀ first ∈ firsts, source first := by
  induction related with
  | nil => simp
  | cons isRelated _ inductionHypothesis =>
    obtain ⟨first, later⟩ := List.forall_mem_cons.mp each
    rw [List.forall_mem_cons, List.forall_mem_cons, first _ isRelated, inductionHypothesis later]

/-- The members are found under the same keys. -/
theorem lookup_forall₂ {relation : Json → Json → Prop} {expanded : List (String × Json)}
    (each : List.Forall₂ (fun member result => member.1 = result.1 ∧ relation member.2 result.2) members expanded)
    (key : String) : Option.Rel relation (members.lookup key) (expanded.lookup key) := by
  induction each with
  | nil => exact .none
  | @cons member result _ _ same _ inductionHypothesis =>
    rw [List.lookup_cons, List.lookup_cons, ← same.1]
    cases key == member.1 with
    | true => exact .some same.2
    | false => exact inductionHypothesis

theorem lookup_eq_none_iff {relation : Json → Json → Prop} {expanded : List (String × Json)}
    (each : List.Forall₂ (fun member result => member.1 = result.1 ∧ relation member.2 result.2) members expanded)
    (key : String) : expanded.lookup key = none ↔ members.lookup key = none := by
  have found := lookup_forall₂ each key
  generalize members.lookup key = first, expanded.lookup key = second at found
  cases found <;> simp

/-- At some place. -/
def ExpandsTo (json result : Json) : Prop := ∃ path, expandIntentable path json = .ok result

def ResolvesTo (manifests : PackageManifests) (spec : AbilitySpec) (json result : Json) : Prop :=
  ∃ path, expandRef manifests spec path json = .ok result

theorem members_of_ok {expanded : List (String × Json)} (isOk : expandIntentableMembers current members = .ok expanded) :
    List.Forall₂ (fun member result => member.1 = result.1 ∧ ExpandsTo member.2 result.2) members expanded :=
  (expandIntentableMembers_eq_ok.mp isOk).imp fun _ _ related => ⟨related.1, _, related.2⟩

theorem refMembers_of_ok {manifests : PackageManifests} {spec : AbilitySpec} {expanded : List (String × Json)}
    (isOk : expandRefMembers manifests spec current members = .ok expanded) :
    List.Forall₂ (fun member result => member.1 = result.1 ∧ ResolvesTo manifests spec member.2 result.2) members expanded :=
  (expandRefMembers_eq_ok.mp isOk).imp fun _ _ related => ⟨related.1, _, related.2⟩

theorem intentable_eq_ok {built : Json} (marked : members.lookup "x-intentable" = some inner) :
    expandIntentable current (.object members) = .ok built ↔ inner.isEmpty = false ∧ built = intentSchema inner := by
  simp only [expandIntentable, marked]
  cases inner.isEmpty with
  | true => exact iff_of_false (fun impossible => by cases impossible) fun impossible => by cases impossible.1
  | false =>
    simp only [Bool.false_eq_true, if_false, Except.ok.injEq, true_and]
    exact eq_comm

theorem object_eq_ok {built : Json} (plain : members.lookup "x-intentable" = none) :
    expandIntentable current (.object members) = .ok built ↔
      ∃ results, expandIntentableMembers current members = .ok results ∧ BuiltFrom .object results built := by
  rw [expandIntentable, plain, container_eq_ok]

theorem array_eq_ok {built : Json} : expandIntentable current (.array items) = .ok built ↔
    ∃ results, expandIntentableItems current 0 items = .ok results ∧ BuiltFrom .array results built := by
  rw [expandIntentable, container_eq_ok]

/-- One expansion takes away one of those that are needed. -/
theorem expandsBy_expanded {expanded : Json} (isExpanded : expandIntentable current json = .ok expanded) :
    ExpandsBy count expanded ↔ ExpandsBy (count + 1) json := by
  induction json using Json.depthInduction generalizing current expanded with
  | null | boolean | integer | float | string =>
    cases isExpanded
    exact iff_of_true (.primitive rfl) (.primitive rfl)
  | array items inductionHypothesis =>
    obtain ⟨results, areResults, isArray⟩ := array_eq_ok.mp isExpanded
    have each : (∀ result ∈ results, ExpandsBy count result) ↔ ∀ item ∈ items, ExpandsBy (count + 1) item :=
      forall_iff_of_forall₂ (items_of_ok areResults).2 fun item isItem _ ⟨_, isResult⟩ =>
        inductionHypothesis item isItem isResult
    rw [expandsBy_array, ← each]
    obtain ⟨_, rfl⟩ | ⟨rfl, rfl⟩ := isArray
    · exact expandsBy_array
    · exact iff_of_true (.primitive rfl) fun _ isResult => absurd isResult List.not_mem_nil
  | object members inductionHypothesis =>
    cases marked : members.lookup "x-intentable" with
    | some inner =>
      obtain ⟨_, rfl⟩ := (intentable_eq_ok marked).mp isExpanded
      rw [expandsBy_intentable marked, expandsBy_intentSchema]
    | none =>
      obtain ⟨results, areResults, isObject⟩ := (object_eq_ok marked).mp isExpanded
      have related := members_of_ok areResults
      have each : (∀ result ∈ results, ExpandsBy count result.2) ↔ ∀ member ∈ members, ExpandsBy (count + 1) member.2 :=
        forall_iff_of_forall₂ related fun member isMember _ ⟨_, _, isResult⟩ =>
          inductionHypothesis member isMember isResult
      rw [expandsBy_object marked, ← each]
      obtain ⟨_, rfl⟩ | ⟨rfl, rfl⟩ := isObject
      · have plain : results.lookup "x-intentable" = none := (lookup_eq_none_iff related _).mpr marked
        rw [expandsBy_object plain, lookup_eq_none_iff related]
      · exact iff_of_true (.primitive rfl)
          ⟨(lookup_eq_none_iff related "x-ref").mp rfl, fun _ isResult => absurd isResult List.not_mem_nil⟩

end ExpandsBy

/-! ## References -/

/-- The schema of a status, taken from the schema of a sub-ability after one expansion, has no marker.  The status or
its properties may be an `x-intentable`, of which the schema has two. -/
def StatusCompletes (schema : Json) (key : String) : Prop :=
  ∀ status, ((schema.find "properties").bind fun properties => properties.find "status") = some status →
    match status.find "x-intentable" with
    | some inner => ExpandsBy 0 inner
    | none => ∀ properties, status.find "properties" = some properties →
      match properties.find "x-intentable" with
      | some inner => key = "properties" → ExpandsBy 0 inner
      | none => ∀ property, properties.find key = some property → ExpandsBy 1 property

section References

variable {manifests : PackageManifests} {spec : AbilitySpec} {current : String} {json expanded found : Json} {key : String}

theorem mem_of_lookup {members : List (String × Json)} (isFound : members.lookup key = some found) :
    (key, found) ∈ members := by
  obtain ⟨front, back, rfl, _⟩ := List.lookup_eq_some_iff.mp isFound
  simp

/-- Of the members of the schema of an `x-intentable` only the properties have the schema inside. -/
theorem markerFree_intentSchema {inner : Json} (isFound : (intentSchema inner).find key = some found) :
    MarkerFree found ↔ (key = "properties" → ExpandsBy 0 inner) := by
  have isMember := mem_of_lookup isFound
  simp only [List.mem_cons, Prod.mk.injEq, List.not_mem_nil, or_false] at isMember
  obtain ⟨rfl, rfl⟩ | ⟨rfl, rfl⟩ | ⟨rfl, rfl⟩ := isMember
  · exact iff_of_true rfl fun impossible => absurd impossible (by decide)
  · rw [markerFree_object, expandsBy_zero]
    simp [List.lookup_cons]
  · exact iff_of_true rfl fun impossible => absurd impossible (by decide)

/-- A member of what an object is expanded to is one of the schema of an `x-intentable`, or a member expanded. -/
theorem find_expanded (isExpanded : expandIntentable current json = .ok expanded) (isFound : expanded.find key = some found) :
    (∃ inner, json.find "x-intentable" = some inner ∧ expanded = intentSchema inner) ∨
      json.find "x-intentable" = none ∧ ∃ member path, json.find key = some member ∧
        expandIntentable path member = .ok found := by
  cases json with
  | null | boolean | integer | float | string =>
    cases isExpanded
    cases isFound
  | array items =>
    obtain ⟨results, _, ⟨_, rfl⟩ | ⟨_, rfl⟩⟩ := array_eq_ok.mp isExpanded <;> cases isFound
  | object members =>
    cases marked : members.lookup "x-intentable" with
    | some inner => exact .inl ⟨inner, marked, ((intentable_eq_ok marked).mp isExpanded).2⟩
    | none =>
      obtain ⟨results, areResults, ⟨_, rfl⟩ | ⟨_, rfl⟩⟩ := (object_eq_ok marked).mp isExpanded
      · have related := lookup_forall₂ (members_of_ok areResults) key
        rw [show results.lookup key = some found from isFound] at related
        generalize isMember : members.lookup key = member at related
        cases related with
        | some isResult =>
          obtain ⟨path, isResult⟩ := isResult
          exact .inr ⟨marked, _, path, isMember, isResult⟩
      · cases isFound

theorem getChecked_cons {path : List String} (isFound : getChecked json (key :: path) = .ok (some found)) :
    ∃ member, json.find key = some member ∧ getChecked member path = .ok (some found) := by
  cases json with
  | object members =>
    rw [getChecked] at isFound
    cases isMember : members.lookup key with
    | none =>
      rw [isMember] at isFound
      cases isFound
    | some member =>
      rw [isMember] at isFound
      exact ⟨member, isMember, isFound⟩
  | null | boolean | integer | float | string | array => cases isFound

/-- What is found by a path and has a member is there. -/
theorem getChecked_of_valueAt {path : List String} {value : Json} (isValue : valueAt json path = .ok value)
    (isFound : value.find key = some found) : getChecked json path = .ok (some value) := by
  cases json with
  | object members =>
    obtain ⟨checked, isChecked, isValue⟩ := except_bind_eq_ok.mp isValue
    cases checked with
    | none =>
      cases isValue
      cases isFound
    | some value =>
      cases isValue
      exact isChecked
  | null | boolean | integer | float | string | array => cases isValue

theorem markerFree_status {schema subStatus : Json} (isExpanded : expandIntentable current schema = .ok expanded)
    (isStatus : valueAt expanded ["properties", "status", "properties"] = .ok subStatus)
    (isFound : subStatus.find key = some found) : MarkerFree found ↔ StatusCompletes schema key := by
  obtain ⟨properties, isProperties, checked⟩ := getChecked_cons (getChecked_of_valueAt isStatus isFound)
  obtain ⟨status, isStatus, checked⟩ := getChecked_cons checked
  obtain ⟨_, isSubStatus, checked⟩ := getChecked_cons checked
  cases checked
  obtain ⟨inner, _, rfl⟩ | ⟨_, schemaProperties, _, inSchema, isProperties⟩ := find_expanded isExpanded isProperties
  · -- The two properties of an `x-intentable` are no status.
    cases isProperties
    cases isStatus
  obtain ⟨inner, _, rfl⟩ | ⟨_, schemaStatus, _, inProperties, isStatus⟩ := find_expanded isProperties isStatus
  · -- Nor has the schema of one a member `status`.
    cases isStatus
  have sameStatus : ∀ other, ((schema.find "properties").bind fun properties => properties.find "status") = some other ↔
      schemaStatus = other := by
    intro other
    rw [inSchema, Option.bind_some, inProperties, Option.some.injEq]
  simp only [StatusCompletes, sameStatus, forall_eq']
  obtain ⟨inner, marked, rfl⟩ | ⟨plain, statusProperties, _, inStatus, isSubStatus⟩ := find_expanded isStatus isSubStatus
  · -- The status is one, with the same schema for the value and the intent.
    rw [marked]
    cases isSubStatus
    have isMember := mem_of_lookup isFound
    simp only [List.mem_cons, Prod.mk.injEq, List.not_mem_nil, or_false, ← or_and_right] at isMember
    rw [isMember.2]
    exact expandsBy_zero.symm
  · rw [plain]
    simp only [inStatus, Option.some.injEq, forall_eq']
    obtain ⟨inner, marked, rfl⟩ | ⟨plain, property, _, inProperties, isFound⟩ := find_expanded isSubStatus isFound
    · rw [marked]
      exact markerFree_intentSchema isFound
    · rw [plain]
      simp only [inProperties, Option.some.injEq, forall_eq']
      rw [← expandsBy_zero, expandsBy_expanded isFound]

theorem valueAt_compatibleCrd (schema : Json) : valueAt (compatibleCrd schema) schemaPath = .ok schema := rfl

/-- The status that an `x-ref` refers to has no marker left after one expansion, should there be one. -/
def RefersToComplete (manifests : PackageManifests) (spec : AbilitySpec) (ref : String) : Prop :=
  ∀ entry sub schema, SubRefEntry.parse (.ofString ref) = .ok entry → spec.subabilities[entry.number.toNat]? = some sub →
    manifestSchema (manifests sub.package sub.version) = some schema → StatusCompletes schema entry.subKey.decode

theorem referredSchema_eq_ok {ref : String} (isFound : referredSchema manifests spec current (.string ref) = .ok found) :
    ∃ entry sub schema expanded subStatus, SubRefEntry.parse (.ofString ref) = .ok entry ∧
      spec.subabilities[entry.number.toNat]? = some sub ∧
        manifestSchema (manifests sub.package sub.version) = some schema ∧ expandIntentable "/" schema = .ok expanded ∧
          valueAt expanded ["properties", "status", "properties"] = .ok subStatus ∧
            subStatus.find entry.subKey.decode = some found := by
  rw [referredSchema] at isFound
  obtain ⟨entry, isEntry, isFound⟩ := except_bind_eq_ok.mp isFound
  split at isFound
  · cases isFound
  rename_i sub isSub
  split at isSub
  · cases isSub
  obtain ⟨schema, isSchema, isFound⟩ := except_bind_eq_ok.mp isFound
  rw [getSubAbilityCrd] at isSchema
  cases isManifest : manifestSchema (manifests sub.package sub.version) with
  | none =>
    rw [isManifest] at isSchema
    cases isSchema
  | some manifest =>
    rw [isManifest, Option.elim_some, valueAt_compatibleCrd] at isSchema
    cases isSchema
    split at isFound
    · cases isFound
    obtain ⟨expanded, isExpanded, isFound⟩ := except_bind_eq_ok.mp isFound
    obtain ⟨subStatus, isStatus, isFound⟩ := except_bind_eq_ok.mp isFound
    split at isFound
    · cases isFound
    · rename_i isMember
      cases isFound
      exact ⟨entry, sub, _, expanded, subStatus, isEntry, isSub, isManifest, isExpanded, isStatus, isMember⟩

theorem markerFree_referred {ref : String} (isFound : referredSchema manifests spec current (.string ref) = .ok found) :
    MarkerFree found ↔ RefersToComplete manifests spec ref := by
  obtain ⟨entry, sub, schema, expanded, subStatus, isEntry, isSub, isManifest, isExpanded, isStatus, isMember⟩ :=
    referredSchema_eq_ok isFound
  rw [markerFree_status isExpanded isStatus isMember]
  constructor
  · intro completes other otherSub otherSchema isOther isOtherSub isOtherManifest
    rw [isEntry] at isOther
    cases isOther
    rw [isSub] at isOtherSub
    cases isOtherSub
    rw [isManifest] at isOtherManifest
    cases isOtherManifest
    exact completes
  · intro refers
    exact refers entry sub schema isEntry isSub isManifest

end References

/-! ## The pipeline -/

/-- Expanding `x-intentable` so many times and `x-ref` then leaves no marker. -/
inductive Completes (manifests : PackageManifests) (spec : AbilitySpec) : Nat → Json → Prop
  | primitive {count : Nat} {json : Json} (primitive : isPrimitive json = true) : Completes manifests spec count json
  | array {count : Nat} {items : List Json} (each : ∀ item ∈ items, ExpandsBy (count + 1) item) :
    Completes manifests spec count (.array items)
  | object {count : Nat} {members : List (String × Json)} (plain : members.lookup "x-intentable" = none)
    (noRef : members.lookup "x-ref" = none) (each : ∀ member ∈ members, Completes manifests spec count member.2) :
    Completes manifests spec count (.object members)
  | reference {count : Nat} {members : List (String × Json)} {ref : String}
    (plain : count ≠ 0 → members.lookup "x-intentable" = none) (isRef : members.lookup "x-ref" = some (.string ref))
    (refers : RefersToComplete manifests spec ref) : Completes manifests spec count (.object members)
  | intentable {count : Nat} {members : List (String × Json)} {inner : Json}
    (marked : members.lookup "x-intentable" = some inner) (completes : Completes manifests spec count inner) :
    Completes manifests spec (count + 1) (.object members)

section Completes

variable {manifests : PackageManifests} {spec : AbilitySpec} {count : Nat} {items : List Json}
  {members : List (String × Json)} {inner json ref : Json} {current : String}

theorem completes_array : Completes manifests spec count (.array items) ↔ ∀ item ∈ items, ExpandsBy (count + 1) item := by
  refine ⟨fun completes => ?_, .array⟩
  cases completes with
  | primitive primitive => cases primitive
  | array each => exact each

theorem completes_object (noRef : members.lookup "x-ref" = none) (plain : count ≠ 0 → members.lookup "x-intentable" = none) :
    Completes manifests spec count (.object members) ↔
      members.lookup "x-intentable" = none ∧ ∀ member ∈ members, Completes manifests spec count member.2 := by
  refine ⟨fun completes => ?_, fun ⟨plain, each⟩ => .object plain noRef each⟩
  cases completes with
  | primitive primitive => cases primitive
  | object plain _ each => exact ⟨plain, each⟩
  | reference _ isRef =>
    rw [noRef] at isRef
    cases isRef
  | intentable marked =>
    rw [plain (Nat.succ_ne_zero _)] at marked
    cases marked

theorem completes_reference (isRef : members.lookup "x-ref" = some ref)
    (plain : count ≠ 0 → members.lookup "x-intentable" = none) : Completes manifests spec count (.object members) ↔
      ∃ text, ref = .string text ∧ RefersToComplete manifests spec text := by
  constructor
  · intro completes
    cases completes with
    | primitive primitive => cases primitive
    | object _ noRef =>
      rw [noRef] at isRef
      cases isRef
    | reference _ isText refers =>
      rw [isText] at isRef
      cases isRef
      exact ⟨_, rfl, refers⟩
    | intentable marked =>
      rw [plain (Nat.succ_ne_zero _)] at marked
      cases marked
  · rintro ⟨text, rfl, refers⟩
    exact .reference plain isRef refers

theorem completes_intentable (marked : members.lookup "x-intentable" = some inner) :
    Completes manifests spec (count + 1) (.object members) ↔ Completes manifests spec count inner := by
  refine ⟨fun completes => ?_, .intentable marked⟩
  cases completes with
  | primitive primitive => cases primitive
  | object plain =>
    rw [plain] at marked
    cases marked
  | reference plain =>
    rw [plain (Nat.succ_ne_zero _)] at marked
    cases marked
  | intentable isMarked completes =>
    rw [isMarked] at marked
    cases marked
    exact completes

theorem completes_intentSchema :
    Completes manifests spec count (intentSchema inner) ↔ Completes manifests spec count inner := by
  have text (value : String) : Completes manifests spec count (.string value) := .primitive rfl
  have required : Completes manifests spec count (.array [.string "value"]) :=
    .array fun item isItem => by
      cases List.mem_singleton.mp isItem
      exact .primitive rfl
  have properties : Completes manifests spec count (.object [("value", inner), ("intent", inner)]) ↔
      Completes manifests spec count inner := by
    rw [completes_object rfl fun _ => rfl]
    simp [List.lookup_cons]
  rw [intentSchema, completes_object rfl fun _ => rfl]
  simp [properties, text, required, List.lookup_cons]

/-- An expansion makes a text of a text only. -/
theorem string_of_expanded {text : String} (isExpanded : expandIntentable current json = .ok (.string text)) :
    json = .string text := by
  cases json with
  | string => cases isExpanded; rfl
  | null | boolean | integer | float => cases isExpanded
  | array items =>
    obtain ⟨_, _, ⟨_, impossible⟩ | ⟨_, impossible⟩⟩ := array_eq_ok.mp isExpanded <;> cases impossible
  | object members =>
    cases marked : members.lookup "x-intentable" with
    | some inner => cases ((intentable_eq_ok marked).mp isExpanded).2
    | none =>
      obtain ⟨_, _, ⟨_, impossible⟩ | ⟨_, impossible⟩⟩ := (object_eq_ok marked).mp isExpanded <;> cases impossible

/-- One expansion takes away one of those that are needed. -/
theorem completes_expanded {expanded : Json} (isExpanded : expandIntentable current json = .ok expanded) :
    Completes manifests spec count expanded ↔ Completes manifests spec (count + 1) json := by
  induction json using Json.depthInduction generalizing current expanded with
  | null | boolean | integer | float | string =>
    cases isExpanded
    exact iff_of_true (.primitive rfl) (.primitive rfl)
  | array items =>
    obtain ⟨results, areResults, isArray⟩ := array_eq_ok.mp isExpanded
    have each : (∀ result ∈ results, ExpandsBy (count + 1) result) ↔ ∀ item ∈ items, ExpandsBy (count + 1 + 1) item :=
      forall_iff_of_forall₂ (items_of_ok areResults).2 fun _ _ _ ⟨_, isResult⟩ => expandsBy_expanded isResult
    rw [completes_array, ← each]
    obtain ⟨_, rfl⟩ | ⟨rfl, rfl⟩ := isArray
    · exact completes_array
    · exact iff_of_true (.primitive rfl) fun _ isResult => absurd isResult List.not_mem_nil
  | object members inductionHypothesis =>
    cases marked : members.lookup "x-intentable" with
    | some inner =>
      obtain ⟨_, rfl⟩ := (intentable_eq_ok marked).mp isExpanded
      rw [completes_intentable marked, completes_intentSchema]
    | none =>
      obtain ⟨results, areResults, isObject⟩ := (object_eq_ok marked).mp isExpanded
      have related := members_of_ok areResults
      have each : (∀ result ∈ results, Completes manifests spec count result.2) ↔
          ∀ member ∈ members, Completes manifests spec (count + 1) member.2 :=
        forall_iff_of_forall₂ related fun member isMember _ ⟨_, _, isResult⟩ =>
          inductionHypothesis member isMember isResult
      have plain : results.lookup "x-intentable" = none := (lookup_eq_none_iff related _).mpr marked
      have sameRef := lookup_forall₂ related "x-ref"
      generalize isRef : members.lookup "x-ref" = ref, isResultRef : results.lookup "x-ref" = resultRef at sameRef
      cases sameRef with
      | none =>
        rw [completes_object isRef fun _ => marked, and_iff_right marked, ← each]
        obtain ⟨_, rfl⟩ | ⟨rfl, rfl⟩ := isObject
        · rw [completes_object isResultRef fun _ => plain, and_iff_right plain]
        · exact iff_of_true (.primitive rfl) fun _ isResult => absurd isResult List.not_mem_nil
      | @some ref resultRef isExpandedRef =>
        -- The reference is expanded as any member is, and a text stays the same.
        obtain ⟨path, isExpandedRef⟩ := isExpandedRef
        obtain ⟨_, rfl⟩ | ⟨rfl, _⟩ := isObject
        · rw [completes_reference isRef fun _ => marked, completes_reference isResultRef fun _ => plain]
          refine exists_congr fun text => and_congr_left fun _ => ⟨?_, ?_⟩
          · rintro rfl
            exact string_of_expanded isExpandedRef
          · rintro rfl
            cases isExpandedRef
            rfl
        · cases isResultRef

theorem refObject_eq_ok {built : Json} (noRef : members.lookup "x-ref" = none) :
    expandRef manifests spec current (.object members) = .ok built ↔
      ∃ results, expandRefMembers manifests spec current members = .ok results ∧ BuiltFrom .object results built := by
  rw [expandRef, noRef, container_eq_ok]

theorem refArray_eq_ok {built : Json} : expandRef manifests spec current (.array items) = .ok built ↔
    ∃ results, expandIntentableItems current 0 items = .ok results ∧ BuiltFrom .array results built := by
  rw [expandRef, container_eq_ok]

theorem reference_eq_ok {built : Json} (isRef : members.lookup "x-ref" = some ref) :
    expandRef manifests spec current (.object members) = .ok built ↔
      referredSchema manifests spec current ref = .ok built := by
  rw [expandRef, isRef]

/-- What `expand_ref` makes of a schema has no marker exactly if nothing more is to be expanded. -/
theorem markerFree_resolved {result : Json} (isResult : expandRef manifests spec current json = .ok result) :
    MarkerFree result ↔ Completes manifests spec 0 json := by
  induction json using Json.depthInduction generalizing current result with
  | null | boolean | integer | float | string =>
    cases isResult
    exact iff_of_true rfl (.primitive rfl)
  | array items =>
    obtain ⟨results, areResults, isArray⟩ := refArray_eq_ok.mp isResult
    have each : (∀ result ∈ results, MarkerFree result) ↔ ∀ item ∈ items, ExpandsBy 1 item :=
      forall_iff_of_forall₂ (items_of_ok areResults).2 fun _ _ _ ⟨_, isResult⟩ =>
        expandsBy_zero.symm.trans (expandsBy_expanded isResult)
    rw [completes_array, ← each]
    obtain ⟨_, rfl⟩ | ⟨rfl, rfl⟩ := isArray
    · exact markerFree_array
    · exact iff_of_true rfl fun _ isResult => absurd isResult List.not_mem_nil
  | object members inductionHypothesis =>
    have noIntentable (absurdity : 0 ≠ 0) : members.lookup "x-intentable" = none := absurd rfl absurdity
    cases isRef : members.lookup "x-ref" with
    | some ref =>
      rw [reference_eq_ok isRef] at isResult
      rw [completes_reference isRef noIntentable]
      cases ref with
      | string text =>
        rw [markerFree_referred isResult]
        refine ⟨fun refers => ⟨text, rfl, refers⟩, ?_⟩
        rintro ⟨_, ⟨⟩, refers⟩
        exact refers
      | null | boolean | integer | float | array | object =>
        -- Only a text refers to anything.
        simp only [referredSchema] at isResult
        split at isResult <;> cases isResult
    | none =>
      obtain ⟨results, areResults, isObject⟩ := (refObject_eq_ok isRef).mp isResult
      have related := refMembers_of_ok areResults
      have each : (∀ result ∈ results, MarkerFree result.2) ↔
          ∀ member ∈ members, Completes manifests spec 0 member.2 :=
        forall_iff_of_forall₂ related fun member isMember _ ⟨_, _, isResult⟩ =>
          inductionHypothesis member isMember isResult
      rw [completes_object isRef noIntentable, ← each, ← lookup_eq_none_iff related]
      obtain ⟨_, rfl⟩ | ⟨rfl, rfl⟩ := isObject
      · rw [markerFree_object, (lookup_eq_none_iff related "x-ref").mpr isRef, and_iff_left rfl]
      · exact iff_of_true rfl ⟨rfl, fun _ isResult => absurd isResult List.not_mem_nil⟩

end Completes

/-- `expand_intentable` and then `expand_ref`, as the checks of a CR do it. -/
def expandSchema (manifests : PackageManifests) (spec : AbilitySpec) (schema : Json) : Except ErrorMsg Json :=
  expandIntentable "/" schema >>= expandRef manifests spec "/"

theorem expansion_complete_iff (manifests : PackageManifests) (spec : AbilitySpec) (schema : Json) {result : Json}
    (isResult : expandSchema manifests spec schema = .ok result) :
    MarkerFree result ↔ Completes manifests spec 1 schema := by
  obtain ⟨expanded, isExpanded, isResult⟩ := except_bind_eq_ok.mp isResult
  rw [markerFree_resolved isResult, completes_expanded isExpanded]


/-! ## A patrol with a camera -/

def lampState : Json := .object [("type", .string "string")]

/-- The schema of the camera, with a state as its status. -/
def lampSchema : Json :=
  .object [("properties", .object [("status", .object [("properties", .object [("state", lampState)])])])]

def lampManifests : PackageManifests := fun _ _ => .yaml (.object [("schema", .object [("openAPIV3Schema", lampSchema)])])

def patrolSpec : AbilitySpec := { cameraSpec with subabilities := [cameraSpec] }

/-- A speed with an intent, and the state of the camera. -/
def markedSchema : Json :=
  .object
    [("speed", .object [("x-intentable", .object [("type", .string "number")])]),
      ("state", .object [("x-ref", .string "/sub/0#/status/state")])]

theorem lampState_refers : RefersToComplete lampManifests patrolSpec "/sub/0#/status/state" := by
  intro entry sub schema isEntry _ isSchema
  have parsed : SubRefEntry.parse (.ofString "/sub/0#/status/state") = .ok ⟨0, .ofString "state"⟩ := rfl
  rw [parsed] at isEntry
  cases isEntry
  cases isSchema
  intro status isStatus
  cases isStatus
  intro properties isProperties
  cases isProperties
  intro property isProperty
  rw [ByteText.decode_ofString] at isProperty
  cases isProperty
  refine .object rfl rfl fun member isMember => ?_
  cases List.mem_singleton.mp isMember
  exact .primitive rfl

theorem markedSchema_complete : ∃ result, expandSchema lampManifests patrolSpec markedSchema = .ok result ∧
    MarkerFree result := by
  refine ⟨_, rfl, (expansion_complete_iff lampManifests patrolSpec markedSchema rfl).mpr (.object rfl rfl ?_)⟩
  have speed : Completes lampManifests patrolSpec 1 (.object [("x-intentable", .object [("type", .string "number")])]) :=
    .intentable rfl (.object rfl rfl fun member isMember => by
      cases List.mem_singleton.mp isMember
      exact .primitive rfl)
  have state : Completes lampManifests patrolSpec 1 (.object [("x-ref", .string "/sub/0#/status/state")]) :=
    .reference (fun _ => rfl) rfl lampState_refers
  exact List.forall_mem_cons.mpr ⟨speed, List.forall_mem_singleton.mpr state⟩

/-- An alternative of which one is the state of the camera. -/
def alternatives : Json := .object [("anyOf", .array [.object [("x-ref", .string "/sub/0#/status/state")]])]

/-- Below an array the reference stays, and the validator passes over it. -/
theorem alternatives_incomplete : ¬ ∀ result, expandSchema lampManifests patrolSpec alternatives = .ok result →
    MarkerFree result := by
  intro complete
  have left : expandSchema lampManifests patrolSpec alternatives = .ok alternatives := rfl
  exact absurd (complete alternatives left) (by decide)

end AbilityFramework.ResourceMgr.Document
