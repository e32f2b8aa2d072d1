import AbilityFramework.Library.Outcome
import AbilityFramework.ResourceMgr.DeviceCR
import AbilityFramework.ResourceMgr.PlainDocuments

/-! # Identifiers in CRs

Ids come as members, as the keys of the sharers and in two labels.  A bad id is an error of the JSON library or an
invalid argument, but for two places: a bad key of the sharers is dereferenced, and a bad id of a model is a
`runtime_error`.  Besides, a device CR that cannot be decoded ends the process if it cannot be dumped either. -/

namespace AbilityFramework.ResourceMgr

open Library

/-- The errors of the JSON library and `std::invalid_argument`. -/
def CRException.Rejects : CRException → Prop
  | .json _ | .typeError305 _ | .typeError316 | .invalidVersion | .invalidArgument _ => True
  | .invalidNode | .badSubscript | .runtimeError _ | .undefined | .terminated | .other _ => False

namespace Document

/-- A CR, or an error that rejects the document. -/
abbrev Clean {α : Type} (result : Except CRException α) : Prop := Only CRException.Rejects result

variable (doc : DocumentEnvironment)

/-! ## Decoding with its log -/

/-- The handler of errors of the JSON library dumps the document, which may throw another. -/
def decodeAbilityCr (json : Json) : Except CRException AbilityCR :=
  match AbilityCR.fromJson doc json with
  | .ok cr => .ok cr
  | .error (.json error) => .error (if (doc.dump json).isSome then .json error else .typeError316)
  | .error exception => .error exception

/-- Whatever the exception, the document is dumped in a destructor. -/
def decodeDeviceCr (json : Json) : Except CRException DeviceCR :=
  match DeviceCR.fromJson doc json with
  | .ok cr => .ok cr
  | .error .undefined => .error .undefined
  | .error exception => .error (if (doc.dump json).isSome then exception else .terminated)

/-! ## Conditions on the document -/

def arrayItems : Json → List Json
  | .array items => items
  | _ => []

def isTextOrNumber : Json → Bool
  | .string _ | .integer _ | .float _ => true
  | .null | .boolean _ | .array _ | .object _ => false

/-- An entry of the sharers that is read. -/
def SharerReads (item : String × Json) : Prop := item.2.isString = true ∧ (doc.readId item.1).isSome

/-- No entry that is reached has a bad key. -/
def SharersGood (json : Json) : Prop :=
  ∀ found, json.find "sharers" = some found → found.isEmpty = false →
    Reached (SharerReads doc) (fun item => item.2.isString = true → (doc.readId item.1).isSome) (jsonItems found)

def SharersRead (json : Json) : Prop :=
  ∀ found, json.find "sharers" = some found → found.isEmpty = false → ∀ item ∈ jsonItems found, SharerReads doc item

def OwnerReads (json : Json) : Prop :=
  ∀ found, json.find "owner" = some found → found.isEmpty = false → Returns (OwnerEntry.fromJson doc found)

/-- The members of a spec that are read before its models. -/
def SpecHeadReads (json : Json) : Prop :=
  Returns (optional json "id" (fun found => (readUuid doc found).map some) none) ∧
  Returns (required json "package" getStringValue) ∧
  Returns (required json "version" (readVersion doc)) ∧
  Returns (required json "abilityName" getStringValue) ∧
  Returns (optional json "position" getStringValue "localhost") ∧
  Returns (optional json "priority" (fun found => (found.getInt32.mapError .json).map some) none) ∧
  Returns (optionalUnlessEmpty json "devices" (readArray DeviceEntry.fromJson) [])

/-- No id of a model that is reached is bad, in the spec and its sub-abilities. -/
inductive ModelIdsGood : Json → Prop
  | intro {json : Json}
    (models : SpecHeadReads doc json → ∀ found, json.find "models" = some found →
      Reached (fun model => Returns (ModelEntry.fromJson doc model))
        (fun model => ∀ id, model.find "id" = some id → isTextOrNumber id = true ∨ doc.dump id = none)
        (arrayItems found))
    (subabilities : SpecHeadReads doc json →
      Returns (optionalUnlessEmpty json "models" (readArray (ModelEntry.fromJson doc)) []) →
      ∀ found, json.find "subabilities" = some found → ∀ before sub after,
        (jsonItems found).map Prod.snd = before ++ sub :: after →
        (∀ earlier ∈ before, Returns (AbilitySpec.fromJson doc earlier)) → ModelIdsGood sub) : ModelIdsGood json

/-- The members of an ability CR that are read before its sharers. -/
def AbilityHeadReads (json : Json) : Prop :=
  Returns (optional json "tag" Tag.fromJson {}) ∧
  (∃ metadata, required json "metadata" CRMetadata.fromJson = .ok metadata ∧
    Returns (labelledOwner doc metadata.labels)) ∧
  Returns (optional json "id" (readUuid doc) 0) ∧
  Returns (required json "kind" getStringValue) ∧
  Returns (optionalUnlessEmpty json "runInfo" (fun found => (RunInfo.fromJson found).map some) none) ∧
  Returns (optionalUnlessEmpty json "subabilities" (readArray (PlacedEntry.fromJson doc)) []) ∧
  Returns (optionalUnlessEmpty json "devices" (readArray (PlacedEntry.fromJson doc)) [])

def AbilityIdsGood (json : Json) : Prop :=
  AbilityHeadReads doc json → SharersGood doc json ∧
    (SharersRead doc json → OwnerReads doc json → ∀ spec, json.find "spec" = some spec → ModelIdsGood doc spec)

/-- The members of a device CR that are read before its sharers. -/
def DeviceHeadReads (json : Json) : Prop :=
  Returns (required json "kind" getStringValue) ∧
  Returns (optional json "description" getStringValue "") ∧
  (∃ metadata, required json "metadata" CRMetadata.fromJson = .ok metadata ∧
    Returns (labelledOwner doc metadata.labels)) ∧
  Returns (optional json "id" (readUuid doc) 0) ∧
  Returns (required json "spec" (DeviceSpec.fromJson doc))

/-- Moreover, a document that cannot be dumped has nothing wrong with it. -/
def DeviceIdsGood (json : Json) : Prop :=
  (DeviceHeadReads doc json → SharersGood doc json) ∧
    (doc.dump json = none → DeviceHeadReads doc json ∧ SharersRead doc json ∧ OwnerReads doc json)

variable {doc}

/-! ## Members -/

section Members

variable {α : Type} {json : Json} {name : String} {get : Json → Except CRException α} {default : α}

theorem clean_required : Clean (required json name get) ↔ ∀ found, json.find name = some found → Clean (get found) := by
  cases json with
  | object members =>
    rw [required, Json.getAt, Json.find]
    cases members.lookup name with
    | none => simp [CRException.Rejects]
    | some found => simp
  | null | boolean | integer | float | string | array => simp [required, Json.getAt, Json.find, CRException.Rejects]

theorem clean_optional : Clean (optional json name get default) ↔ ∀ found, json.find name = some found → Clean (get found) := by
  rw [optional]
  cases json.find name <;> simp

theorem returns_optional : Returns (optional json name get default) ↔
    ∀ found, json.find name = some found → Returns (get found) := by
  rw [optional]
  cases json.find name <;> simp

theorem clean_unlessEmpty : Clean (optionalUnlessEmpty json name get default) ↔
    ∀ found, json.find name = some found → found.isEmpty = false → Clean (get found) := by
  rw [optionalUnlessEmpty, clean_optional]
  refine forall₂_congr fun found _ => ?_
  cases found.isEmpty <;> simp

theorem returns_unlessEmpty : Returns (optionalUnlessEmpty json name get default) ↔
    ∀ found, json.find name = some found → found.isEmpty = false → Returns (get found) := by
  rw [optionalUnlessEmpty, returns_optional]
  refine forall₂_congr fun found _ => ?_
  cases found.isEmpty <;> simp

theorem clean_readArray : Clean (readArray get json) ↔
    Reached (fun item => Returns (get item)) (fun item => Clean (get item)) (arrayItems json) := by
  cases json with
  | array items => exact only_mapM
  | null | boolean | integer | float | string | object => simp [readArray, arrayItems, CRException.Rejects]

@[simp] theorem clean_json (result : Except Json.Error α) : Clean (result.mapError CRException.json) := by
  cases result <;> trivial

@[simp] theorem clean_throwWith {exception : String → CRException} {message : String} :
    Clean (throwWith doc json exception message : Except CRException α) ↔
      doc.dump json = none ∨ ∀ text, doc.dump json = some text → (exception (message ++ text)).Rejects := by
  rw [throwWith]
  cases doc.dump json <;> simp [CRException.Rejects]

end Members

/-! ## Decoders that always reject -/

section Rejecting

variable (doc) (json : Json)

@[simp] theorem clean_getStringValue : Clean (getStringValue json) := clean_json json.getString

@[simp] theorem clean_getBoolValue : Clean (getBoolValue json) := only_map.mpr (clean_json json.getBool)

@[simp] theorem clean_readUuid : Clean (readUuid doc json) := by
  cases json with
  | string text =>
    rw [readUuid]
    cases doc.readId text with
    | none => exact clean_throwWith.mpr (.inr fun _ _ => trivial)
    | some id => trivial
  | null | boolean | integer | float | array | object => exact clean_throwWith.mpr (.inr fun _ _ => trivial)

@[simp] theorem clean_readVersion : Clean (readVersion doc json) := by
  refine only_bind.mpr ⟨clean_getStringValue json, fun text _ => ?_⟩
  cases doc.version text <;> trivial

@[simp] theorem clean_readSemver : Clean (readSemver doc json) := by
  cases json with
  | string text =>
    rw [readSemver]
    cases doc.version text <;> trivial
  | null | boolean | integer | float | array | object => exact clean_throwWith.mpr (.inr fun _ _ => trivial)

@[simp] theorem clean_readInt64 : Clean (readInt64 json) := by
  cases json <;> trivial

@[simp] theorem clean_getStringMap : Clean (getStringMap json) := by
  cases json with
  | object members =>
    have each (map : StringMap) (member : String × Json) :
        Clean (do return map.replaceInto (member.1, ← getStringValue member.2) : Except CRException StringMap) := by
      simp
    induction members using List.reverseRecOn with
    | nil => trivial
    | append_singleton members member inductionHypothesis =>
      rw [getStringMap, List.foldlM_append]
      exact only_bind.mpr ⟨inductionHypothesis, fun map _ => only_bind.mpr ⟨each map member, fun _ _ => trivial⟩⟩
  | null | boolean | integer | float | string | array => trivial

@[simp] theorem clean_metadata : Clean (CRMetadata.fromJson json) := by
  simp [CRMetadata.fromJson, only_bind, clean_required, clean_optional]

@[simp] theorem clean_deviceEntry : Clean (DeviceEntry.fromJson json) := by
  simp [DeviceEntry.fromJson, only_bind, clean_required, clean_optional]

@[simp] theorem clean_tag : Clean (Tag.fromJson json) := by
  simp [Tag.fromJson, only_bind, clean_required]

@[simp] theorem clean_ownerEntry : Clean (OwnerEntry.fromJson doc json) := by
  simp [OwnerEntry.fromJson, only_bind, clean_required]

@[simp] theorem clean_placedEntry : Clean (PlacedEntry.fromJson doc json) := by
  simp [PlacedEntry.fromJson, only_bind, clean_required]

@[simp] theorem clean_runInfo : Clean (RunInfo.fromJson json) := by
  simp [RunInfo.fromJson, only_bind, clean_required]

@[simp] theorem clean_access : Clean (DeviceAccess.fromJson json) := by
  simp [DeviceAccess.fromJson, only_bind, clean_required, clean_unlessEmpty]

@[simp] theorem clean_deviceSpec : Clean (DeviceSpec.fromJson doc json) := by
  simp [DeviceSpec.fromJson, only_bind, clean_required, clean_optional]

@[simp] theorem clean_labelledOwner (labels : StringMap) : Clean (labelledOwner doc labels) := by
  rw [labelledOwner]
  split
  · trivial
  · split
    · exact clean_ownerEntry doc _
    · trivial

end Rejecting

/-! ## Specs -/

section Specs

variable {json : Json}

theorem clean_readAsString : Clean (readAsString doc json) ↔ isTextOrNumber json = true ∨ doc.dump json = none := by
  cases json <;> simp [readAsString, isTextOrNumber, CRException.Rejects, Option.eq_none_iff_forall_ne_some]

theorem clean_modelEntry : Clean (ModelEntry.fromJson doc json) ↔
    ∀ id, json.find "id" = some id → isTextOrNumber id = true ∨ doc.dump id = none := by
  simp [ModelEntry.fromJson, clean_required, clean_readAsString]

theorem clean_read {nested : Except CRException (List AbilitySpec)} :
    Clean (AbilitySpec.read doc json nested) ↔
      (SpecHeadReads doc json →
        Clean (optionalUnlessEmpty json "models" (readArray (ModelEntry.fromJson doc)) []) ∧
        (Returns (optionalUnlessEmpty json "models" (readArray (ModelEntry.fromJson doc)) []) → Clean nested)) := by
  have devices : Clean (optionalUnlessEmpty json "devices" (readArray DeviceEntry.fromJson) []) :=
    clean_unlessEmpty.mpr fun _ _ _ => clean_readArray.mpr fun _ _ _ _ _ => clean_deviceEntry _
  have condition : Clean (optionalUnlessEmpty json "activityCondition" .ok .null) :=
    clean_unlessEmpty.mpr fun _ _ _ => trivial
  have returnsFree (name : String) : Returns (optional json name (.ok : Json → Except CRException Json) .null) :=
    returns_optional.mpr fun found _ => returns_ok found
  have returnsStatus : Returns (optional json "status" (fun found => .ok (some found)) none : Except CRException _) :=
    returns_optional.mpr fun found _ => returns_ok (some found)
  have returnsCondition : Returns (optionalUnlessEmpty json "activityCondition" .ok .null : Except CRException _) :=
    returns_unlessEmpty.mpr fun found _ _ => returns_ok found
  simp only [AbilitySpec.read, only_bind, devices, condition, clean_required, clean_optional, only_map, clean_readUuid,
    clean_getStringValue, clean_readVersion, clean_json, clean_getBoolValue, only_ok, only_pure, implies_true, true_and,
    and_true, forall_value, returnsFree, returnsStatus, returnsCondition, SpecHeadReads, and_imp, true_implies]

theorem specsFromItems_eq (items : List Json) : specsFromItems doc items = items.mapM (AbilitySpec.fromJson doc) := by
  induction items with
  | nil =>
    rw [specsFromItems]
    rfl
  | cons item items inductionHypothesis => rw [specsFromItems, inductionHypothesis, List.mapM_cons]

theorem clean_specsFrom : Clean (specsFrom doc json) ↔
    Reached (fun sub => Returns (AbilitySpec.fromJson doc sub)) (fun sub => Clean (AbilitySpec.fromJson doc sub))
      ((jsonItems json).map Prod.snd) := by
  cases json with
  | null =>
    rw [specsFrom]
    exact ⟨fun _ => reached_nil, fun _ => trivial⟩
  | array items =>
    have values : (jsonItems (.array items)).map Prod.snd = items := by
      rw [jsonItems, List.mapIdx_eq_zipIdx_map, List.map_map]
      exact List.zipIdx_map_fst 0 items
    rw [specsFrom, specsFromItems_eq, values]
    exact only_mapM
  | object members =>
    rw [specsFrom, specsFromMembers_eq, specsFromItems_eq]
    exact only_mapM
  | boolean | integer | float | string =>
    rw [specsFrom]
    case x_1 | x_2 | x_3 => simp
    refine ⟨fun _ => reached_cons.mpr ⟨?_, fun _ => reached_nil⟩, fun _ => trivial⟩
    rw [AbilitySpec.fromJson]
    all_goals first | trivial | simp

theorem clean_models : Clean (optionalUnlessEmpty json "models" (readArray (ModelEntry.fromJson doc)) []) ↔
    ∀ found, json.find "models" = some found →
      Reached (fun model => Returns (ModelEntry.fromJson doc model))
        (fun model => ∀ id, model.find "id" = some id → isTextOrNumber id = true ∨ doc.dump id = none)
        (arrayItems found) := by
  simp only [clean_unlessEmpty, clean_readArray, clean_modelEntry]
  refine forall₂_congr fun found _ => ⟨fun reached => ?_, fun reached _ => reached⟩
  cases empty : found.isEmpty with
  | false => exact reached empty
  | true =>
    -- An empty array has no models.
    cases found with
    | array items =>
      rw [arrayItems, List.isEmpty_iff.mp empty]
      exact reached_nil
    | null | object => exact reached_nil
    | boolean | integer | float | string => cases empty

theorem sizeOf_lt_of_sub {members : List (String × Json)} {name : String} {found sub : Json}
    (given : members.lookup name = some found) (isSub : sub ∈ (jsonItems found).map Prod.snd) :
    sizeOf sub < sizeOf (Json.object members) := by
  obtain ⟨before, after, rfl, -⟩ := List.lookup_eq_some_iff.mp given
  have outer : sizeOf (name, found) < sizeOf (before ++ (name, found) :: after) := List.sizeOf_lt_of_mem (by simp)
  simp only [Prod.mk.sizeOf_spec, Json.object.sizeOf_spec] at outer ⊢
  cases found with
  | null => cases isSub
  | array items =>
    rw [jsonItems, List.mapIdx_eq_zipIdx_map, List.map_map] at isSub
    obtain ⟨⟨item, index⟩, isItem, rfl⟩ := List.mem_map.mp isSub
    have inner : sizeOf item < sizeOf items := List.sizeOf_lt_of_mem (List.fst_mem_of_mem_zipIdx isItem)
    simp only [Json.array.sizeOf_spec] at outer
    show sizeOf item < _
    omega
  | object inside =>
    obtain ⟨⟨key, item⟩, isItem, rfl⟩ := List.mem_map.mp isSub
    have inner : sizeOf (key, item) < sizeOf inside := List.sizeOf_lt_of_mem isItem
    simp only [Prod.mk.sizeOf_spec, Json.object.sizeOf_spec] at inner outer
    show sizeOf item < _
    omega
  | boolean | integer | float | string =>
    have same := List.mem_singleton.mp isSub
    dsimp only at same
    rw [same]
    omega

theorem modelIdsGood_of_not_object (notObject : ∀ members, json ≠ .object members) : ModelIdsGood doc json := by
  have notRead : ¬ SpecHeadReads doc json := by
    rintro ⟨-, ⟨package, isPackage⟩, -⟩
    cases json with
    | object members => exact notObject members rfl
    | null | boolean | integer | float | string | array => cases isPackage
  exact .intro (fun head => absurd head notRead) fun head => absurd head notRead

/-- A spec is read, or rejected, if and only if no id of a model that is reached is bad. -/
theorem clean_spec (json : Json) : Clean (AbilitySpec.fromJson doc json) ↔ ModelIdsGood doc json := by
  cases json with
  | object members =>
    rw [AbilitySpec.fromJson, clean_read, clean_models, subabilitiesFrom_eq]
    constructor
    · intro clean
      refine .intro (fun head => (clean head).1) fun head models found given before sub after split earlier => ?_
      have isSub : sub ∈ (jsonItems found).map Prod.snd := by rw [split]; simp
      have smaller := sizeOf_lt_of_sub given isSub
      have nested := (clean head).2 models
      rw [show members.lookup "subabilities" = some found from given, Option.elim_some, clean_specsFrom] at nested
      exact (clean_spec sub).mp (nested before sub after split earlier)
    · rintro ⟨models, subabilities⟩ head
      refine ⟨models head, fun returns => ?_⟩
      cases given : members.lookup "subabilities" with
      | none => trivial
      | some found =>
        refine clean_specsFrom.mpr fun before sub after split earlier => ?_
        have isSub : sub ∈ (jsonItems found).map Prod.snd := by rw [split]; simp
        have smaller := sizeOf_lt_of_sub given isSub
        exact (clean_spec sub).mpr (subabilities head returns found given before sub after split earlier)
  | null | boolean | integer | float | string | array =>
    refine ⟨fun _ => modelIdsGood_of_not_object (by simp), fun _ => ?_⟩
    rw [AbilitySpec.fromJson]
    all_goals first | trivial | simp
termination_by sizeOf json
decreasing_by all_goals exact smaller

end Specs

/-! ## CRs -/

section CRs

variable {json : Json} {α β : Type}

theorem returns_addSharer (sharers : Sharers) (item : String × Json) :
    Returns (addSharer doc sharers item) ↔ SharerReads doc item := by
  obtain ⟨key, value⟩ := item
  rw [SharerReads]
  cases value with
  | string position =>
    cases isRead : doc.readId key with
    | none => simp [addSharer, isRead, returns_bind, Json.isString]
    | some id => simp [addSharer, isRead, returns_bind, Json.isString]
  | null | boolean | integer | float | array | object =>
    exact iff_of_false (not_returns_error _) fun reads => absurd reads.1 Bool.false_ne_true

/-- An entry whose position is not a text is rejected before its key is read. -/
theorem clean_addSharer (sharers : Sharers) (item : String × Json) :
    Clean (addSharer doc sharers item) ↔ (item.2.isString = true → (doc.readId item.1).isSome) := by
  obtain ⟨key, value⟩ := item
  cases value with
  | string position =>
    cases isRead : doc.readId key with
    | none => simp [addSharer, isRead, only_bind, Json.isString, CRException.Rejects]
    | some id => simp [addSharer, isRead, only_bind, Json.isString]
  | null | boolean | integer | float | array | object =>
    exact iff_of_true trivial fun isString => absurd isString Bool.false_ne_true

theorem clean_sharers (labelled : Sharers) :
    Clean (optionalUnlessEmpty json "sharers" (readSharers doc) labelled) ↔ SharersGood doc json := by
  rw [clean_unlessEmpty]
  exact forall₃_congr fun found _ _ => only_foldlM returns_addSharer clean_addSharer (jsonItems found) ∅

theorem returns_sharers (labelled : Sharers) :
    Returns (optionalUnlessEmpty json "sharers" (readSharers doc) labelled) ↔ SharersRead doc json := by
  rw [returns_unlessEmpty]
  exact forall₃_congr fun found _ _ => returns_foldlM returns_addSharer (jsonItems found) ∅

theorem returns_owner (labelled : OwnerEntry) :
    Returns (optionalUnlessEmpty json "owner" (OwnerEntry.fromJson doc) labelled) ↔ OwnerReads doc json :=
  returns_unlessEmpty

theorem clean_owner (labelled : OwnerEntry) :
    Clean (optionalUnlessEmpty json "owner" (OwnerEntry.fromJson doc) labelled) :=
  clean_unlessEmpty.mpr fun found _ _ => clean_ownerEntry doc found

theorem returns_status : Returns (optional json "status" (.ok : Json → Except CRException Json) .null) :=
  returns_optional.mpr fun found _ => returns_ok found

theorem clean_abilityCr : Clean (AbilityCR.fromJson doc json) ↔ AbilityIdsGood doc json := by
  have placed (name : String) : Clean (optionalUnlessEmpty json name (readArray (PlacedEntry.fromJson doc)) []) :=
    clean_unlessEmpty.mpr fun _ _ _ => clean_readArray.mpr fun _ _ _ _ _ => clean_placedEntry doc _
  have runInfo : Clean (optionalUnlessEmpty json "runInfo" (fun found => (RunInfo.fromJson found).map some) none) :=
    clean_unlessEmpty.mpr fun found _ _ => only_map.mpr (clean_runInfo found)
  simp only [AbilityCR.fromJson, only_bind, placed, runInfo, clean_owner, clean_sharers, clean_required, clean_optional,
    clean_tag, clean_metadata, clean_readUuid, clean_getStringValue, clean_labelledOwner, clean_spec, only_ok, only_pure,
    implies_true, true_and, and_true, forall_value, returns_sharers, returns_owner, returns_status, true_implies,
    AbilityIdsGood, AbilityHeadReads, and_imp, forall_exists_index]
  constructor
  · intro all tag metadata isMetadata labelled id kind info subabilities devices
    exact all tag metadata isMetadata id kind info subabilities devices labelled
  · intro all tag metadata isMetadata id kind info subabilities devices labelled
    exact all tag metadata isMetadata labelled id kind info subabilities devices

theorem clean_deviceCr : Clean (DeviceCR.fromJson doc json) ↔ (DeviceHeadReads doc json → SharersGood doc json) := by
  simp only [DeviceCR.fromJson, only_bind, clean_owner, clean_sharers, clean_required, clean_optional, clean_metadata,
    clean_readUuid, clean_getStringValue, clean_labelledOwner, clean_deviceSpec, only_ok, only_pure, implies_true,
    true_and, and_true, forall_value, returns_status, true_implies, DeviceHeadReads, and_imp, forall_exists_index]
  constructor
  · intro all kind description metadata isMetadata labelled id spec
    exact all kind description metadata isMetadata id spec labelled
  · intro all kind description metadata isMetadata id spec labelled
    exact all kind description metadata isMetadata labelled id spec

theorem returns_deviceCr : Returns (DeviceCR.fromJson doc json) ↔
    DeviceHeadReads doc json ∧ SharersRead doc json ∧ OwnerReads doc json := by
  simp only [DeviceCR.fromJson, returns_bind, DeviceHeadReads, returns_pure, exists_value, and_true, returns_sharers,
    returns_status, true_and]
  constructor
  · rintro ⟨kind, description, metadata, isMetadata, id, spec, labelled, isLabelled, sharers, owner⟩
    exact ⟨⟨kind, description, ⟨metadata, isMetadata, labelled, isLabelled⟩, id, spec⟩, sharers,
      (returns_owner labelled).mp owner⟩
  · rintro ⟨⟨kind, description, ⟨metadata, isMetadata, labelled, isLabelled⟩, id, spec⟩, sharers, owner⟩
    exact ⟨kind, description, metadata, isMetadata, id, spec, labelled, isLabelled, sharers,
      (returns_owner labelled).mpr owner⟩

theorem clean_decodeAbilityCr : Clean (decodeAbilityCr doc json) ↔ Clean (AbilityCR.fromJson doc json) := by
  rw [decodeAbilityCr]
  cases AbilityCR.fromJson doc json with
  | ok cr => exact Iff.rfl
  | error exception =>
    cases exception with
    | json error =>
      refine iff_of_true ?_ trivial
      cases doc.dump json <;> trivial
    | invalidNode | badSubscript | typeError305 | invalidVersion | typeError316 | invalidArgument | runtimeError
      | undefined | terminated | other => exact Iff.rfl

theorem clean_decodeDeviceCr : Clean (decodeDeviceCr doc json) ↔
    Clean (DeviceCR.fromJson doc json) ∧ (doc.dump json = none → Returns (DeviceCR.fromJson doc json)) := by
  rw [decodeDeviceCr]
  cases DeviceCR.fromJson doc json with
  | ok cr => simp
  | error exception =>
    cases doc.dump json <;> cases exception <;> simp [CRException.Rejects]

/-- A document is read or rejected if and only if no bad key of its sharers and no bad id of a model is reached; as
a device CR it must besides be in order if it cannot be dumped. -/
theorem decode_clean_iff (doc : DocumentEnvironment) (json : Json) :
    (Clean (decodeAbilityCr doc json) ↔ AbilityIdsGood doc json) ∧
      (Clean (decodeDeviceCr doc json) ↔ DeviceIdsGood doc json) :=
  ⟨clean_decodeAbilityCr.trans clean_abilityCr,
    clean_decodeDeviceCr.trans (and_congr clean_deviceCr (imp_congr_right fun _ => returns_deviceCr))⟩

end CRs

/-- A text is an id only as the id is written. -/
def strictDocuments : DocumentEnvironment :=
  { plainDocuments ∅ with
    readId := fun text => (readHexText text).filter fun id => hexText id = text
    readId_idText := fun id => by
      show (readHexText (hexText id)).filter (fun other => hexText other = hexText id) = some id
      rw [readHexText_hexText, Option.filter_some, if_pos (decide_eq_true rfl)] }

/-- Nobody is no id. -/
def nobodyShares : Json := .object [("nobody", .string "kitchen")]

def sharedCameraJson : Json :=
  .pack ((cameraCr.members strictDocuments).filter (·.1 ≠ "sharers") ++ [("sharers", some nobodyShares)])

def sharedSensorJson : Json :=
  .object
    [("kind", .string "Sensor"), ("metadata", .object [("name", .string "door")]),
      ("spec", .object
        [("package", .string "home"), ("deviceName", .string "Door"), ("version", .string "1.0.0"),
          ("access", .object [("type", .string "serial")])]),
      ("sharers", nobodyShares)]

theorem nobody_decoded :
    decodeAbilityCr strictDocuments sharedCameraJson = .error .undefined ∧
      decodeDeviceCr strictDocuments sharedSensorJson = .error .undefined :=
  ⟨rfl, rfl⟩

/-- The id that cannot be read is dereferenced, in a CR of either kind. -/
theorem nobody_dereferenced :
    ¬ Clean (decodeAbilityCr strictDocuments sharedCameraJson) ∧
      ¬ Clean (decodeDeviceCr strictDocuments sharedSensorJson) := by
  obtain ⟨ability, device⟩ := nobody_decoded
  rw [ability, device]
  exact ⟨fun impossible => impossible, fun impossible => impossible⟩

end Document

end AbilityFramework.ResourceMgr
