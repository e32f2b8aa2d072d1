import AbilityFramework.ResourceMgr.AbilityManifest
import AbilityFramework.ResourceMgr.CRSchema
import AbilityFramework.ResourceMgr.PlainDocuments

/-! # Two validations of a CR

`validate_with_expanded_crd` checks a CR against the expanded schema of its CRD and goes on with what the CR's kind
asks for.  `check_local_ability_cr_validity` checks it against the built-in schema and the expanded schema of its
manifest, and leaves it at that.  The JSON schema validator is a parameter. -/

namespace AbilityFramework.ResourceMgr.Document

open Library

/-- `ability_crd_schema` -/
def builtinAbilityCrdSchema : Json :=
  let texts : Json :=
    .object [("type", .string "object"), ("additionalProperties", .object [("type", .string "string")])]
  let ofType (type : String) : Json := .object [("type", .string type)]
  .object
    [("type", .string "object"), ("required", .array [.string "kind", .string "metadata", .string "spec"]),
      ("properties", .object
        [("kind", .object
            [("type", .string "string"),
              ("enum", .array [.string "AtomAbility", .string "ComposeAbility", .string "AbstractAbility"])]),
          ("metadata", .object
            [("type", .string "object"), ("required", .array [.string "name"]),
              ("properties", .object [("name", ofType "string"), ("labels", texts), ("annotations", texts)])]),
          ("spec", .object
            [("type", .string "object"),
              ("required", .array [.string "package", .string "version", .string "abilityName"]),
              ("properties", .object
                [("package", ofType "string"), ("version", ofType "string"), ("abilityName", ofType "string"),
                  ("position", .object [("type", .string "string"), ("default", .string "localhost")]),
                  ("autoStart", ofType "boolean"), ("priority", ofType "integer"), ("activityCondition", .object []),
                  ("config", .object []), ("debugOption", .object []), ("subabilities", ofType "array"),
                  ("devices", ofType "array"), ("models", ofType "array")])])])]

variable (doc : DocumentEnvironment) (manifests : PackageManifests)
  /- Whether the instance is valid against the schema, or what the validator says of it. -/
  (validate : Json → Json → Except ErrorMsg Unit)

def validateToExpected (target schema : Json) : Except ErrorMsg Unit :=
  (validate schema target).mapError ("validated failed: " ++ ·)

/-- What both checks make of the schema. -/
def expandedSchema (spec : AbilitySpec) (schema : Json) : Except ErrorMsg Json := do
  let expanded ← expandIntentable "/" schema
  return makeStatusInCrdOptional (← expandRef manifests spec "/" expanded)

/-! ## The old check -/

/-- The sub-ability against the schema of its own manifest, if it has one. -/
def validateSubAbility (sub : AbilitySpec) : Except ErrorMsg Unit :=
  match getSubAbilityCrd manifests sub with
  | .null => .ok ()
  | crd => do
    let schema ← valueAt (← expandIntentable "/" crd) schemaPath
    if schema.isEmpty then .error "can't find /spec/schema/openAPIV3Schema"
    else (validateToExpected validate (sub.toJson doc) schema).mapError ("inavlid cr: " ++ ·)

/-- The sub-abilities against the schema of the manifest of the CR's own package, if it has one. -/
def checkAbstractAbilityCrValidity (cr : AbilityCR) : Except ErrorMsg Unit :=
  match manifests cr.spec.package cr.spec.version with
  | .unreadable => .error "read manifest error"
  | file =>
    match manifestSchema file with
    | none => .ok ()
    | some schema => do
      let interface ← expandIntentable "/" schema
      if interface.isEmpty then .error "can't find schema/openAPIV3Schema in manifest"
      else cr.spec.subabilities.forM fun sub =>
        (validateToExpected validate (sub.toJson doc) interface).mapError ("inavlid cr: " ++ ·)

def interfacePath : List String := ["depends", "subabilities", "x-implement"]

/-- The part of `validate_with_expanded_crd` that goes by the kind. -/
def validateForKind (cr : AbilityCR) (crdJson : Json) : Except ErrorMsg Unit := do
  if cr.kind = "ComposeAbility" then cr.spec.subabilities.forM (validateSubAbility doc manifests validate)
  else if cr.kind = "AbstractAbility" then
    match ← valueAt crdJson interfacePath with
    | .string _ => (checkAbstractAbilityCrValidity doc manifests validate cr).mapError ("inavlid cr: " ++ ·)
    | other =>
      if other.isEmpty then .error "can't find /depends/subabilities/x-implement"
      else .error "/depends/subabilities/x-implement must be string"

def validateWithExpandedCrd (cr : AbilityCR) (crdJson : Json) : Except ErrorMsg Unit := do
  let crdSchema ← valueAt crdJson schemaPath
  if crdSchema.isEmpty then .error "can't find /spec/schema/openAPIV3Schema"
  else
    let expandedCrd ← expandedSchema manifests cr.spec crdSchema
    (validateToExpected validate (cr.toJson doc) expandedCrd).mapError ("inavlid cr: " ++ ·)
    validateForKind doc manifests validate cr crdJson

/-! ## The new check -/

def validateCrFrameworkLevel (crJson : Json) : Except ErrorMsg Unit :=
  validateToExpected validate crJson builtinAbilityCrdSchema

def validateCrManifestLevel (cr : AbilityCR) (manifest : AbilityManifest) : Except ErrorMsg Unit :=
  if manifest.schema.openAPIV3Schema.isEmpty then .ok ()
  else
    (expandedSchema manifests cr.spec manifest.schema.openAPIV3Schema).mapError
        ("manifest-level validation error: " ++ ·) >>= fun expanded =>
        (validateToExpected validate (cr.toJson doc) expanded).mapError ("manifest-level validation failed: " ++ ·)

/-- `check_local_ability_cr_validity`, with the manifest that has been found. -/
def checkLocalAbilityCrValidity (cr : AbilityCR) (manifest : AbilityManifest) : Except ErrorMsg Unit := do
  validateCrFrameworkLevel validate (cr.toJson doc)
  validateCrManifestLevel doc manifests validate cr manifest

/-! ## What the checks accept -/

section Accepted

variable {doc manifests validate} {cr : AbilityCR} {schema crdJson : Json}

/-- Valid against the schema, once it has been expanded. -/
def MeetsSchema (doc : DocumentEnvironment) (manifests : PackageManifests)
    (validate : Json → Json → Except ErrorMsg Unit) (cr : AbilityCR) (schema : Json) : Prop :=
  ∃ expanded, expandedSchema manifests cr.spec schema = .ok expanded ∧ validate expanded (cr.toJson doc) = .ok ()

/-- A schema of a manifest, at a place in its document, is one that these sub-abilities are valid against. -/
def SuitsSubAbilities (doc : DocumentEnvironment) (validate : Json → Json → Except ErrorMsg Unit) (current : String)
    (subabilities : List AbilitySpec) (schema : Json) : Prop :=
  ∃ expanded, expandIntentable current schema = .ok expanded ∧ expanded.isEmpty = false ∧
    ∀ sub ∈ subabilities, validate expanded (sub.toJson doc) = .ok ()

/-- What is asked of a CR on account of its kind. -/
structure PassesKindChecks (doc : DocumentEnvironment) (manifests : PackageManifests)
    (validate : Json → Json → Except ErrorMsg Unit) (cr : AbilityCR) (crdJson : Json) : Prop where
  compose : cr.kind = "ComposeAbility" → ∀ sub ∈ cr.spec.subabilities, ∀ schema,
    manifestSchema (manifests sub.package sub.version) = some schema →
      SuitsSubAbilities doc validate "//spec/schema/openAPIV3Schema" [sub] schema
  abstract : cr.kind = "AbstractAbility" →
    (∃ interface, valueAt crdJson interfacePath = .ok (.string interface)) ∧
      manifests cr.spec.package cr.spec.version ≠ .unreadable ∧
        ∀ schema, manifestSchema (manifests cr.spec.package cr.spec.version) = some schema →
          SuitsSubAbilities doc validate "/" cr.spec.subabilities schema

theorem mapError_eq_ok {Error Other α : Type} {result : Except Error α} {change : Error → Other} {value : α} :
    result.mapError change = .ok value ↔ result = .ok value := by
  cases result with
  | error error => exact iff_of_false (fun impossible => by cases impossible) fun impossible => by cases impossible
  | ok found =>
    show (Except.ok found : Except Other α) = _ ↔ _
    rw [Except.ok.injEq, Except.ok.injEq]

@[simp] theorem validateToExpected_eq_ok {target schema : Json} :
    validateToExpected validate target schema = .ok () ↔ validate schema target = .ok () := mapError_eq_ok

theorem forM_eq_ok {α : Type} {check : α → Except ErrorMsg Unit} {items : List α} :
    items.forM check = .ok () ↔ ∀ item ∈ items, check item = .ok () := by
  induction items with
  | nil => exact iff_of_true rfl fun _ isItem => by cases isItem
  | cons item items inductionHypothesis =>
    rw [List.forall_mem_cons, ← inductionHypothesis]
    show (check item >>= fun _ => items.forM check) = .ok () ↔ _
    rw [except_bind_eq_ok]
    constructor
    · rintro ⟨_, first, later⟩
      exact ⟨first, later⟩
    · rintro ⟨first, later⟩
      exact ⟨(), first, later⟩

/-- A schema that is wrapped up is expanded inside. -/
theorem expandIntentable_compatibleCrd (schema : Json) :
    expandIntentable "/" (compatibleCrd schema) =
      (expandIntentable "//spec/schema/openAPIV3Schema" schema).map compatibleCrd := by
  have path : "/" ++ pointerToken "spec" ++ pointerToken "schema" ++ pointerToken "openAPIV3Schema" =
      "//spec/schema/openAPIV3Schema" := by decide
  simp only [compatibleCrd, expandIntentable, expandIntentableMembers, List.lookup_cons, List.lookup_nil,
    String.reduceBEq, path]
  cases expandIntentable "//spec/schema/openAPIV3Schema" schema with
  | error error => rfl
  | ok expanded => rfl

theorem suitsSubAbilities_iff {current : String} {subabilities : List AbilitySpec} (missing : ErrorMsg) :
    (expandIntentable current schema >>= fun expanded => if expanded.isEmpty then .error missing
      else subabilities.forM fun sub =>
        (validateToExpected validate (sub.toJson doc) expanded).mapError ("inavlid cr: " ++ ·)) = .ok () ↔
      SuitsSubAbilities doc validate current subabilities schema := by
  rw [except_bind_eq_ok, SuitsSubAbilities]
  refine exists_congr fun expanded => and_congr_right fun _ => ?_
  cases empty : expanded.isEmpty with
  | true => exact iff_of_false (fun impossible => by cases impossible) fun impossible => by cases impossible.1
  | false =>
    rw [if_neg Bool.false_ne_true, forM_eq_ok, and_iff_right rfl]
    exact forall₂_congr fun sub _ => mapError_eq_ok.trans validateToExpected_eq_ok

theorem validateSubAbility_eq_ok {sub : AbilitySpec} :
    validateSubAbility doc manifests validate sub = .ok () ↔ ∀ schema,
      manifestSchema (manifests sub.package sub.version) = some schema →
        SuitsSubAbilities doc validate "//spec/schema/openAPIV3Schema" [sub] schema := by
  rw [validateSubAbility, getSubAbilityCrd]
  cases manifestSchema (manifests sub.package sub.version) with
  | none => exact iff_of_true rfl fun _ impossible => by cases impossible
  | some schema =>
    have sameSchema : (∀ other, some schema = some other →
        SuitsSubAbilities doc validate "//spec/schema/openAPIV3Schema" [sub] other) ↔
          SuitsSubAbilities doc validate "//spec/schema/openAPIV3Schema" [sub] schema := by
      simp only [Option.some.injEq, forall_eq']
    rw [sameSchema, ← suitsSubAbilities_iff "can't find /spec/schema/openAPIV3Schema"]
    -- The schema is found again where it has been put.
    show (expandIntentable "/" (compatibleCrd schema) >>= fun crd => valueAt crd schemaPath >>= fun found =>
      if found.isEmpty then .error "can't find /spec/schema/openAPIV3Schema"
      else (validateToExpected validate (sub.toJson doc) found).mapError ("inavlid cr: " ++ ·)) = .ok () ↔ _
    rw [expandIntentable_compatibleCrd]
    cases expandIntentable "//spec/schema/openAPIV3Schema" schema with
    | error error => exact iff_of_false (fun impossible => by cases impossible) fun impossible => by cases impossible
    | ok expanded =>
      show (if expanded.isEmpty then .error "can't find /spec/schema/openAPIV3Schema"
        else (validateToExpected validate (sub.toJson doc) expanded).mapError ("inavlid cr: " ++ ·)) = .ok () ↔
          (if expanded.isEmpty then .error "can't find /spec/schema/openAPIV3Schema"
            else [sub].forM fun sub =>
              (validateToExpected validate (sub.toJson doc) expanded).mapError ("inavlid cr: " ++ ·)) = .ok ()
      cases expanded.isEmpty with
      | true => exact Iff.rfl
      | false =>
        rw [if_neg Bool.false_ne_true, if_neg Bool.false_ne_true, forM_eq_ok, List.forall_mem_singleton]

theorem checkAbstractAbilityCrValidity_eq_ok :
    checkAbstractAbilityCrValidity doc manifests validate cr = .ok () ↔
      manifests cr.spec.package cr.spec.version ≠ .unreadable ∧
        ∀ schema, manifestSchema (manifests cr.spec.package cr.spec.version) = some schema →
          SuitsSubAbilities doc validate "/" cr.spec.subabilities schema := by
  rw [checkAbstractAbilityCrValidity]
  cases manifests cr.spec.package cr.spec.version with
  | missing =>
    exact iff_of_true rfl ⟨fun impossible => (by cases impossible), fun _ impossible => (by cases impossible)⟩
  | unreadable => exact iff_of_false (fun impossible => by cases impossible) fun readable => readable.1 rfl
  | yaml manifest =>
    rw [and_iff_right (fun impossible => by cases impossible)]
    dsimp only
    cases manifestSchema (.yaml manifest) with
    | none => exact iff_of_true rfl fun _ impossible => by cases impossible
    | some schema =>
      simp only [Option.some.injEq, forall_eq']
      exact suitsSubAbilities_iff "can't find schema/openAPIV3Schema in manifest"

theorem validateForKind_eq_ok :
    validateForKind doc manifests validate cr crdJson = .ok () ↔
      PassesKindChecks doc manifests validate cr crdJson := by
  rw [validateForKind]
  by_cases compose : cr.kind = "ComposeAbility"
  · rw [if_pos compose, forM_eq_ok]
    constructor
    · intro accepted
      exact ⟨fun _ sub isSub => validateSubAbility_eq_ok.mp (accepted sub isSub),
        fun abstract => absurd (compose.symm.trans abstract) (by decide)⟩
    · intro passes sub isSub
      exact validateSubAbility_eq_ok.mpr (passes.compose compose sub isSub)
  · rw [if_neg compose]
    by_cases abstract : cr.kind = "AbstractAbility"
    · have onlyInterface : PassesKindChecks doc manifests validate cr crdJson ↔
          (∃ interface, valueAt crdJson interfacePath = .ok (.string interface)) ∧
            checkAbstractAbilityCrValidity doc manifests validate cr = .ok () := by
        rw [checkAbstractAbilityCrValidity_eq_ok]
        constructor
        · intro passes
          exact passes.abstract abstract
        · intro accepted
          exact ⟨fun isCompose => absurd isCompose compose, fun _ => accepted⟩
      rw [if_pos abstract, except_bind_eq_ok, onlyInterface]
      constructor
      · rintro ⟨interface, found, accepted⟩
        cases interface with
        | string interface => exact ⟨⟨interface, found⟩, mapError_eq_ok.mp accepted⟩
        | null => cases accepted
        | boolean | integer | float => cases accepted
        | array items => cases items <;> cases accepted
        | object members => cases members <;> cases accepted
      · rintro ⟨⟨interface, found⟩, accepted⟩
        exact ⟨.string interface, found, mapError_eq_ok.mpr accepted⟩
    · rw [if_neg abstract]
      exact iff_of_true rfl ⟨fun isCompose => absurd isCompose compose, fun isAbstract => absurd isAbstract abstract⟩

theorem validateWithExpandedCrd_eq_ok :
    validateWithExpandedCrd doc manifests validate cr crdJson = .ok () ↔
      ∃ schema, valueAt crdJson schemaPath = .ok schema ∧ schema.isEmpty = false ∧
        MeetsSchema doc manifests validate cr schema ∧ PassesKindChecks doc manifests validate cr crdJson := by
  rw [validateWithExpandedCrd, except_bind_eq_ok]
  refine exists_congr fun schema => and_congr_right fun _ => ?_
  cases schema.isEmpty with
  | true => exact iff_of_false (fun impossible => by cases impossible) fun impossible => by cases impossible.1
  | false =>
    rw [if_neg Bool.false_ne_true, and_iff_right rfl, except_bind_eq_ok, MeetsSchema]
    constructor
    · rintro ⟨expanded, expands, accepted⟩
      obtain ⟨_, valid, passes⟩ := except_bind_eq_ok.mp accepted
      exact ⟨⟨expanded, expands, validateToExpected_eq_ok.mp (mapError_eq_ok.mp valid)⟩,
        validateForKind_eq_ok.mp passes⟩
    · rintro ⟨⟨expanded, expands, valid⟩, passes⟩
      exact ⟨expanded, expands, except_bind_eq_ok.mpr
        ⟨(), mapError_eq_ok.mpr (validateToExpected_eq_ok.mpr valid), validateForKind_eq_ok.mpr passes⟩⟩

theorem validateCrManifestLevel_eq_ok {manifest : AbilityManifest} :
    validateCrManifestLevel doc manifests validate cr manifest = .ok () ↔
      manifest.schema.openAPIV3Schema.isEmpty = true ∨
        MeetsSchema doc manifests validate cr manifest.schema.openAPIV3Schema := by
  rw [validateCrManifestLevel]
  cases manifest.schema.openAPIV3Schema.isEmpty with
  | true => exact iff_of_true rfl (.inl rfl)
  | false =>
    rw [if_neg Bool.false_ne_true, except_bind_eq_ok, MeetsSchema, or_iff_right Bool.false_ne_true]
    exact exists_congr fun expanded => and_congr mapError_eq_ok (mapError_eq_ok.trans validateToExpected_eq_ok)

/-- Of a CR that is valid against the built-in schema, the two checks say the same if and only if there is a schema and
    what the kind asks for goes without saying. -/
theorem validations_agree_iff (cr : AbilityCR) (manifest : AbilityManifest) (crdJson : Json)
    (framework : validateCrFrameworkLevel validate (cr.toJson doc) = .ok ())
    (sameSchema : valueAt crdJson schemaPath = .ok manifest.schema.openAPIV3Schema) :
    (checkLocalAbilityCrValidity doc manifests validate cr manifest = .ok () ↔
        validateWithExpandedCrd doc manifests validate cr crdJson = .ok ()) ↔
      manifest.schema.openAPIV3Schema.isEmpty = false ∧
        (MeetsSchema doc manifests validate cr manifest.schema.openAPIV3Schema →
          PassesKindChecks doc manifests validate cr crdJson) := by
  have newPath : checkLocalAbilityCrValidity doc manifests validate cr manifest = .ok () ↔
      manifest.schema.openAPIV3Schema.isEmpty = true ∨
        MeetsSchema doc manifests validate cr manifest.schema.openAPIV3Schema := by
    rw [checkLocalAbilityCrValidity, framework]
    exact validateCrManifestLevel_eq_ok
  have oldPath : validateWithExpandedCrd doc manifests validate cr crdJson = .ok () ↔
      manifest.schema.openAPIV3Schema.isEmpty = false ∧
        MeetsSchema doc manifests validate cr manifest.schema.openAPIV3Schema ∧
          PassesKindChecks doc manifests validate cr crdJson := by
    rw [validateWithExpandedCrd_eq_ok, sameSchema]
    simp only [Except.ok.injEq, exists_eq_left']
  rw [newPath, oldPath]
  cases manifest.schema.openAPIV3Schema.isEmpty with
  | true =>
    -- The new check accepts what the old one has no schema for.
    apply iff_of_false
    · intro same
      exact Bool.false_ne_true (same.mp (.inl rfl)).1.symm
    · intro full
      exact Bool.false_ne_true full.1.symm
  | false =>
    rw [or_iff_right Bool.false_ne_true, and_iff_right rfl, and_iff_right rfl]
    exact ⟨fun same meets => (same.mp meets).2, fun passes => ⟨fun meets => ⟨meets, passes meets⟩, And.left⟩⟩

end Accepted

/-! ## A validator

The keywords that the built-in schema is written with. -/

def hasType (type : String) : Json → Bool
  | .null => type = "null"
  | .boolean _ => type = "boolean"
  | .integer _ => type = "integer" ∨ type = "number"
  | .float (.finite value) => type = "number" ∨ type = "integer" ∧ value.den = 1
  | .float (.infinite _) | .float .nan => type = "number"
  | .string _ => type = "string"
  | .array _ => type = "array"
  | .object _ => type = "object"

def membersOf : Json → List (String × Json)
  | .object members => members
  | _ => []

mutual

def conforms : Json → Json → Bool
  | .object keywords, value => keywordsHold ((keywords.lookup "properties").elim [] membersOf) keywords value
  | .boolean allowed, _ => allowed
  | _, _ => false
termination_by structural schema => schema

def keywordsHold (properties : List (String × Json)) : List (String × Json) → Json → Bool
  | [], _ => true
  | (keyword, argument) :: keywords, value =>
    keywordHolds properties keyword argument value && keywordsHold properties keywords value
termination_by structural keywords => keywords

def keywordHolds (properties : List (String × Json)) (keyword : String) : Json → Json → Bool
  | .string type, value => keyword ≠ "type" || hasType type value
  | .array items, value =>
    if keyword = "enum" then value ∈ items
    else if keyword = "anyOf" then anyConforms items value
    else if keyword = "required" then
      value.typeName ≠ "object" || items.all fun name => (membersOf value).any fun member => .string member.1 = name
    else true
  | .object members, value =>
    if keyword = "properties" then propertiesConform members value
    else if keyword = "additionalProperties" then
      (membersOf value).all fun member => properties.any (·.1 = member.1) ||
        keywordsHold ((members.lookup "properties").elim [] membersOf) members member.2
    else true
  | _, _ => true
termination_by structural argument => argument

def propertiesConform : List (String × Json) → Json → Bool
  | [], _ => true
  | (name, schema) :: properties, value =>
    (((membersOf value).lookup name).elim true fun member => conforms schema member) &&
      propertiesConform properties value
termination_by structural properties => properties

def anyConforms : List Json → Json → Bool
  | [], _ => false
  | schema :: schemas, value => conforms schema value || anyConforms schemas value
termination_by structural schemas => schemas

end

def plainValidate (schema value : Json) : Except ErrorMsg Unit :=
  if conforms schema value then .ok () else .error "instance does not conform to the schema"

/-! ## A patrol with a camera -/

/-- The manifest of the camera asks for a priority. -/
def cameraSchema : Json := .object [("type", .string "object"), ("required", .array [.string "priority"])]

def patrolManifest : AbilityManifest where
  abilityName := "Patrol"
  kind := "ComposeAbility"
  schema := { openAPIV3Schema := .object [("type", .string "object")] }

def patrolManifests : PackageManifests := fun package _ =>
  if package = "vision" then .yaml (.object [("schema", .object [("openAPIV3Schema", cameraSchema)])])
  else .yaml (.object [("schema", .object [("openAPIV3Schema", patrolManifest.schema.openAPIV3Schema)])])

def patrolCr : AbilityCR :=
  { cameraCr with
    metadata := ⟨"patrol", onPlainNode, ∅⟩
    kind := "ComposeAbility"
    spec := { cameraSpec with package := "patrol", abilityName := "Patrol", subabilities := [cameraSpec] } }

/-- The camera has no priority.  The new check does not look at it. -/
theorem patrol_disagreed :
    validateCrFrameworkLevel plainValidate (patrolCr.toJson (plainDocuments ∅)) = .ok () ∧
      valueAt (compatibleCrd patrolManifest.schema.openAPIV3Schema) schemaPath =
          .ok patrolManifest.schema.openAPIV3Schema ∧
        checkLocalAbilityCrValidity (plainDocuments ∅) patrolManifests plainValidate patrolCr patrolManifest = .ok () ∧
          validateWithExpandedCrd (plainDocuments ∅) patrolManifests plainValidate patrolCr
            (compatibleCrd patrolManifest.schema.openAPIV3Schema) =
              .error "inavlid cr: validated failed: instance does not conform to the schema" := by
  exact ⟨by rfl, by rfl, by rfl, by rfl⟩

theorem camera_validations_agree :
    checkLocalAbilityCrValidity (plainDocuments ∅) patrolManifests plainValidate cameraCr patrolManifest = .ok () ↔
      validateWithExpandedCrd (plainDocuments ∅) patrolManifests plainValidate cameraCr
        (compatibleCrd patrolManifest.schema.openAPIV3Schema) = .ok () :=
  (validations_agree_iff cameraCr patrolManifest (compatibleCrd patrolManifest.schema.openAPIV3Schema) (by rfl)
      (by rfl)).mpr
    ⟨rfl, fun _ => ⟨fun compose => absurd compose (by decide), fun abstract => absurd abstract (by decide)⟩⟩

end AbilityFramework.ResourceMgr.Document
