import AbilityFramework.ResourceMgr.CodecStability
import AbilityFramework.ResourceMgr.ServiceCR

/-! # Ability CRDs

`ability_crd.cpp`: the CRD of an ability as a JSON document.  What is written is read back, but for the free-form
members: an empty container is not written, and is null when the document is read.  The abilities that a CRD
depends on are one object instead of an array exactly if their number is arbitrary; then there is one. -/

namespace AbilityFramework.ResourceMgr.Document

open Library

/-! ## Records -/

/-- `AbilityCRD::SchemaInfo` -/
structure SchemaInfo where
  constants : Json := .null
  openAPIV3Schema : Json
  deriving DecidableEq

/-- `AbilityCRD::Spec` -/
structure CRDSpec where
  provides : Json := .null
  schema : SchemaInfo
  types : Json := .null
  rpcMethods : Json := .null
  tasks : Json := .null
  config : Json := .null
  debugOption : Json := .null
  deriving DecidableEq

structure AbilityCRD where
  id : Uuid := 0
  packageName : String
  version : String
  kind : String
  metadata : CRMetadata
  depends : Dependencies := {}
  spec : CRDSpec
  fwk : FwkDetail := {}

/-- If the number of abilities is arbitrary, there is one. -/
def Dependencies.Valid (depends : Dependencies) : Prop :=
  depends.numAbilityIsArbitrary = true → ∃ dependency, depends.abilities = [dependency]

/-- What `to_json` checks, and else aborts. -/
def Dependencies.ClassInvariant (depends : Dependencies) : Prop :=
  depends.numAbilityIsArbitrary = true → 1 ≤ depends.abilities.length

variable (doc : DocumentEnvironment)

def SchemaInfo.fromJson (json : Json) : Except CRException SchemaInfo := do
  let constants ← optional json "constants" .ok .null
  let openAPIV3Schema ← required json "openAPIV3Schema" .ok
  return { constants, openAPIV3Schema }

def SchemaInfo.toJson (schema : SchemaInfo) : Json :=
  .pack [("constants", unlessEmpty schema.constants), ("openAPIV3Schema", some schema.openAPIV3Schema)]

def CRDSpec.fromJson (json : Json) : Except CRException CRDSpec := do
  let schema ← required json "schema" SchemaInfo.fromJson
  let provides ← optional json "provides" .ok .null
  let types ← optional json "types" .ok .null
  let rpcMethods ← optional json "rpcMethods" .ok .null
  let tasks ← optional json "tasks" .ok .null
  let config ← optional json "config" .ok .null
  let debugOption ← optional json "debugOption" .ok .null
  return { provides, schema, types, rpcMethods, tasks, config, debugOption }

def CRDSpec.members (spec : CRDSpec) : List (String × Option Json) :=
  [("provides", unlessEmpty spec.provides), ("schema", some spec.schema.toJson), ("types", unlessEmpty spec.types),
    ("rpcMethods", unlessEmpty spec.rpcMethods), ("tasks", unlessEmpty spec.tasks),
    ("config", unlessEmpty spec.config), ("debugOption", unlessEmpty spec.debugOption)]

def CRDSpec.toJson (spec : CRDSpec) : Json := .pack spec.members

def FwkDetail.toJson (fwk : FwkDetail) : Json :=
  .object [("complete", .boolean fwk.complete), ("ref_expanded", .boolean fwk.refExpanded)]

/-- What the framework has worked out is not read. -/
def AbilityCRD.fromJson (json : Json) : Except CRException AbilityCRD := do
  let packageName ← required json "packageName" getStringValue
  let version ← required json "version" (readVersion doc)
  let kind ← required json "kind" getStringValue
  let metadata ← required json "metadata" CRMetadata.fromJson
  let spec ← required json "spec" CRDSpec.fromJson
  let depends ← optional json "depends" Dependencies.fromJson {}
  let id ← optional json "id" (readUuid doc) 0
  return { id, packageName, version, kind, metadata, depends, spec }

def AbilityCRD.members (crd : AbilityCRD) : List (String × Option Json) :=
  [("packageName", some (.string crd.packageName)), ("version", some (.string crd.version)),
    ("kind", some (.string crd.kind)),
    ("depends", if crd.depends.isEmpty then none else some crd.depends.toJson),
    ("id", if crd.id = 0 then none else some (.string (doc.idText crd.id))),
    ("metadata", some (metadataToJson crd.metadata)), ("spec", some crd.spec.toJson), ("fwk", some crd.fwk.toJson)]

def AbilityCRD.toJson (crd : AbilityCRD) : Json := .pack (crd.members doc)

/-! ## Up to empty containers -/

/-- Null and the empty containers are identified. -/
def CRDSpec.identified (spec : CRDSpec) : CRDSpec where
  provides := emptyIsNull spec.provides
  schema := { spec.schema with constants := emptyIsNull spec.schema.constants }
  types := emptyIsNull spec.types
  rpcMethods := emptyIsNull spec.rpcMethods
  tasks := emptyIsNull spec.tasks
  config := emptyIsNull spec.config
  debugOption := emptyIsNull spec.debugOption

def AbilityCRD.identified (crd : AbilityCRD) : AbilityCRD := { crd with spec := crd.spec.identified }

variable {doc}

theorem schemaInfo_readsBack (schema : SchemaInfo) :
    SchemaInfo.fromJson schema.toJson = .ok { schema with constants := emptyIsNull schema.constants } := by
  simp only [SchemaInfo.fromJson, SchemaInfo.toJson]
  rw [optional_pack (by simp), required_pack (by simp) rfl]
  simp only [List.lookup_cons, String.reduceBEq, Option.join_some, elim_free]
  rfl

theorem crdSpec_readsBack (spec : CRDSpec) : CRDSpec.fromJson spec.toJson = .ok spec.identified := by
  have distinct : (spec.members.map Prod.fst).Nodup := by simp [CRDSpec.members]
  simp only [CRDSpec.fromJson, CRDSpec.toJson, optional_pack distinct]
  rw [required_pack distinct rfl]
  simp only [CRDSpec.members, List.lookup_cons, String.reduceBEq, Option.join_some, elim_free, schemaInfo_readsBack]
  rfl

/-! ## Dependencies -/

/-- Of an ability or of a device. -/
theorem dependency_readsBack {className : String} (isName : className = "abilityName" ∨ className = "deviceName")
    (dependency : Dependency) : Dependency.fromJson className (dependency.toJson className) = .ok dependency := by
  rcases isName with rfl | rfl
  all_goals
    simp only [Dependency.fromJson, Dependency.toJson]
    rw [required_pack (by simp) rfl, optional_pack (by simp), optional_pack (by simp), optional_pack (by simp),
      optional_pack (by simp)]
    simp only [List.lookup_cons, String.reduceBEq, Option.join_some, Option.elim_some, elim_text,
      enumFromJson_ownershipMode, enumFromJson_bindMode, getStringValue_string]
    rfl

theorem readAbilityDependencies_valid {json : Json} {abilities : List Dependency} {arbitrary : Bool}
    (isRead : readAbilityDependencies json = .ok (abilities, arbitrary)) :
    arbitrary = true → ∃ dependency, abilities = [dependency] := by
  cases json with
  | array items =>
    simp only [readAbilityDependencies, except_bind_eq_ok] at isRead
    obtain ⟨read, -, same⟩ := isRead
    cases same
    nofun
  | object members =>
    simp only [readAbilityDependencies, except_bind_eq_ok] at isRead
    obtain ⟨dependency, -, same⟩ := isRead
    cases same
    exact fun _ => ⟨dependency, rfl⟩
  | null | boolean | integer | float | string => cases isRead

theorem dependencies_valid {json : Json} {depends : Dependencies} (isRead : Dependencies.fromJson json = .ok depends) :
    depends.Valid := by
  simp only [Dependencies.fromJson, except_bind_eq_ok] at isRead
  obtain ⟨⟨abilities, arbitrary⟩, isAbilities, devices, -, additionalAbilities, -, additionalDevices, -, same⟩ := isRead
  cases same
  obtain ⟨found, -, given⟩ | same := optional_ok isAbilities
  · exact readAbilityDependencies_valid given
  · cases same
    nofun

theorem classInvariant_of_valid {depends : Dependencies} (valid : depends.Valid) : depends.ClassInvariant := by
  intro arbitrary
  obtain ⟨dependency, isOne⟩ := valid arbitrary
  rw [isOne, List.length_singleton]

theorem elim_abilities {depends : Dependencies} (valid : depends.Valid) :
    (if depends.numAbilityIsArbitrary then depends.abilities.head?.map (Dependency.toJson "abilityName")
      else arrayUnlessEmpty (depends.abilities.map (Dependency.toJson "abilityName"))).elim (.ok ([], false))
        readAbilityDependencies = .ok (depends.abilities, depends.numAbilityIsArbitrary) := by
  have readsBack := dependency_readsBack (.inl rfl : "abilityName" = "abilityName" ∨ _)
  cases isObject : depends.numAbilityIsArbitrary with
  | false =>
    rw [if_neg Bool.false_ne_true]
    cases depends.abilities with
    | nil => rfl
    | cons first rest =>
      have items := readArray_map readsBack (first :: rest)
      rw [readArray] at items
      show (do return (← List.mapM _ _, false)) = _
      rw [items]
      rfl
  | true =>
    obtain ⟨dependency, isOne⟩ := valid isObject
    rw [if_pos rfl, isOne]
    show (do return ([← Dependency.fromJson "abilityName" (dependency.toJson "abilityName")], true)) = _
    rw [readsBack]
    rfl

theorem dependencies_readsBack {depends : Dependencies} (valid : depends.Valid) :
    Dependencies.fromJson depends.toJson = .ok depends := by
  simp only [Dependencies.fromJson, Dependencies.toJson]
  rw [optional_pack (by simp), optional_pack (by simp), optional_pack (by simp), optional_pack (by simp)]
  simp only [List.lookup_cons, String.reduceBEq, Option.join_some, elim_abilities valid,
    elim_readArray (dependency_readsBack (.inl rfl)), elim_readArray (dependency_readsBack (.inr rfl))]
  rfl

/-- Dependencies that are empty are not written. -/
theorem elim_depends {depends : Dependencies} (valid : depends.Valid) :
    (if depends.isEmpty then none else some depends.toJson).elim (.ok {}) Dependencies.fromJson = .ok depends := by
  by_cases empty : depends.isEmpty = true
  · obtain ⟨abilities, additionalAbilities, arbitrary, devices, additionalDevices⟩ := depends
    rw [if_pos empty, Option.elim_none]
    simp only [Dependencies.isEmpty, Bool.and_eq_true, List.isEmpty_iff] at empty
    obtain ⟨⟨⟨rfl, rfl⟩, rfl⟩, rfl⟩ := empty
    cases arbitrary with
    | false => rfl
    | true =>
      obtain ⟨_, impossible⟩ := valid rfl
      cases impossible
  · rw [if_neg empty, Option.elim_some, dependencies_readsBack valid]

/-! ## CRDs -/

theorem depends_valid {json : Json} {crd : AbilityCRD} (isRead : AbilityCRD.fromJson doc json = .ok crd) :
    crd.depends.Valid := by
  simp only [AbilityCRD.fromJson, except_bind_eq_ok] at isRead
  obtain ⟨packageName, -, version, -, kind, -, metadata, -, spec, -, depends, isDepends, id, -, same⟩ := isRead
  cases same
  obtain ⟨found, -, given⟩ | rfl := optional_ok isDepends
  · exact dependencies_valid given
  · nofun

/-- What has been read is written and read again up to empty containers. -/
theorem abilityCrd_readsBack {json : Json} {crd : AbilityCRD} (isRead : AbilityCRD.fromJson doc json = .ok crd) :
    AbilityCRD.fromJson doc (crd.toJson doc) = .ok crd.identified := by
  have depends := elim_depends (depends_valid isRead)
  simp only [AbilityCRD.fromJson, except_bind_eq_ok] at isRead
  obtain ⟨packageName, -, version, isVersion, kind, -, metadata, -, spec, -, given, -, id, -, same⟩ := isRead
  cases same
  have version := version_readsBack isVersion
  have distinct (crd : AbilityCRD) : ((crd.members doc).map Prod.fst).Nodup := by simp [AbilityCRD.members]
  simp only [AbilityCRD.fromJson, AbilityCRD.toJson, optional_pack (distinct _)]
  rw [required_pack (distinct _) rfl, required_pack (distinct _) rfl, required_pack (distinct _) rfl,
    required_pack (distinct _) rfl, required_pack (distinct _) rfl]
  simp only [AbilityCRD.members, List.lookup_cons, String.reduceBEq, Option.join_some, metadata_readsBack, version,
    depends, elim_unlessNil, crdSpec_readsBack, getStringValue_string]
  rfl

/-! ## From a text -/

def CRDSpec.asWritten (spec : CRDSpec) : CRDSpec where
  provides := spec.provides.asWritten
  schema := ⟨spec.schema.constants.asWritten, spec.schema.openAPIV3Schema.asWritten⟩
  types := spec.types.asWritten
  rpcMethods := spec.rpcMethods.asWritten
  tasks := spec.tasks.asWritten
  config := spec.config.asWritten
  debugOption := spec.debugOption.asWritten

/-- The CRD as it is read from the text of its document. -/
def AbilityCRD.asWritten (crd : AbilityCRD) : AbilityCRD := { crd with spec := crd.spec.asWritten }

@[simp] theorem dependency_asWritten (className : String) (dependency : Dependency) :
    (dependency.toJson className).asWritten = dependency.toJson className := by
  simp only [Dependency.toJson, Json.asWritten_pack, List.map_cons, List.map_nil, Option.map_some, Json.asWritten_string,
    textUnlessEmpty_asWritten]

@[simp] theorem dependencies_asWritten (depends : Dependencies) : depends.toJson.asWritten = depends.toJson := by
  have abilities : (if depends.numAbilityIsArbitrary then depends.abilities.head?.map (Dependency.toJson "abilityName")
        else arrayUnlessEmpty (depends.abilities.map (Dependency.toJson "abilityName"))).map Json.asWritten =
      if depends.numAbilityIsArbitrary then depends.abilities.head?.map (Dependency.toJson "abilityName")
      else arrayUnlessEmpty (depends.abilities.map (Dependency.toJson "abilityName")) := by
    split
    · simp only [Option.map_map, Function.comp_def, dependency_asWritten]
    · simp only [arrayUnlessEmpty_asWritten, List.map_map, Function.comp_def, dependency_asWritten]
  simp only [Dependencies.toJson, Json.asWritten_pack, List.map_cons, List.map_nil, abilities, arrayUnlessEmpty_asWritten,
    List.map_map, Function.comp_def, dependency_asWritten]

theorem crdSpec_asWritten (spec : CRDSpec) : CRDSpec.fromJson spec.toJson.asWritten =
    (CRDSpec.fromJson spec.toJson).map CRDSpec.asWritten := by
  have distinct : (spec.members.map Prod.fst).Nodup := by simp [CRDSpec.members]
  have distinctWritten : ((spec.members.map fun member => (member.1, member.2.map Json.asWritten)).map
      Prod.fst).Nodup := by
    rwa [List.map_map]
  have schema : SchemaInfo.fromJson spec.schema.toJson.asWritten =
      .ok ⟨(emptyIsNull spec.schema.constants).asWritten, spec.schema.openAPIV3Schema.asWritten⟩ := by
    rw [SchemaInfo.toJson, Json.asWritten_pack]
    simp only [SchemaInfo.fromJson]
    rw [optional_pack (by simp), required_pack (by simp) (show List.lookup "openAPIV3Schema" _ = _ from rfl)]
    simp only [List.map_cons, List.lookup_cons, String.reduceBEq, Option.join_some, elim_free_asWritten]
    rfl
  rw [crdSpec_readsBack, CRDSpec.toJson, Json.asWritten_pack, CRDSpec.fromJson]
  simp only [optional_pack distinctWritten]
  rw [required_pack distinctWritten (show List.lookup "schema" _ = _ from rfl)]
  simp only [CRDSpec.members, List.map_cons, List.map_nil, List.lookup_cons, String.reduceBEq, Option.join_some,
    elim_free_asWritten, schema]
  rfl

theorem abilityCrd_asWritten (crd : AbilityCRD) : AbilityCRD.fromJson doc (crd.toJson doc).asWritten =
    (AbilityCRD.fromJson doc (crd.toJson doc)).map AbilityCRD.asWritten := by
  have distinct : ((crd.members doc).map Prod.fst).Nodup := by simp [AbilityCRD.members]
  have distinctWritten : (((crd.members doc).map fun member => (member.1, member.2.map Json.asWritten)).map
      Prod.fst).Nodup := by
    rwa [List.map_map]
  have depends : (if crd.depends.isEmpty then none else some crd.depends.toJson).map Json.asWritten =
      if crd.depends.isEmpty then none else some crd.depends.toJson := by
    split
    · rfl
    · rw [Option.map_some, dependencies_asWritten]
  have id : (if crd.id = 0 then none else some (Json.string (doc.idText crd.id))).map Json.asWritten =
      if crd.id = 0 then none else some (.string (doc.idText crd.id)) := by
    split <;> rfl
  rw [AbilityCRD.toJson, Json.asWritten_pack, AbilityCRD.fromJson, AbilityCRD.fromJson]
  simp only [optional_pack distinct, optional_pack distinctWritten]
  rw [required_pack distinct (show (crd.members doc).lookup "packageName" = _ from rfl),
    required_pack distinct (show (crd.members doc).lookup "version" = _ from rfl),
    required_pack distinct (show (crd.members doc).lookup "kind" = _ from rfl),
    required_pack distinct (show (crd.members doc).lookup "metadata" = _ from rfl),
    required_pack distinct (show (crd.members doc).lookup "spec" = _ from rfl),
    required_pack distinctWritten (show List.lookup "packageName" _ = _ from rfl),
    required_pack distinctWritten (show List.lookup "version" _ = _ from rfl),
    required_pack distinctWritten (show List.lookup "kind" _ = _ from rfl),
    required_pack distinctWritten (show List.lookup "metadata" _ = _ from rfl),
    required_pack distinctWritten (show List.lookup "spec" _ = _ from rfl)]
  simp only [AbilityCRD.members, List.map_cons, List.map_nil, List.lookup_cons, String.reduceBEq, Option.map_some,
    Json.asWritten_string, Option.join_some, metadata_asWritten, depends, id, crdSpec_asWritten,
    map_bind_ok, bind_map_ok, map_pure_ok, AbilityCRD.asWritten]

/-- What has been read is read again from the text of its document up to empty containers, with nulls for the numbers
that are not finite. -/
theorem abilityCrd_readsBack_written {json : Json} {crd : AbilityCRD} (isRead : AbilityCRD.fromJson doc json = .ok crd) :
    AbilityCRD.fromJson doc (crd.toJson doc).asWritten = .ok crd.identified.asWritten := by
  rw [abilityCrd_asWritten, abilityCrd_readsBack isRead]
  rfl

end AbilityFramework.ResourceMgr.Document
