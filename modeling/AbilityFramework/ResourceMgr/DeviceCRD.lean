import AbilityFramework.ResourceMgr.AbilityCRD

/-! # Device CRDs

`device_crd.cpp`: the CRD of a device class as a JSON document. -/

namespace AbilityFramework.ResourceMgr.Document

open Library

/-! ## Records -/

/-- `DeviceCRD::Access` -/
structure Access where
  type : String
  params : Json := .null
  deriving DecidableEq

/-- `DeviceCRD::Spec` -/
structure DeviceCRDSpec where
  access : List Access := []
  openAPIV3Schema : Json := .null
  deriving DecidableEq

structure DeviceCRD where
  package : String
  version : String
  kind : String
  metadata : CRMetadata
  id : Uuid := 0
  description : Option String := none
  spec : DeviceCRDSpec

variable (doc : DocumentEnvironment)

/-- `DeviceCRD::Metadata` reads empty containers as missing ones. -/
def deviceMetadataFromJson (json : Json) : Except CRException CRMetadata := do
  let name ← required json "name" getStringValue
  let labels ← optionalUnlessEmpty json "labels" getStringMap ∅
  let annotations ← optionalUnlessEmpty json "annotations" getStringMap ∅
  return { name, labels, annotations }

def Access.fromJson (json : Json) : Except CRException Access := do
  let type ← required json "type" getStringValue
  let params ← optionalUnlessEmpty json "params" .ok .null
  return { type, params }

def Access.toJson (access : Access) : Json :=
  .pack [("type", some (.string access.type)), ("params", unlessEmpty access.params)]

def DeviceCRDSpec.fromJson (json : Json) : Except CRException DeviceCRDSpec := do
  let access ← optionalUnlessEmpty json "access" (readArray Access.fromJson) []
  return { access, openAPIV3Schema := ((json.find "schema").bind (·.find "openAPIV3Schema")).getD .null }

def DeviceCRDSpec.members (spec : DeviceCRDSpec) : List (String × Option Json) :=
  [("access", arrayUnlessEmpty (spec.access.map Access.toJson)),
    ("schema", (unlessEmpty spec.openAPIV3Schema).map fun schema => .object [("openAPIV3Schema", schema)])]

/-- A JSON value to which nothing is assigned stays null. -/
def DeviceCRDSpec.toJson (spec : DeviceCRDSpec) : Json :=
  if spec.access.isEmpty && spec.openAPIV3Schema.isEmpty then .null else .pack spec.members

def DeviceCRD.fromJson (json : Json) : Except CRException DeviceCRD := do
  let package ← required json "packageName" getStringValue
  let version ← required json "version" (readVersion doc)
  let kind ← required json "kind" getStringValue
  let metadata ← required json "metadata" deviceMetadataFromJson
  let id ← optional json "id" (readUuid doc) 0
  let description ← optional json "description" (fun found => (getStringValue found).map some) none
  let spec ← required json "spec" DeviceCRDSpec.fromJson
  return { package, version, kind, metadata, id, description, spec }

def DeviceCRD.members (crd : DeviceCRD) : List (String × Option Json) :=
  [("packageName", some (.string crd.package)), ("version", some (.string crd.version)),
    ("kind", some (.string crd.kind)), ("metadata", some (metadataToJson crd.metadata)),
    ("id", some (.string (doc.idText crd.id))), ("description", crd.description.map .string),
    ("spec", some crd.spec.toJson)]

def DeviceCRD.toJson (crd : DeviceCRD) : Json := .pack (crd.members doc)

end AbilityFramework.ResourceMgr.Document
