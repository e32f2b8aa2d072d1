import AbilityFramework.ResourceMgr.CRDocument

/-! # Device CRs as JSON documents

`from_json` of `device_cr.cpp`.  A failure is written to the log with the whole document, by an object whose
destructor runs during the unwinding. -/

namespace AbilityFramework.ResourceMgr.Document

open Library

/-- `DeviceSpec::Access` -/
structure DeviceAccess where
  type : String
  params : Json := .null

structure DeviceSpec where
  package : String
  deviceName : String
  version : String
  position : String := "localhost"
  ownership : OwnershipMode := .unique
  bind : BindMode := .onLocal
  /-- All members but those of the node. -/
  someDevice : List (String × Json)
  access : DeviceAccess

structure DeviceCR where
  kind : String
  description : String := ""
  metadata : CRMetadata
  id : Uuid := 0
  status : Json := .null
  spec : DeviceSpec
  sharers : Sharers
  owner : OwnerEntry

variable (doc : DocumentEnvironment)

/-- `semver::from_json` -/
def readSemver (json : Json) : Except CRException String :=
  match json with
  | .string text => (doc.version text).elim (.error .invalidVersion) .ok
  | _ => throwWith doc json .invalidArgument "json is not valid semver string: "

def DeviceAccess.fromJson (json : Json) : Except CRException DeviceAccess := do
  let type ← required json "type" getStringValue
  let params ← optionalUnlessEmpty json "params" .ok .null
  return { type, params }

def DeviceSpec.fromJson (json : Json) : Except CRException DeviceSpec := do
  let package ← required json "package" getStringValue
  let deviceName ← required json "deviceName" getStringValue
  let version ← required json "version" (readSemver doc)
  let position ← optional json "position" getStringValue "localhost"
  let ownership ← optional json "ownership" (fun found => .ok (enumFromJson ownershipModes .unique found)) .unique
  let bind ← optional json "bind" (fun found => .ok (enumFromJson bindModes .onLocal found)) .onLocal
  let access ← required json "access" DeviceAccess.fromJson
  let someDevice := (jsonItems json).filter fun member => member.1 ∉ ["position", "ownership", "bind"]
  return { package, deviceName, version, position, ownership, bind, someDevice, access }

/-- Without the log. -/
def DeviceCR.fromJson (json : Json) : Except CRException DeviceCR := do
  let kind ← required json "kind" getStringValue
  let description ← optional json "description" getStringValue ""
  let metadata ← required json "metadata" CRMetadata.fromJson
  let id ← optional json "id" (readUuid doc) 0
  let status ← optional json "status" .ok .null
  let spec ← required json "spec" (DeviceSpec.fromJson doc)
  let owner ← labelledOwner doc metadata.labels
  let sharers ← optionalUnlessEmpty json "sharers" (readSharers doc) (labelledSharers doc metadata.labels)
  let owner ← optionalUnlessEmpty json "owner" (OwnerEntry.fromJson doc) owner
  return { kind, description, metadata, id, status, spec, sharers, owner }

end AbilityFramework.ResourceMgr.Document
