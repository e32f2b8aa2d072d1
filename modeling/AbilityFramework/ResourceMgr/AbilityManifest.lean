import AbilityFramework.ResourceMgr.CRDocument

/-! # Manifests of abilities

The file `ability.manifest.yaml` of a package describes the ability in it; `read_package` makes the CRD of the
ability from it. -/

namespace AbilityFramework.ResourceMgr.Document

open Library

/-! ## What an ability depends on -/

/-- `AbilityDep` and `DeviceDep`, which differ in the name of one member. -/
structure Dependency where
  package : String := ""
  className : String
  ownership : OwnershipMode := .unique
  bind : BindMode := .onLocal
  description : String := ""
  deriving DecidableEq

structure Dependencies where
  abilities : List Dependency := []
  additionalAbilities : List Dependency := []
  /-- There is one ability, which stands for any number of them. -/
  numAbilityIsArbitrary : Bool := false
  devices : List Dependency := []
  additionalDevices : List Dependency := []
  deriving DecidableEq

def Dependency.fromJson (className : String) (json : Json) : Except CRException Dependency := do
  let name ← required json className getStringValue
  let ownership ← optional json "ownership" (fun found => .ok (enumFromJson ownershipModes .unique found)) .unique
  let package ← optional json "package" getStringValue ""
  let bind ← optional json "bind" (fun found => .ok (enumFromJson bindModes .onLocal found)) .onLocal
  let description ← optional json "description" getStringValue ""
  return { package, className := name, ownership, bind, description }

def textUnlessEmpty (text : String) : Option Json := if text.isEmpty then none else some (.string text)

def Dependency.toJson (className : String) (dependency : Dependency) : Json :=
  .pack
    [("package", textUnlessEmpty dependency.package), (className, some (.string dependency.className)),
      ("ownership", some (.string dependency.ownership.text)), ("bind", some (.string dependency.bind.text)),
      ("description", textUnlessEmpty dependency.description)]

/-- The abilities, and whether their number is arbitrary. -/
def readAbilityDependencies : Json → Except CRException (List Dependency × Bool)
  | .array items => do return (← items.mapM (Dependency.fromJson "abilityName"), false)
  | .object members => do return ([← Dependency.fromJson "abilityName" (.object members)], true)
  | _ => .error (.other "invalid field /depends/abilities")

def Dependencies.fromJson (json : Json) : Except CRException Dependencies := do
  let (abilities, numAbilityIsArbitrary) ← optional json "abilities" readAbilityDependencies ([], false)
  let devices ← optional json "devices" (readArray (Dependency.fromJson "deviceName")) []
  let additionalAbilities ← optional json "additionalAbilities" (readArray (Dependency.fromJson "abilityName")) []
  let additionalDevices ← optional json "additionalDevices" (readArray (Dependency.fromJson "deviceName")) []
  return { abilities, additionalAbilities, numAbilityIsArbitrary, devices, additionalDevices }

/-- `empty` -/
def Dependencies.isEmpty (depends : Dependencies) : Bool :=
  depends.abilities.isEmpty && depends.devices.isEmpty && depends.additionalDevices.isEmpty &&
    depends.additionalAbilities.isEmpty

def Dependencies.toJson (depends : Dependencies) : Json :=
  .pack
    [("abilities",
        if depends.numAbilityIsArbitrary then depends.abilities.head?.map (Dependency.toJson "abilityName")
        else arrayUnlessEmpty (depends.abilities.map (Dependency.toJson "abilityName"))),
      ("devices", arrayUnlessEmpty (depends.devices.map (Dependency.toJson "deviceName"))),
      ("additionalAbilities", arrayUnlessEmpty (depends.additionalAbilities.map (Dependency.toJson "abilityName"))),
      ("additionalDevices", arrayUnlessEmpty (depends.additionalDevices.map (Dependency.toJson "deviceName")))]

/-! ## Manifests -/

/-- `AbilityManifest::Schema` -/
structure ManifestSchema where
  constants : Json := .null
  openAPIV3Schema : Json := .null
  deriving DecidableEq

structure FwkDetail where
  complete : Bool := false
  refExpanded : Bool := false
  deriving DecidableEq

structure AbilityManifest where
  abilityName : String
  kind : String
  provides : Json := .null
  types : Json := .null
  rpcMethods : Json := .null
  tasks : Json := .null
  config : Json := .null
  debugOption : Json := .null
  schema : ManifestSchema := {}
  depends : Dependencies := {}
  fwk : FwkDetail := {}
  deriving DecidableEq

def ManifestSchema.fromJson (json : Json) : Except CRException ManifestSchema := do
  let constants ← optional json "constants" .ok .null
  let openAPIV3Schema ← optional json "openAPIV3Schema" .ok .null
  return { constants, openAPIV3Schema }

def ManifestSchema.toJson (schema : ManifestSchema) : Json :=
  .pack
    [("constants", unlessEmpty schema.constants),
      ("openAPIV3Schema", if schema.openAPIV3Schema = .null then none else some schema.openAPIV3Schema)]

def FwkDetail.fromJson (json : Json) : Except CRException FwkDetail := do
  let complete ← optional json "complete" (fun found => found.getBool.mapError .json) false
  let refExpanded ← optional json "ref_expanded" (fun found => found.getBool.mapError .json) false
  return { complete, refExpanded }

def AbilityManifest.fromJson (json : Json) : Except CRException AbilityManifest := do
  let abilityName ← required json "abilityName" getStringValue
  let kind ← required json "kind" getStringValue
  let provides ← optional json "provides" .ok .null
  let types ← optional json "types" .ok .null
  let rpcMethods ← optional json "rpcMethods" .ok .null
  let tasks ← optional json "tasks" .ok .null
  let config ← optional json "config" .ok .null
  let debugOption ← optional json "debugOption" .ok .null
  let schema ← optional json "schema" ManifestSchema.fromJson {}
  let depends ← optional json "depends" Dependencies.fromJson {}
  let fwk ← optional json "fwk" FwkDetail.fromJson {}
  return { abilityName, kind, provides, types, rpcMethods, tasks, config, debugOption, schema, depends, fwk }

def AbilityManifest.toJson (manifest : AbilityManifest) : Json :=
  .pack
    [("abilityName", some (.string manifest.abilityName)), ("kind", some (.string manifest.kind)),
      ("provides", unlessEmpty manifest.provides), ("types", unlessEmpty manifest.types),
      ("rpcMethods", unlessEmpty manifest.rpcMethods), ("tasks", unlessEmpty manifest.tasks),
      ("config", unlessEmpty manifest.config), ("debugOption", unlessEmpty manifest.debugOption),
      ("schema", some manifest.schema.toJson),
      ("depends", if manifest.depends.isEmpty then none else some manifest.depends.toJson)]

/-! ## CRDs -/

/-- The CRD of the ability, for a package of this name and version. -/
def AbilityManifest.crdJson (manifest : AbilityManifest) (packageName version id : String) : Json :=
  .pack
    [("packageName", some (.string packageName)), ("version", some (.string version)),
      ("kind", some (.string manifest.kind)),
      ("depends", if manifest.depends.isEmpty then none else some manifest.depends.toJson),
      ("id", some (.string id)), ("metadata", some (.object [("name", .string manifest.abilityName)])),
      ("spec", some (.pack
        [("provides", unlessEmpty manifest.provides),
          ("schema", some (.pack
            [("constants", unlessEmpty manifest.schema.constants),
              ("openAPIV3Schema", some manifest.schema.openAPIV3Schema)])),
          ("types", unlessEmpty manifest.types), ("rpcMethods", unlessEmpty manifest.rpcMethods),
          ("tasks", unlessEmpty manifest.tasks), ("config", unlessEmpty manifest.config),
          ("debugOption", unlessEmpty manifest.debugOption)])),
      ("fwk", some (.object [("complete", .boolean false), ("ref_expanded", .boolean false)]))]

end AbilityFramework.ResourceMgr.Document
