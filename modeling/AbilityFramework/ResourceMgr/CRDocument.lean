import AbilityFramework.Library.WrittenJson
import AbilityFramework.ResourceMgr.CRTables

/-! # Ability CRs as JSON documents

The conversions between an `AbilityCR` and JSON.  A CR is stored as the text of such a document, as the detail
of a template and as the snapshot of an instance, and is read back from it. -/

namespace AbilityFramework.ResourceMgr.Document

open Library LifecycleMgr

/-- The libraries for ids, versions and the texts of JSON documents. -/
structure DocumentEnvironment where
  /-- A version, as `to_string` writes it back. -/
  version : String → Option String
  version_version : ∀ {text written}, version text = some written → version written = some written
  idText : Uuid → String
  readId : String → Option Uuid
  readId_idText : ∀ id, readId (idText id) = some id
  /-- Throws for text that is not valid UTF-8. -/
  dump : Json → Option String
  parse : String → Option Json
  /-- The library's text has the members of an object in the order of their keys, of which no reader here takes notice. -/
  parse_dump : ∀ {json text}, dump json = some text → parse text = some json.asWritten

/-! ## Enumerations -/

/-- A name that is not listed is read as the first value. -/
def enumFromJson {α : Type} (names : List (String × α)) (first : α) : Json → α
  | .string text => (names.lookup text).getD first
  | _ => first

def lifecycleStates : List (String × LifecycleState) :=
  [("Inactive", .inactive), ("Init", .init), ("Standby", .standby), ("Running", .running), ("Suspend", .suspend),
    ("Terminated", .terminated), ("Error", .error), ("Unknown", .unknown)]

def lifecycleStateText : LifecycleState → String
  | .unknown => "Unknown"
  | .inactive => "Inactive"
  | .init => "Init"
  | .standby => "Standby"
  | .running => "Running"
  | .suspend => "Suspend"
  | .terminated => "Terminated"
  | .error => "Error"

inductive OwnershipMode where
  | unique
  | shared
  deriving DecidableEq

def ownershipModes : List (String × OwnershipMode) := [("unique", .unique), ("shared", .shared)]

def OwnershipMode.text : OwnershipMode → String
  | unique => "unique"
  | shared => "shared"

/-- `local` is a keyword. -/
inductive BindMode where
  | onLocal
  | any
  | remote
  deriving DecidableEq

def bindModes : List (String × BindMode) := [("local", .onLocal), ("any", .any), ("remote", .remote)]

def BindMode.text : BindMode → String
  | onLocal => "local"
  | any => "any"
  | remote => "remote"

theorem enumFromJson_lifecycleState (state : LifecycleState) :
    enumFromJson lifecycleStates .inactive (.string (lifecycleStateText state)) = state := by
  cases state <;> rfl

theorem enumFromJson_ownershipMode (mode : OwnershipMode) :
    enumFromJson ownershipModes .unique (.string mode.text) = mode := by
  cases mode <;> rfl

theorem enumFromJson_bindMode (mode : BindMode) : enumFromJson bindModes .onLocal (.string mode.text) = mode := by
  cases mode <;> rfl

/-! ## Records -/

/-- `AbilitySpec::DeviceEntry` -/
structure DeviceEntry where
  deviceName : String
  instanceName : String
  ownership : OwnershipMode := .unique
  bind : BindMode := .onLocal
  deriving DecidableEq

/-- `AbilitySpec::ModelEntry` -/
structure ModelEntry where
  id : String
  deriving DecidableEq

structure AbilitySpec where
  id : Option Uuid
  status : Option Json
  package : String
  version : String
  abilityName : String
  position : String
  priority : Option Int
  activityCondition : Json
  autoStart : Option Bool
  keepAlive : Option Bool
  singleton : Option Bool
  config : Json
  debugOption : Json
  subabilities : List AbilitySpec
  devices : List DeviceEntry
  models : List ModelEntry

structure Tag where
  source : String := ""
  parent : String := ""
  deriving DecidableEq

structure OwnerEntry where
  abilityInstanceId : Uuid := 0
  position : String := ""
  deriving DecidableEq

/-- The times are counts of the clock. -/
structure RunInfo where
  lifecycleState : LifecycleState := .inactive
  lastUpdate : Int := 0
  lastConnect : Int := 0
  deriving DecidableEq

/-- `SubAbilityEntry` and `DeviceEntry` of a CR: what is in use, and where. -/
structure PlacedEntry where
  id : Uuid
  position : String
  deriving DecidableEq

/-- `std::unordered_map<uuids::uuid, std::string>` -/
abbrev Sharers := Relation (Prod.fst (α := Uuid) (β := String))

structure AbilityCR where
  tag : Tag
  sharers : Sharers
  owner : OwnerEntry
  metadata : CRMetadata
  id : Uuid
  kind : String
  status : Json
  runInfo : Option RunInfo
  subabilities : List PlacedEntry
  devices : List PlacedEntry
  spec : AbilitySpec

variable (doc : DocumentEnvironment)

/-! ## To JSON -/

/-- `output_unless_empty` -/
def unlessEmpty (json : Json) : Option Json := if json.isEmpty then none else some json

def arrayUnlessEmpty (items : List Json) : Option Json := if items.isEmpty then none else some (.array items)

def textsToJson (map : StringMap) : Json := .object (map.rows.map fun (key, value) => (key, .string value))

def metadataToJson (metadata : CRMetadata) : Json :=
  .pack
    [("name", some (.string metadata.name)),
      ("labels", unlessEmpty (textsToJson metadata.labels)),
      ("annotations", unlessEmpty (textsToJson metadata.annotations))]

def RunInfo.toJson (info : RunInfo) : Json :=
  .pack
    [("lifecycleState", some (.string (lifecycleStateText info.lifecycleState))),
      ("lastUpdate", some (.integer info.lastUpdate)), ("lastConnect", some (.integer info.lastConnect))]

def DeviceEntry.toJson (entry : DeviceEntry) : Json :=
  .pack
    [("deviceName", some (.string entry.deviceName)), ("instanceName", some (.string entry.instanceName)),
      ("ownership", some (.string entry.ownership.text)), ("bind", some (.string entry.bind.text))]

def ModelEntry.toJson (entry : ModelEntry) : Json := .pack [("id", some (.string entry.id))]

def Tag.toJson (tag : Tag) : Json :=
  .pack [("source", some (.string tag.source)), ("parent", some (.string tag.parent))]

def OwnerEntry.toJson (owner : OwnerEntry) : Json :=
  .pack
    [("abilityInstanceId", some (.string (doc.idText owner.abilityInstanceId))),
      ("position", some (.string owner.position))]

def PlacedEntry.toJson (entry : PlacedEntry) : Json :=
  .pack [("id", some (.string (doc.idText entry.id))), ("position", some (.string entry.position))]

/-- The members of a spec, whose sub-abilities have been converted. -/
def AbilitySpec.members (spec : AbilitySpec) (subabilities : List Json) : List (String × Option Json) :=
  [("id", spec.id.map fun id => .string (doc.idText id)), ("status", spec.status),
    ("priority", spec.priority.map .integer), ("activityCondition", unlessEmpty spec.activityCondition),
    ("autoStart", spec.autoStart.map .boolean), ("keepAlive", spec.keepAlive.map .boolean),
    ("singleton", spec.singleton.map .boolean), ("package", some (.string spec.package)),
    ("version", some (.string spec.version)), ("abilityName", some (.string spec.abilityName)),
    ("position", some (.string spec.position)), ("config", some spec.config),
    ("debugOption", unlessEmpty spec.debugOption),
    ("devices", arrayUnlessEmpty (spec.devices.map DeviceEntry.toJson)),
    ("models", arrayUnlessEmpty (spec.models.map ModelEntry.toJson)),
    ("subabilities", arrayUnlessEmpty subabilities)]

mutual

def AbilitySpec.toJson : AbilitySpec → Json
  | ⟨id, status, package, version, abilityName, position, priority, activityCondition, autoStart, keepAlive, singleton,
      config, debugOption, subabilities, devices, models⟩ =>
    .pack (AbilitySpec.members doc
      ⟨id, status, package, version, abilityName, position, priority, activityCondition, autoStart, keepAlive,
        singleton, config, debugOption, subabilities, devices, models⟩ (specsToJson subabilities))

def specsToJson : List AbilitySpec → List Json
  | [] => []
  | spec :: specs => spec.toJson :: specsToJson specs

end

def sharersToJson (sharers : Sharers) : Json :=
  .object (sharers.rows.map fun (id, position) => (doc.idText id, .string position))

def AbilityCR.members (cr : AbilityCR) : List (String × Option Json) :=
  [("tag", some cr.tag.toJson), ("metadata", some (metadataToJson cr.metadata)),
    ("id", some (.string (doc.idText cr.id))), ("kind", some (.string cr.kind)), ("status", some cr.status),
    ("runInfo", cr.runInfo.map RunInfo.toJson),
    ("subabilities", arrayUnlessEmpty (cr.subabilities.map (PlacedEntry.toJson doc))),
    ("devices", arrayUnlessEmpty (cr.devices.map (PlacedEntry.toJson doc))),
    ("spec", some (cr.spec.toJson doc)), ("sharers", some (sharersToJson doc cr.sharers)),
    ("owner", some (if cr.owner.position.isEmpty then .object [] else cr.owner.toJson doc))]

def AbilityCR.toJson (cr : AbilityCR) : Json := .pack (cr.members doc)

/-! ## From JSON -/

/-- The exception, with the text of the JSON in its message. -/
def throwWith {α : Type} (json : Json) (exception : String → CRException) (message : String) : Except CRException α :=
  (doc.dump json).elim (.error .typeError316) fun text => .error (exception (message ++ text))

def readUuid (json : Json) : Except CRException Uuid :=
  match json with
  | .string text => (doc.readId text).elim (throwWith doc json .invalidArgument "json is not valid uuid: ") .ok
  | _ => throwWith doc json .invalidArgument "json is not valid uuid string: "

def readVersion (json : Json) : Except CRException String := do
  let text ← getStringValue json
  (doc.version text).elim (.error .invalidVersion) .ok

/-- Conversion to `int64_t` -/
def readInt64 : Json → Except CRException Int
  | .integer value => .ok (value.bmod (2 ^ 64))
  | .float value => .ok (value.toInt 64)
  | other => .error (.json (.typeError302 "number" other.typeName))

def readArray {α : Type} (read : Json → Except CRException α) : Json → Except CRException (List α)
  | .array items => items.mapM read
  | other => .error (.json (.typeError302 "array" other.typeName))

/-- `read_optional_unless_empty` -/
def optionalUnlessEmpty {α : Type} (json : Json) (name : String) (read : Json → Except CRException α) (default : α) :
    Except CRException α :=
  optional json name (fun found => if found.isEmpty then .ok default else read found) default

def DeviceEntry.fromJson (json : Json) : Except CRException DeviceEntry := do
  let deviceName ← required json "deviceName" getStringValue
  let instanceName ← required json "instanceName" getStringValue
  let ownership ← optional json "ownership" (fun found => .ok (enumFromJson ownershipModes .unique found)) .unique
  let bind ← optional json "bind" (fun found => .ok (enumFromJson bindModes .onLocal found)) .onLocal
  return { deviceName, instanceName, ownership, bind }

def readAsString (json : Json) : Except CRException String :=
  match json with
  | .string text => .ok text
  | .integer value => .ok (toString (value.bmod (2 ^ 64)))
  | .float value => .ok (toString (value.toInt 64))
  | _ => throwWith doc json .runtimeError "need model id be either number or string, but get: "

def ModelEntry.fromJson (json : Json) : Except CRException ModelEntry := do
  let id ← required json "id" (readAsString doc)
  return { id }

def Tag.fromJson (json : Json) : Except CRException Tag := do
  let source ← required json "source" getStringValue
  let parent ← required json "parent" getStringValue
  return { source, parent }

def OwnerEntry.fromJson (json : Json) : Except CRException OwnerEntry := do
  let abilityInstanceId ← required json "abilityInstanceId" (readUuid doc)
  let position ← required json "position" getStringValue
  return { abilityInstanceId, position }

def PlacedEntry.fromJson (json : Json) : Except CRException PlacedEntry := do
  let id ← required json "id" (readUuid doc)
  let position ← required json "position" getStringValue
  return { id, position }

def RunInfo.fromJson (json : Json) : Except CRException RunInfo := do
  let lifecycleState ← required json "lifecycleState" fun found => .ok (enumFromJson lifecycleStates .inactive found)
  let lastUpdate ← required json "lastUpdate" readInt64
  let lastConnect ← required json "lastConnect" readInt64
  return { lifecycleState, lastUpdate, lastConnect }

/-- What comes before the sub-abilities. -/
def AbilitySpec.read (json : Json) (subabilities : Except CRException (List AbilitySpec)) :
    Except CRException AbilitySpec := do
  let id ← optional json "id" (fun found => (readUuid doc found).map some) none
  let status ← optional json "status" (fun found => .ok (some found)) none
  let package ← required json "package" getStringValue
  let version ← required json "version" (readVersion doc)
  let abilityName ← required json "abilityName" getStringValue
  let position ← optional json "position" getStringValue "localhost"
  let config ← optional json "config" .ok .null
  let debugOption ← optional json "debugOption" .ok .null
  let activityCondition ← optionalUnlessEmpty json "activityCondition" .ok .null
  let priority ← optional json "priority" (fun found => (found.getInt32.mapError .json).map some) none
  let devices ← optionalUnlessEmpty json "devices" (readArray DeviceEntry.fromJson) []
  let models ← optionalUnlessEmpty json "models" (readArray (ModelEntry.fromJson doc)) []
  let subabilities ← subabilities
  let autoStart ← optional json "autoStart" getBoolValue none
  let keepAlive ← optional json "keepAlive" getBoolValue none
  let singleton ← optional json "singleton" getBoolValue none
  return { id, status, package, version, abilityName, position, priority, activityCondition, autoStart, keepAlive,
           singleton, config, debugOption, subabilities, devices, models }

mutual

def AbilitySpec.fromJson : Json → Except CRException AbilitySpec
  | .object members => AbilitySpec.read doc (.object members) (subabilitiesFrom members)
  | other => .error (.json (.typeError304 other.typeName))

/-- The sub-abilities under the first member of this name. -/
def subabilitiesFrom : List (String × Json) → Except CRException (List AbilitySpec)
  | [] => .ok []
  | (key, value) :: members => if key = "subabilities" then specsFrom value else subabilitiesFrom members

/-- What an iteration over the JSON value yields. -/
def specsFrom : Json → Except CRException (List AbilitySpec)
  | .null => .ok []
  | .array items => specsFromItems items
  | .object members => specsFromMembers members
  | other => .error (.json (.typeError304 other.typeName))

def specsFromItems : List Json → Except CRException (List AbilitySpec)
  | [] => .ok []
  | item :: items => do
    let spec ← AbilitySpec.fromJson item
    let specs ← specsFromItems items
    return spec :: specs

def specsFromMembers : List (String × Json) → Except CRException (List AbilitySpec)
  | [] => .ok []
  | (_, item) :: members => do
    let spec ← AbilitySpec.fromJson item
    let specs ← specsFromMembers members
    return spec :: specs

end

/-- Tokens without `@` and tokens that do not begin with an id are skipped. -/
def parseSharers (input : String) : Sharers :=
  (input.toList.splitOn ';').foldl
    (fun sharers token =>
      match token.dropWhile (· ≠ '@') with
      | [] => sharers
      | _ :: position =>
        match doc.readId (String.ofList (token.takeWhile (· ≠ '@'))) with
        | some id => sharers.replaceInto (id, String.ofList position)
        | none => sharers) ∅

def judgeOwnerValidity (text : String) : Bool := ';' ∉ text.toList

def parseOwner (input : String) : Json :=
  match input.toList.dropWhile (· ≠ '@') with
  | [] => .null
  | _ :: position =>
    .pack
      [("abilityInstanceId", some (.string (String.ofList (input.toList.takeWhile (· ≠ '@'))))),
        ("position", some (.string (String.ofList position)))]

/-- What an iteration over `items()` yields. -/
def jsonItems : Json → List (String × Json)
  | .null => []
  | .array items => items.mapIdx fun index item => (toString index, item)
  | .object members => members
  | other => [("", other)]

/-- The right side of the assignment comes first; an id that cannot be read is dereferenced all the same. -/
def addSharer (sharers : Sharers) (member : String × Json) : Except CRException Sharers := do
  let position ← getStringValue member.2
  let id ← (doc.readId member.1).elim (.error .undefined) .ok
  return sharers.replaceInto (id, position)

def readSharers (json : Json) : Except CRException Sharers := (jsonItems json).foldlM (addSharer doc) ∅

/-- Sharers as the labels give them. -/
def labelledSharers (labels : StringMap) : Sharers :=
  match labels.lookup "fwk.io/sharers" with
  | none => ∅
  | some (_, text) => parseSharers doc text

/-- The owner as the labels give it. -/
def labelledOwner (labels : StringMap) : Except CRException OwnerEntry :=
  match labels.lookup "fwk.io/owner" with
  | none => .ok {}
  | some (_, text) => if judgeOwnerValidity text then OwnerEntry.fromJson doc (parseOwner text) else .ok {}

def AbilityCR.fromJson (json : Json) : Except CRException AbilityCR := do
  let tag ← optional json "tag" Tag.fromJson {}
  let metadata ← required json "metadata" CRMetadata.fromJson
  let id ← optional json "id" (readUuid doc) 0
  let kind ← required json "kind" getStringValue
  let status ← optional json "status" .ok .null
  let runInfo ← optionalUnlessEmpty json "runInfo" (fun found => (RunInfo.fromJson found).map some) none
  let subabilities ← optionalUnlessEmpty json "subabilities" (readArray (PlacedEntry.fromJson doc)) []
  let devices ← optionalUnlessEmpty json "devices" (readArray (PlacedEntry.fromJson doc)) []
  let owner ← labelledOwner doc metadata.labels
  let sharers ← optionalUnlessEmpty json "sharers" (readSharers doc) (labelledSharers doc metadata.labels)
  let owner ← optionalUnlessEmpty json "owner" (OwnerEntry.fromJson doc) owner
  let spec ← required json "spec" (AbilitySpec.fromJson doc)
  return { tag, sharers, owner, metadata, id, kind, status, runInfo, subabilities, devices, spec }

end AbilityFramework.ResourceMgr.Document
