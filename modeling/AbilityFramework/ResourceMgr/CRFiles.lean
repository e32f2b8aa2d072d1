import AbilityFramework.Library.Json
import AbilityFramework.Library.Relation
import AbilityFramework.ResourceMgr.AbilityCR
import AbilityFramework.Util.YamlToJson

/-! # Files of CRs

`read_cr_from_yaml`: what a YAML file of the CR directory holds, as an ability CR, a device CR or neither.
Exceptions leave `read_cr_from_yaml`, and with it the scan of the directory; everything else that is
wrong with a file makes it neither.

Of a CR there is what the tables hold of it.  The rest is read by a parameter, which yields the JSON value
that the CR as a whole is written as.  A text is its bytes, each a character: it need not be UTF-8. -/

namespace AbilityFramework.ResourceMgr

open Library

inductive Yaml where
  | null
  | scalar (text : String)
  | sequence (items : List Yaml)
  | map (members : List (String × Yaml))

mutual

/-- A document whose keys are scalars, as a node of the YAML library. -/
def Yaml.node : Yaml → Util.YamlNode
  | .null => .null
  | .scalar text => .scalar text
  | .sequence items => .sequence (Yaml.nodes items)
  | .map members => .map (Yaml.entries members)

def Yaml.nodes : List Yaml → List Util.YamlNode
  | [] => []
  | item :: items => item.node :: Yaml.nodes items

def Yaml.entries : List (String × Yaml) → List (Util.YamlNode × Util.YamlNode)
  | [] => []
  | (key, value) :: members => (.scalar key, value.node) :: Yaml.entries members

end

inductive CRException where
  /-- A member of a member that is not there. -/
  | invalidNode
  /-- A member of a scalar. -/
  | badSubscript
  | json (error : Json.Error)
  /-- `operator[]` with a key on something that is not an object. -/
  | typeError305 (actual : String)
  | invalidVersion
  /-- `dump()` of text that is not UTF-8. -/
  | typeError316
  | invalidArgument (message : String)
  | runtimeError (message : String)
  /-- An empty optional is dereferenced: undefined behaviour, which no handler catches. -/
  | undefined
  /-- An exception leaves a destructor, which ends the process. -/
  | terminated
  | other (message : String)

/-! ## YAML -/

/-- `node[key]`, of a node that is there or not. -/
def Yaml.member : Option Yaml → String → Except CRException (Option Yaml)
  | none, _ => .error .invalidNode
  | some (.scalar _), _ => .error .badSubscript
  | some (.map members), key => .ok (members.lookup key)
  | some .null, _ => .ok none
  | some (.sequence _), _ => .ok none

/-- A scalar at a path of keys, or else the message of what it needs. -/
def Yaml.getScalar (yaml : Yaml) (path : List String) (missing notScalar : String) :
    Except CRException (Except String String) := do
  match ← path.foldlM Yaml.member (some yaml) with
  | none => return .error missing
  | some (.scalar text) => return .ok text
  | some _ => return .error notScalar

def getKind (crd : Yaml) : Except CRException (Except String String) :=
  crd.getScalar ["kind"] "needs /kind" "needs /kind be scalar"

def getName (crd : Yaml) : Except CRException (Except String String) :=
  crd.getScalar ["metadata", "name"] "needs /metadata/name" "needs /metadata/name be string"

def getSpecPackage (cr : Yaml) : Except CRException (Except String String) :=
  cr.getScalar ["spec", "package"] "needs /spec/package" "needs /spec/package be scalar"

/-- `kind.find("Ability") != npos` -/
def isAbility (kind : String) : Bool := kind.toList.tails.any fun tail => "Ability".toList.isPrefixOf tail

/-- What lies outside a file: the libraries, the framework's own settings and what is installed. -/
structure CREnvironment where
  /-- `node.as<int64_t>()`, or else `node.as<double>()`. -/
  number : String → Option Json
  /-- A version, as `to_string` writes it back. -/
  version : String → Option String
  makeUuid : String → String → String → String → Uuid
  idText : Uuid → String
  frameworkId : String
  frameworkName : String
  /-- The members of an ability CR that no table has a column for; the CR as a whole. -/
  abilityRest : Json → Except CRException Json
  deviceRest : Json → Except CRException Json
  /-- `dump()`, which throws on text that is not UTF-8. -/
  dump : Json → Except CRException String

variable (env : CREnvironment)

def getSpecVersion (cr : Yaml) : Except CRException (Except String String) := do
  match ← cr.getScalar ["spec", "version"] "need /spec/version" "need /spec/version" with
  | .error message => return .error message
  | .ok text => return (env.version text).elim (.error "error parsing version: ") .ok

def yamlToJson (yaml : Yaml) : Json := Util.yamlToJson env.number yaml.node

/-- An assignment through `operator[]`, which makes an object of null. -/
def assign (json : Json) (path : List String) (value : Json) : Except CRException Json :=
  match path, json with
  | [], _ => .ok value
  | key :: path, .null => do return .object [(key, ← assign .null path value)]
  | key :: path, .object members => do
    let member ← assign ((members.lookup key).getD .null) path value
    return .object (members.filter (·.1 ≠ key) ++ [(key, member)])
  | _ :: _, other => .error (.typeError305 other.typeName)

theorem lookup_cons_eq (key other : String) (member : Json) (members : List (String × Json)) :
    ((key, member) :: members).lookup other = if other = key then some member else members.lookup other := by
  rw [List.lookup_cons]
  by_cases same : other = key
  · rw [if_pos same, beq_iff_eq.mpr same]
  · rw [if_neg same, beq_eq_false_iff_ne.mpr same]

theorem lookup_written {members : List (String × Json)} {key other : String} {member : Json} :
    (members.filter (·.1 ≠ key) ++ [(key, member)]).lookup other =
      if other = key then some member else members.lookup other := by
  induction members with
  | nil => simp [lookup_cons_eq]
  | cons first members inductionHypothesis =>
    obtain ⟨firstKey, first⟩ := first
    by_cases isKey : firstKey = key
    · rw [List.filter_cons_of_neg (by simp [isKey]), inductionHypothesis, lookup_cons_eq, isKey]
      split <;> rfl
    · rw [List.filter_cons_of_pos (by simp [isKey]), List.cons_append, lookup_cons_eq, inductionHypothesis,
        lookup_cons_eq]
      by_cases isFirst : other = firstKey
      · simp [isFirst, isKey]
      · simp [isFirst]

/-- The member under the first key is assigned to, the others stay. -/
theorem find_assign {json after value : Json} {key : String} {path : List String}
    (written : assign json (key :: path) value = .ok after) :
    (∃ member, assign ((json.find key).getD .null) path value = .ok member ∧ after.find key = some member) ∧
      ∀ other, other ≠ key → after.find other = json.find other := by
  cases json with
  | null =>
    obtain ⟨member, assigned, same⟩ := except_bind_eq_ok.mp written
    cases same
    refine ⟨⟨member, assigned, ?_⟩, fun other different => ?_⟩
    · show List.lookup key [(key, member)] = some member
      rw [lookup_cons_eq, if_pos rfl]
    · show List.lookup other [(key, member)] = none
      rw [lookup_cons_eq, if_neg different, List.lookup_nil]
  | object members =>
    obtain ⟨member, assigned, same⟩ := except_bind_eq_ok.mp written
    cases same
    refine ⟨⟨member, assigned, ?_⟩, fun other different => ?_⟩
    · exact lookup_written.trans (if_pos rfl)
    · exact lookup_written.trans (if_neg different)
  | boolean | integer | float | string | array => cases written

/-! ## CRs -/

/-- `std::unordered_map<std::string, std::string>` -/
abbrev StringMap := Relation (Prod.fst (α := String) (β := String))

structure CRMetadata where
  name : String
  labels : StringMap
  annotations : StringMap

/-- An `AbilityCR` as it is read. -/
structure AbilityCRData where
  id : Uuid
  kind : String
  metadata : CRMetadata
  spec : AbilitySpec
  /-- `nlohmann::json(cr)` -/
  whole : Json

/-- An `AbilityCR` as the tables hold it. -/
structure AbilityCRContent where
  id : Uuid
  kind : String
  metadata : CRMetadata
  spec : AbilitySpec
  /-- `nlohmann::json(cr).dump()` -/
  detail : String

structure DeviceSpec where
  package : String
  deviceName : String
  version : String
  deriving DecidableEq

structure DeviceCRData where
  id : Uuid
  kind : String
  metadata : CRMetadata
  spec : DeviceSpec
  whole : Json

structure DeviceCRContent where
  id : Uuid
  kind : String
  metadata : CRMetadata
  spec : DeviceSpec
  detail : String

inductive CRData where
  | ability (cr : AbilityCRData)
  | device (cr : DeviceCRData)

inductive CRContent where
  | ability (cr : AbilityCRContent)
  | device (cr : DeviceCRContent)

section FromJson

def required {α : Type} (json : Json) (name : String) (get : Json → Except CRException α) : Except CRException α :=
  match json.getAt name with
  | .error error => .error (.json error)
  | .ok found => get found

/-- `read_optional` -/
def optional {α : Type} (json : Json) (name : String) (get : Json → Except CRException α) (default : α) :
    Except CRException α :=
  match json.find name with
  | none => .ok default
  | some found => get found

def getStringValue (json : Json) : Except CRException String := json.getString.mapError .json

def getBoolValue (json : Json) : Except CRException (Option Bool) := (json.getBool.mapError .json).map some

def getStringMap : Json → Except CRException StringMap
  | .object members => members.foldlM
      (fun map (key, value) => do return map.replaceInto (key, ← getStringValue value)) ∅
  | other => .error (.json (.typeError302 "object" other.typeName))

def getVersion (json : Json) : Except CRException String := do
  let text ← getStringValue json
  (env.version text).elim (.error .invalidVersion) .ok

def CRMetadata.fromJson (json : Json) : Except CRException CRMetadata := do
  let name ← required json "name" getStringValue
  let labels ← optional json "labels" getStringMap ∅
  let annotations ← optional json "annotations" getStringMap ∅
  return { name, labels, annotations }

def abilitySpecFromJson (json : Json) : Except CRException AbilitySpec := do
  let package ← required json "package" getStringValue
  let version ← required json "version" (getVersion env)
  let abilityName ← required json "abilityName" getStringValue
  let position ← optional json "position" getStringValue "localhost"
  let autoStart ← optional json "autoStart" getBoolValue none
  let keepAlive ← optional json "keepAlive" getBoolValue none
  let singleton ← optional json "singleton" getBoolValue none
  return { package, version, abilityName, position, autoStart, keepAlive, singleton }

def DeviceSpec.fromJson (json : Json) : Except CRException DeviceSpec := do
  let package ← required json "package" getStringValue
  let deviceName ← required json "deviceName" getStringValue
  let version ← required json "version" (getVersion env)
  return { package, deviceName, version }

/-- The id is the one that has just been written into the JSON. -/
def AbilityCRData.fromJson (id : Uuid) (json : Json) : Except CRException AbilityCRData := do
  let metadata ← required json "metadata" CRMetadata.fromJson
  let kind ← required json "kind" getStringValue
  let whole ← env.abilityRest json
  let spec ← required json "spec" (abilitySpecFromJson env)
  return { id, kind, metadata, spec, whole }

def DeviceCRData.fromJson (id : Uuid) (json : Json) : Except CRException DeviceCRData := do
  let kind ← required json "kind" getStringValue
  let metadata ← required json "metadata" CRMetadata.fromJson
  let whole ← env.deviceRest json
  let spec ← required json "spec" (DeviceSpec.fromJson env)
  return { id, kind, metadata, spec, whole }

end FromJson

/-! ## A file -/

/-- The checks that a CR has to pass, which ask other nodes and what is installed. -/
structure CRChecks where
  checkAbilityCrValidity : AbilityCRData → Except CRException (Except String Unit)
  checkDeviceCrValidity : DeviceCRData → Except CRException (Except String Unit)
  getAbilityManifest : String → String → Option Json
  validateCrTasksField : Json → Json → Except String Unit

variable (checks : CRChecks)

def assignAll (json : Json) (members : List (List String × Json)) : Except CRException Json :=
  members.foldlM (fun json (path, value) => assign json path value) json

/-- The node that a CR is on. -/
def onNode : List (List String × Json) :=
  [(["metadata", "labels", "fwk.io/onNode/id"], .string env.frameworkId),
    (["metadata", "labels", "fwk.io/onNode/name"], .string env.frameworkName)]

def abilityMembers (id : Uuid) : List (List String × Json) :=
  [(["id"], .string (env.idText id)), (["tag", "source"], .string "file"), (["tag", "parent"], .string "file")] ++
    onNode env ++
    [(["runInfo", "lifecycleState"], .string "Inactive"), (["runInfo", "lastUpdate"], .integer 0),
      (["runInfo", "lastConnect"], .integer 0)]

def deviceMembers (id : Uuid) : List (List String × Json) := (["id"], .string (env.idText id)) :: onNode env

def readCrFromYaml (cr : Yaml) : Except CRException (Option CRData) := do
  let .ok name ← getName cr | return none
  let .ok kind ← getKind cr | return none
  if isAbility kind then
    let .ok packageName ← getSpecPackage cr | return none
    let .ok version ← getSpecVersion env cr | return none
    let id := env.makeUuid packageName version name kind
    let json ← assignAll (yamlToJson env cr) (abilityMembers env id)
    let content ← AbilityCRData.fromJson env id json
    let .ok () ← checks.checkAbilityCrValidity content | return none
    match checks.getAbilityManifest content.spec.abilityName content.spec.version with
    | none => return none
    | some manifest =>
      match checks.validateCrTasksField json manifest with
      | .error _ => return none
      | .ok () => return some (.ability content)
  else if kind = "Device" then
    let .ok packageName ← getSpecPackage cr | return none
    let .ok version ← getSpecVersion env cr | return none
    let id := env.makeUuid packageName version name kind
    let json ← assignAll (yamlToJson env cr) (deviceMembers env id)
    let content ← DeviceCRData.fromJson env id json
    let .ok () ← checks.checkDeviceCrValidity content | return none
    return some (.device content)
  else return none

/-- A CR is written as text where it is added, in a transaction that changes nothing if that throws. -/
def CRData.content : CRData → Except CRException CRContent
  | .ability { id, kind, metadata, spec, whole } => do
    return .ability { id, kind, metadata, spec, detail := ← env.dump whole }
  | .device { id, kind, metadata, spec, whole } => do
    return .device { id, kind, metadata, spec, detail := ← env.dump whole }

/-- What there is to add of a file. -/
def loadCr (cr : Yaml) : Except CRException (Option CRContent) := do
  match ← readCrFromYaml env checks cr with
  | none => return none
  | some data => return some (← data.content env)

/-! ## A plain file -/

/-- A CR of version 1.0.0 with nothing but what it needs. -/
def crYaml (kind package nameKey className instanceName : String) : Yaml :=
  .map
    [("kind", .scalar kind), ("metadata", .map [("name", .scalar instanceName)]),
      ("spec", .map
        [("package", .scalar package), ("version", .scalar "1.0.0"), (nameKey, .scalar className)])]

/-- The libraries on the texts of such a file, none of which is a number. -/
def plainEnvironment : CREnvironment where
  number _ := none
  version := some
  makeUuid package _ _ _ := package.length
  idText _ := "00000000-0000-0000-0000-000000000000"
  frameworkId := "node"
  frameworkName := "node"
  abilityRest _ := .ok (.string "ability")
  deviceRest _ := .ok (.string "device")
  dump
    | .string text => .ok ("\"" ++ text ++ "\"")
    | _ => .error .typeError316

def acceptsAll : CRChecks where
  checkAbilityCrValidity _ := .ok (.ok ())
  checkDeviceCrValidity _ := .ok (.ok ())
  getAbilityManifest _ _ := some .null
  validateCrTasksField _ _ := .ok ()

end AbilityFramework.ResourceMgr
