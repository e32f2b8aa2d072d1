import AbilityFramework.Library.ByteText
import AbilityFramework.ResourceMgr.CRDocument

/-! # Schemas of CRs

The schema that a manifest gives for its CRs is expanded before a CR is checked against it: `x-intentable` becomes
a value with an intent, `x-ref` the schema of a status of one of the sub-abilities, whose manifest is read from its
package. -/

namespace AbilityFramework.ResourceMgr.Document

open Library

abbrev ErrorMsg := String

/-! ## JSON pointers -/

/-- `none` for a token that is not there.  No token here is an index of an array. -/
def getChecked : Json → List String → Except ErrorMsg (Option Json)
  | json, [] => .ok (some json)
  | .object members, key :: path =>
    match members.lookup key with
    | none => .ok none
    | some member => getChecked member path
  | .array _, key :: _ =>
    .error ("[json.exception.parse_error.109] parse error: array index '" ++ key ++ "' is not a number")
  | .null, _ :: _ | .boolean _, _ :: _ | .integer _, _ :: _ | .float _, _ :: _ | .string _, _ :: _ => .ok none

/-- `value` with a pointer and null as the default. -/
def valueAt (json : Json) (path : List String) : Except ErrorMsg Json :=
  match json with
  | .object _ => return (← getChecked json path).getD .null
  | other => .error ("[json.exception.type_error.306] cannot use value() with " ++ other.typeName)

/-- A token as `to_string` writes it. -/
def pointerToken (key : String) : String :=
  String.ofList ('/' :: key.toList.flatMap fun char =>
    if char = '~' then ['~', '0'] else if char = '/' then ['~', '1'] else [char])

def schemaPath : List String := ["spec", "schema", "openAPIV3Schema"]

/-! ## `x-intentable` -/

/-- A value of the schema with an intent. -/
def intentSchema (inner : Json) : Json :=
  .object
    [("type", .string "object"), ("properties", .object [("value", inner), ("intent", inner)]),
      ("required", .array [.string "value"])]

mutual

/-- An empty object or array becomes null. -/
def expandIntentable (current : String) : Json → Except ErrorMsg Json
  | .object members =>
    match members.lookup "x-intentable" with
    | some inner =>
      if inner.isEmpty then .error ("invalid intentable format at" ++ current) else .ok (intentSchema inner)
    | none => do
      let expanded ← expandIntentableMembers current members
      return if expanded.isEmpty then .null else .object expanded
  | .array items => do
    let expanded ← expandIntentableItems current 0 items
    return if expanded.isEmpty then .null else .array expanded
  | .null => .ok .null
  | .boolean value => .ok (.boolean value)
  | .integer value => .ok (.integer value)
  | .float value => .ok (.float value)
  | .string value => .ok (.string value)

def expandIntentableMembers (current : String) : List (String × Json) → Except ErrorMsg (List (String × Json))
  | [] => .ok []
  | (key, value) :: members => do
    let expanded ← expandIntentable (current ++ pointerToken key) value
    return (key, expanded) :: (← expandIntentableMembers current members)

def expandIntentableItems (current : String) (index : Nat) : List Json → Except ErrorMsg (List Json)
  | [] => .ok []
  | item :: items =>
    -- The index is read back from its text as an `int`.
    if 2147483647 < index then .error "stoi"
    else do
      let expanded ← expandIntentable (current ++ pointerToken (toString index)) item
      return expanded :: (← expandIntentableItems current (index + 1) items)

end

/-! ## Manifests of sub-abilities -/

/-- The file `ability.manifest.yaml` of a package. -/
inductive ManifestFile where
  | missing
  | unreadable
  | yaml (json : Json)

/-- The manifests under `packages`, by package and version. -/
abbrev PackageManifests := String → String → ManifestFile

/-- `schema/openAPIV3Schema`, if there is a manifest and it has one. -/
def manifestSchema : ManifestFile → Option Json
  | .yaml manifest => (manifest.find "schema").bind fun schema => schema.find "openAPIV3Schema"
  | .missing | .unreadable => none

def compatibleCrd (schema : Json) : Json :=
  .object [("spec", .object [("schema", .object [("openAPIV3Schema", schema)])])]

variable (manifests : PackageManifests)

/-- Null where there is no schema to be found. -/
def getSubAbilityCrd (sub : AbilitySpec) : Json :=
  (manifestSchema (manifests sub.package sub.version)).elim .null compatibleCrd

/-! ## `x-ref` -/

def svToInteger (text : ByteText) : Except ErrorMsg Int :=
  text.fromChars.elim (.error ("parse number failed:" ++ text.decode)) .ok

structure SubRefEntry where
  /-- The index of the sub-ability. -/
  number : Int
  /-- The name of the status of the sub-ability. -/
  subKey : ByteText
  deriving DecidableEq

namespace SubRefEntry

/-- A text without `/sub/` has its number at 4, where the addition wraps to. -/
def numberStart (ref : ByteText) : Nat := (ref.find (.ofString "/sub/")).elim 4 (· + 5)

/-- The number goes to the end if the `#` comes before it. -/
def numberField (ref : ByteText) (stop : Nat) : ByteText :=
  if numberStart ref ≤ stop then (ref.take stop).drop (numberStart ref) else ref.drop (numberStart ref)

def hash : UInt8 := 35

def slash : UInt8 := 47

def parse (ref : ByteText) : Except ErrorMsg SubRefEntry := do
  match ref.idxOf? hash with
  | none => .error "check failed:r_pos != ref.npos"
  | some stop =>
    if ref.length < numberStart ref then .error "basic_string_view::substr"
    else
      let number ← svToInteger (numberField ref stop)
      if slash ∉ ref then .error "check failed:last_slash_pos != ref.npos"
      else return { number, subKey := ref.afterLast slash }

end SubRefEntry

/-- The schema of the status that is referred to. -/
def referredSchema (spec : AbilitySpec) (current : String) (ref : Json) : Except ErrorMsg Json :=
  match ref with
  | .string text => do
    let entry ← SubRefEntry.parse (.ofString text)
    -- A negative number is beyond every index.
    match if entry.number < 0 then none else spec.subabilities[entry.number.toNat]? with
    | none => .error ("x-ref out of range at " ++ current ++ ", no such sub ability " ++ toString entry.number)
    | some sub =>
      let crdSchema ← valueAt (getSubAbilityCrd manifests sub) schemaPath
      if crdSchema.isEmpty then .error "can't find /spec/schema/openAPIV3Schema"
      else
        let subStatus ← valueAt (← expandIntentable "/" crdSchema) ["properties", "status", "properties"]
        match subStatus.find entry.subKey.decode with
        | none =>
          .error ("ref subability does " ++ toString entry.number ++ " not contain sub_path: /status/" ++
            entry.subKey.decode)
        | some found => .ok found
  | other =>
    if other.isEmpty then .error ("invalid x-ref format at" ++ current)
    else .error ("[json.exception.type_error.302] type must be string, but is " ++ other.typeName)

mutual

/-- Below an array only `x-intentable` is expanded. -/
def expandRef (spec : AbilitySpec) (current : String) : Json → Except ErrorMsg Json
  | .object members =>
    match members.lookup "x-ref" with
    | some ref => referredSchema manifests spec current ref
    | none => do
      let expanded ← expandRefMembers spec current members
      return if expanded.isEmpty then .null else .object expanded
  | .array items => do
    let expanded ← expandIntentableItems current 0 items
    return if expanded.isEmpty then .null else .array expanded
  | .null => .ok .null
  | .boolean value => .ok (.boolean value)
  | .integer value => .ok (.integer value)
  | .float value => .ok (.float value)
  | .string value => .ok (.string value)

def expandRefMembers (spec : AbilitySpec) (current : String) :
    List (String × Json) → Except ErrorMsg (List (String × Json))
  | [] => .ok []
  | (key, value) :: members => do
    let expanded ← expandRef spec (current ++ pointerToken key) value
    return (key, expanded) :: (← expandRefMembers spec current members)

end

/-! ## The expanded schema -/

/-- Both checks of a CR expand the schema in this way. -/
def makeStatusInCrdOptional (schema : Json) : Json :=
  match schema with
  | .object members =>
    .object (members.map fun (key, value) =>
      match value with
      | .object properties =>
        if key = "properties" then
          (key, .object (properties.map fun (name, property) =>
            if name = "status" then
              (name, .object [("anyOf", .array [.object [("type", .string "null")], property])])
            else (name, property)))
        else (key, value)
      | _ => (key, value))
  | other => other

end AbilityFramework.ResourceMgr.Document
