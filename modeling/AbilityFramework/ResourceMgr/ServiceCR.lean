import AbilityFramework.LifecycleMgr.ServiceLifecycle
import AbilityFramework.ResourceMgr.AbilityManifest
import AbilityFramework.ResourceMgr.WrittenCR

/-! # Service CRs

`service_cr.cpp`: a service CR as a JSON document, and the table that keeps the texts of such documents.  What is
written is read back exactly: a health check without probes is written as null, which is read as one.  From a text
it is read with nulls for those numbers in its configuration that are not finite. -/

namespace AbilityFramework.ResourceMgr.Document

open Library
open LifecycleMgr (ServiceState)

/-! ## Records -/

/-- `ServiceSpec::Probe` -/
structure Probe where
  type : String
  path : String := ""
  port : Int := 0
  intervalSeconds : Int := 10
  failureThreshold : Int := 3
  deriving DecidableEq

/-- `ServiceSpec::HealthCheck` -/
structure HealthCheck where
  liveness : Option Probe := none
  readiness : Option Probe := none
  deriving DecidableEq

structure ServiceSpec where
  package : String
  version : String
  serviceName : String
  position : String := "localhost"
  config : Json := .null
  restartPolicy : String := "always"
  maxRestarts : Int := 5
  restartBackoffSeconds : Int := 10
  healthCheck : Option HealthCheck := none
  devices : List DeviceEntry := []
  models : List ModelEntry := []
  deriving DecidableEq

structure ServiceCR where
  id : Uuid := 0
  kind : String := "Service"
  metadata : CRMetadata
  spec : Option ServiceSpec := none
  state : ServiceState := .stopped
  restartCount : Int := 0
  /-- Neither written nor read. -/
  lastRestart : Option Int := none

def serviceStates : List (String × ServiceState) :=
  [("Stopped", .stopped), ("Starting", .starting), ("Running", .running), ("Failed", .failed),
    ("Restarting", .restarting)]

def serviceStateText : ServiceState → String
  | .stopped => "Stopped"
  | .starting => "Starting"
  | .running => "Running"
  | .failed => "Failed"
  | .restarting => "Restarting"

theorem enumFromJson_serviceState (state : ServiceState) :
    enumFromJson serviceStates .stopped (.string (serviceStateText state)) = state := by
  cases state <;> rfl

variable (doc : DocumentEnvironment)

/-! ## From JSON -/

/-- `get_to` an `int` -/
def readInt32 (json : Json) : Except CRException Int := json.getInt32.mapError .json

def Probe.fromJson (json : Json) : Except CRException Probe := do
  let type ← required json "type" getStringValue
  let path ← optional json "path" getStringValue ""
  let port ← optional json "port" readInt32 0
  let intervalSeconds ← optional json "intervalSeconds" readInt32 10
  let failureThreshold ← optional json "failureThreshold" readInt32 3
  return { type, path, port, intervalSeconds, failureThreshold }

/-- What is not an object has no probes. -/
def HealthCheck.fromJson (json : Json) : Except CRException HealthCheck := do
  let liveness ← optional json "liveness" (fun found => (Probe.fromJson found).map some) none
  let readiness ← optional json "readiness" (fun found => (Probe.fromJson found).map some) none
  return { liveness, readiness }

def ServiceSpec.fromJson (json : Json) : Except CRException ServiceSpec := do
  let package ← required json "package" getStringValue
  let version ← required json "version" (readVersion doc)
  let serviceName ← required json "serviceName" getStringValue
  let position ← optional json "position" getStringValue "localhost"
  let config ← optional json "config" .ok .null
  let restartPolicy ← optional json "restartPolicy" getStringValue "always"
  let maxRestarts ← optional json "maxRestarts" readInt32 5
  let restartBackoffSeconds ← optional json "restartBackoffSeconds" readInt32 10
  let healthCheck ← optional json "healthCheck" (fun found => (HealthCheck.fromJson found).map some) none
  let devices ← optional json "devices" (readArray DeviceEntry.fromJson) []
  let models ← optional json "models" (readArray (ModelEntry.fromJson doc)) []
  return { package, version, serviceName, position, config, restartPolicy, maxRestarts, restartBackoffSeconds,
           healthCheck, devices, models }

def ServiceCR.fromJson (json : Json) : Except CRException ServiceCR := do
  let kind ← required json "kind" getStringValue
  let metadata ← required json "metadata" CRMetadata.fromJson
  let spec ← optional json "spec" (fun found => (ServiceSpec.fromJson doc found).map some) none
  let id ← optional json "id" (readUuid doc) 0
  let state ← optional json "state" (fun found => .ok (enumFromJson serviceStates .stopped found)) .stopped
  let restartCount ← optional json "restartCount" readInt32 0
  return { id, kind, metadata, spec, state, restartCount }

/-! ## To JSON -/

def Probe.toJson (probe : Probe) : Json :=
  .pack
    [("type", some (.string probe.type)), ("path", textUnlessEmpty probe.path),
      ("port", if probe.port = 0 then none else some (.integer probe.port)),
      ("intervalSeconds", some (.integer probe.intervalSeconds)),
      ("failureThreshold", some (.integer probe.failureThreshold))]

/-- Without a probe no member is assigned, and the JSON value stays null. -/
def HealthCheck.toJson : HealthCheck → Json
  | ⟨none, none⟩ => .null
  | ⟨liveness, readiness⟩ =>
    .pack [("liveness", liveness.map Probe.toJson), ("readiness", readiness.map Probe.toJson)]

def ServiceSpec.members (spec : ServiceSpec) : List (String × Option Json) :=
  [("package", some (.string spec.package)), ("version", some (.string spec.version)),
    ("serviceName", some (.string spec.serviceName)), ("position", some (.string spec.position)),
    ("config", if spec.config = .null then none else some spec.config),
    ("restartPolicy", some (.string spec.restartPolicy)), ("maxRestarts", some (.integer spec.maxRestarts)),
    ("restartBackoffSeconds", some (.integer spec.restartBackoffSeconds)),
    ("healthCheck", spec.healthCheck.map HealthCheck.toJson),
    ("devices", arrayUnlessEmpty (spec.devices.map DeviceEntry.toJson)),
    ("models", arrayUnlessEmpty (spec.models.map ModelEntry.toJson))]

def ServiceSpec.toJson (spec : ServiceSpec) : Json := .pack spec.members

def ServiceCR.members (cr : ServiceCR) : List (String × Option Json) :=
  [("kind", some (.string cr.kind)), ("metadata", some (metadataToJson cr.metadata)),
    ("spec", cr.spec.map ServiceSpec.toJson),
    ("id", if cr.id = 0 then none else some (.string (doc.idText cr.id))),
    ("state", some (.string (serviceStateText cr.state))), ("restartCount", some (.integer cr.restartCount))]

def ServiceCR.toJson (cr : ServiceCR) : Json := .pack (cr.members doc)

variable {doc}

/-! ## Round trips -/

section RoundTrip

variable {α : Type} {json : Json} {name : String}

theorem optional_ok {get : Json → Except CRException α} {default value : α}
    (isRead : optional json name get default = .ok value) :
    (∃ found, json.find name = some found ∧ get found = .ok value) ∨ value = default := by
  rw [optional] at isRead
  cases given : json.find name with
  | none =>
    rw [given] at isRead
    exact .inr (Except.ok.inj isRead).symm
  | some found =>
    rw [given] at isRead
    exact .inl ⟨found, rfl, isRead⟩

theorem map_some_ok {result : Except CRException α} {value : Option α} (isRead : result.map some = .ok value) :
    ∃ found, result = .ok found ∧ value = some found := by
  cases result with
  | error => cases isRead
  | ok found => exact ⟨found, rfl, (Except.ok.inj isRead).symm⟩

theorem readInt32_settled {value : Int} (isRead : readInt32 json = .ok value) : value.bmod (2 ^ 32) = value := by
  rw [readInt32] at isRead
  cases got : json.getInt32 with
  | error =>
    rw [got] at isRead
    cases isRead
  | ok own =>
    rw [got] at isRead
    cases isRead
    exact getInt32_settled got

theorem optionalInt32_settled {default value : Int} (settled : default.bmod (2 ^ 32) = default)
    (isRead : optional json name readInt32 default = .ok value) : value.bmod (2 ^ 32) = value := by
  obtain ⟨found, -, given⟩ | rfl := optional_ok isRead
  · exact readInt32_settled given
  · exact settled

theorem readInt32_integer {value : Int} (settled : value.bmod (2 ^ 32) = value) : readInt32 (.integer value) = .ok value := by
  rw [readInt32, Json.getInt32, settled]
  rfl

theorem elim_unlessZero {value : Int} (settled : value.bmod (2 ^ 32) = value) :
    (if value = 0 then none else some (Json.integer value)).elim (.ok 0) readInt32 = .ok value := by
  split
  · rename_i zero
    rw [zero, Option.elim_none]
  · rw [Option.elim_some, readInt32_integer settled]

theorem elim_unlessNil (id : Uuid) :
    (if id = 0 then none else some (Json.string (doc.idText id))).elim (.ok 0) (readUuid doc) = .ok id := by
  split
  · rename_i isNil
    rw [isNil, Option.elim_none]
  · rw [Option.elim_some, readUuid_idText]

/-- A version that has been read is in the form in which it is written. -/
theorem version_readsBack {version : String} (isRead : required json name (readVersion doc) = .ok version) :
    readVersion doc (.string version) = .ok version := by
  obtain ⟨_, isVersion⟩ := required_ok isRead
  show (doc.version version).elim (Except.error CRException.invalidVersion) Except.ok = _
  rw [readVersion_settled isVersion, Option.elim_some]

theorem elim_text (text : String) : (textUnlessEmpty text).elim (.ok "") getStringValue = .ok text := by
  rw [textUnlessEmpty]
  split
  · rename_i empty
    rw [String.isEmpty_iff.mp empty, Option.elim_none]
  · rfl

theorem elim_readArray {read : Json → Except CRException α} {write : α → Json}
    (readsBack : ∀ item, read (write item) = .ok item) (items : List α) :
    (arrayUnlessEmpty (items.map write)).elim (.ok []) (readArray read) = .ok items := by
  cases items with
  | nil => rfl
  | cons item items => exact readArray_map readsBack (item :: items)

/-- An optional record, each of which is read back. -/
theorem elim_record {read : Json → Except CRException α} {write : α → Json} {record : Option α}
    (readsBack : ∀ item, record = some item → read (write item) = .ok item) :
    (record.map write).elim (.ok none) (fun found => (read found).map some) = .ok record := by
  cases record with
  | none => rfl
  | some item =>
    rw [Option.map_some, Option.elim_some, readsBack item rfl]
    rfl

/-- A record that has been read from an optional member is read back. -/
theorem optionalRecord_readsBack {read : Json → Except CRException α} {write : α → Json} {record : Option α}
    (readsBack : ∀ {found item}, read found = .ok item → read (write item) = .ok item)
    (isRead : optional json name (fun found => (read found).map some) none = .ok record) :
    (record.map write).elim (.ok none) (fun found => (read found).map some) = .ok record := by
  refine elim_record ?_
  rintro item rfl
  obtain ⟨found, -, given⟩ | impossible := optional_ok isRead
  · obtain ⟨own, isOwn, same⟩ := map_some_ok given
    cases same
    exact readsBack isOwn
  · cases impossible

end RoundTrip

theorem probe_readsBack {json : Json} {probe : Probe} (isRead : Probe.fromJson json = .ok probe) :
    Probe.fromJson probe.toJson = .ok probe := by
  simp only [Probe.fromJson, except_bind_eq_ok] at isRead
  obtain ⟨type, -, path, -, port, isPort, interval, isInterval, threshold, isThreshold, same⟩ := isRead
  cases same
  have port := optionalInt32_settled (by decide) isPort
  have interval := optionalInt32_settled (by decide) isInterval
  have threshold := optionalInt32_settled (by decide) isThreshold
  simp only [Probe.fromJson, Probe.toJson]
  rw [required_pack (by simp) rfl, optional_pack (by simp), optional_pack (by simp), optional_pack (by simp),
    optional_pack (by simp)]
  simp only [List.lookup_cons, String.reduceBEq, Option.join_some, Option.elim_some, elim_text, elim_unlessZero port,
    readInt32_integer interval, readInt32_integer threshold, getStringValue_string]
  rfl

theorem healthCheck_readsBack {json : Json} {check : HealthCheck} (isRead : HealthCheck.fromJson json = .ok check) :
    HealthCheck.fromJson check.toJson = .ok check := by
  simp only [HealthCheck.fromJson, except_bind_eq_ok] at isRead
  obtain ⟨liveness, isLiveness, readiness, isReadiness, same⟩ := isRead
  cases same
  have live := optionalRecord_readsBack probe_readsBack isLiveness
  have ready := optionalRecord_readsBack probe_readsBack isReadiness
  have packed : HealthCheck.fromJson
      (.pack [("liveness", liveness.map Probe.toJson), ("readiness", readiness.map Probe.toJson)]) =
        .ok ⟨liveness, readiness⟩ := by
    simp only [HealthCheck.fromJson]
    rw [optional_pack (by simp), optional_pack (by simp)]
    simp only [List.lookup_cons, String.reduceBEq, Option.join_some, live, ready]
    rfl
  cases liveness with
  | none =>
    cases readiness with
    | none => rfl
    | some => exact packed
  | some => exact packed

theorem serviceSpec_readsBack {json : Json} {spec : ServiceSpec} (isRead : ServiceSpec.fromJson doc json = .ok spec) :
    ServiceSpec.fromJson doc spec.toJson = .ok spec := by
  simp only [ServiceSpec.fromJson, except_bind_eq_ok] at isRead
  obtain ⟨package, -, version, isVersion, serviceName, -, position, -, config, -, restartPolicy, -, maxRestarts,
    isMaxRestarts, backoff, isBackoff, healthCheck, isHealthCheck, devices, -, models, -, same⟩ := isRead
  cases same
  have version := version_readsBack isVersion
  have maxRestarts := optionalInt32_settled (by decide) isMaxRestarts
  have backoff := optionalInt32_settled (by decide) isBackoff
  have check := optionalRecord_readsBack healthCheck_readsBack isHealthCheck
  have config : (if config = .null then none else some config).elim (.ok .null) .ok =
      (.ok config : Except CRException Json) := by
    split
    · rename_i isNull
      rw [isNull, Option.elim_none]
    · rfl
  have distinct (spec : ServiceSpec) : (spec.members.map Prod.fst).Nodup := by simp [ServiceSpec.members]
  simp only [ServiceSpec.fromJson, ServiceSpec.toJson, optional_pack (distinct _)]
  rw [required_pack (distinct _) rfl, required_pack (distinct _) rfl, required_pack (distinct _) rfl]
  simp only [ServiceSpec.members, List.lookup_cons, String.reduceBEq, Option.join_some, Option.elim_some, version, config, check,
    readInt32_integer maxRestarts, readInt32_integer backoff, elim_readArray deviceEntry_readsBack,
    elim_readArray modelEntry_readsBack, getStringValue_string]
  rfl

/-- What has been read is written and read again as it is, also when it has been given another id. -/
theorem serviceCr_readsBack {json : Json} {cr : ServiceCR} (isRead : ServiceCR.fromJson doc json = .ok cr) (id : Uuid) :
    ServiceCR.fromJson doc ({ cr with id }.toJson doc) = .ok { cr with id } := by
  simp only [ServiceCR.fromJson, except_bind_eq_ok] at isRead
  obtain ⟨kind, -, metadata, -, spec, isSpec, _, -, state, -, restartCount, isRestartCount, same⟩ := isRead
  cases same
  have spec := optionalRecord_readsBack serviceSpec_readsBack isSpec
  have restartCount := optionalInt32_settled (by decide) isRestartCount
  have distinct (cr : ServiceCR) : ((cr.members doc).map Prod.fst).Nodup := by simp [ServiceCR.members]
  simp only [ServiceCR.fromJson, ServiceCR.toJson, optional_pack (distinct _)]
  rw [required_pack (distinct _) rfl, required_pack (distinct _) rfl]
  simp only [ServiceCR.members, List.lookup_cons, String.reduceBEq, Option.join_some, Option.elim_some, metadata_readsBack, spec, elim_unlessNil,
    enumFromJson_serviceState, readInt32_integer restartCount, getStringValue_string]
  rfl

/-! ## From a text -/

def ServiceSpec.asWritten (spec : ServiceSpec) : ServiceSpec := { spec with config := spec.config.asWritten }

/-- The CR as it is read from the text of its document. -/
def ServiceCR.asWritten (cr : ServiceCR) : ServiceCR := { cr with spec := cr.spec.map ServiceSpec.asWritten }

@[simp] theorem textUnlessEmpty_asWritten (text : String) :
    (textUnlessEmpty text).map Json.asWritten = textUnlessEmpty text := by
  rw [textUnlessEmpty]
  split <;> rfl

@[simp] theorem probe_asWritten (probe : Probe) : probe.toJson.asWritten = probe.toJson := by
  have port : (if probe.port = 0 then none else some (Json.integer probe.port)).map Json.asWritten =
      if probe.port = 0 then none else some (.integer probe.port) := by
    split <;> rfl
  simp only [Probe.toJson, Json.asWritten_pack, List.map_cons, List.map_nil, Option.map_some, Json.asWritten_string,
    Json.asWritten_integer, textUnlessEmpty_asWritten, port]

@[simp] theorem healthCheck_asWritten (check : HealthCheck) : check.toJson.asWritten = check.toJson := by
  obtain ⟨liveness, readiness⟩ := check
  cases liveness <;> cases readiness <;>
    simp only [HealthCheck.toJson, Json.asWritten_null, Json.asWritten_pack, List.map_cons, List.map_nil, Option.map_some,
      Option.map_none, probe_asWritten]

theorem serviceSpec_asWritten (spec : ServiceSpec) : ServiceSpec.fromJson doc spec.toJson.asWritten =
    (ServiceSpec.fromJson doc spec.toJson).map ServiceSpec.asWritten := by
  have distinct : (spec.members.map Prod.fst).Nodup := by simp [ServiceSpec.members]
  have distinctWritten : ((spec.members.map fun member => (member.1, member.2.map Json.asWritten)).map
      Prod.fst).Nodup := by
    rwa [List.map_map]
  have config : (if spec.config = .null then none else some spec.config).elim (.ok .null) .ok =
      (.ok spec.config : Except CRException Json) := by
    split
    · rename_i isNull
      rw [isNull, Option.elim_none]
    · rfl
  have written : ((if spec.config = .null then none else some spec.config).map Json.asWritten).elim (.ok .null) .ok =
      (.ok spec.config.asWritten : Except CRException Json) := by
    split
    · rename_i isNull
      rw [isNull, Option.map_none, Option.elim_none, Json.asWritten_null]
    · rfl
  rw [ServiceSpec.toJson, Json.asWritten_pack, ServiceSpec.fromJson, ServiceSpec.fromJson]
  simp only [optional_pack distinct, optional_pack distinctWritten]
  rw [required_pack distinct (show spec.members.lookup "package" = _ from rfl),
    required_pack distinct (show spec.members.lookup "version" = _ from rfl),
    required_pack distinct (show spec.members.lookup "serviceName" = _ from rfl),
    required_pack distinctWritten (show List.lookup "package" _ = _ from rfl),
    required_pack distinctWritten (show List.lookup "version" _ = _ from rfl),
    required_pack distinctWritten (show List.lookup "serviceName" _ = _ from rfl)]
  simp only [ServiceSpec.members, List.map_cons, List.map_nil, List.lookup_cons, String.reduceBEq, Option.map_some,
    Option.map_map, Function.comp_def, Json.asWritten_string, Json.asWritten_integer, Option.join_some, Option.elim_some,
    config, written, arrayUnlessEmpty_asWritten, List.map_map, deviceEntry_asWritten, modelEntry_asWritten,
    healthCheck_asWritten, map_bind_ok, ok_bind_ok, map_pure_ok, ServiceSpec.asWritten]

/-- From the text of its document a service CR is read as from the document, with nulls for the numbers that are not
finite. -/
theorem serviceCr_asWritten (cr : ServiceCR) : ServiceCR.fromJson doc (cr.toJson doc).asWritten =
    (ServiceCR.fromJson doc (cr.toJson doc)).map ServiceCR.asWritten := by
  have distinct : ((cr.members doc).map Prod.fst).Nodup := by simp [ServiceCR.members]
  have distinctWritten : (((cr.members doc).map fun member => (member.1, member.2.map Json.asWritten)).map
      Prod.fst).Nodup := by
    rwa [List.map_map]
  have spec : ((cr.spec.map ServiceSpec.toJson).map Json.asWritten).elim (.ok none)
        (fun found => (ServiceSpec.fromJson doc found).map some) =
      ((cr.spec.map ServiceSpec.toJson).elim (.ok none) fun found => (ServiceSpec.fromJson doc found).map some).map
        (Option.map ServiceSpec.asWritten) := by
    cases cr.spec with
    | none => rfl
    | some spec =>
      rw [Option.map_some, Option.map_some, Option.elim_some, Option.elim_some, serviceSpec_asWritten]
      cases ServiceSpec.fromJson doc spec.toJson <;> rfl
  have id : (if cr.id = 0 then none else some (Json.string (doc.idText cr.id))).map Json.asWritten =
      if cr.id = 0 then none else some (.string (doc.idText cr.id)) := by
    split <;> rfl
  rw [ServiceCR.toJson, Json.asWritten_pack, ServiceCR.fromJson, ServiceCR.fromJson]
  simp only [optional_pack distinct, optional_pack distinctWritten]
  rw [required_pack distinct (show (cr.members doc).lookup "kind" = _ from rfl),
    required_pack distinct (show (cr.members doc).lookup "metadata" = _ from rfl),
    required_pack distinctWritten (show List.lookup "kind" _ = _ from rfl),
    required_pack distinctWritten (show List.lookup "metadata" _ = _ from rfl)]
  simp only [ServiceCR.members, List.map_cons, List.map_nil, List.lookup_cons, String.reduceBEq, Option.map_some,
    Json.asWritten_string, Json.asWritten_integer, Option.join_some, Option.elim_some, metadata_asWritten, spec, id,
    map_bind_ok, bind_map_ok, map_pure_ok, ServiceCR.asWritten]

end AbilityFramework.ResourceMgr.Document
