import AbilityFramework.Library.ReadMap
import AbilityFramework.Library.Runs
import AbilityFramework.ResourceMgr.AbilityCRD

/-! # Tables of documents

The tables of service CRs and of ability CRDs keep the texts of their documents.  Over every sequence of calls a
table is a map: what is read under a key is what has last been added under it as its text has it, and nothing after
a removal. -/

namespace AbilityFramework.ResourceMgr.Document

open Library

structure ServiceCRBasicRow where
  instanceId : Uuid
  serviceName : String
  serviceVersion : String
  instanceName : String
  insertTime : Int
  updateTime : Int
  state : String
  restartCount : Int
  crDetail : String
  deriving DecidableEq

abbrev ServiceCRBasic := Relation ServiceCRBasicRow.instanceId

structure AbilityCRDBasicRow where
  abilityName : String
  abilityVersion : String
  crdDetail : String
  deriving DecidableEq

/-- The primary key. -/
def AbilityCRDBasicRow.nameAndVersion (row : AbilityCRDBasicRow) : String × String := (row.abilityName, row.abilityVersion)

abbrev AbilityCRDBasic := Relation AbilityCRDBasicRow.nameAndVersion

variable (doc : DocumentEnvironment)

def dumpJson (json : Json) : Except CRException String := (doc.dump json).elim (.error .typeError316) .ok

/-- `nlohmann::json::parse(text).get<…>()` -/
def parseAs {α : Type} (read : Json → Except CRException α) (text : String) : Except CRException α :=
  (doc.parse text).elim (.error (.other "parse error")) read

/-! ## Service CRs -/

/-- The table and the id that is returned.  The spec is dereferenced whether there is one or not. -/
def addServiceCr (services : ServiceCRBasic) (now : Int) (cr : ServiceCR) :
    Except CRException (ServiceCRBasic × String) := do
  let spec ← cr.spec.elim (.error .undefined) .ok
  let crDetail ← dumpJson doc (cr.toJson doc)
  return (services.replaceInto
    { instanceId := cr.id
      serviceName := spec.serviceName
      serviceVersion := spec.version
      instanceName := cr.metadata.name
      insertTime := now
      updateTime := now
      state := serviceStateText cr.state
      restartCount := cr.restartCount
      crDetail }, doc.idText cr.id)

def removeServiceCr (services : ServiceCRBasic) (id : Uuid) : ServiceCRBasic :=
  services.deleteWhere fun row => row.instanceId = id

def readServiceCr (row : ServiceCRBasicRow) : Except CRException ServiceCR :=
  parseAs doc (ServiceCR.fromJson doc) row.crDetail

def getServiceCr (services : ServiceCRBasic) (id : Uuid) : Except CRException (Option ServiceCR) :=
  services.readAt (readServiceCr doc) id

inductive ServiceCall where
  | add (now : Int) (cr : ServiceCR)
  | remove (id : Uuid)

/-- A call that throws leaves the table as it is. -/
def serviceTableStep (services : ServiceCRBasic) : ServiceCall → ServiceCRBasic
  | .add now cr =>
    match addServiceCr doc services now cr with
    | .ok (added, _) => added
    | .error _ => services
  | .remove id => removeServiceCr services id

/-- Adding it does not throw. -/
def ServiceCR.Storable (cr : ServiceCR) : Prop := cr.spec.isSome ∧ (doc.dump (cr.toJson doc)).isSome

instance (cr : ServiceCR) : Decidable (cr.Storable doc) := inferInstanceAs (Decidable (_ ∧ _))

/-- What the table stands for. -/
def serviceMapStep (map : Uuid → Option ServiceCR) : ServiceCall → Uuid → Option ServiceCR
  | .add _ cr => if cr.Storable doc then Function.update map cr.id (some cr.asWritten) else map
  | .remove id => Function.update map id none

/-- The CR has been read, and may have been given another id. -/
def ServiceCall.IsRead : ServiceCall → Prop
  | .add _ cr => ∃ json own, ServiceCR.fromJson doc json = .ok own ∧ cr = { own with id := cr.id }
  | .remove _ => True

/-! ## Ability CRDs -/

def addAbilityCrd (crds : AbilityCRDBasic) (crd : AbilityCRD) : Except CRException AbilityCRDBasic := do
  let crdDetail ← dumpJson doc (crd.toJson doc)
  return crds.replaceInto { abilityName := crd.metadata.name, abilityVersion := crd.version, crdDetail }

def readAbilityCrd (row : AbilityCRDBasicRow) : Except CRException AbilityCRD :=
  parseAs doc (AbilityCRD.fromJson doc) row.crdDetail

def getAbilityCrd (crds : AbilityCRDBasic) (abilityName version : String) : Except CRException (Option AbilityCRD) :=
  crds.readAt (readAbilityCrd doc) (abilityName, version)

def crdTableStep (crds : AbilityCRDBasic) (crd : AbilityCRD) : AbilityCRDBasic :=
  (addAbilityCrd doc crds crd).toOption.getD crds

def crdMapStep (map : String × String → Option AbilityCRD) (crd : AbilityCRD) : String × String → Option AbilityCRD :=
  if (doc.dump (crd.toJson doc)).isSome then
    Function.update map (crd.metadata.name, crd.version) (some crd.identified.asWritten)
  else map

variable {doc}

/-! ## The tables are maps -/

theorem parseAs_dumpJson {α : Type} {read : Json → Except CRException α} {json : Json} {text : String}
    (written : doc.dump json = some text) : parseAs doc read text = read json.asWritten := by
  rw [parseAs, doc.parse_dump written, Option.elim_some]

theorem addServiceCr_storable (services : ServiceCRBasic) (now : Int) {cr : ServiceCR} (storable : cr.Storable doc) :
    ∃ row, addServiceCr doc services now cr = .ok (services.replaceInto row, doc.idText cr.id) ∧
      row.instanceId = cr.id ∧ doc.dump (cr.toJson doc) = some row.crDetail := by
  obtain ⟨hasSpec, written⟩ := storable
  obtain ⟨spec, isSpec⟩ := Option.isSome_iff_exists.mp hasSpec
  obtain ⟨text, dumped⟩ := Option.isSome_iff_exists.mp written
  rw [addServiceCr, dumpJson, isSpec, dumped]
  exact ⟨_, rfl, rfl, rfl⟩

theorem addServiceCr_not_storable (services : ServiceCRBasic) (now : Int) {cr : ServiceCR} (not : ¬ cr.Storable doc) :
    ∃ exception, addServiceCr doc services now cr = .error exception := by
  rw [addServiceCr, dumpJson]
  cases isSpec : cr.spec with
  | none => exact ⟨_, rfl⟩
  | some spec =>
    cases dumped : doc.dump (cr.toJson doc) with
    | none => exact ⟨_, rfl⟩
    | some text => exact absurd ⟨by rw [isSpec, Option.isSome_some], by rw [dumped, Option.isSome_some]⟩ not

theorem serviceStep_readsAs (services : ServiceCRBasic) (map : Uuid → Option ServiceCR) (call : ServiceCall)
    (isRead : call.IsRead doc) (given : services.ReadsAs (readServiceCr doc) map) :
    (serviceTableStep doc services call).ReadsAs (readServiceCr doc) (serviceMapStep doc map call) := by
  cases call with
  | remove id => exact given.deleteKey id
  | add now cr =>
    obtain ⟨json, own, isOwn, same⟩ := isRead
    have readsBack : ServiceCR.fromJson doc (cr.toJson doc) = .ok cr := by
      rw [same]
      exact serviceCr_readsBack isOwn cr.id
    rw [serviceTableStep, serviceMapStep]
    by_cases storable : cr.Storable doc
    · obtain ⟨row, added, isId, dumped⟩ := addServiceCr_storable services now storable
      rw [added, if_pos storable, ← isId]
      refine given.replaceInto ?_
      rw [readServiceCr, parseAs_dumpJson dumped, serviceCr_asWritten, readsBack]
      rfl
    · obtain ⟨exception, thrown⟩ := addServiceCr_not_storable services now storable
      rw [thrown, if_neg storable]
      exact given

/-- What is read under an id has last been added under it, but for numbers that are not finite. -/
theorem getServiceCr_run {calls : List ServiceCall} (areRead : ∀ call ∈ calls, call.IsRead doc) (id : Uuid) :
    getServiceCr doc (Runs.run (serviceTableStep doc) ∅ calls) id =
      .ok (Runs.run (serviceMapStep doc) (fun _ => none) calls id) := by
  have refines : (Runs.run (serviceTableStep doc) ∅ calls).ReadsAs (readServiceCr doc)
      (Runs.run (serviceMapStep doc) (fun _ => none) calls) :=
    Runs.run_refines_admitted serviceStep_readsAs Relation.readsAs_empty areRead
  exact refines id

theorem crdStep_readsAs (crds : AbilityCRDBasic) (map : String × String → Option AbilityCRD) (crd : AbilityCRD)
    (isRead : ∃ json, AbilityCRD.fromJson doc json = .ok crd) (given : crds.ReadsAs (readAbilityCrd doc) map) :
    (crdTableStep doc crds crd).ReadsAs (readAbilityCrd doc) (crdMapStep doc map crd) := by
  obtain ⟨json, isRead⟩ := isRead
  rw [crdTableStep, crdMapStep, addAbilityCrd, dumpJson]
  cases dumped : doc.dump (crd.toJson doc) with
  | none => exact given
  | some text =>
    refine given.replaceInto ?_
    rw [readAbilityCrd, parseAs_dumpJson dumped, abilityCrd_readsBack_written isRead]

theorem getAbilityCrd_run {crds : List AbilityCRD} (areRead : ∀ crd ∈ crds, ∃ json, AbilityCRD.fromJson doc json = .ok crd)
    (abilityName version : String) :
    getAbilityCrd doc (Runs.run (crdTableStep doc) ∅ crds) abilityName version =
      .ok (Runs.run (crdMapStep doc) (fun _ => none) crds (abilityName, version)) := by
  have refines : (Runs.run (crdTableStep doc) ∅ crds).ReadsAs (readAbilityCrd doc)
      (Runs.run (crdMapStep doc) (fun _ => none) crds) :=
    Runs.run_refines_admitted crdStep_readsAs Relation.readsAs_empty areRead
  exact refines (abilityName, version)

/-! ## What survives -/

/-- A service with a health check that has no probes. -/
def databaseJson : Json :=
  .object
    [("kind", .string "Service"), ("metadata", .object [("name", .string "database")]),
      ("spec", .object
        [("package", .string "storage"), ("version", .string "1.0.0"), ("serviceName", .string "Database"),
          ("healthCheck", .null)])]

def databaseCr : ServiceCR where
  metadata := ⟨"database", ∅, ∅⟩
  spec := some { package := "storage", version := "1.0.0", serviceName := "Database", healthCheck := some {} }

/-- A CRD that depends on one kind of ability and provides an empty list. -/
def trackerJson : Json :=
  .object
    [("packageName", .string "vision"), ("version", .string "1.0.0"), ("kind", .string "AtomAbility"),
      ("metadata", .object [("name", .string "Tracker")]),
      ("spec", .object [("provides", .array []), ("schema", .object [("openAPIV3Schema", .null)])]),
      ("depends", .object [("abilities", .object [("abilityName", .string "Camera")])])]

def trackerCrd : AbilityCRD where
  packageName := "vision"
  version := "1.0.0"
  kind := "AtomAbility"
  metadata := ⟨"Tracker", ∅, ∅⟩
  depends := { abilities := [{ className := "Camera" }], numAbilityIsArbitrary := true }
  spec := { provides := .array [], schema := { openAPIV3Schema := .null } }

theorem database_read : ServiceCR.fromJson (plainDocuments ∅) databaseJson = .ok databaseCr := by
  rfl

theorem tracker_read : AbilityCRD.fromJson (plainDocuments ∅) trackerJson = .ok trackerCrd := by
  rfl

/-- A service whose limit is infinite. -/
def limitedCr : ServiceCR where
  metadata := ⟨"database", ∅, ∅⟩
  spec := some {
    package := "storage"
    version := "1.0.0"
    serviceName := "Database"
    config := .object [("limit", .float (.infinite false))] }

def limitedJson : Json := limitedCr.toJson (plainDocuments ∅)

def limitedDocuments : DocumentEnvironment :=
  plainDocuments ⟨[(limitedJson.asWritten, textOf limitedJson.asWritten)], List.nodup_singleton _⟩

end AbilityFramework.ResourceMgr.Document
