import AbilityFramework.ResourceMgr.DeviceCRD
import AbilityFramework.ResourceMgr.DocumentTables
import AbilityFramework.ResourceMgr.HttpErrors

/-! # The endpoint for CRDs

`GET /api/crd/:name/:version` looks for an ability CRD and then for a device CRD.  But its log line asks for a path
parameter `id`, which the route does not have, so every request is answered with an error, and rightly exactly if there
is no such CRD (`serves_iff`). -/

namespace AbilityFramework.ResourceMgr.Document

open Library

/-! ## Tables -/

structure DeviceCRDBasicRow where
  deviceName : String
  deviceVersion : String
  crdDetail : String
  deriving DecidableEq

/-- The primary key. -/
def DeviceCRDBasicRow.nameAndVersion (row : DeviceCRDBasicRow) : String × String := (row.deviceName, row.deviceVersion)

abbrev DeviceCRDBasic := Relation DeviceCRDBasicRow.nameAndVersion

variable (doc : DocumentEnvironment)

def addDeviceCrd (crds : DeviceCRDBasic) (crd : DeviceCRD) : Except CRException DeviceCRDBasic := do
  let crdDetail ← dumpJson doc (crd.toJson doc)
  return crds.replaceInto { deviceName := crd.metadata.name, deviceVersion := crd.version, crdDetail }

def readDeviceCrd (row : DeviceCRDBasicRow) : Except CRException DeviceCRD :=
  parseAs doc (DeviceCRD.fromJson doc) row.crdDetail

def getDeviceCrd (crds : DeviceCRDBasic) (deviceName version : String) : Except CRException (Option DeviceCRD) :=
  crds.readAt (readDeviceCrd doc) (deviceName, version)

structure CRDTables where
  abilities : AbilityCRDBasic := ∅
  devices : DeviceCRDBasic := ∅

inductive AddCall where
  | ability (crd : AbilityCRD)
  | device (crd : DeviceCRD)

def AddCall.nameAndVersion : AddCall → String × String
  | .ability crd => (crd.metadata.name, crd.version)
  | .device crd => (crd.metadata.name, crd.version)

def AddCall.toJson : AddCall → Json
  | .ability crd => crd.toJson doc
  | .device crd => crd.toJson doc

/-- A call that throws leaves the tables as they are. -/
def addCrdStep (tables : CRDTables) : AddCall → CRDTables
  | .ability crd => { tables with abilities := crdTableStep doc tables.abilities crd }
  | .device crd => { tables with devices := (addDeviceCrd doc tables.devices crd).toOption.getD tables.devices }

/-! ## The handler -/

/-- `res.set_content(nlohmann::json(*result).dump(), …)` -/
def setContent (json : Json) : Except CRException (Option HttpReply) := do
  let _ ← dumpJson doc json
  return some { content := json }

/-- Nothing is set where there is none. -/
def handleFindCrdByName (tables : CRDTables) (name version : String) : Except CRException (Option HttpReply) := do
  match ← getAbilityCrd doc tables.abilities name version with
  | some crd => setContent doc (crd.toJson doc)
  | none =>
    match ← getDeviceCrd doc tables.devices name version with
    | some crd => setContent doc (crd.toJson doc)
    | none => return none

/-- `path_params.at(key)` -/
def pathParam (pathParams : List (String × String)) (key : String) : Except HttpException String :=
  (pathParams.lookup key).elim (.error (.exception "unordered_map::at")) .ok

/-- `what` is the text of an exception. -/
def httpException (what : CRException → String) : CRException → HttpException
  | .invalidArgument message => .invalidArgument message
  | other => .exception (what other)

/-- The handler of `GET /api/crd/:name/:version`. -/
def getCrd (what : CRException → String) (tables : CRDTables) (pathParams : List (String × String)) :
    Except HttpException HttpReply := do
  -- The log line, which is evaluated whether it is printed or not.
  let _ ← pathParam pathParams "id"
  let abilityOrDeviceName ← pathParam pathParams "name"
  let version ← pathParam pathParams "version"
  match ← (handleFindCrdByName doc tables abilityOrDeviceName version).mapError (httpException what) with
  | some reply => return reply
  | none => .error (.problem {
      status := 400
      type := "invalid_argument"
      title := "invalid argument"
      detail := "name " ++ abilityOrDeviceName ++ " version " ++ version ++
        " is neither a device name nor an abiility name"
      occurrence := "name " ++ abilityOrDeviceName ++ " version " ++ version })

/-- What the server makes of a request with this name and version. -/
def answer (what : CRException → String) (tables : CRDTables) (name version : String) : HttpReply :=
  match getCrd doc what tables [("name", name), ("version", version)] with
  | .ok reply => reply
  | .error exception => handleErrorToHttp ("/api/crd/" ++ name ++ "/" ++ version) exception

/-! ## What has been stored -/

/-- The call does not throw. -/
def AddCall.Stores (call : AddCall) (key : String × String) : Prop :=
  call.nameAndVersion = key ∧ (doc.dump (call.toJson doc)).isSome

instance (call : AddCall) (key : String × String) : Decidable (call.Stores doc key) :=
  inferInstanceAs (Decidable (_ ∧ _))

def lastStored (calls : List AddCall) (key : String × String) : Option AddCall :=
  calls.reverse.find? fun call => call.Stores doc key

/-- The last CRD of the name and version is the answer, and an error if there is none. -/
def Serves (what : CRException → String) (calls : List AddCall) (name version : String) : Prop :=
  match lastStored doc calls (name, version) with
  | some call => answer doc what (Runs.run (addCrdStep doc) {} calls) name version = { content := call.toJson doc }
  | none => 400 ≤ (answer doc what (Runs.run (addCrdStep doc) {} calls) name version).status

/-! ## Answers -/

theorem answer_status (what : CRException → String) (tables : CRDTables) (name version : String) :
    (answer doc what tables name version).status = 500 := by
  have thrown : getCrd doc what tables [("name", name), ("version", version)] =
      .error (.exception "unordered_map::at") := rfl
  rw [answer, thrown]
  rfl

/-- Only what is not there is served rightly. -/
theorem serves_iff (what : CRException → String) (calls : List AddCall) (name version : String) :
    Serves doc what calls name version ↔ ∀ call ∈ calls, ¬ call.Stores doc (name, version) := by
  rw [Serves]
  cases found : lastStored doc calls (name, version) with
  | none =>
    rw [lastStored, List.find?_eq_none] at found
    refine iff_of_true ?_ fun call member => ?_
    · simp only [answer_status]
      decide
    · simpa using found call (List.mem_reverse.mpr member)
  | some call =>
    rw [lastStored] at found
    have stores : call.Stores doc (name, version) := by simpa using List.find?_some found
    have member : call ∈ calls := List.mem_reverse.mp (List.mem_of_find?_eq_some found)
    refine iff_of_false (fun served => ?_) fun none => none call member stores
    have status := answer_status doc what (Runs.run (addCrdStep doc) {} calls) name version
    rw [served] at status
    cases status

def trackerStoredJson : Json := trackerCrd.toJson (plainDocuments ∅)

def trackerDocuments : DocumentEnvironment :=
  plainDocuments ⟨[(trackerStoredJson, textOf trackerStoredJson)], List.nodup_singleton _⟩

/-- The CRD of the tracker has been stored, and the request for it is answered with an internal error. -/
theorem trackerCrd_notServed : ¬ Serves trackerDocuments (fun _ => "") [.ability trackerCrd] "Tracker" "1.0.0" := by
  intro served
  have stores : (AddCall.ability trackerCrd).Stores trackerDocuments ("Tracker", "1.0.0") := by
    refine ⟨rfl, ?_⟩
    have dumped : trackerDocuments.dump trackerStoredJson = some (textOf trackerStoredJson) := by
      have own : trackerStoredJson = trackerStoredJson.asWritten := by rfl
      simp [trackerDocuments, plainDocuments, ← own]
    exact Option.isSome_of_eq_some dumped
  have stored : lastStored trackerDocuments [.ability trackerCrd] ("Tracker", "1.0.0") =
      some (.ability trackerCrd) :=
    List.find?_cons_of_pos (decide_eq_true stores)
  rw [Serves, stored] at served
  have status := answer_status trackerDocuments (fun _ => "")
    (Runs.run (addCrdStep trackerDocuments) {} [.ability trackerCrd]) "Tracker" "1.0.0"
  rw [served] at status
  cases status

end AbilityFramework.ResourceMgr.Document
