import AbilityFramework.ResourceMgr.HttpErrors
import AbilityFramework.ResourceMgr.Occupation
import AbilityFramework.ResourceMgr.PlainDocuments

/-! # Occupying what does not exist

The handlers of `/api/cr/:id/occupation` and the four functions behind them, on an id that no table has.  The test
whether there is a device looks at whether its query has a row, which it always has, so every id that is no
ability is taken for a device: the handlers do not get as far as their 404, and the functions for devices
dereference the CR that is not there. -/

namespace AbilityFramework.ResourceMgr

open Library Document

/-- The tables that the requests read and change. -/
structure OccupationDatabase where
  abilities : AbilityTables
  instances : AbilityInstances
  devices : DeviceTables
  ownership : OwnershipTable

/-- What is read from a row, and the other nodes. -/
structure OccupationPorts where
  readTemplate : AbilityCRBasicRow → AbilityCR
  readSnapshot : AbilityInstanceRow → Option AbilityCR
  readDevice : DeviceCRBasicRow → DeviceCR
  isLocalCr : String → Bool
  sendPostRequest : String → PeerRequest → PostReply

namespace OccupationDatabase

/-- `SELECT EXISTS(SELECT … FROM AbilityCRBasic … UNION ALL SELECT … FROM AbilityInstance …)` -/
def judgeAbilityExist (db : OccupationDatabase) (id : Uuid) : Bool :=
  (db.abilities.basic.lookup id).isSome || (db.instances.lookup id).isSome

/-- The rows of `SELECT exists(SELECT 1 FROM DeviceCRBasic WHERE instance_id = ?)`. -/
def deviceExistsRows (db : OccupationDatabase) (id : Uuid) : List Bool := [(db.devices.basic.lookup id).isSome]

/-- It returns at the first row, before the row is read. -/
def judgeDeviceExist (db : OccupationDatabase) (id : Uuid) : Bool :=
  match db.deviceExistsRows id with
  | [] => false
  | _ :: _ => true

def resolveAbilityCrById (db : OccupationDatabase) (ports : OccupationPorts) (id : Uuid) : Option AbilityCR :=
  ((db.instances.lookup id).bind ports.readSnapshot).or ((db.abilities.basic.lookup id).map ports.readTemplate)

def getDeviceCr (db : OccupationDatabase) (ports : OccupationPorts) (id : Uuid) : Option DeviceCR :=
  (db.devices.basic.lookup id).map ports.readDevice

def catalogue (db : OccupationDatabase) (ports : OccupationPorts) : Catalogue where
  judgeAbilityExist := db.judgeAbilityExist
  resolveAbilityCrById := db.resolveAbilityCrById ports
  judgeDeviceExist := db.judgeDeviceExist
  getDeviceCr := db.getDeviceCr ports
  isLocalCr := ports.isLocalCr
  sendPostRequest := ports.sendPostRequest

/-- Neither a template nor an instance of an ability, nor a device. -/
structure Unknown (db : OccupationDatabase) (id : Uuid) : Prop where
  template : db.abilities.basic.lookup id = none
  abilityInstance : db.instances.lookup id = none
  device : db.devices.basic.lookup id = none

end OccupationDatabase

/-! ## Handlers -/

inductive OccupationException where
  | problem (detail : ProblemDetail)
  | invalidArgument (message : String)
  | document (exception : CRException)
  | thrown (exception : Exception)
  /-- An empty optional is dereferenced. -/
  | undefined

structure HttpResponse where
  status : Nat := 200
  body : String := ""
  deriving DecidableEq

variable (doc : DocumentEnvironment)

def parseUuid (text message : String) : Except OccupationException Uuid :=
  (doc.readId text).elim (.error (.invalidArgument message)) .ok

def parseBody (body : String) : Except OccupationException Json :=
  (doc.parse body).elim (.error (.document (.other "parse error"))) .ok

def stringAt (json : Json) (name : String) : Except OccupationException String :=
  (required json name getStringValue).mapError .document

def parseOwnershipMode (text : String) : Except OccupationException OwnershipMode :=
  let lower := text.toList.map Char.toLower
  if lower = "shared".toList then .ok .shared
  else if lower = "unique".toList then .ok .unique
  else .error (.invalidArgument ("invalid ownership mode: " ++ text))

/-- The sharers and the owner, as the body has them. -/
def occupationJson (sharers : List (Uuid × String)) (owner : Option OwnerInfo) : Json :=
  .object
    [("owner", .object (owner.elim [] fun owner =>
        [("abilityInstanceId", .string (doc.idText owner.id)), ("position", .string owner.position)])),
      ("sharers", .object (sharers.map fun (id, position) => (doc.idText id, .string position)))]

def dumpResponse (json : Json) : Except OccupationException HttpResponse :=
  (doc.dump json).elim (.error (.document .typeError316)) fun body => .ok { body }

def getOccupation (db : OccupationDatabase) (pathId : String) : Except OccupationException HttpResponse := do
  let id ← parseUuid doc pathId "invalid uuid"
  if db.judgeAbilityExist id then
    dumpResponse doc (occupationJson doc (getAbilitySharers db.ownership id) (getAbilityOwner db.ownership id))
  else if db.judgeDeviceExist id then
    dumpResponse doc (occupationJson doc (getDeviceSharers db.ownership id) (getDeviceOwner db.ownership id))
  else
    .error (.problem
      ⟨404, "non_exist_occupyee_cr", "Non-exist occupyee cr", "the cr to ocuupy does not exist", doc.idText id⟩)

/-- Target, requester, mode and position of a POST. -/
def readPost (pathId body : String) : Except OccupationException (Uuid × Uuid × OwnershipMode × String) := do
  let occupied ← parseUuid doc pathId "invalid target uuid"
  let json ← parseBody doc body
  let occupier ← parseUuid doc (← stringAt json "occupy_id") "invalid occupier uuid"
  let mode ← parseOwnershipMode (← stringAt json "mode")
  let position ← stringAt json "position"
  return (occupied, occupier, mode, position)

/-- The response to what `occupy_ability` or `occupy_device` gives. -/
def occupyResponse (result : Expected) (problem : String → ProblemDetail) : Except OccupationException HttpResponse :=
  match result with
  | .error exception => .error (.thrown exception)
  | .ok (.error message) => .error (.problem (problem message))
  | .ok (.ok ()) => .ok { body := "OK" }

def postOccupation (ports : OccupationPorts) (db : OccupationDatabase) (pathId body : String) :
    Except OccupationException HttpResponse × OwnershipTable :=
  match readPost doc pathId body with
  | .error exception => (.error exception, db.ownership)
  | .ok (occupied, occupier, mode, position) =>
    if db.judgeAbilityExist occupied then
      let (result, table) := occupyAbility (db.catalogue ports) db.ownership occupier position occupied mode
      (occupyResponse result fun message =>
        ⟨409, "occupy_ability_failed", "Occupy ability failed", message, doc.idText occupied⟩, table)
    else if db.judgeDeviceExist occupied then
      let (result, table) := occupyDevice (db.catalogue ports) db.ownership occupier position occupied mode
      (occupyResponse result fun message =>
        ⟨409, "occupy_device_failed", "Occupy device failed", message, doc.idText occupied⟩, table)
    else
      (.error (.problem
        ⟨404, "non_exist_occupyee_cr", "Non-exist occupyee cr", "the cr to ocuupy does not exist", doc.idText occupied⟩),
        db.ownership)

/-- Target, requester and mode of a DELETE; a requester that cannot be read is noticed when it is used. -/
def readDelete (pathId body : String) : Except OccupationException (Uuid × Option Uuid × OwnershipMode) := do
  let occupied ← parseUuid doc pathId "invalid uuid"
  let json ← parseBody doc body
  let occupier := doc.readId (← stringAt json "occupy_id")
  let mode ← parseOwnershipMode (← stringAt json "mode")
  return (occupied, occupier, mode)

/-- Whether something has been removed is not looked at. -/
def unoccupyResponse : Except Exception Bool → Except OccupationException HttpResponse
  | .error exception => .error (.thrown exception)
  | .ok _ => .ok {}

def deleteOccupation (ports : OccupationPorts) (db : OccupationDatabase) (pathId body : String) :
    Except OccupationException HttpResponse × OwnershipTable :=
  match readDelete doc pathId body with
  | .error exception => (.error exception, db.ownership)
  | .ok (occupied, occupier, mode) =>
    if db.judgeAbilityExist occupied then
      match occupier with
      | none => (.error .undefined, db.ownership)
      | some occupier =>
        let (result, table) := unoccupyAbility (db.catalogue ports) db.ownership occupier occupied mode
        (unoccupyResponse result, table)
    else if db.judgeDeviceExist occupied then
      match occupier with
      | none => (.error .undefined, db.ownership)
      | some occupier =>
        let (result, table) := unoccupyDevice (db.catalogue ports) db.ownership occupier occupied mode
        (unoccupyResponse result, table)
    else (.error (.problem ⟨404, "non_exist_cr", "cr does not exist", "", doc.idText occupied⟩), db.ownership)

/-! ## Requests -/

/-- A request as its values, and as the texts that the handlers read them from. -/
structure OccupationRequest where
  target : Uuid
  requester : Uuid
  mode : OwnershipMode
  position : String
  pathId : String
  body : String
  isTarget : doc.readId pathId = some target
  isPost : readPost doc pathId body = .ok (target, requester, mode, position)
  isDelete : readDelete doc pathId body = .ok (target, some requester, mode)

inductive OccupationEntry where
  | get
  | post
  | delete
  | occupyAbility
  | occupyDevice
  | unoccupyAbility
  | unoccupyDevice
  deriving DecidableEq

inductive OccupationOutcome where
  | response (result : Except OccupationException HttpResponse)
  | expected (result : Expected)
  | removed (result : Except Exception Bool)

/-- The outcome of the request at an entry, and the table that it leaves. -/
def occupationCall {doc : DocumentEnvironment} (ports : OccupationPorts) (db : OccupationDatabase)
    (request : OccupationRequest doc) : OccupationEntry → OccupationOutcome × OwnershipTable
  | .get => (.response (getOccupation doc db request.pathId), db.ownership)
  | .post => (postOccupation doc ports db request.pathId request.body).map .response id
  | .delete => (deleteOccupation doc ports db request.pathId request.body).map .response id
  | .occupyAbility =>
    (occupyAbility (db.catalogue ports) db.ownership request.requester request.position request.target request.mode).map
      .expected id
  | .occupyDevice =>
    (occupyDevice (db.catalogue ports) db.ownership request.requester request.position request.target request.mode).map
      .expected id
  | .unoccupyAbility =>
    (unoccupyAbility (db.catalogue ports) db.ownership request.requester request.target request.mode).map .removed id
  | .unoccupyDevice =>
    (unoccupyDevice (db.catalogue ports) db.ownership request.requester request.target request.mode).map .removed id

/-- The documented error: 404, an error value or false. -/
def OccupationOutcome.NotFound : OccupationOutcome → Prop
  | .response (.error (.problem detail)) => detail.status = 404
  | .expected (.ok (.error message)) =>
    message = "can't occupy an ability that does not exist" ∨ message = "can't occupy a device that does not exist"
  | .removed (.ok found) => found = false
  | _ => False

variable {doc}

/-! ## Unknown ids -/

section Unknown

variable {ports : OccupationPorts} {db : OccupationDatabase} {id requester : Uuid} {mode : OwnershipMode}

theorem judgeAbilityExist_unknown (unknown : db.Unknown id) : db.judgeAbilityExist id = false := by
  rw [OccupationDatabase.judgeAbilityExist, unknown.template, unknown.abilityInstance]
  rfl

theorem getDeviceCr_unknown (unknown : db.Unknown id) : db.getDeviceCr ports id = none := by
  rw [OccupationDatabase.getDeviceCr, unknown.device]
  rfl

theorem occupyAbility_unknown (unknown : db.Unknown id) (position : String) :
    occupyAbility (db.catalogue ports) db.ownership requester position id mode =
      (.ok (.error "can't occupy an ability that does not exist"), db.ownership) := by
  rw [occupyAbility]
  exact if_pos (by rw [show (db.catalogue ports).judgeAbilityExist id = false from judgeAbilityExist_unknown unknown]; rfl)

theorem unoccupyAbility_unknown (unknown : db.Unknown id) :
    unoccupyAbility (db.catalogue ports) db.ownership requester id mode = (.ok false, db.ownership) := by
  unfold unoccupyAbility
  exact if_pos (by rw [show (db.catalogue ports).judgeAbilityExist id = false from judgeAbilityExist_unknown unknown]; rfl)

/-- Whatever is not an ability is a device, whose CR is dereferenced. -/
theorem occupyDevice_unknown (unknown : db.Unknown id) (position : String) :
    occupyDevice (db.catalogue ports) db.ownership requester position id mode =
      (.error .badOptionalAccess, db.ownership) := by
  have missing : (db.catalogue ports).getDeviceCr id = none := getDeviceCr_unknown unknown
  rw [occupyDevice, missing]
  rfl

theorem unoccupyDevice_unknown (unknown : db.Unknown id) :
    unoccupyDevice (db.catalogue ports) db.ownership requester id mode = (.error .badOptionalAccess, db.ownership) := by
  have missing : (db.catalogue ports).getDeviceCr id = none := getDeviceCr_unknown unknown
  unfold unoccupyDevice
  rw [missing]
  rfl

theorem getOccupation_unknown (unknown : db.Unknown id) {pathId : String} (isTarget : doc.readId pathId = some id) :
    getOccupation doc db pathId = dumpResponse doc
      (occupationJson doc (getDeviceSharers db.ownership id) (getDeviceOwner db.ownership id)) := by
  rw [getOccupation, parseUuid, isTarget]
  show (if db.judgeAbilityExist id then _ else _) = _
  rw [judgeAbilityExist_unknown unknown]
  rfl

variable (request : OccupationRequest doc)

theorem postOccupation_unknown (unknown : db.Unknown request.target) :
    postOccupation doc ports db request.pathId request.body = (.error (.thrown .badOptionalAccess), db.ownership) := by
  rw [postOccupation, request.isPost]
  simp only [judgeAbilityExist_unknown unknown, occupyDevice_unknown unknown]
  rfl

theorem deleteOccupation_unknown (unknown : db.Unknown request.target) :
    deleteOccupation doc ports db request.pathId request.body = (.error (.thrown .badOptionalAccess), db.ownership) := by
  rw [deleteOccupation, request.isDelete]
  simp only [judgeAbilityExist_unknown unknown, unoccupyDevice_unknown unknown]
  rfl

/-- A request on an unknown id leaves the table as it is, but is reported as documented only by the functions for
abilities. -/
theorem unknown_notFound_iff (ports : OccupationPorts) (db : OccupationDatabase) (unknown : db.Unknown request.target)
    (entry : OccupationEntry) :
    (occupationCall ports db request entry).2 = db.ownership ∧
      ((occupationCall ports db request entry).1.NotFound ↔ entry = .occupyAbility ∨ entry = .unoccupyAbility) := by
  cases entry with
  | get =>
    refine ⟨rfl, iff_of_false ?_ (by simp)⟩
    rw [occupationCall, getOccupation_unknown unknown request.isTarget, dumpResponse]
    cases doc.dump _ <;> exact fun impossible => impossible
  | post =>
    rw [occupationCall, postOccupation_unknown request unknown]
    exact ⟨rfl, iff_of_false (fun impossible => impossible) (by simp)⟩
  | delete =>
    rw [occupationCall, deleteOccupation_unknown request unknown]
    exact ⟨rfl, iff_of_false (fun impossible => impossible) (by simp)⟩
  | occupyAbility =>
    rw [occupationCall, occupyAbility_unknown unknown]
    exact ⟨rfl, iff_of_true (Or.inl rfl) (.inl rfl)⟩
  | occupyDevice =>
    rw [occupationCall, occupyDevice_unknown unknown]
    exact ⟨rfl, iff_of_false (fun impossible => impossible) (by simp)⟩
  | unoccupyAbility =>
    rw [occupationCall, unoccupyAbility_unknown unknown]
    exact ⟨rfl, iff_of_true (Eq.refl false) (.inr rfl)⟩
  | unoccupyDevice =>
    rw [occupationCall, unoccupyDevice_unknown unknown]
    exact ⟨rfl, iff_of_false (fun impossible => impossible) (by simp)⟩

end Unknown

/-! ## An empty database -/

def occupyJson : Json :=
  .object [("mode", .string "unique"), ("occupy_id", .string (hexText 7)), ("position", .string "kitchen")]

/-- Nothing occupies, and nothing is occupied. -/
def freeJson : Json := .object [("owner", .object []), ("sharers", .object [])]

theorem occupyTexts_distinct : [textOf occupyJson, textOf freeJson].Nodup := by
  rw [List.nodup_cons, List.mem_singleton, textOf, textOf, String.ofList_inj]
  exact ⟨by decide, List.nodup_singleton _⟩

def occupyDocuments : DocumentEnvironment :=
  plainDocuments ⟨[(occupyJson, textOf occupyJson), (freeJson, textOf freeJson)], occupyTexts_distinct⟩

/-- The ability 7 wants 5 for itself. -/
def occupyRequest : OccupationRequest occupyDocuments where
  target := 5
  requester := 7
  mode := .unique
  position := "kitchen"
  pathId := hexText 5
  body := textOf occupyJson
  isTarget := readHexText_hexText 5
  isPost := rfl
  isDelete := rfl

def emptyDatabase : OccupationDatabase := ⟨{}, ∅, {}, ∅⟩

def noPeers : OccupationPorts where
  readTemplate _ := localCr
  readSnapshot _ := none
  readDevice _ := ⟨"localhost"⟩
  isLocalCr position := position = "localhost"
  sendPostRequest _ _ := .failed

theorem emptyDatabase_unknown : emptyDatabase.Unknown occupyRequest.target := ⟨rfl, rfl, rfl⟩

/-- A GET finds it free, and a POST throws. -/
theorem emptyDatabase_found :
    emptyDatabase.Unknown occupyRequest.target ∧
      (occupationCall noPeers emptyDatabase occupyRequest .get).1 = .response (.ok { body := textOf freeJson }) ∧
      ¬ (occupationCall noPeers emptyDatabase occupyRequest .get).1.NotFound ∧
      ¬ (occupationCall noPeers emptyDatabase occupyRequest .post).1.NotFound := by
  have found : (occupationCall noPeers emptyDatabase occupyRequest .get).1 = .response (.ok { body := textOf freeJson }) := by
    rw [occupationCall, getOccupation_unknown emptyDatabase_unknown occupyRequest.isTarget]
    rfl
  refine ⟨emptyDatabase_unknown, found, ?_, ?_⟩
  · rw [found]
    exact fun impossible => impossible
  · rw [occupationCall, postOccupation_unknown occupyRequest emptyDatabase_unknown]
    exact fun impossible => impossible

theorem emptyDatabase_unoccupyAbility :
    (occupationCall noPeers emptyDatabase occupyRequest .unoccupyAbility).2 = emptyDatabase.ownership ∧
      ((occupationCall noPeers emptyDatabase occupyRequest .unoccupyAbility).1.NotFound ↔
        OccupationEntry.unoccupyAbility = .occupyAbility ∨ OccupationEntry.unoccupyAbility = .unoccupyAbility) :=
  unknown_notFound_iff occupyRequest noPeers emptyDatabase emptyDatabase_unknown .unoccupyAbility

end AbilityFramework.ResourceMgr
