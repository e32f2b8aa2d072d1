import Mathlib.Algebra.Ring.Nat
import Mathlib.Logic.Function.Basic
import AbilityFramework.Library.Relation
import AbilityFramework.ResourceMgr.AbilityCR

/-! # Ability instances

`AbilityCRBasic` is the table of templates, `AbilityInstance` the table of the instances made from
them.  Instances come from two sides: `POST /api/instance` checks the request and submits a task that
creates the instance later, and `auto_start_ability` goes through the templates and creates
instances itself, under the manager's mutex but one statement after the other.  Heartbeats, deletes
and process exits change the rows meanwhile.  `InstanceState` is where all of these stand, and
`instanceStep` lets any of them go on. -/

namespace AbilityFramework.ResourceMgr

open Library LifecycleMgr

/-! ## Templates -/

/-- A row of `AbilityCRBasic`; name and version of the ability are columns too, but no query here
reads them. -/
structure AbilityCRBasic where
  instanceId : Uuid
  instanceName : String
  autostart : Bool
  autoStarted : Bool
  keepAlive : Bool
  singleton : Bool
  crDetail : AbilityCR
  deriving DecidableEq

abbrev AbilityCRTable := Relation AbilityCRBasic.instanceId

def abilityCrFromDbBasic (row : AbilityCRBasic) : AbilityCR :=
  { row.crDetail with
    id := row.instanceId
    metadata := ⟨row.instanceName⟩
    spec := row.crDetail.spec.map fun spec =>
      { spec with
        autoStart := some row.autostart
        keepAlive := some row.keepAlive
        singleton := some row.singleton } }

def getAbilityCr (templates : AbilityCRTable) (id : Uuid) : Option AbilityCR :=
  (templates.lookup id).map abilityCrFromDbBasic

def getAllAbilityCr (templates : AbilityCRTable) : List AbilityCR :=
  templates.rows.map abilityCrFromDbBasic

def dbGetAbilityCrNeedAutostart (templates : AbilityCRTable) : List Uuid :=
  (templates.select fun row => row.autostart && !row.autoStarted).map AbilityCRBasic.instanceId

def dbGetAbilityCrKeepAlive (templates : AbilityCRTable) : List Uuid :=
  (templates.select fun row => row.keepAlive).map AbilityCRBasic.instanceId

def dbMarkAutoStarted (templates : AbilityCRTable) (id : Uuid) : AbilityCRTable :=
  templates.updateWhere (fun row => row.instanceId = id) (fun row => { row with autoStarted := true })
    fun _ => rfl

/-! ## Instances -/

structure InstanceDetail where
  abilityPort : UInt16
  ipcPort : UInt16
  deriving DecidableEq

structure AbilityInstance where
  instanceId : Uuid
  crId : Uuid
  crName : String
  abilityName : String
  abilityVersion : String
  state : LifecycleState
  specSnapshot : AbilityCR
  detail : Option InstanceDetail
  deriving DecidableEq

abbrev AbilityInstanceTable := Relation AbilityInstance.instanceId

/-- `none` where the function throws: the id is taken, or the template has no spec. -/
def createAbilityInstance (instances : AbilityInstanceTable) (instanceId : Uuid) (crTemplate : AbilityCR) :
    Option AbilityInstanceTable :=
  match crTemplate.spec with
  | none => none
  | some spec => instances.insert
    { instanceId := instanceId
      crId := crTemplate.id
      crName := crTemplate.metadata.name
      abilityName := spec.abilityName
      abilityVersion := spec.version
      state := .inactive
      specSnapshot := { crTemplate with id := instanceId, runInfo := some ⟨.inactive⟩ }
      detail := none }

def deleteAbilityInstance (instances : AbilityInstanceTable) (instanceId : Uuid) : AbilityInstanceTable :=
  instances.deleteWhere fun row => row.instanceId = instanceId

def getAbilityInstance (instances : AbilityInstanceTable) (instanceId : Uuid) : Option AbilityInstance :=
  instances.lookup instanceId

def getActiveInstancesByAbilityName (instances : AbilityInstanceTable) (abilityName : String) :
    List AbilityInstance :=
  instances.select fun row =>
    row.abilityName = abilityName && row.state ≠ .inactive && row.state ≠ .terminated

/-- The instances that keep a template from making another one. -/
def singletonConflicts (instances : AbilityInstanceTable) (spec : AbilitySpec) : List AbilityInstance :=
  -- Singleton is the default where the spec does not say.
  if spec.singleton.getD true then getActiveInstancesByAbilityName instances spec.abilityName else []

def AbilityInstance.report (hb : Heartbeat) (row : AbilityInstance) : AbilityInstance :=
  { row with state := hb.state, detail := some ⟨hb.abilityPort, hb.ipcPort⟩ }

/-- Whether the heartbeat is accepted, and the table it leaves.  A heartbeat of an unknown instance is
dropped. -/
def onEventHeartbeat (instances : AbilityInstanceTable) (hb : Heartbeat) : Bool × AbilityInstanceTable :=
  if hb.state = .terminated then (true, deleteAbilityInstance instances hb.id)
  else
    ((instances.lookup hb.id).isSome,
      instances.updateWhere (fun row => row.instanceId = hb.id) (AbilityInstance.report hb) fun _ => rfl)

def onAbilityInstanceExited (instances : AbilityInstanceTable) (instanceId : Uuid) : AbilityInstanceTable :=
  deleteAbilityInstance instances instanceId

/-! ## Requests -/

/-- The body of `POST /api/instance`; `templateId` is the template reference read as a uuid. -/
structure InstanceRequest where
  template : String
  templateId : Option Uuid
  start : Bool
  connect : Bool

def findTemplate (templates : AbilityCRTable) (request : InstanceRequest) : Option AbilityCR :=
  match request.templateId.bind (getAbilityCr templates) with
  | some cr => some cr
  | none => (getAllAbilityCr templates).find? fun cr => cr.metadata.name = request.template

/-- The task of `make_task_start_ability` or `make_task_download_pkg_and_start_ability`. -/
structure StartTask where
  cr : AbilityCR
  start : Bool
  connect : Bool
  deriving DecidableEq

inductive PostInstance where
  /-- 404 -/
  | templateNotFound (template : String)
  /-- 409 -/
  | singletonConstraint (detail : String) (runningInstanceId : Uuid)
  /-- The handler dereferences a spec that is not there. -/
  | noSpec
  | submitted (task : StartTask)

def postInstance (templates : AbilityCRTable) (instances : AbilityInstanceTable) (request : InstanceRequest) :
    PostInstance :=
  match findTemplate templates request with
  | none => .templateNotFound request.template
  | some tmpl =>
    match tmpl.spec with
    | none => .noSpec
    | some spec =>
      match singletonConflicts instances spec with
      | running :: _ =>
        .singletonConstraint
          ("ability " ++ spec.abilityName ++ " is singleton and already has a running instance")
          running.instanceId
      | [] =>
        .submitted { cr := tmpl, start := request.start, connect := request.start && request.connect }

inductive DeleteInstance where
  /-- 404 -/
  | instanceNotFound
  | deleted (terminateSent : Bool)

/-- A running instance is told to terminate; its row goes at once all the same. -/
def deleteInstance (instances : AbilityInstanceTable) (id : Uuid) : DeleteInstance × AbilityInstanceTable :=
  match getAbilityInstance instances id with
  | none => (.instanceNotFound, instances)
  | some info =>
    (.deleted (info.state ≠ .inactive && info.state ≠ .terminated), deleteAbilityInstance instances id)

/-! ## Automatic starts -/

/-- `last_start` is in nanoseconds of the steady clock. -/
structure StartRecord where
  lastStart : Nat
  retryCount : Nat

abbrev StartRecords := Uuid → StartRecord

def retryInterval : Nat := 20 * 10 ^ 9

/-- `spawn_instance_from_template` up to the creation: the template, if it goes that far. -/
def spawnCandidate (templates : AbilityCRTable) (instances : AbilityInstanceTable) (records : StartRecords)
    (now : Nat) (templateId : Uuid) : Option AbilityCR :=
  match getAbilityCr templates templateId with
  | none => none
  | some tmpl =>
    match tmpl.spec with
    | none => none
    | some spec =>
      if !(singletonConflicts instances spec).isEmpty then none
      else if (records templateId).retryCount ≥ 3 then none
      else if (records templateId).retryCount > 0 && now - (records templateId).lastStart < retryInterval then
        none
      else some tmpl

/-- What `auto_start_ability` asks for a kept-alive template before it spawns. -/
def keepAliveDue (templates : AbilityCRTable) (instances : AbilityInstanceTable) (templateId : Uuid) : Bool :=
  match (getAbilityCr templates templateId).bind AbilityCR.spec with
  | none => false
  | some spec => (getActiveInstancesByAbilityName instances spec.abilityName).isEmpty

inductive SpawnReason where
  | autoStart
  | keepAlive
  deriving DecidableEq

/-- Where `auto_start_ability` stands: which templates are left of the loop it is in, and what it does
for the one it is at. -/
inductive AutoStartRound where
  | returned
  | loop (reason : SpawnReason) (templateIds : List Uuid)
  | spawning (reason : SpawnReason) (templateId : Uuid) (rest : List Uuid)
  | creating (reason : SpawnReason) (cr : AbilityCR) (rest : List Uuid)

/-! ## The manager -/

structure InstanceState where
  templates : AbilityCRTable
  instances : AbilityInstanceTable
  /-- The submitted tasks that have yet to create their instance. -/
  tasks : List StartTask
  round : AutoStartRound
  startRecords : StartRecords

def InstanceState.start (templates : AbilityCRTable) : InstanceState where
  templates := templates
  instances := ∅
  tasks := []
  round := .returned
  startRecords := fun _ => ⟨0, 0⟩

inductive InstanceEvent where
  | post (request : InstanceRequest)
  /-- The task at this position creates its instance, under an id that `make_uuid` gives. -/
  | createInstance (index : Nat) (instanceId : Uuid)
  /-- The task at this position could not be submitted, or its download failed. -/
  | taskFailed (index : Nat)
  /-- `update` calls `auto_start_ability`. -/
  | update
  /-- `auto_start_ability` goes on, at this time and with this id if it creates an instance. -/
  | autoStart (now : Nat) (instanceId : Uuid)
  | roundThrows
  | heartbeat (hb : Heartbeat)
  | delete (id : Uuid)
  | instanceExited (id : Uuid)

/-- The creation that `auto_start_ability` decides on when it goes on. -/
def roundCandidate (state : InstanceState) (now : Nat) : Option AbilityCR :=
  match state.round with
  | .spawning _ templateId _ =>
    spawnCandidate state.templates state.instances state.startRecords now templateId
  | _ => none

def autoStartAbility (state : InstanceState) (now : Nat) (instanceId : Uuid) : InstanceState :=
  match state.round with
  | .returned => state
  | .loop .autoStart [] =>
    { state with round := .loop .keepAlive (dbGetAbilityCrKeepAlive state.templates) }
  | .loop .autoStart (templateId :: rest) =>
    -- The template is marked before it is known whether an instance comes of it.
    { state with
      templates := dbMarkAutoStarted state.templates templateId
      round := .spawning .autoStart templateId rest }
  | .loop .keepAlive [] => { state with round := .returned }
  | .loop .keepAlive (templateId :: rest) =>
    if keepAliveDue state.templates state.instances templateId then
      { state with round := .spawning .keepAlive templateId rest }
    else { state with round := .loop .keepAlive rest }
  | .spawning reason templateId rest =>
    match roundCandidate state now with
    | none => { state with round := .loop reason rest }
    | some tmpl =>
      -- The attempt counts as a start before the instance is made.
      { state with
        round := .creating reason tmpl rest
        startRecords := Function.update state.startRecords templateId
          ⟨now, (state.startRecords templateId).retryCount + 1⟩ }
  | .creating reason tmpl rest =>
    match createAbilityInstance state.instances instanceId tmpl with
    | none => { state with round := .returned }
    | some instances => { state with instances := instances, round := .loop reason rest }

def instanceStep (state : InstanceState) : InstanceEvent → InstanceState
  | .post request =>
    match postInstance state.templates state.instances request with
    | .submitted task => { state with tasks := state.tasks ++ [task] }
    | .templateNotFound _ | .singletonConstraint _ _ | .noSpec => state
  | .createInstance index instanceId =>
    match state.tasks[index]? with
    | none => state
    | some task =>
      { state with
        tasks := state.tasks.eraseIdx index
        instances := (createAbilityInstance state.instances instanceId task.cr).getD state.instances }
  | .taskFailed index => { state with tasks := state.tasks.eraseIdx index }
  | .update =>
    match state.round with
    | .returned =>
      { state with round := .loop .autoStart (dbGetAbilityCrNeedAutostart state.templates) }
    | _ => state
  | .autoStart now instanceId => autoStartAbility state now instanceId
  | .roundThrows => { state with round := .returned }
  | .heartbeat hb => { state with instances := (onEventHeartbeat state.instances hb).2 }
  | .delete id => { state with instances := (deleteInstance state.instances id).2 }
  | .instanceExited id => { state with instances := onAbilityInstanceExited state.instances id }

end AbilityFramework.ResourceMgr
