import AbilityFramework.Library.Relation
import AbilityFramework.Library.Sqlite
import AbilityFramework.LifecycleMgr.Heartbeat
import AbilityFramework.TaskMgr.TaskStatusStore

/-! # The store of ability alerts

`AbilityAlertManager` keeps alerts in a table of a SQLite database, with an ability and a time as the key.  `query`
reads the newest alerts of an ability, or of all of them.  Texts are bound with their lengths and read as C strings,
and the columns of the protocol and of the function have been declared as integers.

`alertStore_iff`: after any pushes, what `query` returns is right exactly if every alert is one that reads back as it
was. -/

namespace AbilityFramework.AbilityAlertMgr

open Library Library.Sqlite
open LifecycleMgr (LifecycleState)
open TaskMgr (StatusTexts cString cString_eq_self)

inductive AbilityAlertLevel where
  | unknown
  | info
  | anomaly
  | error
  | fatal
  deriving DecidableEq

inductive ProtocolType where
  | http
  | coap
  deriving DecidableEq

structure AbilityBaseInfo extends LifecycleMgr.Heartbeat where
  abilityName : String
  version : String
  instanceName : String
  ipcProtocol : ProtocolType

structure ErrorLocation where
  file : String
  line : Int32
  function : String

/-- The details and the context are JSON, which the store knows only by its text. -/
structure AbilityAlert (Payload : Type) where
  code : Int32
  message : String
  errorOperation : String
  level : AbilityAlertLevel
  time : String
  abilityInfo : AbilityBaseInfo
  detail : Payload
  context : Payload
  location : ErrorLocation

/-! ## Enumerations -/

def AbilityAlertLevel.toString : AbilityAlertLevel → String
  | .unknown => "unknown"
  | .info => "info"
  | .anomaly => "anomaly"
  | .error => "error"
  | .fatal => "fatal"

def levelFromSv (text : String) : Except String AbilityAlertLevel :=
  if text = "unknown" then .ok .unknown
  else if text = "info" then .ok .info
  else if text = "anomaly" then .ok .anomaly
  else if text = "error" then .ok .error
  else if text = "fatal" then .ok .fatal
  else .error ("invalid alert level " ++ text)

/-- `to_string(LifecycleState)` -/
def stateToString : LifecycleState → String
  | .unknown => "Unknown"
  | .inactive => "Inactive"
  | .init => "Init"
  | .standby => "Standby"
  | .running => "Running"
  | .suspend => "Suspend"
  | .terminated => "Terminated"
  | .error => "Error"

def stateFromSv (text : String) : Except String LifecycleState :=
  if text = "Unknown" then .ok .unknown
  else if text = "Inactive" then .ok .inactive
  else if text = "Init" then .ok .init
  else if text = "Standby" then .ok .standby
  else if text = "Running" then .ok .running
  else if text = "Suspend" then .ok .suspend
  else if text = "Terminated" then .ok .terminated
  else if text = "Error" then .ok .error
  else .error ("invalid lifecycleState " ++ text)

def ProtocolType.toString : ProtocolType → String
  | .http => "http"
  | .coap => "coap"

def protocolFromSv (text : String) : Except String ProtocolType :=
  if text = "http" then .ok .http
  else if text = "coap" then .ok .coap
  else .error ("invalid ProtocolType " ++ text)

/-! ## Rows -/

/-- A `TEXT` column holds a text.  An `INT` column holds the integer bound to it, or what becomes of a text. -/
structure AlertRow where
  code : Int
  id : String
  message : String
  errorOperation : String
  level : String
  inputTime : String
  hbAbilityName : String
  hbInstanceName : String
  hbVersion : String
  hbLifecycleState : String
  hbAbilityPort : Int
  hbIpcPort : Int
  hbIpcProtocol : SqlValue
  detail : String
  context : String
  locationFile : String
  locationLine : Int
  locationFunction : SqlValue
  deriving DecidableEq

def AlertRow.key (row : AlertRow) : String × String := (row.id, row.inputTime)

abbrev AlertTable := Relation AlertRow.key

variable {Payload : Type} (texts : StatusTexts Payload) (toReal : String → SqlValue)

/-- The row that `insert` writes. -/
def alertRow (alert : AbilityAlert Payload) : AlertRow where
  code := alert.code.toInt
  id := texts.idText alert.abilityInfo.id
  message := alert.message
  errorOperation := alert.errorOperation
  level := alert.level.toString
  inputTime := alert.time
  hbAbilityName := alert.abilityInfo.abilityName
  hbInstanceName := alert.abilityInfo.instanceName
  hbVersion := alert.abilityInfo.version
  hbLifecycleState := stateToString alert.abilityInfo.state
  hbAbilityPort := alert.abilityInfo.abilityPort.toNat
  hbIpcPort := alert.abilityInfo.ipcPort.toNat
  hbIpcProtocol := integerAffinity toReal (.text alert.abilityInfo.ipcProtocol.toString)
  detail := texts.dump alert.detail
  context := texts.dump alert.context
  locationFile := alert.location.file
  locationLine := alert.location.line.toInt
  locationFunction := integerAffinity toReal (.text alert.location.function)

def parseId (text message : String) : Except String Uuid :=
  (texts.readId text).elim (.error ("invalid " ++ message ++ " " ++ text)) .ok

def parseJson (text : String) : Except String Payload :=
  (texts.parse text).elim (.error "[json.exception.parse_error]") .ok

/-- An `int` in a `uint16_t`. -/
def port (value : Int) : UInt16 := UInt16.ofInt (columnInt value).toInt

def fromDbRow (row : AlertRow) : Except String (AbilityAlert Payload) := do
  let id ← parseId texts (cText row.id) "instance id"
  let level ← levelFromSv (cText row.level)
  let state ← stateFromSv (cText row.hbLifecycleState)
  let ipcProtocol ← protocolFromSv (columnText row.hbIpcProtocol)
  let detail ← parseJson texts (cText row.detail)
  let context ← parseJson texts (cText row.context)
  return {
    code := columnInt row.code
    message := cText row.message
    errorOperation := cText row.errorOperation
    level
    time := cText row.inputTime
    abilityInfo := {
      id
      state
      ipcPort := port row.hbIpcPort
      abilityPort := port row.hbAbilityPort
      abilityName := cText row.hbAbilityName
      version := cText row.hbVersion
      instanceName := cText row.hbInstanceName
      ipcProtocol }
    detail
    context
    location := {
      file := cText row.locationFile
      line := columnInt row.locationLine
      function := columnText row.locationFunction } }

/-! ## The store -/

/-- `INSERT INTO AbilityAlert` -/
def pushBack (table : AlertTable) (alert : AbilityAlert Payload) : Except String AlertTable :=
  match table.insert (alertRow texts toReal alert) with
  | some next => .ok next
  | none => .error "Failed to insert data: UNIQUE constraint failed: AbilityAlert.id, AbilityAlert.input_time"

/-- Calls of `push_back` that all return. -/
def pushAll (alerts : List (AbilityAlert Payload)) : Except String AlertTable := alerts.foldlM (pushBack texts toReal) ∅

variable (order : OrderByDesc AlertRow.inputTime)

/-- The nil id stands for all abilities. -/
def queryAbilityAlerts (table : AlertTable) (abilityInstanceId : Uuid) (numEntries : Int) :
    Except String (List (AbilityAlert Payload)) :=
  let rows := table.select fun row => abilityInstanceId = 0 || row.id = cString (texts.idText abilityInstanceId)
  (limitTo numEntries (order.sort rows)).mapM (fromDbRow texts)

/-! ## What the store is for -/

def Asked (abilityInstanceId : Uuid) (alert : AbilityAlert Payload) : Bool :=
  abilityInstanceId = 0 || alert.abilityInfo.id = abilityInstanceId

def ReturnsLatest (pushed : List (AbilityAlert Payload)) (abilityInstanceId : Uuid) (numEntries : Nat)
    (result : Except String (List (AbilityAlert Payload))) : Prop :=
  ∃ alerts, result = .ok alerts ∧ Latest AbilityAlert.time (pushed.filter (Asked abilityInstanceId)) numEntries alerts

/-- No text has a NUL, and the function is no number, or one as SQLite writes it. -/
structure AbilityAlert.ReadsBack (alert : AbilityAlert Payload) : Prop where
  message : Char.ofNat 0 ∉ alert.message.toList
  errorOperation : Char.ofNat 0 ∉ alert.errorOperation.toList
  time : Char.ofNat 0 ∉ alert.time.toList
  abilityName : Char.ofNat 0 ∉ alert.abilityInfo.abilityName.toList
  instanceName : Char.ofNat 0 ∉ alert.abilityInfo.instanceName.toList
  version : Char.ofNat 0 ∉ alert.abilityInfo.version.toList
  file : Char.ofNat 0 ∉ alert.location.file.toList
  function : KeptAsNumber toReal alert.location.function

variable {texts toReal order} {alert : AbilityAlert Payload} {pushed : List (AbilityAlert Payload)} {table : AlertTable}

/-! ## Reading a row back -/

theorem level_readsBack (level : AbilityAlertLevel) : levelFromSv (cText level.toString) = .ok level := by
  cases level <;> rfl

theorem state_readsBack (state : LifecycleState) : stateFromSv (cText (stateToString state)) = .ok state := by
  cases state <;> rfl

/-- A name of a protocol is no number, which the column of integers keeps. -/
theorem protocol_readsBack (toReal : String → SqlValue) (protocol : ProtocolType) :
    protocolFromSv (columnText (integerAffinity toReal (.text protocol.toString))) = .ok protocol := by
  cases protocol with
  | http =>
    rw [integerAffinity_of_no_number toReal (numberLiteral_eq_none rfl (by decide) (by decide) (by decide))]
    rfl
  | coap =>
    rw [integerAffinity_of_no_number toReal (numberLiteral_eq_none rfl (by decide) (by decide) (by decide))]
    rfl

theorem port_readsBack (value : UInt16) : port value.toNat = value := by
  have small := value.toNat_lt
  rw [port, columnInt, Int32.toInt_ofInt_of_le (by omega) (by omega), UInt16.ofInt]
  have isValue : ((value.toNat : Int) % 2 ^ 16).toNat = value.toNat := by omega
  rw [isValue, UInt16.ofNat_toNat]

theorem cText_idText (id : Uuid) : cText (texts.idText id) = texts.idText id :=
  cText_eq_self.mpr (texts.nul_not_mem_idText id)

theorem id_readsBack (id : Uuid) (message : String) : parseId texts (cText (texts.idText id)) message = .ok id := by
  rw [parseId, cText_idText, texts.readId_idText]
  rfl

theorem json_readsBack (payload : Payload) : parseJson texts (cText (texts.dump payload)) = .ok payload := by
  rw [parseJson, cText_eq_self.mpr (texts.nul_not_mem_dump payload), texts.parse_dump]
  rfl

/-- What is read of an alert that has been stored. -/
def AbilityAlert.stored (toReal : String → SqlValue) (alert : AbilityAlert Payload) : AbilityAlert Payload :=
  { alert with
    message := cText alert.message
    errorOperation := cText alert.errorOperation
    time := cText alert.time
    abilityInfo := { alert.abilityInfo with
      abilityName := cText alert.abilityInfo.abilityName
      instanceName := cText alert.abilityInfo.instanceName
      version := cText alert.abilityInfo.version }
    location := { alert.location with
      file := cText alert.location.file
      function := columnText (integerAffinity toReal (.text alert.location.function)) } }

theorem fromDbRow_alertRow (alert : AbilityAlert Payload) :
    fromDbRow texts (alertRow texts toReal alert) = .ok (alert.stored toReal) := by
  simp only [fromDbRow, alertRow, id_readsBack, level_readsBack, state_readsBack, protocol_readsBack, json_readsBack,
    port_readsBack, columnInt, Int32.ofInt_toInt]
  rfl

theorem stored_eq_self : alert.stored toReal = alert ↔ alert.ReadsBack toReal := by
  constructor
  · intro same
    have sameInfo := congrArg AbilityAlert.abilityInfo same
    have sameLocation := congrArg AbilityAlert.location same
    exact {
      message := cText_eq_self.mp (congrArg AbilityAlert.message same)
      errorOperation := cText_eq_self.mp (congrArg AbilityAlert.errorOperation same)
      time := cText_eq_self.mp (congrArg AbilityAlert.time same)
      abilityName := cText_eq_self.mp (congrArg AbilityBaseInfo.abilityName sameInfo)
      instanceName := cText_eq_self.mp (congrArg AbilityBaseInfo.instanceName sameInfo)
      version := cText_eq_self.mp (congrArg AbilityBaseInfo.version sameInfo)
      file := cText_eq_self.mp (congrArg ErrorLocation.file sameLocation)
      function := (columnText_integerAffinity toReal).mp (congrArg ErrorLocation.function sameLocation) }
  · intro readsBack
    rw [AbilityAlert.stored, cText_eq_self.mpr readsBack.message, cText_eq_self.mpr readsBack.errorOperation,
      cText_eq_self.mpr readsBack.time, cText_eq_self.mpr readsBack.abilityName, cText_eq_self.mpr readsBack.instanceName,
      cText_eq_self.mpr readsBack.version, cText_eq_self.mpr readsBack.file,
      (columnText_integerAffinity toReal).mpr readsBack.function]

/-! ## Queries -/

theorem rows_pushBack {next : AlertTable} (pushes : pushBack texts toReal table alert = .ok next) :
    next.rows = table.rows ++ [alertRow texts toReal alert] := by
  unfold pushBack Relation.insert at pushes
  split at pushes
  · rename_i inserted
    split_ifs at inserted
    obtain rfl := Option.some.inj inserted
    obtain rfl := Except.ok.inj pushes
    rfl
  · cases pushes

theorem rows_foldlM_pushBack {start : AlertTable} (returns : pushed.foldlM (pushBack texts toReal) start = .ok table) :
    table.rows = start.rows ++ pushed.map (alertRow texts toReal) := by
  induction pushed generalizing start with
  | nil =>
    obtain rfl := Except.ok.inj returns
    exact (List.append_nil _).symm
  | cons alert pushed inductionHypothesis =>
    obtain ⟨next, pushes, later⟩ := except_bind_eq_ok.mp returns
    rw [inductionHypothesis later, rows_pushBack pushes, List.append_assoc, List.map_cons, List.singleton_append]

theorem rows_pushAll (returns : pushAll texts toReal pushed = .ok table) :
    table.rows = pushed.map (alertRow texts toReal) :=
  rows_foldlM_pushBack returns

theorem idText_injective : Function.Injective texts.idText := by
  intro first second sameText
  have sameRead := congrArg texts.readId sameText
  rw [texts.readId_idText, texts.readId_idText] at sameRead
  exact Option.some.inj sameRead

theorem select_pushAll (returns : pushAll texts toReal pushed = .ok table) (id : Uuid) :
    (table.select fun row => id = 0 || row.id = cString (texts.idText id)) =
      (pushed.filter (Asked id)).map (alertRow texts toReal) := by
  rw [Relation.select, rows_pushAll returns, List.filter_map]
  refine congrArg (List.map _) (List.filter_congr fun alert _ => ?_)
  simp only [Function.comp_apply, Asked, alertRow, cString_eq_self.mpr (texts.nul_not_mem_idText id),
    idText_injective.eq_iff]

/-- A query returns the newest alerts as they have been stored; it never throws. -/
theorem queryAbilityAlerts_pushAll (order : OrderByDesc AlertRow.inputTime)
    (returns : pushAll texts toReal pushed = .ok table) (id : Uuid) :
    ∃ sorted : List (AbilityAlert Payload), sorted.Perm (pushed.filter (Asked id)) ∧
      (sorted.Pairwise fun earlier later => later.time ≤ earlier.time) ∧
        ∀ limit : Nat, queryAbilityAlerts texts order table id limit =
          .ok ((sorted.take limit).map (AbilityAlert.stored toReal)) := by
  have selected := select_pushAll returns id
  have perm := order.perm (table.select fun row => id = 0 || row.id = cString (texts.idText id))
  have descending := order.descending (table.select fun row => id = 0 || row.id = cString (texts.idText id))
  rw [selected] at perm descending
  obtain ⟨sorted, isPerm, isSorted⟩ := exists_perm_of_perm_map perm
  rw [isSorted, List.pairwise_map] at descending
  refine ⟨sorted, isPerm, descending, fun limit => ?_⟩
  have reads : (fromDbRow texts ∘ alertRow texts toReal) = fun alert => pure (alert.stored toReal) :=
    funext fun alert => fromDbRow_alertRow alert
  rw [queryAbilityAlerts, limitTo_natCast, selected, isSorted, ← List.map_take, List.mapM_map, reads, List.mapM_pure]
  rfl

theorem inj_on_key (returns : pushAll texts toReal pushed = .ok table) {first second : AbilityAlert Payload}
    (firstPushed : first ∈ pushed) (secondPushed : second ∈ pushed)
    (sameId : first.abilityInfo.id = second.abilityInfo.id) (sameTime : first.time = second.time) : first = second := by
  have keyed := table.keyed
  rw [rows_pushAll returns, List.map_map] at keyed
  refine List.inj_on_of_nodup_map keyed firstPushed secondPushed ?_
  show (texts.idText first.abilityInfo.id, first.time) = (texts.idText second.abilityInfo.id, second.time)
  rw [sameId, sameTime]

/-- If the alerts as they have been stored are the alerts that were pushed, in any order, each is as it was. -/
theorem stored_eq_of_perm (returns : pushAll texts toReal pushed = .ok table)
    (perm : (pushed.map (AbilityAlert.stored toReal)).Perm pushed) (isPushed : alert ∈ pushed) :
    alert.stored toReal = alert := by
  -- Every alert is one as it has been stored, so that no time has a NUL and storing keeps the keys.
  have storedPushed : alert.stored toReal ∈ pushed := perm.mem_iff.mp (List.mem_map_of_mem isPushed)
  obtain ⟨origin, _, isOrigin⟩ := List.mem_map.mp (perm.mem_iff.mpr isPushed)
  refine inj_on_key returns storedPushed isPushed rfl ?_
  rw [← isOrigin]
  exact cText_cText origin.time

/-- After any pushes, all queries are right exactly if every alert reads back as it was. -/
theorem alertStore_iff (texts : StatusTexts Payload) (toReal : String → SqlValue) (order : OrderByDesc AlertRow.inputTime)
    (returns : pushAll texts toReal pushed = .ok table) :
    (∀ id limit, ReturnsLatest pushed id limit (queryAbilityAlerts texts order table id limit)) ↔
      ∀ alert ∈ pushed, alert.ReadsBack toReal := by
  constructor
  · intro right alert isPushed
    obtain ⟨sorted, perm, _, result⟩ := queryAbilityAlerts_pushAll order returns 0
    obtain ⟨alerts, isResult, latest⟩ := right 0 pushed.length
    have allAsked : pushed.filter (Asked 0) = pushed := List.filter_eq_self.mpr fun _ _ => rfl
    rw [allAsked] at perm latest
    rw [result, Except.ok.injEq, ← perm.length_eq, List.take_length] at isResult
    have samePerm := latest.perm
    rw [← isResult] at samePerm
    exact stored_eq_self.mp (stored_eq_of_perm returns ((perm.symm.map _).trans samePerm) isPushed)
  · intro readsBack id limit
    obtain ⟨sorted, perm, descending, result⟩ := queryAbilityAlerts_pushAll order returns id
    refine ⟨sorted.take limit, ?_, latest_take perm descending limit⟩
    rw [result, Except.ok.injEq]
    refine (List.map_congr_left fun alert isTaken => ?_).trans (List.map_id _)
    have isPushed := (List.mem_filter.mp (perm.mem_iff.mp (List.mem_of_mem_take isTaken))).1
    exact stored_eq_self.mpr (readsBack alert isPushed)

/-! ### An alert of a function -/

open TaskMgr (unaryTexts)

def mergeSortRows : OrderByDesc AlertRow.inputTime where
  sort rows := rows.mergeSort fun first second => second.inputTime ≤ first.inputTime
  perm rows := List.mergeSort_perm rows _
  descending rows := by
    have sorted : (rows.mergeSort fun first second => second.inputTime ≤ first.inputTime).Pairwise
        fun earlier later => decide (later.inputTime ≤ earlier.inputTime) = true := by
      apply List.pairwise_mergeSort
      · intro first second third firstSecond secondThird
        exact decide_eq_true (String.le_trans (of_decide_eq_true secondThird) (of_decide_eq_true firstSecond))
      · intro first second
        rw [Bool.or_eq_true, decide_eq_true_iff, decide_eq_true_iff]
        exact String.le_total _ _
    exact sorted.imp fun inOrder => of_decide_eq_true inOrder

def alertIn (function : String) : AbilityAlert Unit where
  code := -3
  message := "the lamp does not answer"
  errorOperation := "turn_on"
  level := .anomaly
  time := "2025-03-29 16:18:06.952"
  abilityInfo := {
    id := 2
    state := .running
    ipcPort := 8080
    abilityPort := 8081
    abilityName := "LampAbility"
    version := "1.0"
    instanceName := "lamp"
    ipcProtocol := .http }
  detail := ()
  context := ()
  location := { file := "lamp.cpp", line := 42, function }

theorem turnOn_latest : ∃ table, pushAll unaryTexts .real [alertIn "turn_on"] = .ok table ∧
    ∀ id limit, ReturnsLatest [alertIn "turn_on"] id limit (queryAbilityAlerts unaryTexts mergeSortRows table id limit) := by
  refine ⟨_, rfl, (alertStore_iff unaryTexts .real mergeSortRows rfl).mpr fun alert isPushed => ?_⟩
  rw [List.mem_singleton.mp isPushed]
  constructor <;> decide

/-- A function with the name of a number comes back under another name. -/
theorem numberedFunction_changed : ∃ table, pushAll unaryTexts .real [alertIn "007"] = .ok table ∧
    ¬ ReturnsLatest [alertIn "007"] 2 1 (queryAbilityAlerts unaryTexts mergeSortRows table 2 (1 : Nat)) := by
  have returns : ∃ table, pushAll unaryTexts .real [alertIn "007"] = .ok table := ⟨_, rfl⟩
  obtain ⟨table, isTable⟩ := returns
  refine ⟨table, isTable, ?_⟩
  rintro ⟨alerts, isResult, latest⟩
  obtain ⟨sorted, perm, _, result⟩ := queryAbilityAlerts_pushAll mergeSortRows isTable 2
  have isAsked : [alertIn "007"].filter (Asked 2) = [alertIn "007"] := rfl
  rw [isAsked] at perm latest
  rw [result, Except.ok.injEq, List.perm_singleton.mp perm] at isResult
  have same := latest.perm
  rw [← isResult] at same
  have readsBack := stored_eq_self.mp (List.cons.inj (List.perm_singleton.mp same)).1
  exact absurd readsBack.function (by decide)

end AbilityFramework.AbilityAlertMgr
