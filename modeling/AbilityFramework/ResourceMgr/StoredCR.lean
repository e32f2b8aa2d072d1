import AbilityFramework.ResourceMgr.AbilityReconcile
import AbilityFramework.ResourceMgr.WrittenCR

/-! # CRs in the database

A template keeps the text of the CR of a file as its detail, and an instance the text of the template that it
has been made from as its snapshot.  `IsStored` is what holds of every template that files have been read into:
with it, a template that is read back is settled, and an instance's snapshot is read as the template it was. -/

namespace AbilityFramework.ResourceMgr.Document

open Library LifecycleMgr

variable (doc : DocumentEnvironment)

/-- `nlohmann::json(cr).dump()` -/
def dumpCr (cr : AbilityCR) : Except CRException String :=
  (doc.dump (cr.toJson doc)).elim (.error .typeError316) .ok

/-- `nlohmann::json::parse(text).get<AbilityCR>()` -/
def parseCr (text : String) : Except CRException AbilityCR :=
  match doc.parse text with
  | none => .error (.other "parse error")
  | some json => AbilityCR.fromJson doc json

/-- Ability CRs of files are read as documents. -/
def documented (env : CREnvironment) : CREnvironment :=
  { env with
    version := doc.version
    idText := doc.idText
    abilityRest := fun json => do return (← AbilityCR.fromJson doc json).toJson doc
    dump := fun json => (doc.dump json).elim (.error .typeError316) .ok }

/-! ## Templates -/

/-- What the detail says is replaced by what the columns have. -/
def AbilityCR.withColumns (cr : AbilityCR) (row : AbilityCRBasicRow) : AbilityCR :=
  { cr with
    metadata := { cr.metadata with name := row.instanceName }
    spec := { cr.spec with
      autoStart := some row.autostart
      keepAlive := some row.keepAlive
      singleton := some row.singleton }
    id := row.instanceId }

def abilityCrFromDbBasic (row : AbilityCRBasicRow) : Except CRException AbilityCR := do
  return (← parseCr doc row.crDetail).withColumns row

/-- `db_get_ability_cr_labels` and `db_get_ability_cr_annotations` -/
def dbGetTexts (texts : CRTexts) (id : Uuid) : StringMap :=
  (texts.select fun text => text.instanceId = id).foldl (fun map text => map.replaceInto (text.key, text.value)) ∅

/-- Labels and annotations are those of the tables. -/
def AbilityCR.withTexts (cr : AbilityCR) (labels annotations : StringMap) : AbilityCR :=
  { cr with metadata := { cr.metadata with labels, annotations } }

def getAbilityCr (abilities : AbilityTables) (id : Uuid) : Except CRException (Option AbilityCR) :=
  match abilities.basic.lookup id with
  | none => .ok none
  | some row => do
    let cr ← abilityCrFromDbBasic doc row
    return some (cr.withTexts (dbGetTexts abilities.labels id) (dbGetTexts abilities.annotations id))

/-! ## Instances -/

structure InstancePorts where
  abilityPort : UInt16
  ipcPort : UInt16
  deriving DecidableEq

/-- A row of `AbilityInstance`. -/
structure AbilityInstanceRow where
  instanceId : Uuid
  crId : Uuid
  crName : String
  instanceName : String
  abilityName : String
  abilityVersion : String
  state : LifecycleState
  startTime : Int
  stopTime : Option Int
  specSnapshot : Option String
  detail : Option InstancePorts
  deriving DecidableEq

abbrev AbilityInstances := Relation AbilityInstanceRow.instanceId

/-- The CR that the snapshot is the text of. -/
def AbilityCR.snapshot (crTemplate : AbilityCR) (instanceId : Uuid) : AbilityCR :=
  { crTemplate with
    id := instanceId
    runInfo := some { crTemplate.runInfo.getD {} with lifecycleState := .inactive } }

def createAbilityInstance (instances : AbilityInstances) (now : Int) (instanceId : Uuid) (crTemplate : AbilityCR) :
    Except CRException AbilityInstances := do
  let specSnapshot ← dumpCr doc (crTemplate.snapshot instanceId)
  let row : AbilityInstanceRow :=
    { instanceId
      crId := crTemplate.id
      crName := crTemplate.metadata.name
      instanceName := crTemplate.metadata.name ++ "-" ++ String.ofList ((doc.idText instanceId).toList.take 8)
      abilityName := crTemplate.spec.abilityName
      abilityVersion := crTemplate.spec.version
      state := .inactive
      startTime := now
      stopTime := none
      specSnapshot := some specSnapshot
      detail := none }
  (instances.insert row).elim (.error (.other "UNIQUE constraint failed")) .ok

def deleteAbilityInstance (instances : AbilityInstances) (instanceId : Uuid) : AbilityInstances :=
  instances.deleteWhere fun row => row.instanceId = instanceId

/-- The snapshot of an instance; what has none that can be read is looked up among the templates. -/
def resolveAbilityCrById (abilities : AbilityTables) (instances : AbilityInstances) (id : Uuid) :
    Except CRException (Option AbilityCR) :=
  match (instances.lookup id).bind AbilityInstanceRow.specSnapshot with
  | none => getAbilityCr doc abilities id
  | some text =>
    match parseCr doc text with
    | .ok cr => .ok (some { cr with id })
    | .error _ => getAbilityCr doc abilities id

variable {doc}

/-! ## What is read back -/

theorem parse_dumpCr {cr : AbilityCR} {text : String} (written : dumpCr doc cr = .ok text) :
    doc.parse text = some (cr.toJson doc).asWritten := by
  rw [dumpCr] at written
  cases dumped : doc.dump (cr.toJson doc) with
  | none =>
    rw [dumped] at written
    cases written
  | some own =>
    rw [dumped] at written
    cases written
    exact doc.parse_dump dumped

theorem parseCr_dumpCr {cr : AbilityCR} {text : String} (written : dumpCr doc cr = .ok text) :
    parseCr doc text = (AbilityCR.fromJson doc (cr.toJson doc)).map AbilityCR.asWritten := by
  rw [parseCr, parse_dumpCr written]
  exact fromJson_asWritten cr

theorem createAbilityInstance_row {instances created : AbilityInstances} {now : Int} {instanceId : Uuid}
    {crTemplate : AbilityCR} (isCreated : createAbilityInstance doc instances now instanceId crTemplate = .ok created) :
    ∃ text row, dumpCr doc (crTemplate.snapshot instanceId) = .ok text ∧ row.instanceId = instanceId ∧
      row.specSnapshot = some text ∧ instances.insert row = some created := by
  obtain ⟨text, dumped, isInserted⟩ := except_bind_eq_ok.mp isCreated
  dsimp only at isInserted
  generalize isRow : AbilityInstanceRow.mk _ _ _ _ _ _ _ _ _ _ _ = row at isInserted
  cases inserted : instances.insert row with
  | none =>
    rw [inserted] at isInserted
    cases isInserted
  | some table =>
    rw [inserted] at isInserted
    cases isInserted
    exact ⟨text, row, dumped, isRow ▸ rfl, isRow ▸ rfl, inserted⟩

theorem mem_dbGetTexts {texts : CRTexts} {id : Uuid} {entry : String × String} :
    entry ∈ dbGetTexts texts id ↔ ⟨id, entry.1, entry.2⟩ ∈ texts := by
  have own : ∀ text ∈ texts.select fun text => text.instanceId = id, text.instanceId = id := fun text isText =>
    of_decide_eq_true (Relation.mem_select.mp isText).2
  have keys : ((texts.select fun text => text.instanceId = id).map CRText.key).map (Prod.mk id) =
      (texts.select fun text => text.instanceId = id).map CRText.primaryKey := by
    rw [List.map_map]
    exact List.map_congr_left fun text isText => congrArg (·, text.key) (own text isText).symm
  have distinct : (((texts.select fun text => text.instanceId = id).map fun text => (text.key, text.value)).map
      Prod.fst).Nodup := by
    rw [List.map_map]
    refine List.Nodup.of_map (Prod.mk id) ?_
    exact keys ▸ (List.filter_sublist.map _).nodup texts.keyed
  rw [dbGetTexts, ← List.foldl_map, Relation.mem_foldl_replaceInto distinct, List.mem_map]
  constructor
  · rintro (⟨text, isText, rfl⟩ | ⟨inEmpty, _⟩)
    · rw [← own text isText]
      exact (Relation.mem_select.mp isText).1
    · cases inEmpty
  · intro isText
    exact .inl ⟨_, Relation.mem_select.mpr ⟨isText, decide_eq_true rfl⟩, rfl⟩

theorem mem_dbGetTexts_iff {texts : CRTexts} {id : Uuid} {map : StringMap} (own : TextsAre texts id map)
    (entry : String × String) : entry ∈ dbGetTexts texts id ↔ entry ∈ map := by
  rw [mem_dbGetTexts]
  constructor
  · intro isText
    obtain ⟨found, isFound, same⟩ := (own _).mp ⟨isText, rfl⟩
    obtain ⟨_, sameKey, sameValue⟩ := CRText.mk.inj same
    exact (Prod.ext sameKey sameValue : entry = found) ▸ isFound
  · intro isEntry
    exact ((own _).mpr ⟨entry, isEntry, rfl⟩).1

theorem dbGetTexts_lookup {texts : CRTexts} {id : Uuid} {map : StringMap} (own : TextsAre texts id map) (key : String) :
    (dbGetTexts texts id).lookup key = map.lookup key :=
  Relation.lookup_congr (mem_dbGetTexts_iff own) key

/-- The template is the text of a CR that has not run, with the labels of the CR. -/
structure IsStored (doc : DocumentEnvironment) (abilities : AbilityTables) (row : AbilityCRBasicRow) (cr : AbilityCR) :
    Prop where
  detail : dumpCr doc cr = .ok row.crDetail
  runInfo : cr.runInfo = some {}
  labels : TextsAre abilities.labels row.instanceId cr.metadata.labels

/-- Reading changes neither metadata nor what there is of a run. -/
theorem readBack_eq {written cr : AbilityCR} (isRead : AbilityCR.fromJson doc (written.toJson doc) = .ok cr) :
    cr.metadata = written.metadata ∧ (written.runInfo = some {} → cr.runInfo = some {}) := by
  have distinct : ((written.members doc).map Prod.fst).Nodup := members_distinct written
  simp only [AbilityCR.fromJson, AbilityCR.toJson, except_bind_eq_ok] at isRead
  obtain ⟨tag, -, metadata, isMetadata, id, -, kind, -, status, -, runInfo, isRunInfo, subabilities, -, devices, -,
    labelled, -, sharers, -, owner, -, spec, -, same⟩ := isRead
  cases same
  rw [required_pack distinct (show (written.members doc).lookup "metadata" = _ from rfl), metadata_readsBack] at isMetadata
  refine ⟨(Except.ok.inj isMetadata).symm, fun notRun => ?_⟩
  rw [optionalUnlessEmpty, optional_pack distinct] at isRunInfo
  have given : (written.runInfo.map RunInfo.toJson).elim (.ok none)
      (fun found => if found.isEmpty then .ok none else (RunInfo.fromJson found).map some) = .ok runInfo := isRunInfo
  rw [notRun] at given
  have settled : ∀ info, some ({} : RunInfo) = some info →
      info.lastUpdate.bmod (2 ^ 64) = info.lastUpdate ∧ info.lastConnect.bmod (2 ^ 64) = info.lastConnect := by
    intro info isInfo
    rw [← Option.some.inj isInfo]
    exact ⟨rfl, rfl⟩
  rw [elim_runInfo settled] at given
  exact (Except.ok.inj given).symm

/-- Sharers and owner depend on what the labels say of them only. -/
theorem AbilityCR.Settled.withTexts {cr : AbilityCR} (settled : cr.Settled doc) {labels : StringMap}
    (same : ∀ key, labels.lookup key = cr.metadata.labels.lookup key) (annotations : StringMap) :
    (cr.withTexts labels annotations).Settled doc := by
  have sharers : labelledSharers doc labels = labelledSharers doc cr.metadata.labels := by
    rw [labelledSharers, labelledSharers, same]
  have owner : labelledOwner doc labels = labelledOwner doc cr.metadata.labels := by
    rw [labelledOwner, labelledOwner, same]
  refine ⟨settled.runInfo, ?_, ?_, settled.spec⟩
  · show cr.sharers = ∅ → labelledSharers doc labels = ∅
    rw [sharers]
    exact settled.sharers
  · show ∃ owner, labelledOwner doc labels = .ok owner ∧ _
    rw [owner]
    exact settled.owner

theorem AbilityCR.Settled.withColumns {cr : AbilityCR} (settled : cr.Settled doc) (row : AbilityCRBasicRow) :
    (cr.withColumns row).Settled doc := by
  refine ⟨settled.runInfo, settled.sharers, settled.owner, ?_⟩
  obtain ⟨⟨version, priority, activityCondition, debugOption⟩, subabilities⟩ := settled.spec
  exact ⟨⟨version, priority, activityCondition, debugOption⟩, subabilities⟩

/-- What the tables have is no free-form member. -/
theorem AbilityCR.asWritten_withTexts (cr : AbilityCR) (labels annotations : StringMap) :
    (cr.withTexts labels annotations).asWritten = cr.asWritten.withTexts labels annotations := rfl

theorem AbilityCR.asWritten_withColumns (cr : AbilityCR) (row : AbilityCRBasicRow) :
    (cr.withColumns row).asWritten = cr.asWritten.withColumns row := by
  simp only [AbilityCR.asWritten, AbilityCR.withColumns, AbilitySpec.asWritten_eq]

/-- A template that has been read is read again as itself, and from a text too. -/
structure IsTemplate (doc : DocumentEnvironment) (cr : AbilityCR) : Prop where
  settled : cr.Settled doc
  notRun : cr.runInfo = some {}
  written : cr.asWritten = cr

theorem getAbilityCr_isTemplate {abilities : AbilityTables}
    (stored : ∀ row ∈ abilities.basic, ∃ cr, IsStored doc abilities row cr) {id : Uuid} {cr : AbilityCR}
    (isRead : getAbilityCr doc abilities id = .ok (some cr)) : IsTemplate doc cr := by
  rw [getAbilityCr] at isRead
  split at isRead
  · cases isRead
  · rename_i row found
    obtain ⟨isRow, rfl⟩ := Relation.lookup_eq_some.mp found
    obtain ⟨written, isWritten⟩ := stored row isRow
    obtain ⟨basic, isBasic, same⟩ := except_bind_eq_ok.mp isRead
    cases same
    obtain ⟨parsed, isParsed, same⟩ := except_bind_eq_ok.mp isBasic
    cases same
    rw [parseCr_dumpCr isWritten.detail] at isParsed
    cases fromDocument : AbilityCR.fromJson doc (written.toJson doc) with
    | error exception =>
      rw [fromDocument] at isParsed
      cases isParsed
    | ok read =>
      rw [fromDocument] at isParsed
      cases isParsed
      obtain ⟨metadata, notRun⟩ := readBack_eq fromDocument
      refine ⟨((cr_settled fromDocument).asWritten.withColumns row).withTexts (fun key => ?_) _,
        notRun isWritten.runInfo, ?_⟩
      · rw [dbGetTexts_lookup isWritten.labels, ← metadata]
        rfl
      · rw [AbilityCR.asWritten_withTexts, AbilityCR.asWritten_withColumns, AbilityCR.asWritten_asWritten]

/-- The text of the snapshot of a template is read as the template under the id of the instance. -/
theorem snapshot_readsBack {crTemplate : AbilityCR} (isTemplate : IsTemplate doc crTemplate) {instanceId : Uuid}
    {text : String} (isDumped : dumpCr doc (crTemplate.snapshot instanceId) = .ok text) :
    parseCr doc text = .ok { crTemplate with id := instanceId } := by
  have runInfo : some { crTemplate.runInfo.getD {} with lifecycleState := .inactive } = crTemplate.runInfo := by
    rw [isTemplate.notRun]
    rfl
  have settled := isTemplate.settled
  have readsBack : AbilityCR.fromJson doc ((crTemplate.snapshot instanceId).toJson doc) =
      .ok { crTemplate with id := instanceId } := by
    rw [AbilityCR.snapshot, runInfo]
    exact cr_readsBack ⟨settled.runInfo, settled.sharers, settled.owner, settled.spec⟩
  have written : AbilityCR.asWritten { crTemplate with id := instanceId } = { crTemplate with id := instanceId } :=
    congrArg (fun cr : AbilityCR => { cr with id := instanceId }) isTemplate.written
  rw [parseCr_dumpCr isDumped, readsBack]
  exact congrArg Except.ok written

/-! ## CRs of files -/

section Files

variable {env : CREnvironment} {checks : CRChecks} {yaml : Yaml} {data : AbilityCRData} {content : AbilityCRContent}

/-- A CR that is accepted has been read from the file, with the members that the framework writes, and has passed
the check of its tasks. -/
theorem readCrFromYaml_ability (accepted : readCrFromYaml env checks yaml = .ok (some (.ability data))) :
    ∃ id json, assignAll (yamlToJson env yaml) (abilityMembers env id) = .ok json ∧
      AbilityCRData.fromJson env id json = .ok data ∧
        ∃ manifest, checks.validateCrTasksField json manifest = .ok () := by
  rw [readCrFromYaml] at accepted
  obtain ⟨name, -, accepted⟩ := except_bind_eq_ok.mp accepted
  cases name with
  | error => cases accepted
  | ok name =>
  obtain ⟨kind, -, accepted⟩ := except_bind_eq_ok.mp accepted
  cases kind with
  | error => cases accepted
  | ok kind =>
  dsimp only at accepted
  split at accepted
  · obtain ⟨packageName, -, accepted⟩ := except_bind_eq_ok.mp accepted
    cases packageName with
    | error => cases accepted
    | ok packageName =>
    obtain ⟨version, -, accepted⟩ := except_bind_eq_ok.mp accepted
    cases version with
    | error => cases accepted
    | ok version =>
    obtain ⟨json, written, accepted⟩ := except_bind_eq_ok.mp accepted
    obtain ⟨found, isFound, accepted⟩ := except_bind_eq_ok.mp accepted
    obtain ⟨verdict, -, accepted⟩ := except_bind_eq_ok.mp accepted
    cases verdict with
    | error => cases accepted
    | ok value =>
    dsimp only at accepted
    split at accepted
    · cases accepted
    · rename_i manifest _
      split at accepted
      · cases accepted
      · rename_i valid
        cases accepted
        exact ⟨_, json, written, isFound, manifest, valid⟩
  · -- No other kind of file yields an ability CR.
    split at accepted
    · obtain ⟨packageName, -, accepted⟩ := except_bind_eq_ok.mp accepted
      cases packageName with
      | error => cases accepted
      | ok packageName =>
      obtain ⟨version, -, accepted⟩ := except_bind_eq_ok.mp accepted
      cases version with
      | error => cases accepted
      | ok version =>
      obtain ⟨json, -, accepted⟩ := except_bind_eq_ok.mp accepted
      obtain ⟨found, -, accepted⟩ := except_bind_eq_ok.mp accepted
      obtain ⟨verdict, -, accepted⟩ := except_bind_eq_ok.mp accepted
      cases verdict with
      | error => cases accepted
      | ok => cases accepted
    · cases accepted

/-- What is not assigned to stays. -/
theorem find_assignAll {members : List (List String × Json)} {key : String}
    (apart : ∀ member ∈ members, ∃ other path, member.1 = other :: path ∧ other ≠ key) {given json : Json}
    (written : assignAll given members = .ok json) : json.find key = given.find key := by
  induction members generalizing given with
  | nil =>
    cases written
    rfl
  | cons member members inductionHypothesis =>
    obtain ⟨⟨other, path, isPath, different⟩, apartLater⟩ := List.forall_mem_cons.mp apart
    obtain ⟨memberPath, value⟩ := member
    cases isPath
    rw [assignAll, List.foldlM_cons] at written
    obtain ⟨middle, isMiddle, later⟩ := except_bind_eq_ok.mp written
    rw [inductionHypothesis apartLater later, (find_assign isMiddle).2 key (Ne.symm different)]

/-- What is written to the state of a CR that has not run. -/
theorem runInfo_of_assignAll {id : Uuid} {json given : Json} (written : assignAll given (abilityMembers env id) = .ok json) :
    ∃ runInfo, json.find "runInfo" = some runInfo ∧ runInfo.isEmpty = false ∧ RunInfo.fromJson runInfo = .ok {} := by
  rw [assignAll, abilityMembers, List.foldlM_append] at written
  obtain ⟨before, -, written⟩ := except_bind_eq_ok.mp written
  obtain ⟨first, isFirst, written⟩ := except_bind_eq_ok.mp written
  obtain ⟨second, isSecond, written⟩ := except_bind_eq_ok.mp written
  obtain ⟨third, isThird, same⟩ := except_bind_eq_ok.mp written
  cases same
  obtain ⟨⟨state, isState, inFirst⟩, -⟩ := find_assign isFirst
  obtain ⟨⟨update, isUpdate, inSecond⟩, -⟩ := find_assign isSecond
  obtain ⟨⟨connect, isConnect, inThird⟩, -⟩ := find_assign isThird
  rw [inFirst, Option.getD_some] at isUpdate
  rw [inSecond, Option.getD_some] at isConnect
  obtain ⟨⟨stateValue, isStateValue, hasState⟩, -⟩ := find_assign isState
  obtain ⟨⟨updateValue, isUpdateValue, hasUpdate⟩, keptByUpdate⟩ := find_assign isUpdate
  obtain ⟨⟨connectValue, isConnectValue, hasConnect⟩, keptByConnect⟩ := find_assign isConnect
  cases isStateValue
  cases isUpdateValue
  cases isConnectValue
  rw [← keptByConnect "lastUpdate" (by decide)] at hasUpdate
  rw [← keptByUpdate "lifecycleState" (by decide), ← keptByConnect "lifecycleState" (by decide)] at hasState
  refine ⟨connect, inThird, Json.isEmpty_of_find hasConnect, ?_⟩
  simp only [RunInfo.fromJson, required, Json.getAt_of_find hasState, Json.getAt_of_find hasUpdate,
    Json.getAt_of_find hasConnect]
  rfl

/-- What is added of a file has been read from it, and is its text. -/
theorem loadCr_ability (accepted : loadCr env checks yaml = .ok (some (.ability content))) :
    ∃ data, readCrFromYaml env checks yaml = .ok (some (.ability data)) ∧ env.dump data.whole = .ok content.detail ∧
      content.metadata = data.metadata := by
  obtain ⟨read, isRead, accepted⟩ := except_bind_eq_ok.mp accepted
  cases read with
  | none => cases accepted
  | some read =>
    obtain ⟨found, isFound, same⟩ := except_bind_eq_ok.mp accepted
    cases same
    cases read with
    | ability data =>
      obtain ⟨detail, isDetail, same⟩ := except_bind_eq_ok.mp isFound
      cases same
      exact ⟨data, isRead, isDetail, rfl⟩
    | device data =>
      obtain ⟨_, _, same⟩ := except_bind_eq_ok.mp isFound
      cases same

/-- An accepted CR is the text of one that has not run. -/
theorem documented_content (accepted : loadCr (documented doc env) checks yaml = .ok (some (.ability content))) :
    ∃ cr, dumpCr doc cr = .ok content.detail ∧ cr.runInfo = some {} ∧ cr.metadata = content.metadata := by
  obtain ⟨data, isRead, isDetail, sameMetadata⟩ := loadCr_ability accepted
  obtain ⟨id, json, written, isData, -⟩ := readCrFromYaml_ability isRead
  obtain ⟨runInfo, inJson, notEmpty, isRunInfo⟩ := runInfo_of_assignAll written
  simp only [AbilityCRData.fromJson, except_bind_eq_ok] at isData
  obtain ⟨metadata, isMetadata, kind, -, whole, isWhole, spec, -, same⟩ := isData
  cases same
  obtain ⟨cr, isCr, same⟩ := except_bind_eq_ok.mp isWhole
  cases same
  refine ⟨cr, isDetail, ?_⟩
  rw [sameMetadata]
  simp only [AbilityCR.fromJson, except_bind_eq_ok] at isCr
  obtain ⟨tag, -, crMetadata, isCrMetadata, id, -, kind, -, status, -, crRunInfo, isCrRunInfo, subabilities, -, devices, -,
    labelled, -, sharers, -, owner, -, spec, -, same⟩ := isCr
  cases same
  refine ⟨?_, Except.ok.inj (isCrMetadata.symm.trans isMetadata)⟩
  simp only [optionalUnlessEmpty, optional, inJson, notEmpty, isRunInfo] at isCrRunInfo
  exact (Except.ok.inj isCrRunInfo).symm

end Files

/-! ## Tables that files leave -/

/-- The row of the CR comes in the place of any other with its id, whether its id is new or not. -/
theorem addAbilityCr_row (makeUuid : Nat → Uuid) (db : CRDatabase) (content : AbilityCRContent) (time : Int) :
    ∃ row, Shows row content ∧ row ∈ (addAbilityCr makeUuid db time content).abilities.basic ∧
      (∀ other ∈ (addAbilityCr makeUuid db time content).abilities.basic,
        other = row ∨ other ∈ db.abilities.basic ∧ other.instanceId ≠ row.instanceId) ∧
      (addAbilityCr makeUuid db time content).abilities.labels =
        rewriteTexts db.abilities.labels row.instanceId content.metadata.labels := by
  rw [addAbilityCr]
  split
  · rename_i id found
    obtain ⟨old, member, -, rfl⟩ := dbExistsAbilityCrByName_some found
    refine ⟨old.show content time, show_shows old content time, ?_, fun other isOther => ?_, rfl⟩
    · exact (Relation.mem_updateWhere_key (fun row => row.show_instanceId content time) member rfl).mpr (.inl rfl)
    · exact (Relation.mem_updateWhere_key (fun row => row.show_instanceId content time) member rfl).mp isOther
  · refine ⟨(AbilityCRBasicRow.new (makeUuid db.made)).show content time, show_shows _ content time, ?_,
      fun other isOther => ?_, rfl⟩
    · exact Relation.mem_replaceInto.mpr (.inl rfl)
    · exact Relation.mem_replaceInto.mp isOther

end AbilityFramework.ResourceMgr.Document
