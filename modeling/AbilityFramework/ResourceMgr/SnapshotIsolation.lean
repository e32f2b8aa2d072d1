import AbilityFramework.ResourceMgr.PlainDocuments

/-! # Snapshots of instances

Templates come and go with the files of the CR directory, and instances are created from templates that have been
read before.  `snapshotStep` lets every operation on either table happen at any time.  Of the tables it is enough
that every template is the text of a CR that has not run, with the labels of this CR (`TemplatesStored`): a
template that is read is then settled, its snapshot is read back as the template, and no operation on templates
or on other instances writes to the row of the instance. -/

namespace AbilityFramework.ResourceMgr.Document

open Library LifecycleMgr

/-! ## Operations -/

def removeAbilityCr (abilities : AbilityTables) (id : Uuid) : AbilityTables :=
  { abilities with
    labels := abilities.labels.deleteWhere fun text => text.instanceId = id
    annotations := abilities.annotations.deleteWhere fun text => text.instanceId = id
    basic := abilities.basic.deleteWhere fun row => row.instanceId = id }

def dbMarkAutoStarted (abilities : AbilityTables) (id : Uuid) : AbilityTables :=
  { abilities with
    basic := abilities.basic.updateWhere (fun row => row.instanceId = id) (fun row => { row with autoStarted := true })
      fun _ => rfl }

/-- When the framework starts, all templates may be started again. -/
def resetAutoStarted (abilities : AbilityTables) : AbilityTables :=
  { abilities with
    basic := abilities.basic.updateWhere (fun row => row.autostart) (fun row => { row with autoStarted := false })
      fun _ => rfl }

/-- When the framework starts, the instances that ran before have stopped. -/
def terminateStale (instances : AbilityInstances) (now : Int) : AbilityInstances :=
  instances.updateWhere (fun row => row.state ≠ .terminated && row.state ≠ .inactive)
    (fun row => { row with state := .terminated, stopTime := some now }) fun _ => rfl

def onEventHeartbeat (instances : AbilityInstances) (hb : Heartbeat) : AbilityInstances :=
  if hb.state = .terminated then deleteAbilityInstance instances hb.id
  else
    instances.updateWhere (fun row => row.instanceId = hb.id)
      (fun row => { row with state := hb.state, detail := some ⟨hb.abilityPort, hb.ipcPort⟩ }) fun _ => rfl

/-! ## Runs -/

structure SnapshotState where
  db : CRDatabase := {}
  instances : AbilityInstances := ∅
  /-- Templates that have been read, from which instances may yet be created. -/
  held : List AbilityCR := []

inductive SnapshotEvent where
  /-- `read_crs_into_db` comes to this entry of the directory. -/
  | readFile (entry : DirectoryEntry)
  /-- `read_crs_into_db` drops the rows that have none of these names. -/
  | reconcile (abilityKeys deviceKeys : List CRName)
  | removeTemplate (id : Uuid)
  | markAutoStarted (id : Uuid)
  | start (now : Int)
  /-- `get_ability_cr`, or `get_all_ability_cr` for one of its rows. -/
  | readTemplate (id : Uuid)
  /-- `create_ability_instance` of the held template at this position, with an id of `make_uuid`. -/
  | create (index : Nat) (now : Int) (instanceId : Uuid)
  | delete (id : Uuid)
  | heartbeat (hb : Heartbeat)
  | instanceExited (id : Uuid)

namespace SnapshotEvent

def OfInstance : SnapshotEvent → Prop
  | create _ _ _ | delete _ | heartbeat _ | instanceExited _ => True
  | readFile _ | reconcile _ _ | removeTemplate _ | markAutoStarted _ | start _ | readTemplate _ => False

/-- The row of the instance is deleted; a start drops the table. -/
def Deletes (instanceId : Uuid) : SnapshotEvent → Prop
  | delete id | instanceExited id => id = instanceId
  | heartbeat hb => hb.id = instanceId ∧ hb.state = .terminated
  | start _ => True
  | readFile _ | reconcile _ _ | removeTemplate _ | markAutoStarted _ | readTemplate _ | create _ _ _ => False

end SnapshotEvent

variable (doc : DocumentEnvironment) (env : CREnvironment) (checks : CRChecks) (makeUuid : Nat → Uuid)

def createdInstances (state : SnapshotState) (index : Nat) (now : Int) (instanceId : Uuid) :
    Except CRException AbilityInstances :=
  match state.held[index]? with
  | none => .error (.other "no template")
  | some crTemplate => createAbilityInstance doc state.instances now instanceId crTemplate

def snapshotStep (state : SnapshotState) : SnapshotEvent → SnapshotState
  | .readFile entry => { state with db := (readEntry (documented doc env) checks makeUuid { db := state.db } entry).db }
  | .reconcile abilityKeys deviceKeys =>
    { state with
      db := { state.db with
        abilities := state.db.abilities.reconcile AbilityCRBasicRow.name abilityKeys
        devices := state.db.devices.reconcile DeviceCRBasicRow.name deviceKeys } }
  | .removeTemplate id => { state with db := { state.db with abilities := removeAbilityCr state.db.abilities id } }
  | .markAutoStarted id => { state with db := { state.db with abilities := dbMarkAutoStarted state.db.abilities id } }
  | .start now =>
    { db := { state.db with abilities := resetAutoStarted state.db.abilities }
      -- The constructor has made the table anew.
      instances := terminateStale ∅ now
      held := [] }
  | .readTemplate id =>
    match getAbilityCr doc state.db.abilities id with
    | .ok (some cr) => { state with held := state.held ++ [cr] }
    | .ok none | .error _ => state
  | .create index now instanceId =>
    match createdInstances doc state index now instanceId with
    | .ok created => { state with instances := created }
    | .error _ => state
  | .delete id => { state with instances := deleteAbilityInstance state.instances id }
  | .heartbeat hb => { state with instances := onEventHeartbeat state.instances hb }
  | .instanceExited id => { state with instances := deleteAbilityInstance state.instances id }

variable {doc env checks makeUuid}

theorem readEntry_db {scan : Scan} (goesOn : scan.thrown = none) (entry : DirectoryEntry) :
    (readEntry env checks makeUuid scan entry).db = (readEntry env checks makeUuid { db := scan.db } entry).db := by
  simp only [readEntry, goesOn, Option.isSome_none, Bool.false_eq_true, if_false]
  split <;> rfl

/-- A scan is a run over its entries, up to the first that throws. -/
theorem scan_isRun (state : SnapshotState) (scan : Scan) (goesOn : scan.thrown = none) (entries : List DirectoryEntry) :
    ∃ events, Runs.run (snapshotStep doc env checks makeUuid) { state with db := scan.db } events =
      { state with db := (Runs.run (readEntry (documented doc env) checks makeUuid) scan entries).db } := by
  induction entries generalizing scan with
  | nil => exact ⟨[], rfl⟩
  | cons entry entries inductionHypothesis =>
    generalize isNext : readEntry (documented doc env) checks makeUuid scan entry = next
    have isStep : snapshotStep doc env checks makeUuid { state with db := scan.db } (.readFile entry) =
        { state with db := next.db } := by
      rw [← isNext, readEntry_db goesOn]
      rfl
    rw [Runs.run_cons, isNext]
    cases thrown : next.thrown with
    | some exception =>
      have ended : next.thrown.isSome = true := thrown ▸ rfl
      refine ⟨[.readFile entry], ?_⟩
      rw [Runs.run_cons, Runs.run_nil, isStep, run_thrown ended]
    | none =>
      obtain ⟨events, isRun⟩ := inductionHypothesis next thrown
      refine ⟨.readFile entry :: events, ?_⟩
      rw [Runs.run_cons, isStep, isRun]

/-- What `read_crs_into_db` does is done by a run. -/
theorem readCrsIntoDb_isRun (state : SnapshotState) (entries : List DirectoryEntry) :
    ∃ events, Runs.run (snapshotStep doc env checks makeUuid) state events =
      { state with db := (readCrsIntoDb (documented doc env) checks makeUuid state.db entries).2 } := by
  generalize isScan : Runs.run (readEntry (documented doc env) checks makeUuid) { db := state.db } entries = scan
  obtain ⟨events, isRun⟩ : ∃ events, Runs.run (snapshotStep doc env checks makeUuid) state events =
      { state with db := scan.db } := isScan ▸ scan_isRun state { db := state.db } rfl entries
  rw [readCrsIntoDb, isScan]
  split
  · exact ⟨events, isRun⟩
  · refine ⟨events ++ [.reconcile scan.abilityKeys scan.deviceKeys], ?_⟩
    rw [Runs.run_concat, isRun]
    rfl

/-! ## Templates -/

/-- Every template is the text of a CR that has not run. -/
def TemplatesStored (doc : DocumentEnvironment) (abilities : AbilityTables) : Prop :=
  ∀ row ∈ abilities.basic, ∃ cr, IsStored doc abilities row cr

/-- Templates go, or columns change that are not the detail. -/
structure KeepsDetails (before after : AbilityTables) : Prop where
  rows : ∀ row ∈ after.basic, ∃ old ∈ before.basic, old.instanceId = row.instanceId ∧ old.crDetail = row.crDetail
  labels : ∀ row ∈ after.basic, ∀ text, text.instanceId = row.instanceId →
    (text ∈ after.labels ↔ text ∈ before.labels)

theorem TemplatesStored.keeps {before after : AbilityTables} (stored : TemplatesStored doc before)
    (keeps : KeepsDetails before after) : TemplatesStored doc after := by
  intro row member
  obtain ⟨old, oldMember, sameId, sameDetail⟩ := keeps.rows row member
  obtain ⟨cr, isStored⟩ := stored old oldMember
  refine ⟨cr, sameDetail ▸ isStored.detail, isStored.runInfo, fun text => ?_⟩
  rw [← sameId, ← isStored.labels text]
  exact and_congr_left fun own => keeps.labels row member text (own.trans sameId)

theorem keepsDetails_reconcile (abilities : AbilityTables) (names : List CRName) :
    KeepsDetails abilities (abilities.reconcile AbilityCRBasicRow.name names) := by
  refine ⟨fun row member => ?_, fun row member text own => ?_⟩
  · exact ⟨row, (CRTables.mem_reconcile.mp member).1, rfl, rfl⟩
  · obtain ⟨member, stays⟩ := CRTables.mem_reconcile.mp member
    exact (CRTables.texts_reconcile member stays own).1

theorem keepsDetails_remove (abilities : AbilityTables) (id : Uuid) :
    KeepsDetails abilities (removeAbilityCr abilities id) := by
  refine ⟨fun row member => ?_, fun row member text own => ?_⟩
  · exact ⟨row, (Relation.mem_deleteWhere.mp member).1, rfl, rfl⟩
  · have other := (Relation.mem_deleteWhere.mp member).2
    rw [removeAbilityCr, Relation.mem_deleteWhere, own]
    exact and_iff_left other

/-- An update of other columns. -/
theorem keepsDetails_update (abilities : AbilityTables) (condition : AbilityCRBasicRow → Bool)
    {change : AbilityCRBasicRow → AbilityCRBasicRow} (keepsId : ∀ row, (change row).instanceId = row.instanceId)
    (keepsDetail : ∀ row, (change row).crDetail = row.crDetail) :
    KeepsDetails abilities { abilities with basic := abilities.basic.updateWhere condition change keepsId } := by
  refine ⟨fun row member => ?_, fun _ _ _ _ => Iff.rfl⟩
  obtain ⟨old, oldMember, rfl⟩ := (Relation.mem_updateWhere keepsId).mp member
  refine ⟨old, oldMember, ?_⟩
  split
  · exact ⟨(keepsId old).symm, (keepsDetail old).symm⟩
  · exact ⟨rfl, rfl⟩

theorem templatesStored_add {db : CRDatabase} {content : AbilityCRContent} (stored : TemplatesStored doc db.abilities)
    (written : ∃ cr, dumpCr doc cr = .ok content.detail ∧ cr.runInfo = some {} ∧ cr.metadata = content.metadata)
    (time : Int) : TemplatesStored doc (addAbilityCr makeUuid db time content).abilities := by
  obtain ⟨cr, isDumped, notRun, sameMetadata⟩ := written
  obtain ⟨row, isShown, -, others, labels⟩ := addAbilityCr_row makeUuid db content time
  intro other member
  obtain rfl | ⟨old, different⟩ := others other member
  · refine ⟨cr, isShown.detail ▸ isDumped, notRun, ?_⟩
    rw [labels, sameMetadata]
    exact textsAre_rewriteTexts _ _ _
  · obtain ⟨oldCr, isStored⟩ := stored other old
    refine ⟨oldCr, isStored.detail, isStored.runInfo, ?_⟩
    rw [labels]
    exact textsAre_rewriteTexts_other different _ isStored.labels

theorem exists_yaml {entry : DirectoryEntry} {content : AbilityCRContent}
    (isContent : entryContent env checks entry = .ok (some (.ability content))) :
    ∃ yaml, loadCr env checks yaml = .ok (some (.ability content)) := by
  rw [entryContent] at isContent
  split at isContent
  · cases isContent
  · split at isContent
    · cases isContent
    · split at isContent
      · cases isContent
      · exact ⟨_, isContent⟩

theorem templatesStored_readEntry {db : CRDatabase} (stored : TemplatesStored doc db.abilities) (entry : DirectoryEntry) :
    TemplatesStored doc (readEntry (documented doc env) checks makeUuid { db } entry).db.abilities := by
  rw [readEntry]
  simp only [Option.isSome_none, Bool.false_eq_true, if_false]
  split
  · exact stored
  · exact stored
  · rename_i content isContent
    obtain ⟨yaml, accepted⟩ := exists_yaml isContent
    exact templatesStored_add stored (documented_content accepted) entry.readAt
  · exact stored

/-! ## What holds in every state -/

/-- Templates are stored as they should be, and those held have been read from such. -/
structure SnapshotsSound (doc : DocumentEnvironment) (state : SnapshotState) : Prop where
  stored : TemplatesStored doc state.db.abilities
  held : ∀ crTemplate ∈ state.held, IsTemplate doc crTemplate

theorem snapshotsSound_step (state : SnapshotState) (event : SnapshotEvent) (sound : SnapshotsSound doc state) :
    SnapshotsSound doc (snapshotStep doc env checks makeUuid state event) := by
  cases event with
  | readFile entry => exact ⟨templatesStored_readEntry sound.stored entry, sound.held⟩
  | reconcile abilityKeys deviceKeys => exact ⟨sound.stored.keeps (keepsDetails_reconcile _ abilityKeys), sound.held⟩
  | removeTemplate id => exact ⟨sound.stored.keeps (keepsDetails_remove _ id), sound.held⟩
  | markAutoStarted id =>
    exact ⟨sound.stored.keeps (keepsDetails_update _ _ (by intro; rfl) (by intro; rfl)), sound.held⟩
  | start now =>
    refine ⟨sound.stored.keeps (keepsDetails_update _ _ (by intro; rfl) (by intro; rfl)), fun crTemplate isHeld => ?_⟩
    cases isHeld
  | readTemplate id =>
    rw [snapshotStep]
    split
    · rename_i cr isRead
      refine ⟨sound.stored, fun crTemplate isHeld => ?_⟩
      obtain isHeld | isNew := List.mem_append.mp isHeld
      · exact sound.held crTemplate isHeld
      · rw [List.mem_singleton.mp isNew]
        exact getAbilityCr_isTemplate sound.stored isRead
    · exact sound
    · exact sound
  | create index now instanceId =>
    rw [snapshotStep]
    split
    · exact ⟨sound.stored, sound.held⟩
    · exact sound
  | delete id => exact ⟨sound.stored, sound.held⟩
  | heartbeat hb => exact ⟨sound.stored, sound.held⟩
  | instanceExited id => exact ⟨sound.stored, sound.held⟩

theorem snapshotsSound_run (events : List SnapshotEvent) :
    SnapshotsSound doc (Runs.run (snapshotStep doc env checks makeUuid) {} events) := by
  refine Runs.run_invariant (SnapshotsSound doc) snapshotsSound_step {} ⟨fun row member => ?_, fun _ isHeld => ?_⟩ events
  · cases member
  · cases isHeld

/-! ## The snapshot of an instance -/

/-- The instance has this snapshot. -/
def HasSnapshot (instances : AbilityInstances) (instanceId : Uuid) (text : String) : Prop :=
  ∃ row ∈ instances, row.instanceId = instanceId ∧ row.specSnapshot = some text

theorem hasSnapshot_update {instances : AbilityInstances} {instanceId : Uuid} {text : String}
    (has : HasSnapshot instances instanceId text) (condition : AbilityInstanceRow → Bool)
    {change : AbilityInstanceRow → AbilityInstanceRow} (keepsId : ∀ row, (change row).instanceId = row.instanceId)
    (keepsSnapshot : ∀ row, (change row).specSnapshot = row.specSnapshot) :
    HasSnapshot (instances.updateWhere condition change keepsId) instanceId text := by
  obtain ⟨row, member, isId, isText⟩ := has
  refine ⟨_, (Relation.mem_updateWhere keepsId).mpr ⟨row, member, rfl⟩, ?_⟩
  split
  · exact ⟨(keepsId row).trans isId, (keepsSnapshot row).trans isText⟩
  · exact ⟨isId, isText⟩

theorem hasSnapshot_delete {instances : AbilityInstances} {instanceId id : Uuid} {text : String}
    (has : HasSnapshot instances instanceId text) (other : id ≠ instanceId) :
    HasSnapshot (deleteAbilityInstance instances id) instanceId text := by
  obtain ⟨row, member, isId, isText⟩ := has
  refine ⟨row, Relation.mem_deleteWhere.mpr ⟨member, ?_⟩, isId, isText⟩
  rw [isId, decide_eq_true_eq]
  exact Ne.symm other

theorem hasSnapshot_create {instances created : AbilityInstances} {instanceId id : Uuid} {text : String}
    (has : HasSnapshot instances instanceId text) {now : Int} {crTemplate : AbilityCR}
    (isCreated : createAbilityInstance doc instances now id crTemplate = .ok created) :
    HasSnapshot created instanceId text := by
  obtain ⟨row, member, isId, isText⟩ := has
  obtain ⟨_, new, -, -, -, inserted⟩ := createAbilityInstance_row isCreated
  exact ⟨row, (Relation.mem_insert inserted).mpr (.inl member), isId, isText⟩

theorem exists_template {state : SnapshotState} {index : Nat} {now : Int} {instanceId : Uuid}
    {created : AbilityInstances} (isCreated : createdInstances doc state index now instanceId = .ok created) :
    ∃ crTemplate, state.held[index]? = some crTemplate ∧
      createAbilityInstance doc state.instances now instanceId crTemplate = .ok created := by
  rw [createdInstances] at isCreated
  split at isCreated
  · cases isCreated
  · exact ⟨_, ‹_›, isCreated⟩

theorem hasSnapshot_step {state : SnapshotState} {event : SnapshotEvent} {instanceId : Uuid} {text : String}
    (has : HasSnapshot state.instances instanceId text) (stays : ¬ event.Deletes instanceId) :
    HasSnapshot (snapshotStep doc env checks makeUuid state event).instances instanceId text := by
  cases event with
  | readFile | reconcile | removeTemplate | markAutoStarted => exact has
  | start now => exact absurd trivial stays
  | readTemplate id =>
    rw [snapshotStep]
    split <;> exact has
  | create index now id =>
    rw [snapshotStep]
    split
    · obtain ⟨crTemplate, -, isCreated⟩ := exists_template ‹_›
      exact hasSnapshot_create has isCreated
    · exact has
  | delete id => exact hasSnapshot_delete has stays
  | heartbeat hb =>
    show HasSnapshot (onEventHeartbeat state.instances hb) instanceId text
    rw [onEventHeartbeat]
    split
    · rename_i terminated
      exact hasSnapshot_delete has fun own => stays ⟨own, terminated⟩
    · exact hasSnapshot_update has _ (by intro; rfl) (by intro; rfl)
  | instanceExited id => exact hasSnapshot_delete has stays

theorem hasSnapshot_run {state : SnapshotState} {instanceId : Uuid} {text : String}
    (has : HasSnapshot state.instances instanceId text) {events : List SnapshotEvent}
    (stays : ∀ event ∈ events, ¬ event.Deletes instanceId) :
    HasSnapshot (Runs.run (snapshotStep doc env checks makeUuid) state events).instances instanceId text := by
  induction events generalizing state with
  | nil => exact has
  | cons event events inductionHypothesis =>
    obtain ⟨first, later⟩ := List.forall_mem_cons.mp stays
    rw [Runs.run_cons]
    exact inductionHypothesis (hasSnapshot_step has first) later

/-- An instance is resolved to its snapshot, whatever the templates are. -/
theorem resolve_hasSnapshot {abilities : AbilityTables} {instances : AbilityInstances} {text : String} {cr : AbilityCR}
    (has : HasSnapshot instances cr.id text) (isParsed : parseCr doc text = .ok cr) :
    resolveAbilityCrById doc abilities instances cr.id = .ok (some cr) := by
  obtain ⟨row, member, isId, isText⟩ := has
  rw [resolveAbilityCrById, Relation.lookup_eq_some.mpr ⟨member, isId⟩, Option.bind_some, isText]
  simp only [isParsed]

/-- In every reachable state, an instance that is created from a template is resolved to the template as it was,
under the id of the instance, until its row is deleted; and no operation on instances changes a template, a label
or an annotation. -/
theorem snapshots_isolated (doc : DocumentEnvironment) (env : CREnvironment) (checks : CRChecks)
    (makeUuid : Nat → Uuid) :
    (∀ before state, Runs.run (snapshotStep doc env checks makeUuid) {} before = state →
      ∀ index now instanceId crTemplate created, state.held[index]? = some crTemplate →
        createAbilityInstance doc state.instances now instanceId crTemplate = .ok created →
        ∀ after, (∀ event ∈ after, ¬ event.Deletes instanceId) →
          ∀ final, Runs.run (snapshotStep doc env checks makeUuid) state (.create index now instanceId :: after) = final →
            resolveAbilityCrById doc final.db.abilities final.instances instanceId =
              .ok (some { crTemplate with id := instanceId })) ∧
      ∀ state event, event.OfInstance → (snapshotStep doc env checks makeUuid state event).db = state.db := by
  constructor
  · rintro before state rfl index now instanceId crTemplate created isHeld isCreated after stays final rfl
    have isTemplate := (snapshotsSound_run before).held crTemplate (List.mem_of_getElem? isHeld)
    obtain ⟨text, row, isDumped, isId, isText, inserted⟩ := createAbilityInstance_row isCreated
    have has : HasSnapshot created instanceId text :=
      ⟨row, (Relation.mem_insert inserted).mpr (.inr rfl), isId, isText⟩
    have parsed : parseCr doc text = .ok { crTemplate with id := instanceId } := snapshot_readsBack isTemplate isDumped
    have hasNow : HasSnapshot (snapshotStep doc env checks makeUuid
        (Runs.run (snapshotStep doc env checks makeUuid) {} before) (.create index now instanceId)).instances
          instanceId text := by
      simp only [snapshotStep, createdInstances, isHeld, isCreated]
      exact has
    exact resolve_hasSnapshot (hasSnapshot_run hasNow stays) parsed
  · intro state event ofInstance
    cases event with
    | readFile | reconcile | removeTemplate | markAutoStarted | start | readTemplate => cases ofInstance
    | create =>
      rw [snapshotStep]
      split <;> rfl
    | delete | heartbeat | instanceExited => rfl

/-! ## An instance outlives its template -/

def cameraFile : DirectoryEntry :=
  ⟨true, ".yaml", some (crYaml "AtomAbility" "vision" "abilityName" "Camera" "camera"), 5⟩

abbrev cameraStep : SnapshotState → SnapshotEvent → SnapshotState :=
  snapshotStep cameraDocuments plainEnvironment acceptsAll (fun made => made + 1)

/-- The template has been read from its file and is about to be started. -/
def cameraRead : SnapshotState := Runs.run cameraStep {} [.readFile cameraFile, .readTemplate 1]

/-- An instance is created, the file goes, and the instance runs. -/
def cameraStarted : SnapshotState :=
  Runs.run cameraStep cameraRead [.create 0 5 9, .reconcile [] [], .heartbeat ⟨9, .running, 7000, 7001⟩]

def cameraTemplate : AbilityCR := { cameraSnapshot with id := 1 }

theorem camera_parsed : parseCr cameraDocuments (textOf cameraJson) = .ok cameraCr := by
  have dumped : dumpCr cameraDocuments cameraCr = .ok (textOf cameraJson) := by rfl
  rw [parseCr_dumpCr dumped]
  rfl

theorem cameraTemplate_read :
    getAbilityCr cameraDocuments (cameraStep {} (.readFile cameraFile)).db.abilities 1 = .ok (some cameraTemplate) := by
  show (do
    let cr ← (do
      let cr ← parseCr cameraDocuments (textOf cameraJson)
      return cr.withColumns ((AbilityCRBasicRow.new 1).show cameraContent 5))
    return some (cr.withTexts _ _)) = _
  rw [camera_parsed]
  rfl

theorem cameraRead_eq :
    cameraRead = { db := (cameraStep {} (.readFile cameraFile)).db, instances := ∅, held := [cameraTemplate] } := by
  rw [cameraRead, Runs.run_cons, Runs.run_cons, Runs.run_nil]
  generalize isFirst : cameraStep {} (.readFile cameraFile) = first
  have isRead := cameraTemplate_read
  rw [isFirst] at isRead
  simp only [snapshotStep, isRead]
  rw [← isFirst]
  rfl

theorem cameraStarted_resolved :
    resolveAbilityCrById cameraDocuments cameraStarted.db.abilities cameraStarted.instances 9 =
      .ok (some cameraSnapshot) := by
  obtain ⟨created, isCreated⟩ : ∃ created,
      createAbilityInstance cameraDocuments cameraRead.instances 5 9 cameraTemplate = .ok created := by
    rw [cameraRead_eq]
    exact ⟨_, rfl⟩
  have isHeld : cameraRead.held[0]? = some cameraTemplate := by
    rw [cameraRead_eq]
    rfl
  refine (snapshots_isolated cameraDocuments plainEnvironment acceptsAll (fun made => made + 1)).1
    [.readFile cameraFile, .readTemplate 1] cameraRead rfl 0 5 9 cameraTemplate created isHeld isCreated
      [.reconcile [] [], .heartbeat ⟨9, .running, 7000, 7001⟩] ?_ cameraStarted rfl
  intro event isEvent
  simp only [List.mem_cons, List.not_mem_nil, or_false] at isEvent
  rcases isEvent with rfl | rfl
  · exact id
  · rintro ⟨-, terminated⟩
    cases terminated

end AbilityFramework.ResourceMgr.Document
