import AbilityFramework.Library.Runs
import AbilityFramework.ResourceMgr.AbilityInstance
import AbilityFramework.ResourceMgr.Occupation

/-! # Occupations and the ends of instances

An instance ends by `delete_ability_instance`, by a heartbeat in state `Terminated`, or by the exit of its process.  Each
of these deletes the row of `AbilityInstance`, and none of them looks at `CROwnership`: occupations end by `unoccupy`
only.  So the table is free of instances that are gone exactly as long as each instance that ends has been released, and
has released what it held, before (`always_noDangling_iff`).  A row that names a gone instance as what is held stays for
good, since `unoccupy_ability` knows of existing abilities only (`unoccupyAbility_gone`). -/

namespace AbilityFramework.ResourceMgr

open Library Library.Runs LifecycleMgr

/-! ## Ends of instances -/

def HasInstance (instances : AbilityInstanceTable) (id : Uuid) : Prop := ∃ row ∈ instances, row.instanceId = id

/-- The id of the instance that an event ends, if there is one. -/
def InstanceEvent.ended : InstanceEvent → Option Uuid
  | heartbeat hb => if hb.state = .terminated then some hb.id else none
  | delete id | instanceExited id => some id
  | post _ | createInstance _ _ | taskFailed _ | update | autoStart _ _ | roundThrows => none

section Instances

variable {instances : AbilityInstanceTable} {state : InstanceState} {event : InstanceEvent} {id ended : Uuid}

theorem hasInstance_delete :
    HasInstance (deleteAbilityInstance instances ended) id ↔ HasInstance instances id ∧ id ≠ ended := by
  simp only [HasInstance, deleteAbilityInstance, Relation.mem_deleteWhere, decide_eq_true_eq]
  constructor
  · rintro ⟨row, ⟨member, differs⟩, rfl⟩
    exact ⟨⟨row, member, rfl⟩, differs⟩
  · rintro ⟨⟨row, member, rfl⟩, differs⟩
    exact ⟨row, ⟨member, differs⟩, rfl⟩

theorem hasInstance_create (has : HasInstance instances id) (instanceId : Uuid) (cr : AbilityCR) :
    HasInstance ((createAbilityInstance instances instanceId cr).getD instances) id := by
  rw [createAbilityInstance]
  split
  · exact has
  · exact Relation.exists_key_insert.mpr (.inl has)

theorem hasInstance_heartbeat {hb : Heartbeat} (alive : hb.state ≠ .terminated) :
    HasInstance (onEventHeartbeat instances hb).2 id ↔ HasInstance instances id := by
  rw [onEventHeartbeat, if_neg alive]
  have keeps : ∀ row, (AbilityInstance.report hb row).instanceId = row.instanceId := fun _ => rfl
  simp only [HasInstance, Relation.mem_updateWhere keeps]
  constructor
  · rintro ⟨_, ⟨row, member, rfl⟩, isId⟩
    refine ⟨row, member, ?_⟩
    split at isId <;> exact isId
  · rintro ⟨row, member, isId⟩
    refine ⟨_, ⟨row, member, rfl⟩, ?_⟩
    split <;> exact isId

theorem hasInstance_step (has : HasInstance state.instances id) (goesOn : event.ended ≠ some id) :
    HasInstance (instanceStep state event).instances id := by
  cases event with
  | post | update =>
    simp only [instanceStep]
    split <;> exact has
  | createInstance index instanceId =>
    simp only [instanceStep]
    split
    · exact has
    · exact hasInstance_create has instanceId _
  | taskFailed | roundThrows => exact has
  | autoStart now instanceId =>
    -- An instance may be created, and none is deleted.
    simp only [instanceStep, autoStartAbility]
    split
    · exact has
    · exact has
    · exact has
    · exact has
    · split <;> exact has
    · split <;> exact has
    · rename_i reason cr rest round
      have created := hasInstance_create has instanceId cr
      split
      · exact has
      · rename_i next found
        rwa [found] at created
  | heartbeat hb =>
    by_cases terminated : hb.state = .terminated
    · rw [InstanceEvent.ended, if_pos terminated] at goesOn
      simp only [instanceStep, onEventHeartbeat, if_pos terminated]
      exact hasInstance_delete.mpr ⟨has, fun same => goesOn (congrArg some same.symm)⟩
    · exact (hasInstance_heartbeat terminated).mpr has
  | delete deleted =>
    simp only [instanceStep, deleteInstance]
    split
    · exact has
    · exact hasInstance_delete.mpr ⟨has, fun same => goesOn (congrArg some same.symm)⟩
  | instanceExited exited => exact hasInstance_delete.mpr ⟨has, fun same => goesOn (congrArg some same.symm)⟩

theorem not_hasInstance_step (ends : event.ended = some id) : ¬ HasInstance (instanceStep state event).instances id := by
  cases event with
  | post | update | createInstance | taskFailed | roundThrows | autoStart => cases ends
  | heartbeat hb =>
    rw [InstanceEvent.ended] at ends
    split at ends
    · rename_i terminated
      obtain rfl := Option.some.inj ends
      simp only [instanceStep, onEventHeartbeat, if_pos terminated, hasInstance_delete]
      exact fun has => has.2 rfl
    · cases ends
  | delete deleted =>
    obtain rfl := Option.some.inj ends
    simp only [instanceStep, deleteInstance]
    split
    · rename_i notFound
      rintro ⟨row, member, isDeleted⟩
      have found := Relation.lookup_eq_some.mpr ⟨member, isDeleted⟩
      rw [getAbilityInstance, found] at notFound
      cases notFound
    · exact fun has => (hasInstance_delete.mp has).2 rfl
  | instanceExited exited =>
    obtain rfl := Option.some.inj ends
    exact fun has => (hasInstance_delete.mp has).2 rfl

end Instances

/-! ## Occupations of instances -/

structure OccupiedInstances where
  manager : InstanceState
  ownership : OwnershipTable := ∅
  /-- The ids of all instances there have been. -/
  known : List Uuid

/-- A request with what the device table and the other nodes answer. -/
structure OccupancyRequest where
  requester : Uuid
  position : String
  target : Uuid
  mode : OwnershipMode
  getDeviceCr : Uuid → Option DeviceCR
  isLocalCr : String → Bool
  sendPostRequest : String → PeerRequest → PostReply

inductive OccupancyEvent where
  | manager (event : InstanceEvent)
  /-- Templates are added, updated and removed. -/
  | templates (templates : AbilityCRTable)
  | occupyAbility (request : OccupancyRequest)
  | unoccupyAbility (request : OccupancyRequest)
  | occupyDevice (request : OccupancyRequest)
  | unoccupyDevice (request : OccupancyRequest)

namespace OccupiedInstances

/-- No occupation yet. -/
def start (manager : InstanceState) : OccupiedInstances :=
  { manager, known := manager.instances.rows.map AbilityInstance.instanceId }

/-- `judge_ability_exist` and `resolve_ability_cr_by_id` look among the instances and the templates. -/
def call (state : OccupiedInstances) (request : OccupancyRequest) : OccupationCall where
  catalogue :=
    { judgeAbilityExist := fun id =>
        (state.manager.templates.lookup id).isSome || (state.manager.instances.lookup id).isSome
      resolveAbilityCrById := fun id =>
        ((state.manager.instances.lookup id).map AbilityInstance.specSnapshot).or
          (getAbilityCr state.manager.templates id)
      judgeDeviceExist := fun _ => true
      getDeviceCr := request.getDeviceCr
      isLocalCr := request.isLocalCr
      sendPostRequest := request.sendPostRequest }
  requester := request.requester
  position := request.position
  target := request.target
  mode := request.mode

def step (state : OccupiedInstances) : OccupancyEvent → OccupiedInstances
  | .manager event =>
    let manager := instanceStep state.manager event
    { state with manager, known := state.known ++ manager.instances.rows.map AbilityInstance.instanceId }
  | .templates templates => { state with manager := { state.manager with templates } }
  | .occupyAbility request => { state with ownership := ((state.call request).occupyAbility state.ownership).2 }
  | .unoccupyAbility request => { state with ownership := ((state.call request).unoccupyAbility state.ownership).2 }
  | .occupyDevice request => { state with ownership := ((state.call request).occupyDevice state.ownership).2 }
  | .unoccupyDevice request => { state with ownership := ((state.call request).unoccupyDevice state.ownership).2 }

/-- There was an instance of this id. -/
def Gone (state : OccupiedInstances) (id : Uuid) : Prop := id ∈ state.known ∧ ¬ HasInstance state.manager.instances id

end OccupiedInstances

/-- The row has this ability as the holder or as what is held. -/
def CROwnership.Names (row : CROwnership) (id : Uuid) : Prop :=
  row.parentId = id ∧ row.parentKind = .ability ∨ row.childId = id ∧ row.childKind = .ability

namespace OccupiedInstances

def NoDangling (state : OccupiedInstances) : Prop := ∀ id, state.Gone id → ∀ row ∈ state.ownership, ¬ row.Names id

/-- The occupation writes no row, or one of ids that are not gone. -/
def NamesNoneGone (state : OccupiedInstances) (request : OccupancyRequest) (after : OwnershipTable) : Prop :=
  after = state.ownership ∨ ¬ state.Gone request.requester ∧ ¬ state.Gone request.target

/-- An instance that ends is in no row, and no row is written for one that has ended. -/
def Released (state : OccupiedInstances) : OccupancyEvent → Prop
  | .manager event => ∀ id, event.ended = some id → HasInstance state.manager.instances id →
    ∀ row ∈ state.ownership, ¬ row.Names id
  | .occupyAbility request => state.NamesNoneGone request ((state.call request).occupyAbility state.ownership).2
  | .occupyDevice request => state.NamesNoneGone request ((state.call request).occupyDevice state.ownership).2
  | .templates _ | .unoccupyAbility _ | .unoccupyDevice _ => True

end OccupiedInstances

/-! ## Runs -/

namespace OccupiedInstances

variable {state : OccupiedInstances}

/-- Every instance there is is known. -/
def Tracked (state : OccupiedInstances) : Prop := ∀ id, HasInstance state.manager.instances id → id ∈ state.known

theorem tracked_start (manager : InstanceState) : (start manager).Tracked := by
  rintro id ⟨row, member, rfl⟩
  exact List.mem_map_of_mem member

theorem Tracked.step (tracked : state.Tracked) (event : OccupancyEvent) : (state.step event).Tracked := by
  cases event with
  | manager event =>
    rintro id ⟨row, member, rfl⟩
    exact List.mem_append_right _ (List.mem_map_of_mem member)
  | templates | occupyAbility | unoccupyAbility | occupyDevice | unoccupyDevice => exact tracked

/-- An instance that is gone after a step of the manager was gone before, or has ended. -/
theorem gone_of_manager {event : InstanceEvent} {id : Uuid} (gone : (state.step (.manager event)).Gone id) :
    state.Gone id ∨ HasInstance state.manager.instances id ∧ event.ended = some id := by
  obtain ⟨known, notThere⟩ := gone
  by_cases has : HasInstance state.manager.instances id
  · by_contra other
    exact notThere (hasInstance_step has fun ends => other (.inr ⟨has, ends⟩))
  · -- It is known from before: the instances that are known now are there.
    refine .inl ⟨?_, has⟩
    obtain earlier | now := List.mem_append.mp known
    · exact earlier
    · obtain ⟨row, member, isId⟩ := List.mem_map.mp now
      exact absurd ⟨row, member, isId⟩ notThere

theorem noDangling_manager (noDangling : state.NoDangling) (tracked : state.Tracked) (event : InstanceEvent) :
    (state.step (.manager event)).NoDangling ↔ state.Released (.manager event) := by
  constructor
  · intro after id ends has
    exact after id ⟨List.mem_append_left _ (tracked id has), not_hasInstance_step ends⟩
  · intro released id gone
    obtain before | ⟨has, ends⟩ := gone_of_manager gone
    · exact noDangling id before
    · exact released id ends has

theorem noDangling_occupation (noDangling : state.NoDangling) {request : OccupancyRequest} {after : OwnershipTable}
    (writes : after = state.ownership ∨
      after = addOwnership .ability request.mode state.ownership request.requester request.target request.position) :
    NoDangling { state with ownership := after } ↔ state.NamesNoneGone request after := by
  by_cases same : after = state.ownership
  · subst same
    exact iff_of_true noDangling (.inl rfl)
  obtain rfl := writes.resolve_left same
  constructor
  · intro clean
    have member : (⟨request.requester, .ability, request.position, request.target, .ability, request.mode⟩ : CROwnership) ∈
        addOwnership .ability request.mode state.ownership request.requester request.target request.position :=
      Relation.mem_replaceInto.mpr (.inl rfl)
    -- The new row names both ids.
    exact .inr ⟨fun gone => clean _ gone _ member (.inl ⟨rfl, rfl⟩), fun gone => clean _ gone _ member (.inr ⟨rfl, rfl⟩)⟩
  · rintro (isSame | ⟨requesterThere, targetThere⟩)
    · exact absurd isSame same
    intro id gone row member names
    obtain rfl | ⟨old, _⟩ := Relation.mem_replaceInto.mp member
    · obtain ⟨rfl, _⟩ | ⟨rfl, _⟩ := names
      · exact requesterThere gone
      · exact targetThere gone
    · exact noDangling id gone row old names

theorem NoDangling.mono (noDangling : state.NoDangling) {after : OwnershipTable}
    (fewer : ∀ row ∈ after, row ∈ state.ownership) : NoDangling { state with ownership := after } :=
  fun id gone row member => noDangling id gone row (fewer row member)

theorem noDangling_step (noDangling : state.NoDangling) (tracked : state.Tracked) (event : OccupancyEvent) :
    (state.step event).NoDangling ↔ state.Released event := by
  cases event with
  | manager event => exact noDangling_manager noDangling tracked event
  | templates templates => exact iff_of_true noDangling trivial
  | occupyAbility request => exact noDangling_occupation noDangling ((state.call request).occupyAbility_table _)
  | occupyDevice request => exact noDangling_occupation noDangling ((state.call request).occupyDevice_table _)
  | unoccupyAbility request =>
    exact iff_of_true (noDangling.mono fun _ => OccupationCall.mem_unoccupyAbility) trivial
  | unoccupyDevice request =>
    exact iff_of_true (noDangling.mono fun _ => OccupationCall.mem_unoccupyDevice) trivial

/-- No row names an instance that is gone exactly in the runs in which each instance that ends is in no row then, and no
row is written for one that has ended. -/
theorem always_noDangling_iff (manager : InstanceState) (events : List OccupancyEvent) :
    Always step NoDangling (start manager) events ↔ EachStep step Released (start manager) events := by
  have nothingYet : (start manager).NoDangling := fun _ _ row member => absurd member (Relation.not_mem_empty row)
  refine always_exact (fun state => state.NoDangling ∧ state.Tracked) (fun _ => And.left) ?_ ?_ (start manager)
    ⟨nothingYet, tracked_start manager⟩ events
  · rintro state event ⟨noDangling, tracked⟩ released
    exact ⟨(noDangling_step noDangling tracked event).mpr released, tracked.step event⟩
  · rintro state event ⟨noDangling, tracked⟩ after
    exact (noDangling_step noDangling tracked event).mp after

/-- A template of a camera, and a task that is about to create an instance of it. -/
def cameraManager : InstanceState :=
  { InstanceState.start ⟨[⟨7, "camera", false, false, false, false, localCr⟩], List.nodup_singleton _⟩ with
    tasks := [⟨localCr, false, false⟩] }

def occupyCamera : OccupancyRequest := ⟨1, "localhost", 7, .unique, fun _ => none, fun _ => true, fun _ _ => .failed⟩

/-- An instance that is deleted while it owns the camera owns it from then on. -/
theorem deleted_owner_stays : ¬ Always step NoDangling (start cameraManager)
    [.manager (.createInstance 0 1), .occupyAbility occupyCamera, .manager (.delete 1)] := by
  rintro ⟨_, _, _, noDangling⟩
  refine noDangling 1 ⟨by decide, not_hasInstance_step rfl⟩ ⟨1, .ability, "localhost", 7, .ability, .unique⟩ ?_
    (.inl ⟨rfl, rfl⟩)
  decide

/-- A held ability that is gone, and is no template, is not found by `unoccupy_ability`, so its rows stay. -/
theorem unoccupyAbility_gone {request : OccupancyRequest} (gone : state.Gone request.target)
    (noTemplate : state.manager.templates.lookup request.target = none) :
    (state.call request).unoccupyAbility state.ownership = (.ok false, state.ownership) := by
  have noInstance : state.manager.instances.lookup request.target = none := by
    refine Option.eq_none_iff_forall_ne_some.mpr fun row found => gone.2 ?_
    obtain ⟨member, isTarget⟩ := Relation.lookup_eq_some.mp found
    exact ⟨row, member, isTarget⟩
  have missing : (state.call request).catalogue.judgeAbilityExist (state.call request).target = false := by
    simp only [call, noInstance, noTemplate, Option.isSome_none, Bool.or_self]
  simp only [OccupationCall.unoccupyAbility, ResourceMgr.unoccupyAbility, missing, Bool.not_false, if_true]

end OccupiedInstances

end AbilityFramework.ResourceMgr
