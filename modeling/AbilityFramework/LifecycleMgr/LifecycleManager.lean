import AbilityFramework.LifecycleMgr.HeartbeatMap
import AbilityFramework.Library.Runs

/-! # Heartbeats and the instance table

`LifecycleManager` asks `ResourceMgr`, which owns the instance table, about every heartbeat before it
records it, and tells it of every exit.  A `Framework` is the heartbeat map with that table, and
`frameworkStep` is all that happens to the two: instances are created and deleted, abilities report and
exit, and stale entries are cleared. -/

namespace AbilityFramework.LifecycleMgr

open Library Library.Runs ResourceMgr

variable {shardIndex : Uuid → Fin 8}

structure Framework (shardIndex : Uuid → Fin 8) where
  instances : AbilityInstanceTable
  heartbeats : HeartbeatMap shardIndex

/-- What comes of a message sent with `send_sync`. -/
inductive Delivery where
  | answered
  /-- The message is handled, but no answer comes in time. -/
  | unanswered
  /-- The message is not handled at all. -/
  | lost
  deriving DecidableEq, Repr

structure Response where
  status : Nat
  body : String
  deriving DecidableEq, Repr

namespace Framework

def start : Framework shardIndex := ⟨∅, ∅⟩

/-- An unanswered question counts as a refusal, whatever `ResourceMgr` has done. -/
def onHeartbeat (framework : Framework shardIndex) (heartbeat : Heartbeat) (now : Nat) :
    Delivery → Bool × Framework shardIndex
  | .lost => (false, framework)
  | .unanswered => (false, { framework with instances := (onEventHeartbeat framework.instances heartbeat).2 })
  | .answered =>
    let (accepted, instances) := onEventHeartbeat framework.instances heartbeat
    -- An id that is not accepted must not reach `record`, which would make an entry for it.
    if accepted then (true, ⟨instances, record framework.heartbeats heartbeat now⟩)
    else (false, { framework with instances := instances })

def unknownInstance : Response where
  status := 410
  body := "\x7b\"error\":\"unknown instance\",\"hint\":\"instance_id is not registered with this framework; " ++
    "sender should self-terminate\"\x7d"

/-- `POST /api/ability-heartbeat` -/
def postAbilityHeartbeat (framework : Framework shardIndex) (heartbeat : Heartbeat) (now : Nat)
    (delivery : Delivery) : Response × Framework shardIndex :=
  let (accepted, framework) := framework.onHeartbeat heartbeat now delivery
  (if accepted then ⟨200, "OK"⟩ else unknownInstance, framework)

/-- `on_ability_exit`; what is sent to the parent ability is left out. -/
def onAbilityExit (framework : Framework shardIndex) (instanceId : Uuid) :
    Delivery → Framework shardIndex
  | .lost => { framework with heartbeats := framework.heartbeats.erase instanceId }
  | .answered | .unanswered =>
    ⟨onAbilityInstanceExited framework.instances instanceId, framework.heartbeats.erase instanceId⟩

end Framework

inductive FrameworkEvent where
  /-- A creation that throws leaves the table as it is. -/
  | create (instanceId : Uuid) (crTemplate : AbilityCR)
  | delete (instanceId : Uuid)
  | heartbeat (heartbeat : Heartbeat) (now : Nat) (delivery : Delivery)
  | exit (instanceId : Uuid) (delivery : Delivery)
  | clearStale (now : Nat)

def frameworkStep (framework : Framework shardIndex) : FrameworkEvent → Framework shardIndex
  | .create instanceId crTemplate =>
    { framework with
      instances := (createAbilityInstance framework.instances instanceId crTemplate).getD framework.instances }
  | .delete instanceId => { framework with instances := (deleteInstance framework.instances instanceId).2 }
  | .heartbeat heartbeat now delivery => (framework.postAbilityHeartbeat heartbeat now delivery).2
  | .exit instanceId delivery => framework.onAbilityExit instanceId delivery
  | .clearStale now => { framework with heartbeats := clearStaleHeartbeats framework.heartbeats now }

/-! ## Rows -/

def HasRow (instances : AbilityInstanceTable) (id : Uuid) : Prop := ∃ row ∈ instances, row.instanceId = id

/-- The row of this id goes, if there is one. -/
def FrameworkEvent.Removes (id : Uuid) : FrameworkEvent → Prop
  | .delete instanceId => instanceId = id
  | .heartbeat report _ delivery => report.id = id ∧ report.state = .terminated ∧ delivery ≠ .lost
  | .exit instanceId delivery => instanceId = id ∧ delivery ≠ .lost
  | .create _ _ | .clearStale _ => False

/-- After the event there is a row of this id. -/
def FrameworkEvent.Creates (id : Uuid) : FrameworkEvent → Prop
  | .create instanceId crTemplate => instanceId = id ∧ crTemplate.spec ≠ none
  | .delete _ | .heartbeat _ _ _ | .exit _ _ | .clearStale _ => False

theorem hasRow_deleteAbilityInstance {instances : AbilityInstanceTable} {deleted id : Uuid} :
    HasRow (deleteAbilityInstance instances deleted) id ↔ HasRow instances id ∧ deleted ≠ id := by
  simp only [HasRow, deleteAbilityInstance, Relation.mem_deleteWhere, decide_eq_true_eq]
  constructor
  · rintro ⟨row, ⟨member, other⟩, rfl⟩
    exact ⟨⟨row, member, rfl⟩, fun same => other same.symm⟩
  · rintro ⟨⟨row, member, rfl⟩, other⟩
    exact ⟨row, ⟨member, fun same => other same.symm⟩, rfl⟩

theorem deleteInstance_snd (instances : AbilityInstanceTable) (id : Uuid) :
    (deleteInstance instances id).2 = deleteAbilityInstance instances id := by
  unfold deleteInstance getAbilityInstance
  split
  · -- Without such a row there is nothing to delete.
    rename_i absent
    refine (Relation.deleteWhere_eq_self ?_).symm
    intro row member same
    have found := Relation.lookup_eq_some.mpr ⟨member, of_decide_eq_true same⟩
    rw [absent] at found
    cases found
  · rfl

/-- A heartbeat changes no row but the one it may remove, up to what the row says. -/
theorem hasRow_onEventHeartbeat {instances : AbilityInstanceTable} {heartbeat : Heartbeat} {id : Uuid} :
    HasRow (onEventHeartbeat instances heartbeat).2 id ↔
      HasRow instances id ∧ ¬ (heartbeat.id = id ∧ heartbeat.state = .terminated) := by
  unfold onEventHeartbeat
  split
  · rename_i terminated
    rw [hasRow_deleteAbilityInstance]
    simp [terminated]
  · rename_i notTerminated
    simp only [HasRow, notTerminated, and_false, not_false_eq_true, and_true]
    have keeps : ∀ row, (AbilityInstance.report heartbeat row).instanceId = row.instanceId := fun _ => rfl
    constructor
    · rintro ⟨row, member, named⟩
      obtain ⟨old, oldMember, rfl⟩ := (Relation.mem_updateWhere keeps).mp member
      refine ⟨old, oldMember, ?_⟩
      rw [← named]
      split <;> rfl
    · rintro ⟨old, oldMember, named⟩
      refine ⟨_, (Relation.mem_updateWhere keeps).mpr ⟨old, oldMember, rfl⟩, ?_⟩
      rw [← named]
      split <;> rfl

/-- `ResourceMgr` accepts the heartbeats of instances with a row, and every heartbeat that says
`Terminated`. -/
theorem accepted_onEventHeartbeat {instances : AbilityInstanceTable} {heartbeat : Heartbeat} :
    (onEventHeartbeat instances heartbeat).1 = true ↔
      heartbeat.state = .terminated ∨ HasRow instances heartbeat.id := by
  unfold onEventHeartbeat
  split
  · rename_i terminated
    simp [terminated]
  · rename_i notTerminated
    simp [notTerminated, HasRow, Option.isSome_iff_exists, Relation.lookup_eq_some]

theorem hasRow_createAbilityInstance {instances : AbilityInstanceTable} {instanceId id : Uuid}
    {crTemplate : AbilityCR} :
    HasRow ((createAbilityInstance instances instanceId crTemplate).getD instances) id ↔
      HasRow instances id ∨ (instanceId = id ∧ crTemplate.spec ≠ none) := by
  simp only [createAbilityInstance, HasRow]
  split
  · rename_i noSpec
    simp [noSpec]
  · rename_i spec hasSpec
    rw [Relation.exists_key_insert]
    simp [hasSpec]

/-- Which instances have a row depends on the creations and removals alone. -/
theorem hasRow_step {framework : Framework shardIndex} {event : FrameworkEvent} {id : Uuid} :
    HasRow (frameworkStep framework event).instances id ↔
      HasRow framework.instances id ∧ ¬ event.Removes id ∨ event.Creates id := by
  cases event with
  | create instanceId crTemplate =>
    rw [frameworkStep, hasRow_createAbilityInstance]
    simp [FrameworkEvent.Removes, FrameworkEvent.Creates]
  | delete instanceId =>
    rw [frameworkStep, deleteInstance_snd, hasRow_deleteAbilityInstance]
    simp [FrameworkEvent.Removes, FrameworkEvent.Creates]
  | heartbeat report now delivery =>
    simp only [frameworkStep, Framework.postAbilityHeartbeat, FrameworkEvent.Removes, FrameworkEvent.Creates,
      or_false]
    cases delivery with
    | lost => simp [Framework.onHeartbeat]
    | unanswered => simp [Framework.onHeartbeat, hasRow_onEventHeartbeat]
    | answered =>
      simp only [Framework.onHeartbeat]
      split <;> simp [hasRow_onEventHeartbeat]
  | exit instanceId delivery =>
    cases delivery with
    | lost => simp [frameworkStep, Framework.onAbilityExit, FrameworkEvent.Removes, FrameworkEvent.Creates]
    | answered | unanswered =>
      simp [frameworkStep, Framework.onAbilityExit, onAbilityInstanceExited, hasRow_deleteAbilityInstance,
        FrameworkEvent.Removes, FrameworkEvent.Creates]
  | clearStale now => simp [frameworkStep, FrameworkEvent.Removes, FrameworkEvent.Creates]

/-- The instance was created, and not removed since. -/
def Registered (id : Uuid) (events : List FrameworkEvent) : Prop :=
  ∃ before creation after, events = before ++ creation :: after ∧ creation.Creates id ∧
    ∀ event ∈ after, ¬ event.Removes id

theorem registered_concat {id : Uuid} {events : List FrameworkEvent} {last : FrameworkEvent} :
    Registered id (events ++ [last]) ↔ Registered id events ∧ ¬ last.Removes id ∨ last.Creates id := by
  constructor
  · rintro ⟨before, creation, after, split, creates, kept⟩
    obtain ⟨rfl, rfl, rfl⟩ | ⟨rest, rfl, rfl⟩ := concat_eq_split.mp split
    · exact .inr creates
    · refine .inl ⟨⟨before, creation, rest, rfl, creates, ?_⟩, ?_⟩
      · intro event member
        exact kept event (List.mem_append_left _ member)
      · exact kept last (List.mem_append_right _ List.mem_cons_self)
  · rintro (⟨⟨before, creation, after, rfl, creates, kept⟩, keepsLast⟩ | creates)
    · refine ⟨before, creation, after ++ [last], by simp, creates, ?_⟩
      intro event member
      rw [List.mem_append, List.mem_singleton] at member
      rcases member with member | rfl
      · exact kept event member
      · exact keepsLast
    · exact ⟨events, last, [], rfl, creates, fun _ isLater => absurd isLater List.not_mem_nil⟩

/-- The table holds the instances that were created and not deleted, terminated or exited since. -/
theorem hasRow_run_iff (id : Uuid) (events : List FrameworkEvent) :
    HasRow (run frameworkStep (.start : Framework shardIndex) events).instances id ↔ Registered id events := by
  induction events using List.reverseRecOn with
  | nil =>
    refine iff_of_false ?_ ?_
    · rintro ⟨row, member, _⟩
      exact Relation.not_mem_empty row member
    · rintro ⟨before, creation, after, split, _⟩
      simp at split
  | append_singleton events last inductionHypothesis =>
    rw [run_concat, hasRow_step, inductionHypothesis, registered_concat]

end AbilityFramework.LifecycleMgr
