import AbilityFramework.Library.ShardedLockMap
import AbilityFramework.ResourceMgr.AbilityInstance

/-! # The heartbeat map

`LifecycleManager::heartbeats`, the functions that read it, and the three that write it: a heartbeat that
`ResourceMgr` accepts, the exit of an ability process, and the clean-up of entries that have not been
updated for a minute.  Times are in nanoseconds of the system clock. -/

namespace AbilityFramework.LifecycleMgr

open Library ResourceMgr

/-- `is_active`, which compares the values of the enumeration. -/
def isActive : LifecycleState → Bool
  | .init | .standby | .running | .suspend => true
  | .unknown | .inactive | .terminated | .error => false

/-- A client of the ability's own server, which listens on this port of the local host. -/
structure AbilityClient where
  ipcPort : UInt16
  deriving DecidableEq, Repr

structure Entry where
  heartbeat : Heartbeat
  lastUpdate : Nat
  /-- Empty until the ability has been running. -/
  lastConnect : Option Nat
  client : Option AbilityClient
  deriving DecidableEq, Repr

/-- The entry that `exec_on_key` makes for a new key. -/
instance : Inhabited Entry := ⟨⟨⟨0, .inactive, 0, 0⟩, 0, none, none⟩⟩

/-- `HEARTBEAT_SHARD_COUNT` is 8; which shard an id belongs to is up to its hash. -/
abbrev HeartbeatMap (shardIndex : Uuid → Fin 8) := ShardedLockMap Entry shardIndex

/-- The shards when the hash of an id is the id itself. -/
def shardOfId : Uuid → Fin 8 := Fin.ofNat 8

variable {shardIndex : Uuid → Fin 8}

/-! ## Reading -/

def containsActive (heartbeats : HeartbeatMap shardIndex) (instanceId : Uuid) : Bool :=
  (heartbeats.find instanceId).any fun entry => isActive entry.heartbeat.state

def getHeartbeat (heartbeats : HeartbeatMap shardIndex) (instanceId : Uuid) : Option Heartbeat :=
  (heartbeats.find instanceId).map Entry.heartbeat

def getRunningAbilities (heartbeats : HeartbeatMap shardIndex) : List Heartbeat :=
  heartbeats.entries.map fun entry => entry.2.heartbeat

theorem containsActive_iff {heartbeats : HeartbeatMap shardIndex} {instanceId : Uuid} :
    containsActive heartbeats instanceId = true ↔
      ∃ entry, heartbeats.find instanceId = some entry ∧ isActive entry.heartbeat.state = true := by
  simp only [containsActive, Option.any_eq_true]

/-! ## Recording a heartbeat -/

/-- What `on_heartbeat` does to the entry under the lock of its shard. -/
def Entry.update (heartbeat : Heartbeat) (now : Nat) (entry : Entry) : Entry where
  heartbeat := heartbeat
  lastUpdate := now
  lastConnect := if heartbeat.state = .running then some now else entry.lastConnect
  client :=
    match entry.client with
    | none => some ⟨heartbeat.ipcPort⟩
    | some client =>
      -- A client is made anew when the ability has moved to another port.
      if entry.heartbeat.ipcPort ≠ heartbeat.ipcPort then some ⟨heartbeat.ipcPort⟩ else some client

def record (heartbeats : HeartbeatMap shardIndex) (heartbeat : Heartbeat) (now : Nat) :
    HeartbeatMap shardIndex :=
  heartbeats.execOnKey heartbeat.id (Entry.update heartbeat now)

theorem find_record (heartbeats : HeartbeatMap shardIndex) (heartbeat : Heartbeat) (now : Nat) (id : Uuid) :
    (record heartbeats heartbeat now).find id =
      if id = heartbeat.id then some (((heartbeats.find id).getD default).update heartbeat now)
      else heartbeats.find id := by
  rw [record, ShardedLockMap.find_execOnKey]
  split
  · rename_i same
    rw [same]
  · rfl

/-- An entry is the one of the id its heartbeat names, as only `record` makes entries. -/
theorem heartbeat_record {heartbeats : HeartbeatMap shardIndex} {heartbeat : Heartbeat} {now : Nat}
    {id : Uuid} {entry : Entry} (found : (record heartbeats heartbeat now).find id = some entry) :
    entry.heartbeat = heartbeat ∧ id = heartbeat.id ∨ heartbeats.find id = some entry := by
  rw [find_record] at found
  split at found
  · rename_i same
    rw [Option.some.injEq] at found
    rw [← found]
    exact .inl ⟨rfl, same⟩
  · exact .inr found

/-! ## Clearing stale entries -/

/-- `MAX_HEARTBEAT_VALID_TIME`, one minute. -/
def maxHeartbeatValidTime : Nat := 60000000000

def Entry.isStale (now : Nat) (entry : Entry) : Bool := entry.lastUpdate + maxHeartbeatValidTime < now

def staleIds (now : Nat) (entries : List (Uuid × Entry)) : List Uuid :=
  (entries.filter fun entry => entry.2.isStale now).map Prod.fst

theorem mem_staleIds {now : Nat} {entries : List (Uuid × Entry)} {id : Uuid} :
    id ∈ staleIds now entries ↔ ∃ entry, (id, entry) ∈ entries ∧ entry.isStale now = true := by
  simp [staleIds]

/-- `clear_stale_heartbeats`, when nothing comes in between. -/
def clearStaleHeartbeats (heartbeats : HeartbeatMap shardIndex) (now : Nat) : HeartbeatMap shardIndex :=
  (staleIds now heartbeats.entries).foldl ShardedLockMap.erase heartbeats

/-- Erasing ids one after another leaves the entries of the others. -/
theorem find_foldl_erase (ids : List Uuid) (heartbeats : HeartbeatMap shardIndex) (id : Uuid) :
    (ids.foldl ShardedLockMap.erase heartbeats).find id =
      if id ∈ ids then none else heartbeats.find id := by
  induction ids generalizing heartbeats with
  | nil => simp
  | cons erased ids inductionHypothesis =>
    rw [List.foldl_cons, inductionHypothesis, ShardedLockMap.find_erase]
    by_cases same : id = erased
    · simp [same]
    · simp [same]

/-- Undisturbed, the clean-up removes the stale entries and no others. -/
theorem find_clearStaleHeartbeats (heartbeats : HeartbeatMap shardIndex) (now : Nat) (id : Uuid) :
    (clearStaleHeartbeats heartbeats now).find id =
      (heartbeats.find id).filter fun entry => !entry.isStale now := by
  rw [clearStaleHeartbeats, find_foldl_erase]
  cases found : heartbeats.find id with
  | none => simp
  | some entry =>
    have listed : id ∈ staleIds now heartbeats.entries ↔ entry.isStale now = true := by
      simp [mem_staleIds, ShardedLockMap.mem_entries, found]
    by_cases stale : entry.isStale now = true
    · simp [listed, stale, Option.filter]
    · simp [listed, stale, Option.filter]

end AbilityFramework.LifecycleMgr
