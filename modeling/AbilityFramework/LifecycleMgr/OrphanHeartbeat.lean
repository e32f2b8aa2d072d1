import AbilityFramework.LifecycleMgr.LifecycleManager

/-! # Orphan heartbeats

A heartbeat of an instance without a row is an orphan's: it must not get into the heartbeat map, and its
sender is to be told 410, so that the process ends itself.  `ResourceMgr` accepts a heartbeat that says
`Terminated` without looking for the row it deletes, and an orphan's last heartbeat then enters the map
like any other.  Orphans are refused exactly in the runs in which none of them says `Terminated`
(`orphansRefused_iff`). -/

namespace AbilityFramework.LifecycleMgr

open Library Library.Runs ResourceMgr

variable {shardIndex : Uuid → Fin 8} {framework : Framework shardIndex}

structure OrphansRefused (framework : Framework shardIndex) (event : FrameworkEvent) : Prop where
  /-- Only instances with a row enter the map. -/
  known : ∀ id, framework.heartbeats.find id = none →
    (frameworkStep framework event).heartbeats.find id ≠ none → HasRow framework.instances id
  /-- The others are told 410. -/
  told : ∀ heartbeat now delivery, event = .heartbeat heartbeat now delivery →
    ¬ HasRow framework.instances heartbeat.id →
      (framework.postAbilityHeartbeat heartbeat now delivery).1.status = 410

/-! ## One step -/

/-- A heartbeat is recorded, and its sender told so, if it is accepted and the answer arrives. -/
theorem postAbilityHeartbeat_cases (framework : Framework shardIndex) (heartbeat : Heartbeat) (now : Nat)
    (delivery : Delivery) :
    (delivery = .answered ∧ (heartbeat.state = .terminated ∨ HasRow framework.instances heartbeat.id) ∧
      (framework.postAbilityHeartbeat heartbeat now delivery).1.status = 200 ∧
      (framework.postAbilityHeartbeat heartbeat now delivery).2.heartbeats =
        record framework.heartbeats heartbeat now) ∨
    (¬ (delivery = .answered ∧ (heartbeat.state = .terminated ∨ HasRow framework.instances heartbeat.id)) ∧
      (framework.postAbilityHeartbeat heartbeat now delivery).1.status = 410 ∧
      (framework.postAbilityHeartbeat heartbeat now delivery).2.heartbeats = framework.heartbeats) := by
  cases delivery with
  | lost | unanswered => exact .inr ⟨nofun, rfl, rfl⟩
  | answered =>
    rw [← accepted_onEventHeartbeat]
    simp only [Framework.postAbilityHeartbeat, Framework.onHeartbeat]
    split
    · rename_i accepted
      exact .inl ⟨trivial, accepted, rfl, rfl⟩
    · rename_i refused
      exact .inr ⟨fun both => refused both.2, rfl, rfl⟩

theorem find_clearStaleHeartbeats_of_none {heartbeats : HeartbeatMap shardIndex} {id : Uuid} (now : Nat)
    (absent : heartbeats.find id = none) : (clearStaleHeartbeats heartbeats now).find id = none := by
  rw [find_clearStaleHeartbeats, absent, Option.filter_none]

/-- Nothing but a heartbeat brings an id into the map. -/
theorem enters_cases {event : FrameworkEvent} {id : Uuid} (absent : framework.heartbeats.find id = none)
    (enters : (frameworkStep framework event).heartbeats.find id ≠ none) :
    ∃ heartbeat now, event = .heartbeat heartbeat now .answered ∧ heartbeat.id = id ∧
      (heartbeat.state = .terminated ∨ HasRow framework.instances id) := by
  cases event with
  | create instanceId crTemplate => exact absurd absent enters
  | delete instanceId => exact absurd absent enters
  | clearStale now => exact absurd (find_clearStaleHeartbeats_of_none now absent) enters
  | exit instanceId delivery =>
    have gone : (framework.heartbeats.erase instanceId).find id = none := by
      rw [ShardedLockMap.find_erase, absent, ite_self]
    cases delivery <;> exact absurd gone enters
  | heartbeat heartbeat now delivery =>
    rw [frameworkStep] at enters
    obtain ⟨rfl, accepted, _, recorded⟩ | ⟨_, _, unchanged⟩ :=
      postAbilityHeartbeat_cases framework heartbeat now delivery
    · rw [recorded, find_record] at enters
      split at enters
      · rename_i same
        rw [same]
        exact ⟨heartbeat, now, rfl, rfl, accepted⟩
      · exact absurd absent enters
    · rw [unchanged] at enters
      exact absurd absent enters

/-- The last heartbeat of an instance that has no row. -/
def OrphanTerminates (framework : Framework shardIndex) (event : FrameworkEvent) : Prop :=
  ∃ heartbeat now, event = .heartbeat heartbeat now .answered ∧ heartbeat.state = .terminated ∧
    ¬ HasRow framework.instances heartbeat.id

theorem orphansRefused_step {event : FrameworkEvent} :
    OrphansRefused framework event ↔ ¬ OrphanTerminates framework event := by
  constructor
  · rintro refused ⟨heartbeat, now, rfl, terminated, orphan⟩
    have status := refused.told heartbeat now .answered rfl orphan
    obtain ⟨_, _, accepted, _⟩ | ⟨notBoth, _⟩ :=
      postAbilityHeartbeat_cases framework heartbeat now .answered
    · rw [accepted] at status
      omega
    · exact notBoth ⟨rfl, .inl terminated⟩
  · intro noOrphan
    constructor
    · intro id absent enters
      obtain ⟨heartbeat, now, rfl, rfl, terminated | present⟩ := enters_cases absent enters
      · by_contra orphan
        exact noOrphan ⟨heartbeat, now, rfl, terminated, orphan⟩
      · exact present
    · rintro heartbeat now delivery rfl orphan
      obtain ⟨rfl, terminated | present, _⟩ | ⟨_, status, _⟩ :=
        postAbilityHeartbeat_cases framework heartbeat now delivery
      · exact absurd ⟨heartbeat, now, rfl, terminated, orphan⟩ noOrphan
      · exact absurd present orphan
      · exact status

/-! ## Runs -/

/-- Every entry stands under the id of its heartbeat. -/
def Named (framework : Framework shardIndex) : Prop :=
  ∀ id entry, framework.heartbeats.find id = some entry → entry.heartbeat.id = id

theorem Named.step (named : Named framework) (event : FrameworkEvent) :
    Named (frameworkStep framework event) := by
  intro id entry found
  cases event with
  | create instanceId crTemplate => exact named id entry found
  | delete instanceId => exact named id entry found
  | clearStale now =>
    simp only [frameworkStep, find_clearStaleHeartbeats, Option.filter_eq_some_iff] at found
    exact named id entry found.1
  | exit instanceId delivery =>
    have kept : (framework.heartbeats.erase instanceId).find id = some entry := by
      cases delivery <;> exact found
    rw [ShardedLockMap.find_erase] at kept
    split at kept
    · cases kept
    · exact named id entry kept
  | heartbeat heartbeat now delivery =>
    rw [frameworkStep] at found
    obtain ⟨_, _, _, recorded⟩ | ⟨_, _, unchanged⟩ := postAbilityHeartbeat_cases framework heartbeat now delivery
    · rw [recorded] at found
      obtain ⟨isNew, rfl⟩ | old := heartbeat_record found
      · rw [isNew]
      · exact named id entry old
    · rw [unchanged] at found
      exact named id entry found

/-- What is said of the map's ids holds of those that `get_running_abilities` lists. -/
theorem listed_iff (events : List FrameworkEvent) (id : Uuid) :
    (∃ heartbeat ∈ getRunningAbilities (run frameworkStep (.start : Framework shardIndex) events).heartbeats,
      heartbeat.id = id) ↔
      (run frameworkStep (.start : Framework shardIndex) events).heartbeats.find id ≠ none := by
  have named : Named (run frameworkStep (.start : Framework shardIndex) events) := by
    refine run_invariant Named (fun later event named => named.step event) _ ?_ events
    intro id entry found
    rw [Framework.start, ShardedLockMap.find_empty] at found
    cases found
  simp only [getRunningAbilities, List.mem_map, Option.ne_none_iff_exists']
  constructor
  · rintro ⟨_, ⟨⟨key, entry⟩, member, rfl⟩, rfl⟩
    have found := ShardedLockMap.mem_entries.mp member
    refine ⟨entry, ?_⟩
    rw [named key entry found]
    exact found
  · rintro ⟨entry, found⟩
    exact ⟨entry.heartbeat, ⟨(id, entry), ShardedLockMap.mem_entries.mpr found, rfl⟩, named id entry found⟩

/-- Orphans are refused throughout a run exactly if no answered heartbeat says `Terminated` for an id
that was never created, or whose instance was deleted, terminated or exited before. -/
theorem orphansRefused_iff (events : List FrameworkEvent) :
    EachStep frameworkStep OrphansRefused (.start : Framework shardIndex) events ↔
      ∀ before heartbeat now after, events = before ++ .heartbeat heartbeat now .answered :: after →
        heartbeat.state = .terminated → Registered heartbeat.id before := by
  simp only [eachStep_iff_splits, orphansRefused_step]
  constructor
  · intro noOrphan before heartbeat now after split terminated
    by_contra unregistered
    refine noOrphan before _ after split ⟨heartbeat, now, rfl, terminated, ?_⟩
    rw [hasRow_run_iff]
    exact unregistered
  · rintro registered before _ after split ⟨heartbeat, now, rfl, terminated, orphan⟩
    rw [hasRow_run_iff] at orphan
    exact orphan (registered before heartbeat now after split terminated)

/-- A process that nobody registered says that it ends: it is told OK, and listed. -/
theorem strayTerminated_enters :
    ¬ EachStep frameworkStep OrphansRefused (.start : Framework shardOfId)
      [.heartbeat ⟨7, .terminated, 0, 0⟩ 0 .answered] := by
  rintro ⟨refused, _⟩
  obtain ⟨row, member, _⟩ := refused.known 7 rfl (by decide)
  exact Relation.not_mem_empty row member

end AbilityFramework.LifecycleMgr
