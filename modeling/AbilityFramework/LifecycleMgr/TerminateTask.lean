import AbilityFramework.LifecycleMgr.HeartbeatMap
import AbilityFramework.Library.Runs

/-! # Terminate requests

The task of a terminate request sends the command to the ability and then polls the heartbeat map until
the instance's entry says `Terminated`.  The exit of the process erases that entry.  A poll sees the
`Terminated` heartbeat only between its recording and the next write to the entry, and a process that
reports its end and exits leaves no more time than that: the task finishes exactly if the command was
answered and a poll falls into that time before the timeout (`terminateReported_iff`). -/

namespace AbilityFramework.LifecycleMgr

open Library Library.Runs ResourceMgr

variable {shardIndex : Uuid → Fin 8}

/-! ## The task -/

/-- The state of the sub-task that sends the command from a worker thread. -/
inductive SendOperation where
  | unstarted
  | running
  | finished
  | error
  deriving DecidableEq, Repr

/-- The two sub-tasks in sequence, and the three ways the sequence ends. -/
inductive TerminateTask where
  | sendLifecycleOperation (state : SendOperation)
  | waitForLifecycleState
  | finished
  /-- error reading from ability http server: … -/
  | sendFailed
  /-- wait ability … heartbeat timeout -/
  | timedOut
  deriving DecidableEq, Repr

def TerminateTask.isEnd (task : TerminateTask) : Bool :=
  task = .finished || task = .sendFailed || task = .timedOut

/-- 15 s, in nanoseconds. -/
def waitTimeout : Nat := 15000000000

structure Termination (shardIndex : Uuid → Fin 8) where
  instances : AbilityInstanceTable
  heartbeats : HeartbeatMap shardIndex
  /-- The heartbeats that `ResourceMgr` has accepted and `on_heartbeat` has yet to record. -/
  accepted : List Heartbeat
  clock : Nat
  timeoutTime : Nat
  task : TerminateTask

/-- A terminate request for an active instance, with the state it finds. -/
structure TerminateRequest (shardIndex : Uuid → Fin 8) where
  instanceId : Uuid
  instances : AbilityInstanceTable
  heartbeats : HeartbeatMap shardIndex
  accepted : List Heartbeat
  clock : Nat
  active : containsActive heartbeats instanceId = true

/-- `make_lifecycle_adjust_request`; the time to wait begins here. -/
def TerminateRequest.start (request : TerminateRequest shardIndex) : Termination shardIndex where
  instances := request.instances
  heartbeats := request.heartbeats
  accepted := request.accepted
  clock := request.clock
  timeoutTime := request.clock + waitTimeout
  task := .sendLifecycleOperation .unstarted

/-- The condition of `task_wait_for_lifecycle_state`. -/
def reachedState (heartbeats : HeartbeatMap shardIndex) (instanceId : Uuid) (desired : LifecycleState) : Bool :=
  (heartbeats.find instanceId).any fun entry => entry.heartbeat.state = desired

/-- `resume` of the sequence. -/
def resume (instanceId : Uuid) (state : Termination shardIndex) : TerminateTask :=
  match state.task with
  | .sendLifecycleOperation .unstarted => .sendLifecycleOperation .running
  | .sendLifecycleOperation .running => .sendLifecycleOperation .running
  | .sendLifecycleOperation .finished => .waitForLifecycleState
  | .sendLifecycleOperation .error => .sendFailed
  | .waitForLifecycleState =>
    -- The timeout comes first: a condition that has come true since the last poll is not looked at.
    if state.clock > state.timeoutTime then .timedOut
    else if reachedState state.heartbeats instanceId .terminated then .finished
    else .waitForLifecycleState
  | .finished => .finished
  | .sendFailed => .sendFailed
  | .timedOut => .timedOut

inductive TerminationEvent where
  | tick (elapsed : Nat)
  /-- A heartbeat arrives, and `ResourceMgr` is asked about it. -/
  | heartbeat (heartbeat : Heartbeat)
  /-- An accepted heartbeat is recorded in the map. -/
  | record (heartbeat : Heartbeat)
  /-- The entry is erased, by `on_ability_exit` or the clean-up of stale entries. -/
  | erase (id : Uuid)
  /-- `on_ability_exit` has told `ResourceMgr`. -/
  | exited (id : Uuid)
  /-- The ability has answered the command, or sending it has failed. -/
  | executed (success : Bool)
  /-- `TaskMgr` resumes the task. -/
  | resume

def terminationStep (instanceId : Uuid) (state : Termination shardIndex) :
    TerminationEvent → Termination shardIndex
  | .tick elapsed => { state with clock := state.clock + elapsed }
  | .heartbeat heartbeat =>
    let (accepted, instances) := onEventHeartbeat state.instances heartbeat
    { state with
      instances := instances
      accepted := if accepted then state.accepted ++ [heartbeat] else state.accepted }
  | .record heartbeat =>
    if heartbeat ∈ state.accepted then
      { state with
        heartbeats := record state.heartbeats heartbeat state.clock
        accepted := state.accepted.erase heartbeat }
    else state
  | .erase id => { state with heartbeats := state.heartbeats.erase id }
  | .exited id => { state with instances := onAbilityInstanceExited state.instances id }
  | .executed success =>
    match state.task with
    | .sendLifecycleOperation .running =>
      { state with task := .sendLifecycleOperation (if success then .finished else .error) }
    | _ => state
  | .resume => { state with task := resume instanceId state }

/-! ## What a poll sees -/

/-- The event writes or erases the instance's entry. -/
def Overwrites (instanceId : Uuid) (state : Termination shardIndex) (event : TerminationEvent) : Prop :=
  event = .erase instanceId ∨
    ∃ heartbeat, event = .record heartbeat ∧ heartbeat.id = instanceId ∧ heartbeat ∈ state.accepted

variable (request : TerminateRequest shardIndex)

abbrev TerminateRequest.run (events : List TerminationEvent) : Termination shardIndex :=
  Runs.run (terminationStep request.instanceId) request.start events

/-- The last write to the instance's entry was a `Terminated` heartbeat. -/
def TerminatedStands (events : List TerminationEvent) : Prop :=
  ∃ before heartbeat between, events = before ++ .record heartbeat :: between ∧
    heartbeat.id = request.instanceId ∧ heartbeat.state = .terminated ∧
    heartbeat ∈ (request.run before).accepted ∧
    EachStep (terminationStep request.instanceId) (fun state event => ¬ Overwrites request.instanceId state event)
      (request.run (before ++ [.record heartbeat])) between

/-- A poll in time finds that the last write was a `Terminated` heartbeat. -/
def PollInTime (events : List TerminationEvent) : Prop :=
  ∃ before after, events = before ++ .resume :: after ∧ TerminatedStands request before ∧
    (request.run before).task = .waitForLifecycleState ∧
    (request.run before).clock ≤ (request.run before).timeoutTime

variable {request} {events : List TerminationEvent} {last : TerminationEvent}

theorem run_snoc : request.run (events ++ [last]) = terminationStep request.instanceId (request.run events) last :=
  run_concat _ events last

theorem terminatedStands_concat :
    TerminatedStands request (events ++ [last]) ↔
      (∃ heartbeat, last = .record heartbeat ∧ heartbeat.id = request.instanceId ∧
        heartbeat.state = .terminated ∧ heartbeat ∈ (request.run events).accepted) ∨
      (TerminatedStands request events ∧ ¬ Overwrites request.instanceId (request.run events) last) := by
  constructor
  · rintro ⟨before, heartbeat, between, split, named, terminated, accepted, kept⟩
    obtain ⟨rfl, rfl, rfl⟩ | ⟨rest, rfl, rfl⟩ := concat_eq_split.mp split
    · exact .inl ⟨heartbeat, rfl, named, terminated, accepted⟩
    · obtain ⟨keptBefore, keptLast, _⟩ := (eachStep_append _ _ _).mp kept
      rw [← run_append, List.append_assoc, List.singleton_append] at keptLast
      exact .inr ⟨⟨before, heartbeat, rest, rfl, named, terminated, accepted, keptBefore⟩, keptLast⟩
  · rintro (⟨heartbeat, rfl, named, terminated, accepted⟩ | ⟨stands, keptLast⟩)
    · exact ⟨events, heartbeat, [], rfl, named, terminated, accepted, trivial⟩
    · obtain ⟨before, heartbeat, between, rfl, named, terminated, accepted, kept⟩ := stands
      refine ⟨before, heartbeat, between ++ [last], by simp, named, terminated, accepted, ?_⟩
      refine (eachStep_append _ _ _).mpr ⟨kept, ?_, trivial⟩
      rw [← run_append, List.append_assoc, List.singleton_append]
      exact keptLast

theorem reachedState_step {instanceId : Uuid} {state : Termination shardIndex} {event : TerminationEvent} :
    reachedState (terminationStep instanceId state event).heartbeats instanceId .terminated = true ↔
      (∃ heartbeat, event = .record heartbeat ∧ heartbeat.id = instanceId ∧ heartbeat.state = .terminated ∧
        heartbeat ∈ state.accepted) ∨
      (reachedState state.heartbeats instanceId .terminated = true ∧ ¬ Overwrites instanceId state event) := by
  cases event with
  | tick elapsed => simp [terminationStep, Overwrites]
  | heartbeat heartbeat => simp [terminationStep, Overwrites]
  | exited id => simp [terminationStep, Overwrites]
  | resume => simp [terminationStep, Overwrites]
  | executed success =>
    simp only [terminationStep]
    split <;> simp [Overwrites]
  | erase id =>
    simp only [terminationStep, reachedState, ShardedLockMap.find_erase, Overwrites]
    by_cases same : instanceId = id
    · simp [same]
    · simp [same, Ne.symm same]
  | record heartbeat =>
    simp only [terminationStep, Overwrites]
    split
    · rename_i accepted
      simp only [reachedState, find_record]
      by_cases same : instanceId = heartbeat.id
      · simp [same, accepted, Entry.update]
      · simp [same, Ne.symm same]
    · rename_i refused
      simp [refused]

/-- A poll sees the state `Terminated` exactly while such a heartbeat stands. -/
theorem reachedState_run_iff (events : List TerminationEvent) :
    reachedState (request.run events).heartbeats request.instanceId .terminated = true ↔
      TerminatedStands request events := by
  induction events using List.reverseRecOn with
  | nil =>
    refine iff_of_false ?_ ?_
    · -- The instance was active when the request came.
      intro reached
      obtain ⟨entry, found, active⟩ := containsActive_iff.mp request.active
      change (request.heartbeats.find request.instanceId).any _ = true at reached
      rw [found, Option.any_some, decide_eq_true_eq] at reached
      rw [reached] at active
      cases active
    · rintro ⟨before, heartbeat, between, split, _⟩
      simp at split
  | append_singleton events last inductionHypothesis =>
    rw [run_snoc, reachedState_step, inductionHypothesis, terminatedStands_concat]

/-! ## The end of the task -/

theorem pollInTime_concat :
    PollInTime request (events ++ [last]) ↔
      PollInTime request events ∨
        (last = .resume ∧ TerminatedStands request events ∧
          (request.run events).task = .waitForLifecycleState ∧
          (request.run events).clock ≤ (request.run events).timeoutTime) := by
  constructor
  · rintro ⟨before, after, split, poll⟩
    obtain ⟨rfl, rfl, rfl⟩ | ⟨rest, rfl, rfl⟩ := concat_eq_split.mp split
    · exact .inr ⟨rfl, poll⟩
    · exact .inl ⟨before, rest, rfl, poll⟩
  · rintro (⟨before, after, rfl, poll⟩ | ⟨rfl, poll⟩)
    · exact ⟨before, after ++ [last], by simp, poll⟩
    · exact ⟨events, [], rfl, poll⟩

/-- The sequence finishes only in a poll that is in time and finds the state reached. -/
theorem resume_eq_finished {instanceId : Uuid} {state : Termination shardIndex} :
    resume instanceId state = .finished ↔
      state.task = .finished ∨
        (state.task = .waitForLifecycleState ∧ state.clock ≤ state.timeoutTime ∧
          reachedState state.heartbeats instanceId .terminated = true) := by
  unfold resume
  split
  case h_5 waiting =>
    rw [waiting]
    by_cases late : state.clock > state.timeoutTime
    · simp [late, Nat.not_le_of_lt late]
    · by_cases reached : reachedState state.heartbeats instanceId .terminated = true
      · simp [late, reached, Nat.le_of_not_lt late]
      · simp [late, reached]
  all_goals
    rename_i isTask
    simp [isTask]

theorem finished_step {instanceId : Uuid} {state : Termination shardIndex} {event : TerminationEvent} :
    (terminationStep instanceId state event).task = .finished ↔
      state.task = .finished ∨
        (event = .resume ∧ state.task = .waitForLifecycleState ∧ state.clock ≤ state.timeoutTime ∧
          reachedState state.heartbeats instanceId .terminated = true) := by
  cases event with
  | resume => simp [terminationStep, resume_eq_finished]
  | executed success =>
    simp only [terminationStep]
    split
    · rename_i running
      cases success <;> simp [running]
    · simp
  | record heartbeat =>
    simp only [terminationStep]
    split <;> simp
  | tick elapsed | heartbeat heartbeat | erase id | exited id => simp [terminationStep]

/-- The task has finished exactly if there was a poll in time. -/
theorem finished_iff_pollInTime (events : List TerminationEvent) :
    (request.run events).task = .finished ↔ PollInTime request events := by
  induction events using List.reverseRecOn with
  | nil =>
    refine iff_of_false nofun ?_
    rintro ⟨before, after, split, _⟩
    simp at split
  | append_singleton events last inductionHypothesis =>
    rw [run_snoc, finished_step, inductionHypothesis, pollInTime_concat, reachedState_run_iff]
    grind

/-- Within the timeout, the process sends its `Terminated` heartbeat and then exits. -/
def ProcessTerminates (request : TerminateRequest shardIndex) (events : List TerminationEvent) : Prop :=
  ∃ before heartbeat between after, events = before ++ .heartbeat heartbeat :: between ++
      .erase request.instanceId :: after ∧
    heartbeat.id = request.instanceId ∧ heartbeat.state = .terminated ∧
    (request.run (before ++ .heartbeat heartbeat :: between)).clock ≤ request.start.timeoutTime

/-- Once it has ended, the task of a request whose process has terminated is finished. -/
def TerminateReported (request : TerminateRequest shardIndex) (events : List TerminationEvent) : Prop :=
  ProcessTerminates request events → (request.run events).task.isEnd = true →
    (request.run events).task = .finished

/-- A terminate that took effect is reported as such exactly if a poll in time, after the command was
answered, comes between the recording of a `Terminated` heartbeat and the next write to the entry. -/
theorem terminateReported_iff (request : TerminateRequest shardIndex) (events : List TerminationEvent) :
    TerminateReported request events ↔
      (ProcessTerminates request events → (request.run events).task.isEnd = true →
        PollInTime request events) := by
  simp only [TerminateReported, finished_iff_pollInTime]

def runningCamera : TerminateRequest shardOfId where
  instanceId := 10
  instances := ∅
  heartbeats := record ∅ ⟨10, .running, 0, 0⟩ 0
  accepted := []
  clock := 0
  active := rfl

/-- The process reports its end and exits between two polls. -/
def exitBetweenPolls : List TerminationEvent :=
  [.resume, .executed true, .resume, .heartbeat ⟨10, .terminated, 0, 0⟩, .record ⟨10, .terminated, 0, 0⟩,
    .erase 10, .exited 10, .resume, .tick 15000000001, .resume]

theorem exitBetweenPolls_unreported : ¬ TerminateReported runningCamera exitBetweenPolls := by
  intro reported
  have terminates : ProcessTerminates runningCamera exitBetweenPolls :=
    ⟨[.resume, .executed true, .resume], ⟨10, .terminated, 0, 0⟩, [.record ⟨10, .terminated, 0, 0⟩],
      [.exited 10, .resume, .tick 15000000001, .resume], rfl, rfl, rfl, by decide⟩
  have finished := reported terminates (by decide)
  exact absurd finished (by decide)

end AbilityFramework.LifecycleMgr
