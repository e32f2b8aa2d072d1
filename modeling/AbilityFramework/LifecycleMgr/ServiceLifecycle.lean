import Mathlib.Logic.Function.Basic
import AbilityFramework.Library.Runs
import AbilityFramework.Uuid

/-! # The service lifecycle manager

`lifecyclemgr/service_lifecycle.cpp`: starting and stopping services, restarting them when their
process exits or their liveness probe fails.  Beside the manager's map the state holds the processes it
has spawned, numbered in the order of spawning; a number stands for the `process_handle_id` that
`start_process_fn` returns, and every spawn takes from its event whether `start_process_fn` throws.

A process passes through three statuses: it is live, it has exited or been killed, and its exit
callback has run.  The callback may run arbitrarily late, and runs once. -/

namespace AbilityFramework.LifecycleMgr

open Library

/-! ## Data -/

inductive ServiceState where
  | stopped
  | starting
  | running
  | failed
  | restarting
  deriving DecidableEq, Repr

structure Probe where
  type : String
  path : String
  port : Int := 0
  failureThreshold : Int := 3
  deriving DecidableEq, Repr

structure HealthCheck where
  liveness : Option Probe
  deriving DecidableEq, Repr

structure ServiceSpec where
  restartPolicy : String := "always"
  maxRestarts : Int := 5
  restartBackoffSeconds : Int := 10
  healthCheck : Option HealthCheck := none
  deriving DecidableEq, Repr

structure ServiceCR where
  id : Uuid
  spec : ServiceSpec
  deriving DecidableEq, Repr

structure ServiceEntry where
  cr : ServiceCR
  executablePath : String
  /-- `none` is the nil id the field is constructed with. -/
  processHandleId : Option Nat := none
  state : ServiceState := .stopped
  restartCount : Int := 0
  consecutiveHealthFailures : Int := 0
  deriving DecidableEq, Repr

inductive ProcessStatus where
  | live
  | exited
  | reaped
  deriving DecidableEq, Repr

structure Process where
  service : Uuid
  status : ProcessStatus
  deriving DecidableEq, Repr

structure Services where
  services : Uuid → Option ServiceEntry
  processes : List Process

/-! ## The manager -/

namespace Services

def setEntry (state : Services) (id : Uuid) (entry : ServiceEntry) : Services :=
  { state with services := Function.update state.services id (some entry) }

/-- `start_process_fn`, when it returns: one more process, live, with the next number. -/
def spawn (state : Services) (id : Uuid) : Services :=
  { state with processes := state.processes ++ [⟨id, .live⟩] }

def setStatus (state : Services) (process : Nat) (status : ProcessStatus) : Services :=
  { state with processes := state.processes.modify process fun old => { old with status } }

end Services

def startService (state : Services) (cr : ServiceCR) (executablePath : String) (spawned : Bool) : Services :=
  let entry : ServiceEntry := { cr, executablePath, state := .starting }
  if spawned then
    (state.spawn cr.id).setEntry cr.id
      { entry with processHandleId := some state.processes.length, state := .running }
  else state.setEntry cr.id { entry with state := .failed }

def stopService (state : Services) (id : Uuid) : Services :=
  match state.services id with
  | none => state
  | some entry => state.setEntry id { entry with state := .stopped }

def shouldRestart (entry : ServiceEntry) (exitCode : Int) : Bool :=
  if entry.cr.spec.restartPolicy = "never" then false
  else if entry.cr.spec.restartPolicy = "on-failure" && exitCode = 0 then false
  else entry.restartCount < entry.cr.spec.maxRestarts

/-- `id` is the key of the entry and the id of its CR.  The backoff is computed and logged; the restart
does not wait for it. -/
def doRestart (state : Services) (id : Uuid) (entry : ServiceEntry) (spawned : Bool) : Services :=
  -- A restart counts whether its spawn succeeds or not.
  let entry := { entry with restartCount := entry.restartCount + 1, state := .restarting }
  if spawned then
    (state.spawn id).setEntry id
      { entry with
        processHandleId := some state.processes.length, state := .running, consecutiveHealthFailures := 0 }
  else state.setEntry id { entry with state := .failed }

def onServiceExit (state : Services) (id : Uuid) (exitCode : Int) (spawned : Bool) : Services :=
  match state.services id with
  | none => state
  | some entry =>
    if entry.state = .stopped then state
    else if shouldRestart entry exitCode then doRestart state id entry spawned
    else state.setEntry id { entry with state := .failed }

/-- `res && res->status >= 200 && res->status < 400`; no response is no status. -/
def probeSucceeds : Option Int → Bool
  | none => false
  | some status => 200 ≤ status && status < 400

/-- The body of the loop of `run_health_checks`, for one entry. -/
def checkHealth (state : Services) (id : Uuid) (response : Option Int) (spawned : Bool) : Services :=
  match state.services id with
  | none => state
  | some entry =>
    if entry.state ≠ .running then state
    else match entry.cr.spec.healthCheck.bind HealthCheck.liveness with
    | none => state
    | some probe =>
      if probe.type = "http" && 0 < probe.port && !probe.path.isEmpty then
        if probeSucceeds response then state.setEntry id { entry with consecutiveHealthFailures := 0 }
        else
          let failures := entry.consecutiveHealthFailures + 1
          if probe.failureThreshold ≤ failures then
            -- The counter is reset before the decision, and stays so if the service has failed for good.
            let entry := { entry with consecutiveHealthFailures := 0 }
            if shouldRestart entry 1 then doRestart state id entry spawned
            else state.setEntry id { entry with state := .failed }
          else state.setEntry id { entry with consecutiveHealthFailures := failures }
      else state

/-- One round, over the map's entries in some order, with the response each probe gets and whether
a restart of it would spawn. -/
def runHealthChecks (state : Services) (order : List (Uuid × Option Int × Bool)) : Services :=
  order.foldl (fun state check => checkHealth state check.1 check.2.1 check.2.2) state

/-! ## The machine -/

inductive ServiceEvent where
  | start (cr : ServiceCR) (executablePath : String) (spawned : Bool)
  /-- `stop_service`, and the caller's kill of the current process. -/
  | stop (id : Uuid)
  /-- A process ends, or is killed from outside; its callback is still to come. -/
  | die (process : Nat)
  /-- The exit callback of a process; `spawned` is for the restart it may cause. -/
  | exit (process : Nat) (exitCode : Int) (spawned : Bool)
  /-- One entry's turn in a health round, which is a run of such events. -/
  | health (id : Uuid) (response : Option Int) (spawned : Bool)
  deriving DecidableEq, Repr

/-- The process the manager has on record for a service. -/
def Services.current (state : Services) (id : Uuid) : Option Nat :=
  (state.services id).bind ServiceEntry.processHandleId

def dieProcess (state : Services) (process : Nat) : Services :=
  if (state.processes[process]?).map Process.status = some .live then state.setStatus process .exited else state

def killCurrent (state : Services) (id : Uuid) : Services :=
  match state.current id with
  | none => state
  | some process => dieProcess state process

def serviceStep (state : Services) : ServiceEvent → Services
  | .start cr executablePath spawned => startService state cr executablePath spawned
  | .stop id => killCurrent (stopService state id) id
  | .die process => dieProcess state process
  | .exit process exitCode spawned =>
    match state.processes[process]? with
    | some ⟨service, .exited⟩ => onServiceExit (state.setStatus process .reaped) service exitCode spawned
    | _ => state
  | .health id response spawned => checkHealth state id response spawned

def noServices : Services := ⟨fun _ => none, []⟩

theorem noServices_services (id : Uuid) (entry : ServiceEntry) : noServices.services id ≠ some entry :=
  (Option.some_ne_none entry).symm

theorem runHealthChecks_eq_run (state : Services) (order : List (Uuid × Option Int × Bool)) :
    runHealthChecks state order =
      Runs.run serviceStep state (order.map fun check => .health check.1 check.2.1 check.2.2) := by
  simp only [runHealthChecks, Runs.run, List.foldl_map, serviceStep]

/-! ## What the updates touch -/

namespace Services

/-- How many processes have been spawned for a service. -/
def spawnCount (state : Services) (id : Uuid) : Nat :=
  state.processes.countP fun process => process.service = id

variable {state : Services} {id other : Uuid} {entry : ServiceEntry} {process : Nat} {status : ProcessStatus}

@[simp] theorem setEntry_self : (state.setEntry id entry).services id = some entry := by
  simp only [setEntry, Function.update_self]

@[simp] theorem setEntry_other (different : other ≠ id) :
    (state.setEntry id entry).services other = state.services other := by
  simp only [setEntry, Function.update_of_ne different]

@[simp] theorem setEntry_processes : (state.setEntry id entry).processes = state.processes := rfl

@[simp] theorem spawn_services : (state.spawn id).services = state.services := rfl

@[simp] theorem spawn_processes : (state.spawn id).processes = state.processes ++ [⟨id, .live⟩] := rfl

@[simp] theorem setStatus_services : (state.setStatus process status).services = state.services := rfl

@[simp] theorem setEntry_spawnCount : (state.setEntry id entry).spawnCount other = state.spawnCount other := rfl

@[simp] theorem spawn_spawnCount :
    (state.spawn id).spawnCount other = state.spawnCount other + if id = other then 1 else 0 := by
  simp only [spawnCount, spawn_processes, List.countP_append, List.countP_singleton, decide_eq_true_eq]

@[simp] theorem setStatus_spawnCount :
    (state.setStatus process status).spawnCount other = state.spawnCount other := by
  simp only [spawnCount, setStatus]
  induction state.processes generalizing process with
  | nil => rw [List.modify_nil]
  | cons first rest inductionHypothesis =>
    cases process with
    | zero => rfl
    | succ process =>
      rw [List.modify_succ_cons, List.countP_cons, List.countP_cons, inductionHypothesis]

/-- Nothing of any service but `id` changes. -/
def Touches (id : Uuid) (before after : Services) : Prop :=
  ∀ other ≠ id, after.services other = before.services other ∧ after.spawnCount other = before.spawnCount other

end Services

/-! ## Probes -/

/-- The liveness probe of a service, if it is one `run_health_checks` can send. -/
def ServiceEntry.liveness (entry : ServiceEntry) : Option Probe :=
  (entry.cr.spec.healthCheck.bind HealthCheck.liveness).filter fun probe =>
    probe.type = "http" && 0 < probe.port && !probe.path.isEmpty

/-- The probe a round sends to the service. -/
def ServiceEntry.probed (entry : ServiceEntry) : Option Probe :=
  if entry.state = .running then entry.liveness else none

theorem ServiceEntry.probed_eq_some_iff {entry : ServiceEntry} {probe : Probe} :
    entry.probed = some probe ↔ entry.state = .running ∧ entry.liveness = some probe := by
  simp only [ServiceEntry.probed, Option.ite_none_right_eq_some]

section Probes

variable {state : Services} {id : Uuid} {entry : ServiceEntry} {probe : Probe} {response : Option Int}
  {spawned : Bool}

theorem checkHealth_absent (absent : state.services id = none) : checkHealth state id response spawned = state := by
  simp only [checkHealth, absent]

theorem checkHealth_unprobed (found : state.services id = some entry) (unprobed : entry.probed = none) :
    checkHealth state id response spawned = state := by
  simp only [checkHealth, found]
  split
  · rfl
  · rename_i running
    have running : entry.state = .running := not_not.mp running
    rw [ServiceEntry.probed, if_pos running, ServiceEntry.liveness] at unprobed
    cases configured : entry.cr.spec.healthCheck.bind HealthCheck.liveness with
    | none => rfl
    | some probe =>
      rw [configured, Option.filter_some, ite_eq_right_iff] at unprobed
      exact if_neg fun sendable => Option.some_ne_none probe (unprobed sendable)

theorem checkHealth_probed (found : state.services id = some entry) (probed : entry.probed = some probe) :
    checkHealth state id response spawned =
      if probeSucceeds response then state.setEntry id { entry with consecutiveHealthFailures := 0 }
      else if probe.failureThreshold ≤ entry.consecutiveHealthFailures + 1 then
        if shouldRestart entry 1 then doRestart state id { entry with consecutiveHealthFailures := 0 } spawned
        else state.setEntry id { entry with consecutiveHealthFailures := 0, state := .failed }
      else state.setEntry id { entry with consecutiveHealthFailures := entry.consecutiveHealthFailures + 1 } := by
  obtain ⟨running, live⟩ := ServiceEntry.probed_eq_some_iff.mp probed
  rw [ServiceEntry.liveness, Option.filter_eq_some_iff] at live
  obtain ⟨configured, sendable⟩ := live
  simp only [checkHealth, found, configured]
  rw [if_neg (not_not.mpr running), if_pos sendable]
  rfl

end Probes

/-- What one step, other than a start, does to a service's entry and to the number of its processes. -/
inductive Turn (old : ServiceEntry) : ServiceEntry → Nat → Prop where
  | kept (new : ServiceEntry) (sameCr : new.cr = old.cr) (sameCount : new.restartCount = old.restartCount)
      (stopped : old.state = .stopped → new.state = .stopped) : Turn old new 0
  | restarted (new : ServiceEntry) (spawns : Nat) (unstopped : old.state ≠ .stopped)
      (budget : old.restartCount < old.cr.spec.maxRestarts) (sameCr : new.cr = old.cr)
      (counted : new.restartCount = old.restartCount + 1) (spawned : spawns ≤ 1) : Turn old new spawns

/-- `after` is `before` with the entry of `id` having had a turn; no entry, no turn. -/
def TakesTurn (id : Uuid) (before after : Services) : Prop :=
  before.services id = none ∧ after.services id = none ∧ after.spawnCount id = before.spawnCount id ∨
    ∃ old new spawns, before.services id = some old ∧ after.services id = some new ∧
      after.spawnCount id = before.spawnCount id + spawns ∧ Turn old new spawns

section Turns

variable {state : Services} {id other : Uuid} {entry new : ServiceEntry}

theorem shouldRestart_budget {exitCode : Int} (restarts : shouldRestart entry exitCode = true) :
    entry.restartCount < entry.cr.spec.maxRestarts := by
  unfold shouldRestart at restarts
  split at restarts
  · cases restarts
  · split at restarts
    · cases restarts
    · exact of_decide_eq_true restarts

theorem takesTurn_of_same {after : Services} (sameEntry : after.services id = state.services id)
    (sameCount : after.spawnCount id = state.spawnCount id) : TakesTurn id state after := by
  cases found : state.services id with
  | none => exact .inl ⟨found, sameEntry.trans found, sameCount⟩
  | some entry =>
    exact .inr ⟨entry, entry, 0, found, sameEntry.trans found, sameCount, .kept entry rfl rfl fun same => same⟩

theorem takesTurn_setEntry (found : state.services id = some entry) (sameCr : new.cr = entry.cr)
    (sameCount : new.restartCount = entry.restartCount)
    (stopped : entry.state = .stopped → new.state = .stopped) :
    TakesTurn id state (state.setEntry id new) :=
  .inr ⟨entry, new, 0, found, Services.setEntry_self, rfl, .kept new sameCr sameCount stopped⟩

/-- A restart, of an entry whose health counter may just have been reset. -/
theorem takesTurn_doRestart (found : state.services id = some entry) (unstopped : entry.state ≠ .stopped)
    (budget : entry.restartCount < entry.cr.spec.maxRestarts) (sameCr : new.cr = entry.cr)
    (sameCount : new.restartCount = entry.restartCount) (spawned : Bool) :
    TakesTurn id state (doRestart state id new spawned) := by
  cases spawned with
  | false =>
    refine .inr ⟨entry, _, 0, found, Services.setEntry_self, rfl, ?_⟩
    exact .restarted _ 0 unstopped budget sameCr (congrArg (· + 1) sameCount) (Nat.zero_le 1)
  | true =>
    refine .inr ⟨entry, _, 1, found, Services.setEntry_self, ?_, ?_⟩
    · simp only [doRestart, if_true, Services.setEntry_spawnCount, Services.spawn_spawnCount]
    · exact .restarted _ 1 unstopped budget sameCr (congrArg (· + 1) sameCount) (Nat.le_refl 1)

theorem takesTurn_onServiceExit (state : Services) (id : Uuid) (exitCode : Int) (spawned : Bool) :
    TakesTurn id state (onServiceExit state id exitCode spawned) := by
  unfold onServiceExit
  cases found : state.services id with
  | none => exact takesTurn_of_same rfl rfl
  | some entry =>
    simp only
    split
    · exact takesTurn_of_same rfl rfl
    · rename_i unstopped
      split
      · rename_i restarts
        exact takesTurn_doRestart found unstopped (shouldRestart_budget restarts) rfl rfl spawned
      · exact takesTurn_setEntry found rfl rfl fun stopped => absurd stopped unstopped

theorem takesTurn_checkHealth (state : Services) (id : Uuid) (response : Option Int) (spawned : Bool) :
    TakesTurn id state (checkHealth state id response spawned) := by
  cases found : state.services id with
  | none =>
    rw [checkHealth_absent found]
    exact takesTurn_of_same rfl rfl
  | some entry =>
    cases probed : entry.probed with
    | none =>
      rw [checkHealth_unprobed found probed]
      exact takesTurn_of_same rfl rfl
    | some probe =>
      have unstopped : entry.state ≠ .stopped := by
        rw [(ServiceEntry.probed_eq_some_iff.mp probed).1]
        decide
      rw [checkHealth_probed found probed]
      split
      · exact takesTurn_setEntry found rfl rfl fun stopped => stopped
      · split
        · split
          · rename_i restarts
            have budget := shouldRestart_budget restarts
            apply takesTurn_doRestart found unstopped budget
            · rfl
            · rfl
          · exact takesTurn_setEntry found rfl rfl fun stopped => absurd stopped unstopped
        · exact takesTurn_setEntry found rfl rfl fun stopped => stopped

/-! ## Other services -/

theorem doRestart_touches (state : Services) (id : Uuid) (entry : ServiceEntry) (spawned : Bool) :
    Services.Touches id state (doRestart state id entry spawned) := by
  intro other different
  cases spawned with
  | false => exact ⟨Services.setEntry_other different, rfl⟩
  | true =>
    refine ⟨Services.setEntry_other different, ?_⟩
    rw [doRestart, if_pos rfl, Services.setEntry_spawnCount, Services.spawn_spawnCount, if_neg different.symm]
    rfl

theorem setEntry_touches (state : Services) (id : Uuid) (entry : ServiceEntry) :
    Services.Touches id state (state.setEntry id entry) :=
  fun _ different => ⟨Services.setEntry_other different, rfl⟩

theorem touches_refl (state : Services) (id : Uuid) : Services.Touches id state state := fun _ _ => ⟨rfl, rfl⟩

theorem onServiceExit_touches (state : Services) (id : Uuid) (exitCode : Int) (spawned : Bool) :
    Services.Touches id state (onServiceExit state id exitCode spawned) := by
  unfold onServiceExit
  split
  · exact touches_refl state id
  · split
    · exact touches_refl state id
    · split
      · exact doRestart_touches state id _ spawned
      · exact setEntry_touches state id _

theorem checkHealth_touches (state : Services) (id : Uuid) (response : Option Int) (spawned : Bool) :
    Services.Touches id state (checkHealth state id response spawned) := by
  unfold checkHealth
  dsimp only
  repeat' split
  all_goals first
    | exact touches_refl state id
    | exact setEntry_touches state id _
    | exact doRestart_touches state id _ spawned

theorem takesTurn_of_touches {after : Services} (touches : Services.Touches id state after)
    (turn : TakesTurn id state after) : TakesTurn other state after := by
  by_cases same : other = id
  · rwa [same]
  · have untouched := touches other same
    exact takesTurn_of_same untouched.1 untouched.2

end Turns

/-! ## Steps -/

def ServiceEvent.Starts (id : Uuid) : ServiceEvent → Prop
  | .start cr _ _ => cr.id = id
  | _ => False

instance (id : Uuid) : (event : ServiceEvent) → Decidable (event.Starts id)
  | .start cr _ _ => inferInstanceAs (Decidable (cr.id = id))
  | .stop _ => isFalse not_false
  | .die _ => isFalse not_false
  | .exit _ _ _ => isFalse not_false
  | .health _ _ _ => isFalse not_false

@[simp] theorem dieProcess_services (state : Services) (process : Nat) :
    (dieProcess state process).services = state.services := by
  unfold dieProcess
  split <;> rfl

@[simp] theorem dieProcess_spawnCount (state : Services) (process : Nat) (id : Uuid) :
    (dieProcess state process).spawnCount id = state.spawnCount id := by
  unfold dieProcess
  split
  · exact Services.setStatus_spawnCount
  · rfl

@[simp] theorem killCurrent_services (state : Services) (id : Uuid) :
    (killCurrent state id).services = state.services := by
  unfold killCurrent
  split
  · rfl
  · exact dieProcess_services state _

@[simp] theorem killCurrent_spawnCount (state : Services) (id other : Uuid) :
    (killCurrent state id).spawnCount other = state.spawnCount other := by
  unfold killCurrent
  split
  · rfl
  · exact dieProcess_spawnCount state _ other

/-- An exit callback does nothing, or reaches the service whose process has exited. -/
theorem serviceStep_exit_cases (state : Services) (process : Nat) (exitCode : Int) (spawned : Bool) :
    serviceStep state (.exit process exitCode spawned) = state ∨
      ∃ service, state.processes[process]? = some ⟨service, .exited⟩ ∧
        serviceStep state (.exit process exitCode spawned) =
          onServiceExit (state.setStatus process .reaped) service exitCode spawned := by
  simp only [serviceStep]
  split
  · rename_i service exited
    exact .inr ⟨service, exited, rfl⟩
  · exact .inl rfl

/-- Whatever happens, short of its being started, a service's entry takes one turn at most. -/
theorem serviceStep_takesTurn (state : Services) (event : ServiceEvent) (id : Uuid)
    (unstarted : ¬ event.Starts id) : TakesTurn id state (serviceStep state event) := by
  cases event with
  | start cr executablePath spawned =>
    -- A start of another service.
    have different : id ≠ cr.id := fun same => unstarted same.symm
    simp only [serviceStep, startService]
    split
    · apply takesTurn_of_same
      · rw [Services.setEntry_other different, Services.spawn_services]
      · rw [Services.setEntry_spawnCount, Services.spawn_spawnCount, if_neg different.symm]
        rfl
    · exact takesTurn_of_same (Services.setEntry_other different) rfl
  | stop stopped =>
    have turn : TakesTurn id state (stopService state stopped) := by
      unfold stopService
      cases found : state.services stopped with
      | none => exact takesTurn_of_same rfl rfl
      | some entry =>
        exact takesTurn_of_touches (setEntry_touches state stopped _)
          (takesTurn_setEntry found rfl rfl fun _ => rfl)
    -- The caller's kill touches the processes only, and none is added.
    simpa only [serviceStep, TakesTurn, killCurrent_services, killCurrent_spawnCount] using turn
  | die process =>
    simp only [serviceStep]
    apply takesTurn_of_same
    · rw [dieProcess_services]
    · rw [dieProcess_spawnCount]
  | exit process exitCode spawned =>
    simp only [serviceStep]
    split
    · rename_i service _
      have turn : TakesTurn id (state.setStatus process .reaped)
          (onServiceExit (state.setStatus process .reaped) service exitCode spawned) :=
        takesTurn_of_touches (onServiceExit_touches _ service exitCode spawned)
          (takesTurn_onServiceExit _ service exitCode spawned)
      -- Reaping the process changes neither the entries nor the number of processes.
      simpa only [TakesTurn, Services.setStatus_services, Services.setStatus_spawnCount] using turn
    · exact takesTurn_of_same rfl rfl
  | health checked response spawned =>
    exact takesTurn_of_touches (checkHealth_touches state checked response spawned)
      (takesTurn_checkHealth state checked response spawned)

end AbilityFramework.LifecycleMgr
