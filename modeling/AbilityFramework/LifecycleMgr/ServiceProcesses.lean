import AbilityFramework.LifecycleMgr.ServiceLifecycle

/-! # One process a service

A service should have at most one live process, and the exit of a process that a later start or
restart has replaced should not matter to it.  The manager keeps neither by itself: a start or a
failed probe spawns beside a process that is still live, and an exit callback knows the service but not
the process it speaks of.  `services_goodStep_iff` says exactly which steps do no harm.

The invariant behind it: the live process of a service, if it has one, is the one the manager has on
record (`Services.current`), unless it has none on record. -/

namespace AbilityFramework.LifecycleMgr

open Library

/-! ## Live processes -/

namespace Services

def Live (state : Services) (id : Uuid) (process : Nat) : Prop :=
  state.processes[process]? = some ⟨id, .live⟩

variable {state after : Services} {id other : Uuid} {process old : Nat} {entry : ServiceEntry}
  {status : ProcessStatus}

theorem Live.lt (live : state.Live id process) : process < state.processes.length := by
  obtain ⟨inside, _⟩ := List.getElem?_eq_some_iff.mp live
  exact inside

theorem live_spawn : (state.spawn id).Live other process ↔
    state.Live other process ∨ other = id ∧ process = state.processes.length := by
  simp only [Live, spawn_processes]
  by_cases inside : process < state.processes.length
  · rw [List.getElem?_append_left inside]
    refine ⟨.inl, fun live => live.resolve_right fun last => ?_⟩
    omega
  · rw [List.getElem?_append_right (by omega), List.getElem?_singleton, List.getElem?_eq_none (by omega)]
    by_cases last : process = state.processes.length
    · simp [last, eq_comm]
    · have beyond : process - state.processes.length ≠ 0 := by omega
      simp [last, beyond]

theorem live_setStatus (dead : status ≠ .live) :
    (state.setStatus old status).Live id process ↔ state.Live id process ∧ process ≠ old := by
  simp only [Live, setStatus, List.getElem?_modify]
  by_cases same : old = process
  · simp [same, dead]
  · simp [same, Ne.symm same]

@[simp] theorem live_setEntry : (state.setEntry other entry).Live id process ↔ state.Live id process := Iff.rfl

theorem live_dieProcess (live : (dieProcess state old).Live id process) : state.Live id process := by
  unfold dieProcess at live
  split at live
  · exact ((live_setStatus (by decide)).mp live).1
  · exact live

/-! ## The process on record -/

theorem current_setEntry : (state.setEntry id entry).current other =
    if other = id then entry.processHandleId else state.current other := by
  by_cases same : other = id
  · simp [current, same]
  · simp [current, same]

/-- An entry whose handle stays what it was changes nothing on record. -/
theorem current_setEntry_same (same : entry.processHandleId = state.current id) :
    (state.setEntry id entry).current other = state.current other := by
  rw [current_setEntry]
  split
  · rename_i sameId
    rw [same, sameId]
  · rfl

theorem current_of_services (same : after.services = state.services) :
    after.current id = state.current id := by
  rw [current, same, current]

theorem current_eq (found : state.services id = some entry) : state.current id = entry.processHandleId := by
  rw [current, found, Option.bind_some]

end Services

def OneLive (state : Services) : Prop :=
  ∀ id first second, state.Live id first → state.Live id second → first = second

/-- Of the processes of a service, only the one on record can be live. -/
structure OnRecord (state : Services) : Prop where
  oneLive : OneLive state
  recorded : ∀ id process live, state.current id = some process → state.Live id live → live = process

section Preservation

variable {state after : Services} {id : Uuid} {entry : ServiceEntry}

/-- Processes may end and records be lost, as long as none is made. -/
theorem OnRecord.shrink (onRecord : OnRecord state)
    (fewer : ∀ id process, after.Live id process → state.Live id process)
    (oldRecord : ∀ id process, after.current id = some process → state.current id = some process) :
    OnRecord after where
  oneLive id first second liveFirst liveSecond :=
    onRecord.oneLive id first second (fewer id first liveFirst) (fewer id second liveSecond)
  recorded id process live current isLive :=
    onRecord.recorded id process live (oldRecord id process current) (fewer id live isLive)

/-- A spawn for a service without a live process puts the new process on record. -/
theorem OnRecord.spawn (onRecord : OnRecord state) (none : ∀ process, ¬ state.Live id process)
    (handle : entry.processHandleId = some state.processes.length) :
    OnRecord ((state.spawn id).setEntry id entry) where
  oneLive other first second liveFirst liveSecond := by
    rw [Services.live_setEntry, Services.live_spawn] at liveFirst liveSecond
    obtain liveFirst | ⟨sameId, lastFirst⟩ := liveFirst
    · obtain liveSecond | ⟨rfl, _⟩ := liveSecond
      · exact onRecord.oneLive other first second liveFirst liveSecond
      · exact absurd liveFirst (none first)
    · obtain liveSecond | ⟨_, lastSecond⟩ := liveSecond
      · exact absurd (sameId ▸ liveSecond) (none second)
      · exact lastFirst.trans lastSecond.symm
  recorded other process live current isLive := by
    rw [Services.current_setEntry] at current
    rw [Services.live_setEntry, Services.live_spawn] at isLive
    split at current
    · rename_i same
      rw [handle, Option.some.injEq] at current
      obtain isLive | ⟨_, last⟩ := isLive
      · exact absurd (same ▸ isLive) (none live)
      · exact last.trans current
    · rename_i different
      obtain isLive | ⟨same, _⟩ := isLive
      · exact onRecord.recorded other process live current isLive
      · exact absurd same different

/-- A spawn beside a live process leaves two. -/
theorem not_oneLive_spawn {process : Nat} (live : state.Live id process) :
    ¬ OneLive ((state.spawn id).setEntry id entry) := by
  intro oneLive
  -- The new process has the next number, so it is another one than the live one.
  have spawned : ((state.spawn id).setEntry id entry).Live id state.processes.length := by
    rw [Services.live_setEntry, Services.live_spawn]
    exact .inr ⟨rfl, rfl⟩
  have kept : ((state.spawn id).setEntry id entry).Live id process := by
    rw [Services.live_setEntry, Services.live_spawn]
    exact .inl live
  have same := oneLive id process _ kept spawned
  have inside := live.lt
  omega

end Preservation

/-! ## Steps that do no harm -/

/-- The exit of a process that a later start or restart has replaced leaves its service's entry alone. -/
def ReplacedIgnored (state : Services) : ServiceEvent → Prop
  | .exit process exitCode spawned => ∀ id, state.processes[process]? = some ⟨id, .exited⟩ →
      state.current id ≠ some process →
      (serviceStep state (.exit process exitCode spawned)).services id = state.services id
  | _ => True

/-- What is wanted of a step. -/
def GoodStep (state : Services) (event : ServiceEvent) : Prop :=
  OneLive (serviceStep state event) ∧ ReplacedIgnored state event

/-- The probe that `run_health_checks` would restart the service on. -/
def restartsOnHealth (state : Services) (id : Uuid) (response : Option Int) : Bool :=
  match state.services id with
  | none => false
  | some entry =>
    if entry.state ≠ .running then false
    else match entry.cr.spec.healthCheck.bind HealthCheck.liveness with
    | none => false
    | some probe =>
      if probe.type = "http" && 0 < probe.port && !probe.path.isEmpty then
        if probeSucceeds response then false
        else if probe.failureThreshold ≤ entry.consecutiveHealthFailures + 1 then shouldRestart entry 1
        else false
      else false

/-- The condition: nothing is spawned by a start or a failed probe beside a live process, and the exit
of a replaced process finds its service stopped, or failed for good. -/
def Harmless (state : Services) : ServiceEvent → Prop
  | .start cr _ spawned => spawned = true → ∀ process, ¬ state.Live cr.id process
  | .stop _ => True
  | .die _ => True
  | .exit process exitCode _ => ∀ id entry, state.processes[process]? = some ⟨id, .exited⟩ →
      state.services id = some entry → entry.processHandleId ≠ some process →
      entry.state = .stopped ∨ entry.state = .failed ∧ shouldRestart entry exitCode = false
  | .health id response spawned =>
    restartsOnHealth state id response = true → spawned = true → ∀ process, ¬ state.Live id process

section Events

variable {state : Services}

theorem checkHealth_cases (state : Services) (id : Uuid) (response : Option Int) (spawned : Bool) :
    (restartsOnHealth state id response = true ∧ ∃ entry, state.services id = some entry ∧
        checkHealth state id response spawned =
          doRestart state id { entry with consecutiveHealthFailures := 0 } spawned) ∨
      restartsOnHealth state id response = false ∧
        (checkHealth state id response spawned = state ∨ ∃ new, new.processHandleId = state.current id ∧
          checkHealth state id response spawned = state.setEntry id new) := by
  unfold checkHealth restartsOnHealth
  cases found : state.services id with
  | none => exact .inr ⟨rfl, .inl rfl⟩
  | some entry =>
    have handle := (Services.current_eq found).symm
    simp only
    split
    · exact .inr ⟨rfl, .inl rfl⟩
    · cases entry.cr.spec.healthCheck.bind HealthCheck.liveness with
      | none => exact .inr ⟨rfl, .inl rfl⟩
      | some probe =>
        simp only
        split
        · split
          · refine .inr ⟨rfl, .inr ⟨_, ?_, rfl⟩⟩
            exact handle
          · split
            · -- The counter that has just been reset plays no part in whether to restart.
              have reset : shouldRestart { entry with consecutiveHealthFailures := 0 } 1 =
                  shouldRestart entry 1 := rfl
              rw [reset]
              cases shouldRestart entry 1 with
              | true => exact .inl ⟨rfl, entry, rfl, rfl⟩
              | false =>
                refine .inr ⟨rfl, .inr ⟨_, ?_, rfl⟩⟩
                exact handle
            · refine .inr ⟨rfl, .inr ⟨_, ?_, rfl⟩⟩
              exact handle
        · exact .inr ⟨rfl, .inl rfl⟩

/-! ### Start -/

theorem start_exact (onRecord : OnRecord state) (cr : ServiceCR) (executablePath : String) (spawned : Bool) :
    GoodStep state (.start cr executablePath spawned) ↔ Harmless state (.start cr executablePath spawned) := by
  refine (and_iff_left trivial).trans ?_
  cases spawned with
  | false => exact iff_of_true onRecord.oneLive nofun
  | true =>
    refine ⟨fun oneLive _ process live => not_oneLive_spawn live oneLive, fun harmless => ?_⟩
    exact (onRecord.spawn (harmless rfl) rfl).oneLive

theorem start_onRecord (onRecord : OnRecord state) (cr : ServiceCR) (executablePath : String) (spawned : Bool)
    (harmless : Harmless state (.start cr executablePath spawned)) :
    OnRecord (serviceStep state (.start cr executablePath spawned)) := by
  cases spawned with
  | true => exact onRecord.spawn (harmless rfl) rfl
  | false =>
    apply onRecord.shrink
    · intro id process live
      exact live
    · intro id process current
      simp only [serviceStep, startService, Bool.false_eq_true, if_false, Services.current_setEntry] at current
      split at current
      · cases current
      · exact current

/-! ### Stop and death -/

theorem dieProcess_onRecord (onRecord : OnRecord state) (process : Nat) : OnRecord (dieProcess state process) := by
  apply onRecord.shrink
  · intro id live
    exact Services.live_dieProcess
  · intro id old current
    rwa [Services.current_of_services (dieProcess_services state process)] at current

theorem stop_onRecord (onRecord : OnRecord state) (id : Uuid) : OnRecord (serviceStep state (.stop id)) := by
  have stopped : OnRecord (stopService state id) := by
    unfold stopService
    cases found : state.services id with
    | none => exact onRecord
    | some entry =>
      apply onRecord.shrink
      · intro other process live
        exact live
      · intro other process current
        simp only at current
        rwa [Services.current_setEntry_same] at current
        exact (Services.current_eq found).symm
  simp only [serviceStep, killCurrent]
  split
  · exact stopped
  · exact dieProcess_onRecord stopped _

/-! ### Restart -/

/-- A restart is harmless exactly if it spawns beside no live process. -/
theorem doRestart_onRecord (onRecord : OnRecord state) {id : Uuid} {entry : ServiceEntry} {spawned : Bool}
    (handle : entry.processHandleId = state.current id)
    (alone : spawned = true → ∀ process, ¬ state.Live id process) :
    OnRecord (doRestart state id entry spawned) := by
  cases spawned with
  | true => exact onRecord.spawn (alone rfl) rfl
  | false =>
    apply onRecord.shrink
    · intro other process live
      exact live
    · intro other process current
      rwa [doRestart, if_neg (by decide), Services.current_setEntry_same] at current
      exact handle

theorem not_oneLive_doRestart {id : Uuid} {process : Nat} (live : state.Live id process)
    (entry : ServiceEntry) : ¬ OneLive (doRestart state id entry true) :=
  not_oneLive_spawn live

/-! ### Health -/

theorem health_onRecord (onRecord : OnRecord state) (id : Uuid) (response : Option Int) (spawned : Bool)
    (harmless : Harmless state (.health id response spawned)) :
    OnRecord (serviceStep state (.health id response spawned)) := by
  simp only [serviceStep]
  obtain ⟨restarts, entry, found, result⟩ | ⟨_, result | ⟨new, handle, result⟩⟩ :=
    checkHealth_cases state id response spawned
  · rw [result]
    exact doRestart_onRecord onRecord (Services.current_eq found).symm (harmless restarts)
  · rwa [result]
  · rw [result]
    apply onRecord.shrink
    · intro other process live
      exact live
    · intro other process current
      rwa [Services.current_setEntry_same handle] at current

theorem health_exact (onRecord : OnRecord state) (id : Uuid) (response : Option Int) (spawned : Bool) :
    GoodStep state (.health id response spawned) ↔ Harmless state (.health id response spawned) := by
  refine (and_iff_left trivial).trans ?_
  refine ⟨fun oneLive => ?_, fun harmless => (health_onRecord onRecord id response spawned harmless).oneLive⟩
  intro restarts isSpawned process live
  obtain ⟨_, entry, _, result⟩ | ⟨stays, _⟩ := checkHealth_cases state id response spawned
  · rw [serviceStep, result, isSpawned] at oneLive
    exact not_oneLive_doRestart live _ oneLive
  · rw [stays] at restarts
    cases restarts

/-! ### Exit -/

/-- The exit of a process that is not exited yet, or has been reported already, is no event at all. -/
theorem exit_ignored {process : Nat} (exitCode : Int) (spawned : Bool)
    (ignored : ∀ id, state.processes[process]? ≠ some ⟨id, .exited⟩) :
    serviceStep state (.exit process exitCode spawned) = state := by
  -- Every status but `exited` falls through the match.
  simp only [serviceStep]

theorem exit_delivered {process : Nat} {id : Uuid} (exitCode : Int) (spawned : Bool)
    (exited : state.processes[process]? = some ⟨id, .exited⟩) :
    serviceStep state (.exit process exitCode spawned) =
      onServiceExit (state.setStatus process .reaped) id exitCode spawned := by
  simp only [serviceStep, exited]

theorem reaped_onRecord (onRecord : OnRecord state) (process : Nat) :
    OnRecord (state.setStatus process .reaped) := by
  apply onRecord.shrink
  · intro id other live
    exact ((Services.live_setStatus (by decide)).mp live).1
  · intro id other current
    exact current

/-- After the exit of the process on record its service has no live process. -/
theorem none_live_of_exited (onRecord : OnRecord state) {process : Nat} {id : Uuid} (current : state.current id = some process)
    (other : Nat) : ¬ (state.setStatus process .reaped).Live id other := by
  intro live
  rw [Services.live_setStatus (by decide)] at live
  exact live.2 (onRecord.recorded id process other current live.1)

theorem exit_onRecord (onRecord : OnRecord state) (process : Nat) (exitCode : Int) (spawned : Bool)
    (harmless : Harmless state (.exit process exitCode spawned)) :
    OnRecord (serviceStep state (.exit process exitCode spawned)) := by
  by_cases delivered : ∃ id, state.processes[process]? = some ⟨id, .exited⟩
  · obtain ⟨id, exited⟩ := delivered
    rw [exit_delivered exitCode spawned exited]
    have reaped := reaped_onRecord onRecord process
    generalize atExit : state.setStatus process .reaped = after at reaped
    unfold onServiceExit
    cases found : after.services id with
    | none => exact reaped
    | some entry =>
      have found' : state.services id = some entry := by rw [← found, ← atExit, Services.setStatus_services]
      have handle := (Services.current_eq found).symm
      simp only
      split
      · exact reaped
      · rename_i unstopped
        split
        · rename_i restarts
          -- Only the process on record can still cause a restart, and it was the live one.
          have current : entry.processHandleId = some process := by
            by_contra replaced
            obtain stopped | ⟨_, final⟩ := harmless id entry exited found' replaced
            · exact unstopped stopped
            · rw [final] at restarts
              cases restarts
          refine doRestart_onRecord reaped handle fun _ => ?_
          rw [← atExit]
          exact none_live_of_exited onRecord ((Services.current_eq found').trans current)
        · apply reaped.shrink
          · intro other process live
            exact live
          · intro other process current
            rwa [Services.current_setEntry_same] at current
            exact handle
  · rw [exit_ignored exitCode spawned fun id exited => delivered ⟨id, exited⟩]
    exact onRecord

/-- A restart counts, whether or not its spawn succeeds. -/
theorem doRestart_counts (state : Services) (id : Uuid) (entry : ServiceEntry) (spawned : Bool) :
    ∃ new, (doRestart state id entry spawned).services id = some new ∧ new.restartCount = entry.restartCount + 1 := by
  cases spawned with
  | false => exact ⟨_, Services.setEntry_self, rfl⟩
  | true => exact ⟨_, Services.setEntry_self, rfl⟩

/-- An exit leaves the entry of a service as it was exactly if it was stopped or had failed for good. -/
theorem onServiceExit_unchanged_iff {id : Uuid} {entry : ServiceEntry} (found : state.services id = some entry)
    (exitCode : Int) (spawned : Bool) :
    (onServiceExit state id exitCode spawned).services id = some entry ↔
      entry.state = .stopped ∨ entry.state = .failed ∧ shouldRestart entry exitCode = false := by
  rw [onServiceExit, found]
  by_cases stopped : entry.state = .stopped
  · simp only [stopped, if_true, true_or, iff_true]
    exact found
  · simp only [stopped, if_false, false_or]
    cases restarts : shouldRestart entry exitCode with
    | true =>
      obtain ⟨new, isNew, counted⟩ := doRestart_counts state id entry spawned
      simp only [if_true, Bool.true_eq_false, and_false, iff_false, isNew, Option.some.injEq]
      intro same
      rw [same] at counted
      omega
    | false =>
      simp only [Bool.false_eq_true, if_false, Services.setEntry_self, Option.some.injEq, and_true]
      constructor
      · intro unchanged
        exact (congrArg ServiceEntry.state unchanged).symm
      · intro failed
        rw [← failed]

theorem exit_exact (onRecord : OnRecord state) (process : Nat) (exitCode : Int) (spawned : Bool) :
    GoodStep state (.exit process exitCode spawned) ↔ Harmless state (.exit process exitCode spawned) := by
  constructor
  · intro good id entry exited found replaced
    have unchanged := good.2 id exited (by rwa [Services.current_eq found])
    rw [exit_delivered exitCode spawned exited, found] at unchanged
    have reaped : (state.setStatus process .reaped).services id = some entry := found
    exact (onServiceExit_unchanged_iff reaped exitCode spawned).mp unchanged
  · intro harmless
    refine ⟨(exit_onRecord onRecord process exitCode spawned harmless).oneLive, ?_⟩
    intro id exited replaced
    rw [exit_delivered exitCode spawned exited]
    cases found : state.services id with
    | none =>
      rw [onServiceExit, Services.setStatus_services, found]
      exact found
    | some entry =>
      rw [Services.current_eq found] at replaced
      have reaped : (state.setStatus process .reaped).services id = some entry := found
      exact (onServiceExit_unchanged_iff reaped exitCode spawned).mpr (harmless id entry exited found replaced)

end Events

/-! ## Runs -/

theorem step_onRecord (state : Services) (event : ServiceEvent) (onRecord : OnRecord state)
    (harmless : Harmless state event) : OnRecord (serviceStep state event) := by
  cases event with
  | start cr executablePath spawned => exact start_onRecord onRecord cr executablePath spawned harmless
  | stop id => exact stop_onRecord onRecord id
  | die process => exact dieProcess_onRecord onRecord process
  | exit process exitCode spawned => exact exit_onRecord onRecord process exitCode spawned harmless
  | health id response spawned => exact health_onRecord onRecord id response spawned harmless

theorem goodStep_iff (state : Services) (event : ServiceEvent) (onRecord : OnRecord state) :
    GoodStep state event ↔ Harmless state event := by
  cases event with
  | start cr executablePath spawned => exact start_exact onRecord cr executablePath spawned
  | stop id =>
    refine (and_iff_left trivial).trans ?_
    exact iff_of_true (stop_onRecord onRecord id).oneLive trivial
  | die process =>
    refine (and_iff_left trivial).trans ?_
    exact iff_of_true (dieProcess_onRecord onRecord process).oneLive trivial
  | exit process exitCode spawned => exact exit_exact onRecord process exitCode spawned
  | health id response spawned => exact health_exact onRecord id response spawned

theorem onRecord_noServices : OnRecord noServices where
  oneLive _ _ _ live := nomatch live
  recorded _ _ _ current := nomatch current

/-- Over every run: each step leaves at most one live process a service and lets no replaced process
change an entry, if and only if each step is harmless. -/
theorem services_goodStep_iff (events : List ServiceEvent) :
    Runs.EachStep serviceStep GoodStep noServices events ↔
      Runs.EachStep serviceStep Harmless noServices events :=
  Runs.eachStep_exact OnRecord step_onRecord goodStep_iff noServices onRecord_noServices events

/-- Start, stop, start again; then the first process's exit arrives. -/
def lateExit : List ServiceEvent :=
  [.start ⟨7, {}⟩ "svc" true, .stop 7, .start ⟨7, {}⟩ "svc" true, .exit 0 (-1) true]

theorem lateExit_two_live : ¬ OneLive (Runs.run serviceStep noServices lateExit) := by
  intro oneLive
  exact absurd (oneLive 7 1 2 rfl rfl) (by decide)

end AbilityFramework.LifecycleMgr
