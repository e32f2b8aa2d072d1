import AbilityFramework.Library.WorkerPool

/-! # The bus thread pool

`send_sync` puts a message into the queue of `BusThreadPool(2)` and waits for the reply; a worker takes
it out and runs the destination's `on_receive`.  A `BasicModule` runs each handler under its
`m_msg_handler`, once the operation is found and the contents are parsed.  The handler of
`lifecycle_request` calls `send_sync` itself, from inside a worker and under that mutex.

The pool is kept going by at most one worker at a time being a LifecycleMgr handler with a call to make
(`busThreadPool_unstuck_iff`); nothing in the bus sees to that, and two requests are enough to stop
it. -/

namespace AbilityFramework.MessageBus

open Library.Runs Library.WorkerPool

/-! ## Modules and operations -/

inductive Module where
  | lifecycleMgr
  | resourceMgr
  | taskMgr
  | subprocessMgr
  | taskStatusMgr
  | controllerMgr
deriving DecidableEq

inductive Operation where
  -- LifecycleMgr
  | lifecycleRequest (command : String)
  | getHeartbeat
  | runningAbilities
  -- ResourceMgr
  | heartbeatEvent
  | findAbilityStorageInfo
  | findAbilityInstance
  | getAbility
  | findParent
  | abilityInstanceExited
  -- TaskMgr
  | addTaskJson
  | makeTaskJson
  | addTaskRaw
  | addTaskFactoryRaw
  -- SubprocessMgr
  | startProcess
  | startController
  -- TaskStatusMgr
  | taskStatusEvent
deriving DecidableEq

def Operation.destination : Operation → Module
  | .lifecycleRequest _ | .getHeartbeat | .runningAbilities => .lifecycleMgr
  | .heartbeatEvent | .findAbilityStorageInfo | .findAbilityInstance | .getAbility | .findParent
  | .abilityInstanceExited => .resourceMgr
  | .addTaskJson | .makeTaskJson | .addTaskRaw | .addTaskFactoryRaw => .taskMgr
  | .startProcess | .startController => .subprocessMgr
  | .taskStatusEvent => .taskStatusMgr

/-- The modules derived from `BasicModule`. -/
def Module.isBasicModule : Module → Bool
  | .lifecycleMgr | .resourceMgr => true
  | .taskMgr | .subprocessMgr | .taskStatusMgr | .controllerMgr => false

/-- A message of `send_sync`: one that names an operation of its destination, with contents that parse
or do not, or one that does not (`err_invalid_operation`). -/
inductive Request where
  | named (operation : Operation) (parses : Bool)
  | invalid (destination : Module)
deriving DecidableEq

def Request.destination : Request → Module
  | .named operation _ => operation.destination
  | .invalid destination => destination

/-- `running_abilities` is the one query without contents, so the one that has nothing to parse. -/
def Request.refused : Request → Bool
  | .named .runningAbilities _ => false
  | .named _ parses => !parses
  | .invalid _ => true

/-- The `m_msg_handler` that the handler of a request runs under. -/
def Request.msgHandlerMutex (request : Request) : Option Module :=
  if request.destination.isBasicModule then some request.destination else none

/-- The messages `on_lifecycle_request` sends one after the other.  Each may be the last: the ability
is active already, or it is not, or the reply before reports a failure. -/
def onLifecycleRequest (command : String) : List Request :=
  if command = "start" then
    [.named .findAbilityInstance true, .named .findAbilityStorageInfo true,
      .named .addTaskRaw true]
  else [.named .addTaskRaw true]

def Request.sendSyncCalls : Request → List Request
  | .named (.lifecycleRequest command) _ => onLifecycleRequest command
  | _ => []

def modules : Service Request Module where
  refused := Request.refused
  mutex := Request.msgHandlerMutex
  calls := Request.sendSyncCalls

/-- The number of workers that `BusThreadPool` is constructed with. -/
abbrev busThreads : Nat := 2

abbrev BusThreadPool := Pool Request busThreads

abbrev BusEvent := Event Request busThreads

/-! ## Only LifecycleMgr handlers call the bus -/

theorem modules_guarded : Guarded modules .lifecycleMgr where
  callers := by
    intro request calls
    match request with
    | .named (.lifecycleRequest _) _ => rfl
  callees := by
    intro request called isCall
    match request with
    | .named (.lifecycleRequest command) _ =>
      have fromHandler : called ∈ onLifecycleRequest command := isCall
      unfold onLifecycleRequest at fromHandler
      split_ifs at fromHandler
      · simp only [List.mem_cons, List.not_mem_nil, or_false] at fromHandler
        obtain rfl | rfl | rfl := fromHandler <;> decide
      · obtain rfl := List.mem_singleton.mp fromHandler
        decide

/-! ## When the pool goes on -/

/-- No worker takes a LifecycleMgr message while the other waits for the reply to a message that is
still queued, and no handler makes a call while the other worker waits for LifecycleMgr's mutex. -/
def SparesLifecycleMgr (pool : BusThreadPool) : BusEvent → Prop
  | .dequeue worker => ∀ job queue, pool.workers worker = .idle → pool.queue = job :: queue →
      job.request.refused = false → job.request.destination = .lifecycleMgr →
      ∀ other, other ≠ worker → ¬ Starved pool other
  | .call worker => ∀ job request calls, pool.workers worker = .handling job (request :: calls) →
      ∀ other, other ≠ worker → ¬ AtMutex modules .lifecycleMgr pool other
  | _ => True

theorem msgHandlerMutex_lifecycleMgr (request : Request) :
    request.msgHandlerMutex = some .lifecycleMgr ↔ request.destination = .lifecycleMgr := by
  unfold Request.msgHandlerMutex
  cases request.destination <;> simp [Module.isBasicModule]

theorem otherWorker_unique :
    ∀ worker first second : Fin busThreads, first ≠ worker → second ≠ worker → first = second := by
  decide

theorem sparesLifecycleMgr_iff (pool : BusThreadPool) (event : BusEvent) :
    SparesLifecycleMgr pool event ↔ Spares modules .lifecycleMgr pool event := by
  cases event with
  | dequeue worker =>
    constructor
    · rintro spares job queue free queued accepted needs ⟨caller, starved, _⟩
      have callerOther : caller ≠ worker := by
        rintro rfl
        obtain ⟨_, _, waits, _⟩ := starved
        rw [free] at waits
        cases waits
      have toLifecycleMgr := (msgHandlerMutex_lifecycleMgr job.request).mp needs
      exact spares job queue free queued accepted toLifecycleMgr caller callerOther starved
    · intro spares job queue free queued accepted toLifecycleMgr caller callerOther starved
      have needs := (msgHandlerMutex_lifecycleMgr job.request).mpr toLifecycleMgr
      refine spares job queue free queued accepted needs ⟨caller, starved, ?_⟩
      intro third notCaller notWorker
      exact absurd (otherWorker_unique worker third caller notWorker callerOther) notCaller
  | call worker =>
    constructor
    · intro spares job request calls handles others
      obtain ⟨other, different⟩ := exists_ne worker
      exact spares job request calls handles other different (others other different)
    · intro spares job request calls handles other different waits
      refine spares job request calls handles ?_
      intro another alsoDifferent
      rw [otherWorker_unique worker another other alsoDifferent different]
      exact waits
  | enqueue | lock | reply | finish | throw | answer => exact Iff.rfl

/-- The bus is never stuck, and always able to go on with its work, exactly in the runs whose steps
spare LifecycleMgr. -/
theorem busThreadPool_unstuck_iff (events : List BusEvent) :
    Always (step modules) (fun pool => ¬ Stuck modules pool ∧ (Unfinished pool → CanMove modules pool))
        Pool.idle events ↔
      EachStep (step modules) SparesLifecycleMgr Pool.idle events := by
  have same : SparesLifecycleMgr = Spares modules .lifecycleMgr := by
    funext pool event
    exact propext (sparesLifecycleMgr_iff pool event)
  rw [same]
  exact unstuck_iff modules_guarded 0 events

/-! ## Two requests stop the bus -/

def startRequest : Request := .named (.lifecycleRequest "start") true

/-- The second `lifecycle_request` is taken between the first one's mutex and its first call. -/
def twoStarts : List BusEvent :=
  [.enqueue startRequest, .enqueue startRequest, .dequeue 0, .lock 0, .dequeue 1, .call 0]

theorem twoStarts_stuck :
    ¬ Always (step modules) (fun pool => ¬ Stuck modules pool ∧ (Unfinished pool → CanMove modules pool))
      Pool.idle twoStarts := by
  intro always
  have stuck : Stuck modules (run (step modules) Pool.idle twoStarts) := by decide
  have unstuck := (always_iff_prefixes _ _).mp always twoStarts [] (List.append_nil _).symm
  exact unstuck.1 stuck

end AbilityFramework.MessageBus
