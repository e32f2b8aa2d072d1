import Mathlib.Logic.Function.Basic
import AbilityFramework.Library.Json
import AbilityFramework.Library.Runs

/-! # Tasks and task factories

A task acts on a world, in steps whose outcomes the world outside decides.  `TaskRun` is a task with the
state it is in and the world it acts on; each outcome lets it go on by one `resume`, until it has ended.
`TaskFactories` is the registry from which `POST /api/task` builds tasks. -/

namespace AbilityFramework.TaskMgr

open Library Library.Runs

variable {World Outcome Error : Type}

inductive TaskState where
  | unstarted
  | running
  | pending
  | fine
  | finished
  | error
  | cancelled
  deriving DecidableEq, Repr

def TaskState.isEnd (state : TaskState) : Bool :=
  state = .finished || state = .error || state = .cancelled

/-- A task that does its work in one go. -/
structure AtomicTask (World Outcome Error : Type) where
  name : String
  task : World → Outcome → Except Error Unit × World

/-- The tasks built here: one atomic task, or several in sequence. -/
inductive Task (World Outcome Error : Type) where
  | atomic (task : AtomicTask World Outcome Error)
  | sequence (name : String) (subs : List (AtomicTask World Outcome Error)) (current : Nat)

structure TaskRun (World Outcome Error : Type) where
  task : Task World Outcome Error
  state : TaskState
  world : World

def TaskRun.start (task : Task World Outcome Error) (world : World) : TaskRun World Outcome Error :=
  ⟨task, .unstarted, world⟩

@[simp] theorem TaskRun.state_start (task : Task World Outcome Error) (world : World) :
    (TaskRun.start task world).state = .unstarted := rfl

def AtomicTask.resume (task : AtomicTask World Outcome Error) (world : World) (outcome : Outcome) :
    TaskState × World :=
  match task.task world outcome with
  | (.ok (), world) => (.finished, world)
  | (.error _, world) => (.error, world)

/-- A sequence resumes the sub-task it is at, and moves on when that has finished. -/
def resume (run : TaskRun World Outcome Error) (outcome : Outcome) : TaskRun World Outcome Error :=
  match run.task with
  | .atomic task =>
    let (state, world) := task.resume run.world outcome
    ⟨run.task, state, world⟩
  | .sequence name subs current =>
    match subs[current]? with
    | none => { run with state := .finished }
    | some sub =>
      match sub.resume run.world outcome with
      | (.finished, world) =>
        ⟨.sequence name subs (current + 1), if current + 1 ≥ subs.length then .finished else .running, world⟩
      | (_, world) => { run with state := .error, world := world }

/-- An ended task is not resumed again. -/
def taskStep (run : TaskRun World Outcome Error) (outcome : Outcome) : TaskRun World Outcome Error :=
  if run.state.isEnd then run else resume run outcome

def Task.subs : Task World Outcome Error → List (AtomicTask World Outcome Error)
  | .atomic task => [task]
  | .sequence _ subs _ => subs

theorem world_resume {holds : World → Prop} {sub : AtomicTask World Outcome Error} {world : World}
    {outcome : Outcome} (kept : holds (sub.task world outcome).2) : holds (sub.resume world outcome).2 := by
  unfold AtomicTask.resume
  cases result : sub.task world outcome with
  | mk value next =>
    rw [result] at kept
    cases value <;> exact kept

theorem subs_taskStep (run : TaskRun World Outcome Error) (outcome : Outcome) :
    (taskStep run outcome).task.subs = run.task.subs := by
  unfold taskStep resume
  split
  · rfl
  · split
    · rfl
    · rename_i name subs current isSequence
      split
      · rfl
      · split
        · simp only [isSequence, Task.subs]
        · rfl

/-- What every sub-task keeps, a step of the task keeps. -/
theorem world_taskStep {holds : World → Prop} {run : TaskRun World Outcome Error} (outcome : Outcome)
    (kept : ∀ sub ∈ run.task.subs, ∀ world outcome, holds world → holds (sub.task world outcome).2)
    (before : holds run.world) : holds (taskStep run outcome).world := by
  unfold taskStep resume
  split
  · exact before
  · split
    · rename_i sub isAtomic
      rw [isAtomic] at kept
      exact world_resume (kept sub List.mem_cons_self _ _ before)
    · rename_i name subs current isSequence
      rw [isSequence] at kept
      split
      · exact before
      · rename_i sub found
        -- Whatever the sub-task comes to, it leaves the world in the task's.
        have after := world_resume (kept sub (List.mem_of_getElem? found) run.world outcome before)
        split
        · rename_i world resumed
          rwa [resumed] at after
        · rename_i state world _ resumed
          rwa [resumed] at after

/-- What every sub-task keeps, the task keeps. -/
theorem world_of_subs {holds : World → Prop} {task : Task World Outcome Error}
    (kept : ∀ sub ∈ task.subs, ∀ world outcome, holds world → holds (sub.task world outcome).2)
    {world : World} (initially : holds world) (outcomes : List Outcome) :
    holds (run taskStep (.start task world) outcomes).world := by
  have invariant : (run taskStep (.start task world) outcomes).task.subs = task.subs ∧
      holds (run taskStep (.start task world) outcomes).world := by
    refine run_invariant (fun later : TaskRun World Outcome Error => later.task.subs = task.subs ∧ holds later.world) ?_ _
      ⟨rfl, initially⟩ outcomes
    intro later outcome before
    refine ⟨(subs_taskStep later outcome).trans before.1, world_taskStep outcome ?_ before.2⟩
    rw [before.1]
    exact kept
  exact invariant.2

/-! ## Factories -/

/-- A factory may look at the world, throws where the parameters are not valid, and may return an empty
pointer. -/
abbrev TaskFactory (World Outcome Error : Type) := World → Json → Except Error (Option (Task World Outcome Error))

/-- `TaskManager::task_factories` -/
abbrev TaskFactories (World Outcome Error : Type) := String → Option (TaskFactory World Outcome Error)

def addTaskFactory (factories : TaskFactories World Outcome Error) (taskType : String)
    (factory : Option (TaskFactory World Outcome Error)) :
    Except String Unit × TaskFactories World Outcome Error :=
  match factory with
  | none => (.error ("adding empty factory for " ++ taskType), factories)
  | some factory => (.ok (), Function.update factories taskType (some factory))

/-- A factory added later replaces one of the same type. -/
@[simp] theorem addTaskFactory_self (factories : TaskFactories World Outcome Error) (taskType : String)
    (factory : TaskFactory World Outcome Error) :
    (addTaskFactory factories taskType (some factory)).2 taskType = some factory :=
  Function.update_self ..

@[simp] theorem addTaskFactory_of_ne (factories : TaskFactories World Outcome Error) {taskType other : String}
    (factory : TaskFactory World Outcome Error) (different : other ≠ taskType) :
    (addTaskFactory factories taskType (some factory)).2 other = factories other :=
  Function.update_of_ne different ..

inductive CreateTaskError (Error : Type) where
  /-- need 'task_type' -/
  | needTaskType
  /-- need 'task_type' be string -/
  | taskTypeNotString
  /-- unknown task type -/
  | unknownTaskType (taskType : String)
  /-- during creating task of type …, factory returned empty taskptr -/
  | emptyTask (taskType : String)
  | json (error : Json.Error)
  | factory (error : Error)

/-- The task that `POST /api/task` adds for a body. -/
def createTask (factories : TaskFactories World Outcome Error) (world : World) (body : Json) :
    Except (CreateTaskError Error) (Task World Outcome Error) :=
  match body.find "task_type" with
  | none => .error .needTaskType
  | some taskTypeJson =>
    if !taskTypeJson.isString then .error .taskTypeNotString
    else match taskTypeJson.getString, body.value "payload" .ok .null with
    | .error error, _ => .error (.json error)
    | _, .error error => .error (.json error)
    | .ok taskType, .ok payload =>
      match factories taskType with
      | none => .error (.unknownTaskType taskType)
      | some factory =>
        match factory world payload with
        | .error error => .error (.factory error)
        | .ok none => .error (.emptyTask taskType)
        | .ok (some task) => .ok task

/-- A body with a registered type gets the task its factory makes of the payload. -/
theorem createTask_eq_ok {factories : TaskFactories World Outcome Error} {world : World}
    {taskType : String} {payload : Json} {task : Task World Outcome Error} :
    createTask factories world (.object [("task_type", .string taskType), ("payload", payload)]) = .ok task ↔
      ∃ factory, factories taskType = some factory ∧ factory world payload = .ok (some task) := by
  have typeFound : (Json.object [("task_type", .string taskType), ("payload", payload)]).find "task_type" =
      some (.string taskType) := rfl
  have payloadFound : (Json.object [("task_type", .string taskType), ("payload", payload)]).value
      "payload" Except.ok Json.null = .ok payload := rfl
  simp only [createTask, typeFound, payloadFound, Json.isString, Json.getString]
  cases factories taskType with
  | none => simp
  | some factory =>
    cases made : factory world payload with
    | error error => simp [made]
    | ok result => cases result <;> simp [made]

end AbilityFramework.TaskMgr
