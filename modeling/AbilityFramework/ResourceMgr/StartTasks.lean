import AbilityFramework.LifecycleMgr.HeartbeatMap
import AbilityFramework.MessageBus.SendSync
import AbilityFramework.TaskMgr.WaitOnceTask

/-! # Tasks that start an instance

`prepare_task_start_ability` and `auto_start_ability` put together the sequence that starts an instance: ask the
lifecycle manager to start it, wait until it is up, ask the lifecycle manager to connect it.  Both requests are sent
with `send_sync`, and what comes of them is only logged.

`finishedMeansStarted_iff`: a sequence that finishes is sure to have started its instance exactly if the lifecycle
manager accepts all of its requests. -/

namespace AbilityFramework.ResourceMgr

open Library Library.Runs TaskMgr MessageBus LifecycleMgr

structure LifecycleRequest where
  abilityInstanceId : Uuid
  command : String

/-- What is certain about the start of an instance before it begins. -/
structure InstanceStart where
  /-- The id that `create_ability_instance` makes, or has made. -/
  instanceId : Uuid
  /-- `to_string` of it -/
  idText : String
  /-- What `send_sync` of a `lifecycle_request` returns. -/
  lifecycle : LifecycleRequest → SendResult

/-- What `send_sync` of `get_heartbeat/id` returns. -/
inductive HeartbeatReply where
  | sendFailed (error : Bytes)
  | failed (content : Bytes)
  /-- The content is not a heartbeat, and parsing it throws. -/
  | malformed (what : String)
  | heartbeat (state : Option LifecycleState)

/-- What the world is like at a resume of the sequence. -/
structure Moment where
  now : Int
  /-- `create_ability_instance` throws if the database fails. -/
  createAbilityInstance : Except String Unit
  /-- The column `state` of the row that `get_ability_instance` finds. -/
  getAbilityInstance : Except String (Option String)
  getHeartbeat : HeartbeatReply

def isAbilityRunning : HeartbeatReply → Except String Bool
  | .sendFailed _ | .failed _ => .ok false
  | .malformed what => .error what
  | .heartbeat state => .ok (state.any isActive)

/-! ## Atomic tasks -/

inductive StartBody where
  | createInstance
  | noopStart
  /-- What is logged when the request has failed, and what the task returns anyway. -/
  | lifecycleRequest (command failed : String) (result : Json)

structure AtomicStartTask extends TaskBase (WaitError String) where
  name : String
  body : StartBody
  result : Json := .null
  logged : List Bytes := []

variable (start : InstanceStart)

def taskAction (action : String) : Json :=
  .object [("abilityInstanceId", .string start.idText), ("taskAction", .string action)]

/-- The result of a body, and what it logs. -/
def StartBody.run (moment : Moment) : StartBody → Except String Json × List Bytes
  | .createInstance => (moment.createAbilityInstance.map fun _ => .null, [])
  | .noopStart => (.ok (taskAction start "add instance without starting"), [])
  | .lifecycleRequest command failed result =>
    let res := start.lifecycle { abilityInstanceId := start.instanceId, command }
    -- A failure is only logged, and the task finishes.
    (.ok result, ((onError res).map fun error => bytes failed ++ error).toList)

def AtomicStartTask.resume (task : AtomicStartTask) (moment : Moment) : AtomicStartTask :=
  let task := { task with toTaskBase := task.recordStartTimeIfFirstTry }
  match task.body.run start moment with
  | (.ok result, logged) =>
    { task with toTaskBase := task.recordStatus .finished, result, logged := task.logged ++ logged }
  | (.error what, logged) =>
    { task with toTaskBase := task.recordError (some (.thrown what)), logged := task.logged ++ logged }

def atomicStartTasks : TaskInterface AtomicStartTask Moment (WaitError String) where
  state task := task.state
  error task := task.exception
  result task := task.result
  resume task moment := (.ok (task.resume start moment).state, task.resume start moment)

abbrev StartItem := SequenceItem AtomicStartTask String

abbrev StartSequence := SequentialTask StartItem (WaitError String)

/-! ## The two sequences -/

/-- The sub-tasks, built at the time `now`. -/
def prepareTaskStartAbility (startIt connect : Bool) (now : Int) : List StartItem :=
  let create : StartItem := .other { name := "create-instance", body := .createInstance }
  if !startIt && !connect then [create, .other { name := "noop-start", body := .noopStart }]
  else
    let started : List StartItem := [create, .other {
      name := "start-ability"
      body := .lifecycleRequest "start" "send lifecycle_request start failed: " (taskAction start "start ability") }]
    if !connect then started
    else started ++ [
      -- 30 s, in nanoseconds
      .wait (.build "wait-standby" true 30000000000 now),
      .other {
        name := "connect-ability"
        body := .lifecycleRequest "connect" "send lifecycle_request connect failed: "
          (taskAction start "connect ability") }]

def makeTaskStartAbility (startIt connect : Bool) (now : Int) : StartSequence :=
  .start "auto-start-ability" (prepareTaskStartAbility start startIt connect now)

/-- The task that `auto_start_ability` submits for the instance that it has created. -/
def autoStartTask (now : Int) : StartSequence :=
  .start "lifecycle-adjust" [
    .other { name := "start-ability", body := .lifecycleRequest "start" "lifecycle_request start failed: " .null },
    -- 15 s
    .wait (.build "wait-heartbeat" true 15000000000 now),
    .other { name := "connect-ability", body := .lifecycleRequest "connect" "lifecycle_request connect failed: " .null }]

/-- What "wait-standby" sees of a moment. -/
def standbyInput (moment : Moment) : SequenceInput Moment String where
  now := moment.now
  predicate := moment.getAbilityInstance.map fun state => state.any fun state => state = "Standby" || state = "Running"
  onTimeout := .ok ("wait instance " ++ start.idText ++ " reach Standby timeout")
  other := moment

/-- What "wait-heartbeat" sees of a moment. -/
def heartbeatInput (moment : Moment) : SequenceInput Moment String where
  now := moment.now
  predicate := isAbilityRunning moment.getHeartbeat
  onTimeout := .ok ("wait instance heartbeat " ++ start.idText ++ " timeout ")
  other := moment

def resumeStart : StartSequence → SequenceInput Moment String → StartSequence :=
  SequentialTask.step (itemTasks (atomicStartTasks start))

/-! ## What finishing means -/

/-- The lifecycle manager has responded to the command, and not with an error. -/
def Accepts (command : String) : Prop :=
  ∃ response, start.lifecycle { abilityInstanceId := start.instanceId, command } = .ok response ∧ response.success = true

/-- The lifecycle manager accepts the requests of a sequence that connects the instance or does not. -/
def AcceptsAll (connect : Bool) : Prop := Accepts start "start" ∧ (connect = true → Accepts start "connect")

structure FinishedMeansStarted (connect : Bool) (task : StartSequence) : Prop where
  finished : task.state = .finished → AcceptsAll start connect
  failed : task.state.isEnd = true → task.state ≠ .finished → task.state = .error

variable {start} {connect : Bool} {task : StartSequence}

theorem atomicStartTask_not_cancelled {atomic : AtomicStartTask} (moment : Moment) :
    (atomic.resume start moment).state ≠ .cancelled := by
  simp only [AtomicStartTask.resume]
  split <;> simp only [TaskBase.state_recordStatus, TaskBase.state_recordError, ne_eq, reduceCtorEq, not_false_eq_true]

theorem wait_not_cancelled {wait : WaitOnceTask String} (input : WaitInput String) :
    (wait.resume input).state ≠ .cancelled := by
  by_cases late : input.now > wait.timeoutTime
  · rw [(resume_late late).1]
    intro cancelled
    cases cancelled
  · have answered : Answered wait (wait.resume input) input.predicate := resume_inTime (Int.not_lt.mp late)
    intro cancelled
    cases answer : input.predicate with
    | error error =>
      rw [answer] at answered
      rw [answered.1] at cancelled
      cases cancelled
    | ok holds =>
      rw [answer] at answered
      cases holds <;> rw [answered.1] at cancelled <;> cases cancelled

theorem itemTasks_returnsState : (itemTasks (atomicStartTasks start)).ReturnsState := by
  intro item input state returned
  cases item with
  | other atomic => exact Except.ok.inj returned
  | wait wait => exact Except.ok.inj returned

/-- A sequence of these tasks that has ended without finishing has failed. -/
theorem failed_of_ended (fresh : task.state = .unstarted)
    (freshSubs : ∀ item ∈ task.subs, (itemTasks (atomicStartTasks start)).state item = .unstarted)
    (inputs : List (SequenceInput Moment String)) (ended : (run (resumeStart start) task inputs).state.isEnd = true)
    (unfinished : (run (resumeStart start) task inputs).state ≠ .finished) :
    (run (resumeStart start) task inputs).state = .error := by
  -- Neither atomic tasks nor waits are ever cancelled.
  have kept : ∀ (item : StartItem) input, (itemTasks (atomicStartTasks start)).state item ≠ .cancelled →
      (itemTasks (atomicStartTasks start)).state ((itemTasks (atomicStartTasks start)).resume item input).2 ≠
        .cancelled := by
    intro item input _
    cases item with
    | other atomic => exact atomicStartTask_not_cancelled input.other
    | wait wait => exact wait_not_cancelled input.toWaitInput
  have uncancelled : Uncancelled (itemTasks (atomicStartTasks start)) (run (resumeStart start) task inputs) :=
    run_invariant (Uncancelled _) (step_uncancelled itemTasks_returnsState kept) task
      ⟨by rw [fresh]; nofun, fun item member => by rw [freshSubs item member]; nofun⟩ inputs
  cases isState : (run (resumeStart start) task inputs).state with
  | error => rfl
  | finished => exact absurd isState unfinished
  | cancelled => exact absurd isState uncancelled.state
  | unstarted | running | pending | fine =>
    rw [isState] at ended
    cases ended

/-! ## Starts without delays -/

/-- A moment at which everything but the lifecycle manager does what it is asked for. -/
def smooth (now : Int) : Moment where
  now
  createAbilityInstance := .ok ()
  getAbilityInstance := .ok (some "Standby")
  getHeartbeat := .heartbeat (some .running)

/-- The item finishes when it is first resumed. -/
def Prompt (start : InstanceStart) (item : StartItem) (input : SequenceInput Moment String) : Prop :=
  (itemTasks (atomicStartTasks start)).state item = .unstarted ∧
    ((itemTasks (atomicStartTasks start)).resume item input).1 = .ok .finished

theorem prompt_wait {name : String} {limit built : Int} (notNegative : 0 ≤ limit)
    {input : SequenceInput Moment String} (atOnce : input.now = built) (holds : input.predicate = .ok true) :
    Prompt start (.wait (.build name true limit built)) input := by
  have inTime : input.now ≤ built + limit := by omega
  have answered : Answered (.build name true limit built)
      ((WaitOnceTask.build name true limit built).resume input.toWaitInput) input.predicate := resume_inTime inTime
  rw [holds] at answered
  exact ⟨rfl, congrArg Except.ok answered.1⟩

/-- Whatever the lifecycle manager says to the requests, they finish. -/
theorem prompt_lifecycleRequest (name command failed : String) (result : Json) (input : SequenceInput Moment String) :
    Prompt start (.other { name, body := .lifecycleRequest command failed result }) input := ⟨rfl, rfl⟩

theorem prompt_createInstance {input : SequenceInput Moment String}
    (created : input.other.createAbilityInstance = .ok ()) :
    Prompt start (.other { name := "create-instance", body := .createInstance }) input := by
  refine ⟨rfl, ?_⟩
  simp only [itemTasks, atomicStartTasks, AtomicStartTask.resume, StartBody.run, created]
  rfl

theorem unstarted_of_prompt {items : List StartItem} {inputs : List (SequenceInput Moment String)}
    (prompt : List.Forall₂ (Prompt start) items inputs) :
    ∀ item ∈ items, (itemTasks (atomicStartTasks start)).state item = .unstarted := by
  induction prompt with
  | nil => exact fun item member => absurd member List.not_mem_nil
  | cons first _ inductionHypothesis => exact List.forall_mem_cons.mpr ⟨first.1, inductionHypothesis⟩

/-- A sequence finishes in a course in which its tasks are prompt, whatever the answers to its requests are. -/
theorem finishedMeansStarted_iff_of_prompt {name : String} {items : List StartItem}
    {inputOf : Moment → SequenceInput Moment String} {moments : List Moment}
    (prompt : List.Forall₂ (Prompt start) items (moments.map inputOf)) (some : items ≠ []) :
    (∀ moments : List Moment,
        FinishedMeansStarted start connect (run (resumeStart start) (.start name items) (moments.map inputOf))) ↔
      AcceptsAll start connect := by
  constructor
  · intro meansStarted
    -- In this course the sequence finishes, whatever the answers are.
    apply (meansStarted moments).finished
    exact finished_of_prompt some rfl rfl prompt
  · intro accepted moments
    exact ⟨fun _ => accepted, failed_of_ended rfl (unstarted_of_prompt prompt) (moments.map inputOf)⟩

theorem prompt_autoStart (start : InstanceStart) (built : Int) :
    List.Forall₂ (Prompt start) (autoStartTask built).subs
      ((List.replicate 3 (smooth built)).map (heartbeatInput start)) :=
  .cons (prompt_lifecycleRequest _ _ _ _ _) <| .cons (prompt_wait (by omega) rfl rfl) <|
    .cons (prompt_lifecycleRequest _ _ _ _ _) .nil

theorem prompt_connect (start : InstanceStart) (startIt : Bool) (built : Int) :
    List.Forall₂ (Prompt start) (prepareTaskStartAbility start startIt true built)
      ((List.replicate 4 (smooth built)).map (standbyInput start)) := by
  have prepared : prepareTaskStartAbility start startIt true built = prepareTaskStartAbility start true true built := by
    cases startIt <;> rfl
  rw [prepared]
  exact .cons (prompt_createInstance rfl) <| .cons (prompt_lifecycleRequest _ _ _ _ _) <|
    .cons (prompt_wait (by omega) rfl rfl) <| .cons (prompt_lifecycleRequest _ _ _ _ _) .nil

theorem prompt_start (start : InstanceStart) (built : Int) :
    List.Forall₂ (Prompt start) (prepareTaskStartAbility start true false built)
      ((List.replicate 2 (smooth built)).map (standbyInput start)) :=
  .cons (prompt_createInstance rfl) <| .cons (prompt_lifecycleRequest _ _ _ _ _) .nil

/-- For every answer of the lifecycle manager, a sequence that finishes has started its instance in every course of
the world exactly if its requests are accepted. -/
theorem finishedMeansStarted_iff (start : InstanceStart) (built : Int) :
    (∀ startIt connect, startIt = true ∨ connect = true →
      ((∀ moments : List Moment, FinishedMeansStarted start connect
          (run (resumeStart start) (makeTaskStartAbility start startIt connect built)
            (moments.map (standbyInput start)))) ↔
        AcceptsAll start connect)) ∧
      ((∀ moments : List Moment, FinishedMeansStarted start true
          (run (resumeStart start) (autoStartTask built) (moments.map (heartbeatInput start)))) ↔
        AcceptsAll start true) := by
  refine ⟨fun startIt connect wanted => ?_, finishedMeansStarted_iff_of_prompt (prompt_autoStart start built) nofun⟩
  cases connect with
  | true => exact finishedMeansStarted_iff_of_prompt (prompt_connect start startIt built) (by cases startIt <;> nofun)
  | false =>
    obtain rfl : startIt = true := by simpa using wanted
    exact finishedMeansStarted_iff_of_prompt (prompt_start start built) nofun

/-- An instance with a lifecycle manager that gives this answer to every request. -/
def answered (answer : SendResult) : InstanceStart where
  instanceId := 7
  idText := "00000000-0000-0000-0000-000000000007"
  lifecycle _ := answer

def taskIdResponse : Message where
  source := bytes "LifecycleMgr"
  destination := bytes "ResourceMgr"
  operation := bytes "lifecycle_request"
  content := bytes "\"6b2a0d0e-5d0f-4a35-9a0c-3c2f8d1f4e11\""

theorem accepted_meansStarted : Accepts (answered (.ok taskIdResponse)) "connect" ∧
    ∀ moments : List Moment, FinishedMeansStarted (answered (.ok taskIdResponse)) true
      (run (resumeStart (answered (.ok taskIdResponse)))
        (makeTaskStartAbility (answered (.ok taskIdResponse)) true true 0)
        (moments.map (standbyInput (answered (.ok taskIdResponse))))) :=
  ⟨⟨taskIdResponse, rfl, rfl⟩, ((finishedMeansStarted_iff (answered (.ok taskIdResponse)) 0).1 true true (.inl rfl)).mpr
    ⟨⟨taskIdResponse, rfl, rfl⟩, fun _ => ⟨taskIdResponse, rfl, rfl⟩⟩⟩

/-- The request is not answered in time, and the task that has not started the instance finishes. -/
theorem unanswered_finishes : ¬ ∀ moments : List Moment,
    FinishedMeansStarted (answered (.error (bytes "timeout"))) false
      (run (resumeStart (answered (.error (bytes "timeout"))))
        (makeTaskStartAbility (answered (.error (bytes "timeout"))) true false 0)
        (moments.map (standbyInput (answered (.error (bytes "timeout")))))) := by
  intro meansStarted
  have finishes : (run (resumeStart (answered (.error (bytes "timeout"))))
      (makeTaskStartAbility (answered (.error (bytes "timeout"))) true false 0)
      ((List.replicate 2 (smooth 0)).map (standbyInput (answered (.error (bytes "timeout")))))).state = .finished :=
    finished_of_prompt (List.cons_ne_nil _ _) rfl rfl (prompt_start (answered (.error (bytes "timeout"))) 0)
  obtain ⟨⟨response, accepted, _⟩, _⟩ := (meansStarted (List.replicate 2 (smooth 0))).finished finishes
  cases accepted

end AbilityFramework.ResourceMgr
