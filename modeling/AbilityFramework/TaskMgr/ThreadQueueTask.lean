import AbilityFramework.Library.Utf8
import AbilityFramework.TaskMgr.TaskInterface

/-! # Work on the thread queue

The work of a `ThreadQueueWorkTask` is done by a worker of the event loop's thread pool, while the loop goes on
resuming the task.  The worker also records the states that the task comes to, and it is `noexcept`: an exception that
leaves one of its `catch` clauses ends the process.

`terminated_iff`: a task ends the process exactly if the worker gets to record an exception that is no
`std::exception`, or one whose text is no UTF-8.
`reports_once`: any other task records that it runs and then, once, how its work has come out. -/

namespace AbilityFramework.TaskMgr

open Library Library.Runs

variable {Outcome : Type}

inductive WorkError where
  /-- A `std::exception`, with the text that it was made of. -/
  | exception (text : ByteText)
  | other

/-- `message()` reads a C string from `what()`.  It does not catch what is no `std::exception`. -/
def TaskBase.message (base : TaskBase WorkError) : Except WorkError ByteText :=
  match base.exception with
  | none => .ok []
  | some (.exception text) => .ok text.cString
  | some .other => .error .other

/-- What `dump()` throws for a text that is no UTF-8. -/
def invalidUtf8 : WorkError := .exception (.ofString "[json.exception.type_error.316] invalid UTF-8 byte")

/-- `record_task_status`, which puts the message into a JSON text. -/
def TaskBase.tryRecord (base : TaskBase WorkError) : Except WorkError (TaskBase WorkError) :=
  match base.message with
  | .ok message => if message.IsUtf8 then .ok base.recordTaskStatus else .error invalidUtf8
  | .error error => .error error

/-- Where the request that the task has queued stands. -/
inductive WorkRequest where
  | idle
  /-- Waits for a worker, or the worker is at work. -/
  | queued
  /-- The work is done, and `set_state` comes next. -/
  | complete
  | recording
  /-- In a `catch` clause; `set_error` comes next. -/
  | caught (error : WorkError)
  | recordingError
  | done

structure ThreadQueueWorkTask where
  base : TaskBase WorkError := {}
  request : WorkRequest := .idle
  /-- What the resumes have returned. -/
  returned : List TaskState := []
  terminated : Bool := false

inductive WorkEvent (Outcome : Type) where
  | resume
  /-- The work comes out so. -/
  | works (outcome : Outcome)
  /-- The worker does its next statement. -/
  | advance

def WorkEvent.isAdvance : WorkEvent Outcome → Bool
  | .advance => true
  | .resume | .works _ => false

namespace ThreadQueueWorkTask

def answer (task : ThreadQueueWorkTask) (state : TaskState) : ThreadQueueWorkTask :=
  { task with returned := task.returned ++ [state] }

/-- The end of `resume()`. -/
def state (task : ThreadQueueWorkTask) : TaskState :=
  if task.base.exception.isSome then .error else task.base.state

def resume (task : ThreadQueueWorkTask) : ThreadQueueWorkTask :=
  let base := { task.base with started := true }
  if base.state = .unstarted then
    let running := base.setState .running
    match running.tryRecord with
    | .ok recorded => { task with base := recorded, request := .queued }.answer .running
    | .error error =>
      match (running.setError (some error)).tryRecord with
      | .ok recorded => { task with base := recorded }.answer .error
      | .error _ => { task with base := running.setError (some error), terminated := true }
  else { task with base }.answer task.state

def advance (task : ThreadQueueWorkTask) : ThreadQueueWorkTask :=
  match task.request with
  | .complete => { task with base := task.base.setState .finished, request := .recording }
  | .recording =>
    match task.base.tryRecord with
    | .ok recorded => { task with base := recorded, request := .done }
    | .error error => { task with request := .caught error }
  | .caught error => { task with base := task.base.setError (some error), request := .recordingError }
  | .recordingError =>
    match task.base.tryRecord with
    | .ok recorded => { task with base := recorded, request := .done }
    | .error _ => { task with terminated := true }
  | .idle | .queued | .done => task

/-- The work is done, or has thrown. -/
def workEnds (task : ThreadQueueWorkTask) (thrown : Option WorkError) : ThreadQueueWorkTask :=
  match task.request, thrown with
  | .queued, none => { task with request := .complete }
  | .queued, some error => { task with request := .caught error }
  | _, _ => task

/-- `work` gives what the work throws. -/
def step (work : Outcome → Option WorkError) (task : ThreadQueueWorkTask) (event : WorkEvent Outcome) :
    ThreadQueueWorkTask :=
  if task.terminated then task
  else
    match event with
    | .resume => task.resume
    | .works outcome => task.workEnds (work outcome)
    | .advance => task.advance

/-! ## How the work comes out -/

/-- The worker can record the exception. -/
def Reportable : WorkError → Prop
  | .exception text => text.cString.IsUtf8
  | .other => False

instance : (error : WorkError) → Decidable (Reportable error)
  | .exception text => inferInstanceAs (Decidable text.cString.IsUtf8)
  | .other => isFalse id

/-- The task has been resumed, and its work is not done. -/
def running : TaskBase WorkError := { state := .running, started := true, recorded := [.running] }

/-- The task when the work has come out and the worker has done so many statements since. -/
def worked : Option WorkError → Nat → ThreadQueueWorkTask
  | none, 0 => { base := running, request := .complete }
  | none, 1 => { base := running.setState .finished, request := .recording }
  | none, _ + 2 => { base := running.recordStatus .finished, request := .done }
  | some error, 0 => { base := running, request := .caught error }
  | some error, 1 => { base := running.setError (some error), request := .recordingError }
  | some error, _ + 2 =>
    if Reportable error then { base := running.recordError (some error), request := .done }
    else { base := running.setError (some error), request := .recordingError, terminated := true }

/-- Only what the resumes have returned may be otherwise. -/
def Stands (expected task : ThreadQueueWorkTask) : Prop := task = { expected with returned := task.returned }

variable {work : Outcome → Option WorkError} {task : ThreadQueueWorkTask} {thrown : Option WorkError} {count : Nat}
  {error : WorkError} {events before more : List (WorkEvent Outcome)} {outcome : Outcome}

/-- The message is empty then. -/
theorem tryRecord_ok {base : TaskBase WorkError} (unfailed : base.exception = none) :
    base.tryRecord = .ok base.recordTaskStatus := by
  have readable : ByteText.IsUtf8 [] := by decide
  simp only [TaskBase.tryRecord, TaskBase.message, unfailed, readable, if_true]

theorem tryRecord_error : (running.setError (some error)).tryRecord =
    if Reportable error then .ok (running.recordError (some error))
    else .error (match error with | .exception _ => invalidUtf8 | .other => .other) := by
  cases error with
  | exception text => rfl
  | other => rfl

theorem resume_started (started : task.base.started = true) (begun : task.base.state ≠ .unstarted) :
    task.resume = task.answer task.state := by
  obtain ⟨base, request, returned, terminated⟩ := task
  obtain ⟨state, exception, _, recorded⟩ := base
  subst started
  rw [resume, if_neg begun]

theorem begun_worked (thrown : Option WorkError) (count : Nat) :
    (worked thrown count).base.started = true ∧ (worked thrown count).base.state ≠ .unstarted := by
  match thrown, count with
  | none, 0 | none, 1 | none, _ + 2 | some _, 0 | some _, 1 =>
    simp [worked, running, TaskBase.setState, TaskBase.setError, TaskBase.recordStatus, TaskBase.recordTaskStatus]
  | some error, _ + 2 =>
    simp only [worked]
    split_ifs <;> simp [running, TaskBase.setError, TaskBase.recordError, TaskBase.recordTaskStatus]

theorem advance_worked (alive : (worked thrown count).terminated = false) :
    (worked thrown count).advance = worked thrown (count + 1) := by
  match thrown, count with
  | none, 0 | none, _ + 2 | some _, 0 => rfl
  | none, 1 =>
    have recorded : (running.setState .finished).tryRecord = .ok (running.recordStatus .finished) := tryRecord_ok rfl
    simp only [worked, advance, recorded]
  | some error, 1 =>
    simp only [worked, advance, tryRecord_error]
    split_ifs <;> rfl
  | some error, _ + 2 =>
    by_cases reportable : Reportable error
    · simp only [worked, if_pos reportable, advance]
    · simp [worked, reportable] at alive

theorem worked_terminated (terminated : (worked thrown count).terminated = true) :
    worked thrown (count + 1) = worked thrown count := by
  match thrown, count with
  | none, 0 | none, 1 | none, _ + 2 | some _, 0 | some _, 1 => cases terminated
  | some error, _ + 2 => rfl

theorem notQueued_worked (thrown : Option WorkError) (count : Nat) : (worked thrown count).request ≠ .queued := by
  match thrown, count with
  | none, 0 | none, 1 | none, _ + 2 | some _, 0 | some _, 1 => simp [worked]
  | some error, _ + 2 =>
    simp only [worked]
    split_ifs <;> simp

theorem advance_returned (task : ThreadQueueWorkTask) (returned : List TaskState) :
    { task with returned }.advance = { task.advance with returned } := by
  obtain ⟨base, request, _, terminated⟩ := task
  cases request with
  | idle | queued | complete | caught | done => rfl
  | recording | recordingError =>
    simp only [advance]
    split <;> rfl

theorem step_terminated (terminated : task.terminated = true) (event : WorkEvent Outcome) :
    step work task event = task :=
  if_pos terminated

theorem step_alive (alive : task.terminated = false) (event : WorkEvent Outcome) :
    step work task event =
      match event with
      | .resume => task.resume
      | .works outcome => task.workEnds (work outcome)
      | .advance => task.advance := by
  simp only [step, alive, Bool.false_eq_true, if_false]

theorem workEnds_out (isOut : task.request ≠ .queued) (thrown : Option WorkError) : task.workEnds thrown = task := by
  unfold workEnds
  split
  · contradiction
  · contradiction
  · rfl

theorem resume_out (stands : Stands (worked thrown count) task) : task.resume = task.answer task.state := by
  obtain ⟨started, begun⟩ := begun_worked thrown count
  apply resume_started
  · rw [stands]
    exact started
  · rw [stands]
    exact begun

/-- One more step once the work has come out. -/
theorem stands_step (stands : Stands (worked thrown count) task) (event : WorkEvent Outcome) :
    Stands (worked thrown (count + if event.isAdvance then 1 else 0)) (step work task event) := by
  by_cases terminated : (worked thrown count).terminated = true
  · have ends : task.terminated = true := by
      rw [stands]
      exact terminated
    rw [step_terminated ends]
    split_ifs
    · rwa [worked_terminated terminated]
    · exact stands
  · have alive : task.terminated = false := by
      rw [stands]
      exact Bool.eq_false_iff.mpr terminated
    have isOut : task.request ≠ .queued := by
      rw [stands]
      exact notQueued_worked thrown count
    cases event with
    | resume =>
      rw [step_alive alive]
      simp only [resume_out stands]
      rw [stands]
      exact rfl
    | works outcome =>
      rw [step_alive alive]
      simp only [workEnds_out isOut]
      exact stands
    | advance =>
      rw [step_alive alive]
      simp only
      rw [stands, advance_returned, advance_worked (Bool.eq_false_iff.mpr terminated)]
      rfl

/-- Once the work has come out, the worker's statements alone decide how the task stands. -/
theorem stands_run (stands : Stands (worked thrown 0) task) (events : List (WorkEvent Outcome)) :
    Stands (worked thrown (events.countP WorkEvent.isAdvance)) (run (step work) task events) := by
  apply run_history fun task (events : List (WorkEvent Outcome)) =>
    Stands (worked thrown (events.countP WorkEvent.isAdvance)) task
  · intro task events event before
    rw [List.countP_append, List.countP_singleton]
    exact stands_step before event
  · exact stands

theorem stands_works (stands : Stands { base := running, request := .queued } task) (outcome : Outcome) :
    Stands (worked (work outcome) 0) (step work task (.works outcome)) := by
  rw [stands, step_alive rfl]
  simp only [workEnds]
  cases work outcome with
  | none => exact rfl
  | some error => exact rfl

/-- Until the work comes out, the task waits. -/
theorem stands_queued (work : Outcome → Option WorkError)
    (stands : Stands { base := running, request := .queued } task) (event : WorkEvent Outcome) :
    Stands { base := running, request := .queued } (step work task event) ∨
      ∃ outcome, event = .works outcome ∧ Stands (worked (work outcome) 0) (step work task event) := by
  cases event with
  | works outcome => exact .inr ⟨outcome, rfl, stands_works stands outcome⟩
  | resume | advance =>
    rw [stands]
    exact .inl rfl

/-- A task that has not been resumed has nothing to work on. -/
theorem step_idle (work : Outcome → Option WorkError) (event : WorkEvent Outcome) :
    step work {} event = {} ∨ Stands { base := running, request := .queued } (step work {} event) := by
  cases event with
  | resume =>
    have recorded : (({ started := true } : TaskBase WorkError).setState .running).tryRecord = .ok running :=
      tryRecord_ok rfl
    right
    rw [step_alive rfl]
    simp only [resume, if_true, recorded]
    exact rfl
  | works outcome => exact .inl rfl
  | advance => exact .inl rfl

/-! ## Runs -/

/-- How a run has come to where the task is. -/
inductive Reached (work : Outcome → Option WorkError) (task : ThreadQueueWorkTask) : List (WorkEvent Outcome) → Prop where
  | idle {events : List (WorkEvent Outcome)} (isNew : task = {}) : Reached work task events
  | queued {events : List (WorkEvent Outcome)} (stands : Stands { base := running, request := .queued } task) :
      Reached work task events
  | worked (before more : List (WorkEvent Outcome)) (outcome : Outcome)
      (waits : (run (step work) {} before).request = .queued)
      (stands : Stands (worked (work outcome) (more.countP WorkEvent.isAdvance)) task) :
      Reached work task (before ++ .works outcome :: more)

theorem reached_run (work : Outcome → Option WorkError) (events : List (WorkEvent Outcome)) :
    Reached work (run (step work) {} events) events := by
  induction events using List.reverseRecOn with
  | nil => exact .idle rfl
  | append_singleton events event inductionHypothesis =>
    rw [run_concat]
    cases inductionHypothesis with
    | idle isNew =>
      rw [isNew]
      obtain same | queued := step_idle work event
      · exact .idle same
      · exact .queued queued
    | queued stands =>
      obtain queued | ⟨outcome, rfl, out⟩ := stands_queued work stands event
      · exact .queued queued
      · refine .worked events [] outcome ?_ out
        rw [stands]
    | worked before more outcome waits stands =>
      rw [List.append_assoc, List.cons_append]
      apply Reached.worked before (more ++ [event]) outcome waits
      rw [List.countP_append, List.countP_singleton]
      exact stands_step stands event

/-- A task that waits for its work has not got further. -/
theorem stands_waits (waits : (run (step work) {} before).request = .queued) :
    Stands { base := running, request := .queued } (run (step work) {} before) := by
  cases reached_run work before with
  | idle isNew =>
    rw [isNew] at waits
    cases waits
  | queued stands => exact stands
  | worked earlier more outcome _ stands =>
    rw [stands] at waits
    exact absurd waits (notQueued_worked _ _)

theorem stands_out (waits : (run (step work) {} before).request = .queued) :
    Stands (worked (work outcome) (more.countP WorkEvent.isAdvance))
      (run (step work) {} (before ++ .works outcome :: more)) := by
  rw [run_append, run_cons]
  exact stands_run (stands_works (stands_waits waits) outcome) more

theorem terminated_worked : (worked thrown count).terminated = true ↔
    2 ≤ count ∧ ∃ error, thrown = some error ∧ ¬ Reportable error := by
  match thrown, count with
  | none, 0 | none, 1 | none, _ + 2 | some _, 0 | some _, 1 => simp [worked]
  | some error, _ + 2 =>
    simp only [worked]
    split_ifs with reportable <;> simp [reportable]

/-- In every run the task ends the process exactly if its work has thrown what cannot be recorded, and the worker has
got to recording it. -/
theorem terminated_iff (work : Outcome → Option WorkError) (events : List (WorkEvent Outcome)) :
    (run (step work) {} events).terminated = true ↔
      ∃ before outcome error more, events = before ++ .works outcome :: more ∧
        (run (step work) {} before).request = .queued ∧ work outcome = some error ∧ ¬ Reportable error ∧
        2 ≤ more.countP WorkEvent.isAdvance := by
  constructor
  · intro terminated
    cases reached_run work events with
    | idle isNew =>
      rw [isNew] at terminated
      cases terminated
    | queued stands =>
      rw [stands] at terminated
      cases terminated
    | worked before more outcome waits stands =>
      rw [stands] at terminated
      obtain ⟨far, error, throws, unreportable⟩ := terminated_worked.mp terminated
      exact ⟨before, outcome, error, more, rfl, waits, throws, unreportable, far⟩
  · intro split
    obtain ⟨before, outcome, error, more, rfl, waits, throws, unreportable, far⟩ := split
    rw [stands_out waits]
    exact terminated_worked.mpr ⟨far, error, throws, unreportable⟩

/-- How a task ends whose work has come out so. -/
def finalState (thrown : Option WorkError) : TaskState := if thrown.isSome then .error else .finished

theorem recorded_worked (alive : (worked thrown count).terminated = false) :
    (worked thrown count).base.recorded = .running :: (if 2 ≤ count then [finalState thrown] else []) ∧
      (worked thrown count).state = if count = 0 then .running else finalState thrown := by
  match thrown, count with
  | none, 0 | none, 1 | none, _ + 2 | some _, 0 | some _, 1 => exact ⟨rfl, rfl⟩
  | some error, _ + 2 =>
    have reportable : Reportable error := by
      by_contra unreportable
      simp [worked, unreportable] at alive
    simp only [worked, if_pos reportable]
    exact ⟨rfl, rfl⟩

/-- In every run in which the task does not end the process, it records that it runs and, once the worker has done
two statements, how the work has come out, and nothing else; a resume returns that from the first statement on, and
`running` before it and while the work is under way. -/
theorem reports_once (waits : (run (step work) {} before).request = .queued)
    (alive : (run (step work) {} (before ++ .works outcome :: more)).terminated = false) :
    let waiting := run (step work) {} before
    let after := run (step work) {} (before ++ .works outcome :: more)
    (waiting.base.recorded = [.running] ∧ (step work waiting .resume).returned = waiting.returned ++ [.running]) ∧
      after.base.recorded =
        .running :: (if 2 ≤ more.countP WorkEvent.isAdvance then [finalState (work outcome)] else []) ∧
      (step work after .resume).returned =
        after.returned ++ [if more.countP WorkEvent.isAdvance = 0 then .running else finalState (work outcome)] := by
  intro waiting after
  have queued : Stands { base := running, request := .queued } waiting := stands_waits waits
  have stands : Stands (worked (work outcome) (more.countP WorkEvent.isAdvance)) after := stands_out waits
  have aliveOut : (worked (work outcome) (more.countP WorkEvent.isAdvance)).terminated = false :=
    (congrArg ThreadQueueWorkTask.terminated stands).symm.trans alive
  obtain ⟨recorded, state⟩ := recorded_worked aliveOut
  have resumed : step work after .resume = after.answer after.state :=
    (step_alive alive .resume).trans (resume_out stands)
  have sameState : after.state = (worked (work outcome) (more.countP WorkEvent.isAdvance)).state := by
    rw [stands]
    rfl
  refine ⟨⟨?_, ?_⟩, ?_, ?_⟩
  · rw [queued]
    rfl
  · rw [queued]
    rfl
  · rw [stands]
    exact recorded
  · rw [resumed, answer, sameState, state]

/-- Work that throws an exception with a text. -/
def failing (text : ByteText) : Option WorkError := some (.exception text)

theorem reports_once_failing :
    let waiting := run (step failing) {} [.resume]
    let after := run (step failing) {} ([.resume] ++ .works (.ofString "timeout") :: [.advance, .resume, .advance])
    (waiting.base.recorded = [.running] ∧
        (step failing waiting .resume).returned = waiting.returned ++ [.running]) ∧ after.base.recorded = [.running, .error] ∧
      (step failing after .resume).returned = after.returned ++ [.error] := by
  have alive : (run (step failing) {}
      ([.resume] ++ .works (.ofString "timeout") :: [.advance, .resume, .advance])).terminated = false := by decide
  exact reports_once rfl alive

end ThreadQueueWorkTask

end AbilityFramework.TaskMgr
