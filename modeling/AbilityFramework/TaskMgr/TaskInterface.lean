import AbilityFramework.TaskMgr.Task

/-! # Tasks that others resume

`TaskInterface` is what a composite task knows of its sub-tasks, whatever they are and whatever they do when
they are resumed.  `TaskBase` is what every task keeps about itself.  A composite's history says which of its
sub-tasks were resumed, and what came of it. -/

namespace AbilityFramework.TaskMgr

open Library

/-- A resume gives the new state or throws.  `Input` is what the world decides meanwhile. -/
structure TaskInterface (Sub Input Error : Type) where
  state : Sub → TaskState
  error : Sub → Option Error
  result : Sub → Json
  resume : Sub → Input → Except Error TaskState × Sub

/-- The value that a resume returns is the new state of the task. -/
def TaskInterface.ReturnsState {Sub Input Error : Type} (tasks : TaskInterface Sub Input Error) : Prop :=
  ∀ sub input state, (tasks.resume sub input).1 = .ok state → tasks.state (tasks.resume sub input).2 = state

/-- Sub-tasks that come to the states that the world decides. -/
def toldStates {Error : Type} : TaskInterface TaskState TaskState Error where
  state := id
  error _ := none
  result _ := .null
  resume _ input := (.ok input, input)

structure TaskBase (Error : Type) where
  state : TaskState := .unstarted
  exception : Option Error := none
  /-- `start_time` has been recorded. -/
  started : Bool := false
  /-- The states that were sent to the task status manager. -/
  recorded : List TaskState := []

namespace TaskBase

variable {Error : Type}

def setState (base : TaskBase Error) (state : TaskState) : TaskBase Error := { base with state }

def setError (base : TaskBase Error) (exception : Option Error) : TaskBase Error :=
  { base with state := .error, exception }

def recordTaskStatus (base : TaskBase Error) : TaskBase Error :=
  { base with recorded := base.recorded ++ [base.state] }

/-- `record_status_and_return` -/
def recordStatus (base : TaskBase Error) (state : TaskState) : TaskBase Error := (base.setState state).recordTaskStatus

/-- `record_error_and_return` -/
def recordError (base : TaskBase Error) (exception : Option Error) : TaskBase Error :=
  (base.setError exception).recordTaskStatus

/-- `record_start_time_if_first_try` -/
def recordStartTimeIfFirstTry (base : TaskBase Error) : TaskBase Error :=
  if base.started then base else { base with started := true }.recordStatus .running

variable (base : TaskBase Error) (state : TaskState) (exception : Option Error)

@[simp] theorem state_recordStatus : (base.recordStatus state).state = state := rfl
@[simp] theorem state_recordError : (base.recordError exception).state = .error := rfl

theorem notEnded_recordStartTime (notEnded : base.state.isEnd = false) :
    base.recordStartTimeIfFirstTry.state.isEnd = false := by
  unfold recordStartTimeIfFirstTry
  split
  · exact notEnded
  · rfl

end TaskBase

/-! ## Histories -/

/-- Which sub-task was resumed, and what the resume returned or threw. -/
abbrev SubResume (Error : Type) := Nat × Except Error TaskState

section Histories

variable {Error : Type}

/-- After such a resume a sub-task is not resumed again. -/
def Ends : Except Error TaskState → Prop
  | .error _ => True
  | .ok state => state.isEnd = true

/-- A sub-task that fails or is cancelled ends the whole. -/
def Stops (outcome : Except Error TaskState) : Prop := Ends outcome ∧ outcome ≠ .ok .finished

end Histories

end AbilityFramework.TaskMgr
