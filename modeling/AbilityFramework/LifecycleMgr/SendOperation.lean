import AbilityFramework.Library.Runs
import AbilityFramework.TaskMgr.ThreadQueueTask

/-! # Answers to lifecycle operations

The task `send-lifecycle-operation` posts a command to the HTTP server of an ability.  An answer that is not 200
becomes part of the text of an exception, whatever its body is.

`answer_terminates_iff`: an ability ends the framework with its answer exactly if the status is not 200 and the body,
up to its first null byte, is no UTF-8. -/

namespace AbilityFramework.LifecycleMgr.Clients

open Library Library.Runs TaskMgr

/-- What comes of a POST. -/
inductive PostResult where
  /-- An `httplib::Error`, by its text. -/
  | failed (error : String)
  | response (status : Int) (body : ByteText)

def isValidLifecycleCommand (command : String) : Bool := command ∈ ["start", "connect", "disconnect", "terminate"]

def doExecute : PostResult → Except ByteText Unit
  | .failed error => .error (.ofString error)
  | .response status body => if status ≠ 200 then .error (.ofString "client: " ++ body) else .ok ()

/-- `AbilityClient::execute` -/
def execute (command : String) (result : PostResult) : Except ByteText Unit :=
  if isValidLifecycleCommand command then doExecute result
  else .error (.ofString ("invalid lifecycle command: " ++ command))

/-- What the work of the task throws. -/
def sendLifecycleOperation (command : String) (result : PostResult) : Option WorkError :=
  match execute command result with
  | .ok () => none
  | .error error => some (.exception (.ofString "error reading from ability http server: " ++ error))

variable {command : String} {result : PostResult}

theorem isUtf8_message (error : ByteText) :
    (ByteText.cString (.ofString "error reading from ability http server: " ++ error)).IsUtf8 ↔ error.cString.IsUtf8 :=
  ByteText.isUtf8_cString_append (by decide) error

theorem isUtf8_body (body : ByteText) :
    (ByteText.cString (.ofString "client: " ++ body)).IsUtf8 ↔ body.cString.IsUtf8 :=
  ByteText.isUtf8_cString_append (by decide) body

theorem unreportable_iff :
    (∃ error, sendLifecycleOperation command result = some error ∧ ¬ ThreadQueueWorkTask.Reportable error) ↔
      ∃ error, execute command result = .error error ∧ ¬ error.cString.IsUtf8 := by
  unfold sendLifecycleOperation
  cases execute command result with
  | ok _ => simp
  | error error => simp [ThreadQueueWorkTask.Reportable, isUtf8_message]

/-- Only the body of a response can make a text that is no UTF-8. -/
theorem sendLifecycleOperation_unreportable :
    (∃ error, sendLifecycleOperation command result = some error ∧ ¬ ThreadQueueWorkTask.Reportable error) ↔
      isValidLifecycleCommand command = true ∧
        ∃ status body, result = .response status body ∧ status ≠ 200 ∧ ¬ body.cString.IsUtf8 := by
  rw [unreportable_iff]
  by_cases valid : isValidLifecycleCommand command = true
  · cases result with
    | failed error =>
      simp only [execute, valid, if_true, doExecute]
      simp [(ByteText.isUtf8_ofString _).cString]
    | response status body =>
      by_cases failed : status ≠ 200
      · simp only [execute, valid, if_true, doExecute, if_pos failed]
        simp [isUtf8_body, failed]
      · simp only [execute, valid, if_true, doExecute, if_neg failed]
        simp only [reduceCtorEq, false_and, exists_false, true_and, PostResult.response.injEq, false_iff]
        rintro ⟨_, _, ⟨rfl, rfl⟩, differs, _⟩
        exact failed differs
  · simp [execute, valid, (ByteText.isUtf8_ofString _).cString]

/-- In every run of the task, whatever the ability answers, the process ends exactly if the answer is a failure whose
body cannot be read, and the worker has got to recording it. -/
theorem answer_terminates_iff (command : String) (events : List (WorkEvent PostResult)) :
    (run (ThreadQueueWorkTask.step (sendLifecycleOperation command)) {} events).terminated = true ↔
      isValidLifecycleCommand command = true ∧ ∃ before status body more,
        events = before ++ .works (.response status body) :: more ∧
          (run (ThreadQueueWorkTask.step (sendLifecycleOperation command)) {} before).request = .queued ∧
          status ≠ 200 ∧ ¬ body.cString.IsUtf8 ∧ 2 ≤ more.countP WorkEvent.isAdvance := by
  rw [ThreadQueueWorkTask.terminated_iff]
  constructor
  · intro split
    obtain ⟨before, result, error, more, isSplit, waits, throws, unreportable, far⟩ := split
    obtain ⟨valid, status, body, rfl, failed, unreadable⟩ :=
      sendLifecycleOperation_unreportable.mp ⟨error, throws, unreportable⟩
    exact ⟨valid, before, status, body, more, isSplit, waits, failed, unreadable, far⟩
  · intro answered
    obtain ⟨valid, before, status, body, more, isSplit, waits, failed, unreadable, far⟩ := answered
    obtain ⟨error, throws, unreportable⟩ :=
      sendLifecycleOperation_unreportable.mpr ⟨valid, status, body, rfl, failed, unreadable⟩
    exact ⟨before, .response status body, error, more, isSplit, waits, throws, unreportable, far⟩

/-- One byte is enough. -/
example : (run (ThreadQueueWorkTask.step (sendLifecycleOperation "terminate")) {}
    [.resume, .works (.response 500 [0xff]), .advance, .advance]).terminated = true := by decide

end AbilityFramework.LifecycleMgr.Clients
