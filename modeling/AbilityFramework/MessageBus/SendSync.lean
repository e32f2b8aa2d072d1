import AbilityFramework.Library.JsonText
import AbilityFramework.Library.Runs

/-! # Synchronous messages

`send_sync` gives a message to a worker of the bus thread pool and waits for the promise that goes with it.  The
handler of the destination sets the promise by responding; what it throws or returns as an error sets it too.  When
the worker is done with the message the promise is destroyed, set or not.

`sendSync_yieldsOutcome_iff`: a caller is sure to get an outcome and no exception exactly if the handler does not end
without having produced one. -/

namespace AbilityFramework.MessageBus

open Library Library.Runs

abbrev Bytes := List UInt8

def bytes (text : String) : Bytes := text.toUTF8.data.toList

inductive Status where
  | ok
  | failed
  | notExist
  deriving DecidableEq

/-- What the bus and the modules look at of a message. -/
structure Message where
  source : Bytes
  destination : Bytes
  operation : Bytes
  status : Status := .ok
  content : Bytes
  deriving DecidableEq

def Message.success (message : Message) : Bool := message.status = .ok

/-- An error of the bus, or the response. -/
abbrev SendResult := Except Bytes Message

/-- What `on_error` calls its function with. -/
def onError : SendResult → Option Bytes
  | .error error => some error
  | .ok response => if response.success then none else some response.content

/-! ## Handlers -/

inductive Thrown where
  | formatError (what content : Bytes)
  /-- Another `std::exception`. -/
  | exception (what : Bytes)
  | other

inductive HandlerEnd where
  | returned
  | error (message : Bytes)
  | thrown (exception : Thrown)

/-- What `on_receive` does with a message.  A response that comes too late throws, and the handler may go on
otherwise then. -/
inductive Handler where
  | ends (how : HandlerEnd)
  | hangs
  | responds (response : Message) (next caught : Handler)

/-- `dump()` of the reason and the content, which throws unless both are UTF-8. -/
def dumpFormatError (what content : Bytes) : Option Bytes :=
  match String.fromUTF8? ⟨what.toArray⟩, String.fromUTF8? ⟨content.toArray⟩ with
  | some reason, some content =>
    let json := Json.object [("reason", .string reason), ("content", .string content)]
    some (bytes (String.ofList (json.text fun _ => "")))
  | _, _ => none

/-! ## The promise -/

inductive Promise where
  | unset
  | set (result : SendResult)
  | broken

namespace Promise

def setValue (result : SendResult) : Promise → Except Bytes Promise
  | .unset => .ok (.set result)
  | .set _ | .broken => .error (bytes "std::future_error: Promise already satisfied")

/-- The second `catch`.  What is thrown in it stays in the packaged task. -/
def catchException (promise : Promise) (what : Bytes) : Promise :=
  match promise.setValue (.error what) with
  | .ok promise => promise
  | .error _ => promise

/-- What the worker makes of the way that the handler ends. -/
def afterReceive (promise : Promise) : HandlerEnd → Promise
  | .returned => promise
  | .error message =>
    match promise.setValue (.error message) with
    | .ok promise => promise
    | .error what => promise.catchException what
  | .thrown (.formatError what content) =>
    match dumpFormatError what content with
    | some text => promise.catchException text
    | none => promise
  | .thrown (.exception what) => promise.catchException what
  -- Nothing catches it, and it stays in the packaged task.
  | .thrown .other => promise

def destroy : Promise → Promise
  | .unset => .broken
  | .set result => .set result
  | .broken => .broken

end Promise

/-! ## Calls -/

inductive Worker where
  | handling (handler : Handler)
  | done

inductive Caller where
  | waiting
  | returned (result : SendResult)
  | threw (what : Bytes)

structure Call where
  worker : Worker
  promise : Promise := .unset
  caller : Caller := .waiting

inductive CallEvent where
  /-- The worker goes on. -/
  | work
  /-- The caller finds the promise ready. -/
  | wake
  /-- The time of the caller is over. -/
  | timeout
  deriving DecidableEq

/-- `fut.get()` of a promise that is ready. -/
def Promise.get : Promise → Caller
  | .unset => .waiting
  | .set result => .returned result
  | .broken => .threw (bytes "std::future_error: Broken promise")

def Call.work (call : Call) : Call :=
  match call.worker with
  | .done | .handling .hangs => call
  | .handling (.ends how) => { call with worker := .done, promise := (call.promise.afterReceive how).destroy }
  | .handling (.responds response next caught) =>
    match call.promise.setValue (.ok response) with
    | .ok promise => { call with worker := .handling next, promise }
    -- After the first outcome a response throws in the handler.
    | .error _ => { call with worker := .handling caught }

def Call.step (call : Call) : CallEvent → Call
  | .work => call.work
  | .wake =>
    match call.caller with
    | .waiting => { call with caller := call.promise.get }
    | .returned _ | .threw _ => call
  | .timeout =>
    match call.caller, call.promise with
    | .waiting, .unset => { call with caller := .returned (.error (bytes "timeout")) }
    -- The promise has become ready at the last moment.
    | .waiting, promise => { call with caller := promise.get }
    | .returned _, _ | .threw _, _ => call

variable (modules : Bytes → Option (Message → Handler)) (message : Message)

/-- Where a call stands after a schedule of both threads. -/
def sendSync (schedule : List CallEvent) : Caller :=
  if message.destination = [] then .returned (.error (bytes "need destination"))
  else match modules message.destination with
    | none => .returned (.error (bytes "no such module: " ++ message.destination))
    | some onReceive => (run Call.step { worker := .handling (onReceive message) } schedule).caller

/-! ## Outcomes -/

/-- What the handler of the destination does with the message. -/
def receiver : Option Handler :=
  if message.destination = [] then none else (modules message.destination).map fun onReceive => onReceive message

def HandlerEnd.outcome : HandlerEnd → Option SendResult
  | .returned => none
  | .error message => some (.error message)
  | .thrown (.formatError what content) => (dumpFormatError what content).map .error
  | .thrown (.exception what) => some (.error what)
  | .thrown .other => none

/-- The first outcome that a handler produces. -/
def Handler.outcome : Handler → Option SendResult
  | .ends how => how.outcome
  | .hangs => none
  | .responds response _ _ => some (.ok response)

structure YieldsOutcome (schedule : List CallEvent) (caller : Caller) : Prop where
  noException : ∀ what, caller ≠ .threw what
  /-- Errors of the bus come only from unknown destinations and timeouts. -/
  first : ∀ result, caller = .returned result →
    (∃ handler ∈ receiver modules message, handler.outcome = some result) ∨
      (∃ error, result = .error error) ∧ (receiver modules message = none ∨ .timeout ∈ schedule)
  ends : .timeout ∈ schedule → caller ≠ .waiting

/-- A handler that has neither responded nor failed in a way that the worker can report. -/
def Handler.EndsSilently : Handler → Prop
  | .ends .returned | .ends (.thrown .other) => True
  | .ends (.thrown (.formatError what content)) => dumpFormatError what content = none
  | .ends (.error _) | .ends (.thrown (.exception _)) | .hangs | .responds _ _ _ => False

variable {modules message} {handler : Handler} {call : Call}

theorem endsSilently_iff {how : HandlerEnd} : (Handler.ends how).EndsSilently ↔ how.outcome = none := by
  cases how with
  | returned => simp [Handler.EndsSilently, HandlerEnd.outcome]
  | error message => simp [Handler.EndsSilently, HandlerEnd.outcome]
  | thrown exception => cases exception <;> simp [Handler.EndsSilently, HandlerEnd.outcome]

theorem catchException_of_ready {promise : Promise} (ready : promise ≠ .unset) (what : Bytes) :
    promise.catchException what = promise := by
  cases promise with
  | unset => exact absurd rfl ready
  | set _ | broken => rfl

/-- Nothing that happens after the promise is ready changes it. -/
theorem afterReceive_of_ready {promise : Promise} (ready : promise ≠ .unset) (how : HandlerEnd) :
    promise.afterReceive how = promise := by
  cases how with
  | returned => rfl
  | error message =>
    cases promise with
    | unset => exact absurd rfl ready
    | set _ | broken => rfl
  | thrown exception =>
    cases exception with
    | formatError what content =>
      simp only [Promise.afterReceive]
      split
      · exact catchException_of_ready ready _
      · rfl
    | exception what => exact catchException_of_ready ready what
    | other => rfl

theorem afterReceive_unset (how : HandlerEnd) :
    (Promise.unset.afterReceive how).destroy = how.outcome.elim .broken .set := by
  cases how with
  | returned => rfl
  | error message => rfl
  | thrown exception =>
    cases exception with
    | formatError what content =>
      simp only [Promise.afterReceive, HandlerEnd.outcome]
      cases dumpFormatError what content <;> rfl
    | exception what => rfl
    | other => rfl

/-! ## Calls to a handler -/

/-- The promise holds the first outcome of the handler, and is broken only if there is none. -/
def Promise.Reports (handler : Handler) (worker : Worker) : Promise → Prop
  | .unset => worker = .handling handler
  | .set result => handler.outcome = some result
  | .broken => handler.EndsSilently

def Caller.Reports (handler : Handler) (timeout : Prop) : Caller → Prop
  | .waiting => ¬ timeout
  | .returned result => handler.outcome = some result ∨ result = .error (bytes "timeout") ∧ timeout
  | .threw _ => handler.EndsSilently

theorem work_reports (reports : call.promise.Reports handler call.worker) :
    call.work.promise.Reports handler call.work.worker ∧ call.work.caller = call.caller := by
  obtain ⟨worker, promise, caller⟩ := call
  cases worker with
  | done => exact ⟨reports, rfl⟩
  | handling left =>
    cases left with
    | hangs => exact ⟨reports, rfl⟩
    | ends how =>
      refine ⟨?_, rfl⟩
      simp only [Call.work]
      cases promise with
      | unset =>
        -- The worker is at the end of the handler, which has not responded.
        obtain rfl := Worker.handling.inj reports
        rw [afterReceive_unset]
        cases outcome : how.outcome with
        | none => exact endsSilently_iff.mpr outcome
        | some result => exact outcome
      | set result =>
        have ready : Promise.set result ≠ .unset := Promise.noConfusion
        rw [afterReceive_of_ready ready]
        exact reports
      | broken =>
        have ready : Promise.broken ≠ .unset := Promise.noConfusion
        rw [afterReceive_of_ready ready]
        exact reports
    | responds response next caught =>
      simp only [Call.work]
      cases promise with
      | unset =>
        obtain rfl := Worker.handling.inj reports
        exact ⟨rfl, rfl⟩
      | set result => exact ⟨reports, rfl⟩
      | broken => exact ⟨reports, rfl⟩

/-- A caller that the promise answers. -/
theorem get_reports {worker : Worker} {promise : Promise} (reports : promise.Reports handler worker) {timeout : Prop}
    (ready : promise ≠ .unset) : promise.get.Reports handler timeout := by
  cases promise with
  | unset => exact absurd rfl ready
  | set result => exact .inl reports
  | broken => exact reports

theorem Caller.Reports.later {caller : Caller} {timeout later : Prop} (reports : caller.Reports handler timeout)
    (implies : timeout → later) (ended : caller ≠ .waiting) : caller.Reports handler later := by
  cases caller with
  | waiting => exact absurd rfl ended
  | returned result => exact reports.imp_right fun timedOut => ⟨timedOut.1, implies timedOut.2⟩
  | threw what => exact reports

theorem step_reports {timeout : Prop} (event : CallEvent) (reports : call.promise.Reports handler call.worker)
    (callerReports : call.caller.Reports handler timeout) :
    (call.step event).promise.Reports handler (call.step event).worker ∧
      (call.step event).caller.Reports handler (timeout ∨ event = .timeout) := by
  cases event with
  | work =>
    obtain ⟨stillReports, sameCaller⟩ := work_reports reports
    simp only [Call.step, sameCaller, reduceCtorEq, or_false]
    exact ⟨stillReports, callerReports⟩
  | wake =>
    obtain ⟨worker, promise, caller⟩ := call
    simp only [Call.step, reduceCtorEq, or_false]
    cases caller with
    | waiting =>
      refine ⟨reports, ?_⟩
      cases promise with
      | unset => exact callerReports
      | set _ | broken => exact get_reports reports nofun
    | returned _ | threw _ => exact ⟨reports, callerReports⟩
  | timeout =>
    obtain ⟨worker, promise, caller⟩ := call
    cases caller with
    | waiting =>
      cases promise with
      | unset => exact ⟨reports, .inr ⟨rfl, .inr rfl⟩⟩
      | set _ | broken => exact ⟨reports, get_reports reports nofun⟩
    | returned _ | threw _ => exact ⟨reports, callerReports.later .inl nofun⟩

theorem run_reports (handler : Handler) (schedule : List CallEvent) :
    (run Call.step { worker := .handling handler } schedule).promise.Reports handler
        (run Call.step { worker := .handling handler } schedule).worker ∧
      (run Call.step { worker := .handling handler } schedule).caller.Reports handler (.timeout ∈ schedule) := by
  refine run_history (fun (call : Call) earlier => call.promise.Reports handler call.worker ∧
    call.caller.Reports handler (.timeout ∈ earlier)) ?_ ?_ schedule
  · intro call earlier event ⟨reports, callerReports⟩
    have inLonger : .timeout ∈ earlier ++ [event] ↔ .timeout ∈ earlier ∨ event = .timeout := by
      simp [eq_comm]
    rw [inLonger]
    exact step_reports event reports callerReports
  · exact ⟨rfl, List.not_mem_nil⟩

/-! ## Outcomes of calls -/

theorem sendSync_of_receiver (received : receiver modules message = some handler) (schedule : List CallEvent) :
    sendSync modules message schedule = (run Call.step { worker := .handling handler } schedule).caller := by
  unfold receiver at received
  split at received
  · cases received
  · rename_i named
    obtain ⟨onReceive, found, rfl⟩ := Option.map_eq_some_iff.mp received
    simp only [sendSync, if_neg named, found]

/-- A message without a receiver is refused before anything is waited for. -/
theorem sendSync_of_none (nobody : receiver modules message = none) (schedule : List CallEvent) :
    ∃ error, sendSync modules message schedule = .returned (.error error) := by
  unfold sendSync
  split
  · exact ⟨_, rfl⟩
  · rename_i named
    rw [receiver, if_neg named, Option.map_eq_none_iff] at nobody
    rw [nobody]
    exact ⟨_, rfl⟩

/-- For every destination and every handler, whatever the schedule, `send_sync` yields an outcome exactly if the
handler does not end silently. -/
theorem sendSync_yieldsOutcome_iff (modules : Bytes → Option (Message → Handler)) (message : Message) :
    (∀ schedule, YieldsOutcome modules message schedule (sendSync modules message schedule)) ↔
      ∀ handler ∈ receiver modules message, ¬ handler.EndsSilently := by
  constructor
  · intro yields handler received silent
    -- The worker ends, and the caller finds a broken promise.
    apply (yields [.work, .wake]).noException (bytes "std::future_error: Broken promise")
    rw [sendSync_of_receiver received]
    cases handler with
    | hangs | responds _ _ _ => cases silent
    | ends how =>
      have broken := afterReceive_unset how
      rw [endsSilently_iff.mp silent, Option.elim_none] at broken
      simp only [run_cons, run_nil, Call.step, Call.work, broken, Promise.get]
  · intro loud schedule
    cases received : receiver modules message with
    | none =>
      obtain ⟨error, refused⟩ := sendSync_of_none received schedule
      rw [refused]
      refine ⟨nofun, fun result isResult => ?_, nofun⟩
      obtain rfl := Caller.returned.inj isResult
      exact .inr ⟨⟨error, rfl⟩, .inl received⟩
    | some handler =>
      have reports := (run_reports handler schedule).2
      rw [sendSync_of_receiver received]
      refine ⟨fun what threw => ?_, fun result isResult => ?_, fun timeout waiting => ?_⟩
      · rw [threw] at reports
        exact loud handler received reports
      · rw [isResult] at reports
        obtain outcome | ⟨timedOut, timeout⟩ := reports
        · exact .inl ⟨handler, received, outcome⟩
        · exact .inr ⟨⟨_, timedOut⟩, .inr timeout⟩
      · rw [waiting] at reports
        exact reports timeout

/-! ## Handlers of modules -/

/-- What a function does that a handler calls. -/
inductive FunctionEnd (Result : Type) where
  | returned (value : Result)
  | thrown (exception : Thrown)
  | hangs

section Modules

variable {Payload Result : Type} (parse : Bytes → Except Bytes Payload)

def Message.tryParse (message : Message) : Except Bytes Payload :=
  if !message.success then .error message.content
  else match parse message.content with
    | .error what => .error (bytes "invalid format: " ++ what)
    | .ok payload => .ok payload

/-- `msgbus_event_handler` -/
def msgbusEventHandler (inputTypeName : String) (function : Payload → FunctionEnd Unit) (message : Message) : Handler :=
  match message.tryParse parse with
  | .error error =>
    .ends (.error (bytes ("invalid message format, expected " ++ inputTypeName ++ ", but find: ") ++ error))
  | .ok param =>
    match function param with
    | .returned () => .ends .returned
    | .thrown (.formatError what _) | .thrown (.exception what) =>
      .ends (.error (bytes "error performing TaskStatusManager::push_back : " ++ what))
    | .thrown .other => .ends (.thrown .other)
    | .hangs => .hangs

/-- `TaskStatusManager::on_receive` -/
def taskStatusManager (pushBack : Payload → FunctionEnd Unit) (message : Message) : Handler :=
  if message.operation = bytes "TaskStatusEvent" then msgbusEventHandler parse "TaskStatus" pushBack message
  else .ends (.error (bytes "invalid operation: " ++ message.operation))

variable {parse}

end Modules

def statusEvent : Message where
  source := bytes "test"
  destination := bytes "TaskStatusMgr"
  operation := bytes "TaskStatusEvent"
  content := bytes ("\x7b\"id\":\"6b2a0d0e-5d0f-4a35-9a0c-3c2f8d1f4e11\"," ++
    "\"executor_id\":\"f3c1d2a4-0b7e-4c58-8a21-5e9d6c7b8a90\",\"state\":\"running\",\"timeout\":3600\x7d")

/-- The task status manager, which takes the content, and no other module. -/
def onlyTaskStatusMgr (name : Bytes) : Option (Message → Handler) :=
  if name = bytes "TaskStatusMgr" then some (taskStatusManager (fun content => .ok content) fun _ => .returned ())
  else none

/-- A status that is sent with `send_sync` is recorded, and throws an exception at its sender. -/
theorem statusEvent_breaksPromise : ¬ ∀ schedule, YieldsOutcome onlyTaskStatusMgr statusEvent schedule
    (sendSync onlyTaskStatusMgr statusEvent schedule) := by
  intro yields
  apply (yields [.work, .wake]).noException (bytes "std::future_error: Broken promise")
  have received : receiver onlyTaskStatusMgr statusEvent = some (.ends .returned) := by
    have named : statusEvent.destination ≠ [] := by decide
    rw [receiver, if_neg named]
    simp only [onlyTaskStatusMgr, statusEvent, if_true, Option.map_some, taskStatusManager]
    rfl
  rw [sendSync_of_receiver received]
  rfl

end AbilityFramework.MessageBus
