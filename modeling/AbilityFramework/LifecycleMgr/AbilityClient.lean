import AbilityFramework.LifecycleMgr.HeartbeatMap
import AbilityFramework.Library.Runs

/-! # Clients of abilities

A heartbeat names a protocol and a port, and the entry of the ability gets a client for them.  There is none for
`coap`, nor for port 80, which a URL of protocol `http` does not show; a task that has captured no client ends the
process when a worker executes it.

`crash_iff`: a lifecycle request crashes the framework exactly if, when it is made, the port is 80 or none of the
heartbeats since the port last changed has named `http`. -/

namespace AbilityFramework.LifecycleMgr.Clients

open Library.Runs

inductive ProtocolType where
  | http
  | coap
  deriving DecidableEq

/-- A heartbeat with the protocol that it names. -/
structure Report where
  heartbeat : Heartbeat
  ipcProtocol : ProtocolType

structure HttpClient where
  port : UInt16
  deriving DecidableEq

/-- `AbilityClient::make` for the local host.  The URL is parsed to one without a port if that is the one of the
protocol. -/
def make : ProtocolType → UInt16 → Option HttpClient
  | .http, port => if port = 80 then none else some ⟨port⟩
  | .coap, _ => none

structure ClientEntry where
  heartbeat : Heartbeat
  lastUpdate : Nat
  client : Option HttpClient
  /-- The reports since the entry was made or the port last changed, the last first. -/
  streak : List Report

instance : Inhabited ClientEntry := ⟨⟨⟨0, .inactive, 0, 0⟩, 0, none, []⟩⟩

/-- What `on_heartbeat` does to the entry. -/
def ClientEntry.update (report : Report) (now : Nat) (entry : ClientEntry) : ClientEntry where
  heartbeat := report.heartbeat
  lastUpdate := now
  client :=
    match entry.client with
    | none => make report.ipcProtocol report.heartbeat.ipcPort
    | some client =>
      if entry.heartbeat.ipcPort ≠ report.heartbeat.ipcPort then make report.ipcProtocol report.heartbeat.ipcPort
      else some client
  streak := if entry.heartbeat.ipcPort = report.heartbeat.ipcPort then report :: entry.streak else [report]

/-- `desired_state`, which throws for other commands. -/
def desiredState (command : String) : Option LifecycleState :=
  if command = "start" then some .standby
  else if command = "connect" then some .running
  else if command = "disconnect" then some .suspend
  else if command = "terminate" then some .terminated
  else none

/-- The task `send-lifecycle-operation`, with the client of the entry when it was made. -/
structure SendTask where
  client : Option HttpClient
  command : String
  done : Bool := false

structure State where
  /-- `heartbeats` -/
  entries : Uuid → Option ClientEntry := fun _ => none
  tasks : List SendTask := []
  /-- The commands that were posted, with the port, the last first. -/
  posted : List (UInt16 × String) := []
  crashed : Bool := false

inductive Event where
  /-- A heartbeat that is accepted. -/
  | report (report : Report) (now : Nat)
  | exit (id : Uuid)
  | clearStale (now : Nat)
  | request (id : Uuid) (command : String)
  /-- A worker executes the task. -/
  | execute (index : Nat)

namespace State

variable (state : State)

def setEntry (id : Uuid) (entry : Option ClientEntry) : State :=
  { state with entries := fun other => if other = id then entry else state.entries other }

/-- `make_lifecycle_adjust_request`, for the commands other than `start`. -/
def adjust (id : Uuid) (command : String) : State :=
  match state.entries id with
  | some entry =>
    if isActive entry.heartbeat.state ∧ (desiredState command).isSome then
      { state with tasks := state.tasks ++ [{ client := entry.client, command := command }] }
    else state
  | none => state

def execute (index : Nat) : State :=
  match state.tasks[index]? with
  | some task =>
    if task.done then state
    else
      match task.client with
      | some client =>
        { state with
          tasks := state.tasks.set index { task with done := true }
          posted := (client.port, task.command) :: state.posted }
      | none => { state with crashed := true }
  | none => state

def step (event : Event) : State :=
  if state.crashed then state
  else
    match event with
    | .report report now =>
      state.setEntry report.heartbeat.id
        (some (((state.entries report.heartbeat.id).getD default).update report now))
    | .exit id => state.setEntry id none
    | .clearStale now =>
      { state with entries := fun id =>
          (state.entries id).filter fun entry => !decide (entry.lastUpdate + maxHeartbeatValidTime < now) }
    | .request id command => if command = "start" then state else state.adjust id command
    | .execute index => state.execute index

end State

/-! ## Clients of entries -/

/-- No report of the streak has led to a client. -/
def ClientEntry.Clientless (entry : ClientEntry) : Prop :=
  entry.heartbeat.ipcPort = 80 ∨ ∀ report ∈ entry.streak, report.ipcProtocol = .coap

/-- A client leads to the port that the ability reported last, and there is one unless no report has led to it. -/
structure Faithful (entry : ClientEntry) : Prop where
  port : ∀ client, entry.client = some client → client.port = entry.heartbeat.ipcPort
  none_iff : entry.client = none ↔ entry.Clientless

theorem make_eq_none {protocol : ProtocolType} {port : UInt16} :
    make protocol port = none ↔ port = 80 ∨ protocol = .coap := by
  cases protocol <;> simp [make]

theorem port_of_make {protocol : ProtocolType} {port : UInt16} {client : HttpClient}
    (makes : make protocol port = some client) : client.port = port := by
  cases protocol with
  | http =>
    rw [make] at makes
    split_ifs at makes
    rw [← Option.some.inj makes]
  | coap => cases makes

theorem faithful_default : Faithful default where
  port := fun client isClient => by cases isClient
  none_iff := by simp [default, ClientEntry.Clientless]

/-- The port changes, and with it the streak begins anew. -/
theorem faithful_of_make {entry : ClientEntry} (report : Report)
    (isPort : entry.heartbeat.ipcPort = report.heartbeat.ipcPort)
    (isStreak : entry.streak = [report]) (isClient : entry.client = make report.ipcProtocol report.heartbeat.ipcPort) :
    Faithful entry where
  port := by
    intro client isSome
    rw [isPort]
    exact port_of_make (isClient.symm.trans isSome)
  none_iff := by
    rw [isClient, make_eq_none, ClientEntry.Clientless, isPort, isStreak, List.forall_mem_singleton]

theorem faithful_update {entry : ClientEntry} (faithful : Faithful entry) (report : Report) (now : Nat) :
    Faithful (entry.update report now) := by
  by_cases samePort : entry.heartbeat.ipcPort = report.heartbeat.ipcPort
  · cases isClient : entry.client with
    | none =>
      have clientless : entry.Clientless := faithful.none_iff.mp isClient
      constructor
      · intro client isSome
        simp only [ClientEntry.update, isClient] at isSome
        exact port_of_make isSome
      · simp only [ClientEntry.update, isClient, make_eq_none, ClientEntry.Clientless, if_pos samePort,
          List.forall_mem_cons]
        rw [ClientEntry.Clientless, samePort] at clientless
        obtain isDefault | areCoap := clientless
        · simp only [isDefault, true_or]
        · simp only [and_iff_left areCoap]
    | some client =>
      have hasClient : ¬ entry.Clientless := fun clientless => by simp [faithful.none_iff.mpr clientless] at isClient
      have isKept : (entry.update report now).client = some client := by
        simp only [ClientEntry.update, isClient, samePort, ne_eq, not_true_eq_false, if_false]
      constructor
      · intro other isSome
        rw [isKept] at isSome
        rw [← Option.some.inj isSome]
        exact (faithful.port client isClient).trans samePort
      · rw [isKept]
        refine ⟨fun isNone => absurd isNone (Option.some_ne_none client), ?_⟩
        intro clientless
        simp only [ClientEntry.Clientless, ClientEntry.update, if_pos samePort, List.forall_mem_cons] at clientless
        rw [ClientEntry.Clientless, samePort] at hasClient
        exact absurd (clientless.imp_right And.right) hasClient
  · apply faithful_of_make report
    · rfl
    · exact if_neg samePort
    · cases isClient : entry.client with
      | none => simp only [ClientEntry.update, isClient]
      | some client => simp only [ClientEntry.update, isClient, ne_eq, samePort, not_false_eq_true, if_true]

/-- The entries in which every client is taken to be made. -/
structure Agrees (entry : ClientEntry) (other : Entry) : Prop where
  heartbeat : entry.heartbeat = other.heartbeat
  lastUpdate : entry.lastUpdate = other.lastUpdate
  client : (entry.client.map fun client => (⟨client.port⟩ : AbilityClient)) = other.client

/-- They are the same as long as the reports lead to clients. -/
theorem agrees_update {entry : ClientEntry} {other : Entry} (agrees : Agrees entry other) {report : Report}
    (isHttp : report.ipcProtocol = .http) (notDefault : report.heartbeat.ipcPort ≠ 80) (now : Nat) :
    Agrees (entry.update report now) (other.update report.heartbeat now) where
  heartbeat := rfl
  lastUpdate := rfl
  client := by
    have makes : make report.ipcProtocol report.heartbeat.ipcPort = some ⟨report.heartbeat.ipcPort⟩ := by
      rw [isHttp, make, if_neg notDefault]
    simp only [ClientEntry.update, Entry.update, ← agrees.client, makes, agrees.heartbeat]
    cases entry.client with
    | none => rfl
    | some client =>
      simp only [Option.map_some]
      split_ifs <;> rfl

/-! ## Runs -/

namespace State

variable {state : State} {id : Uuid} {entry : ClientEntry} {command : String} {index : Nat}
  {events before more : List Event}

def AllFaithful (state : State) : Prop := ∀ id entry, state.entries id = some entry → Faithful entry

theorem entries_adjust (state : State) (id : Uuid) (command : String) :
    (state.adjust id command).entries = state.entries := by
  unfold adjust
  split
  · split_ifs <;> rfl
  · rfl

theorem entries_execute (state : State) (index : Nat) : (state.execute index).entries = state.entries := by
  unfold execute
  split
  · split_ifs
    · rfl
    · split <;> rfl
  · rfl

theorem allFaithful_step (faithful : AllFaithful state) (event : Event) : AllFaithful (state.step event) := by
  unfold step
  split
  · exact faithful
  · intro id entry found
    cases event with
    | report report now =>
      simp only [setEntry] at found
      split_ifs at found
      · cases found
        apply faithful_update
        cases isEntry : state.entries report.heartbeat.id with
        | none => exact faithful_default
        | some entry => exact faithful report.heartbeat.id entry isEntry
      · exact faithful id entry found
    | exit other =>
      simp only [setEntry] at found
      split_ifs at found
      exact faithful id entry found
    | clearStale now => exact faithful id entry (Option.filter_eq_some_iff.mp found).1
    | request other command =>
      simp only at found
      split_ifs at found
      · exact faithful id entry found
      · rw [entries_adjust] at found
        exact faithful id entry found
    | execute index =>
      rw [entries_execute] at found
      exact faithful id entry found

theorem allFaithful_run (events : List Event) : AllFaithful (run step {} events) := by
  refine run_invariant AllFaithful (fun state event faithful => allFaithful_step faithful event) _ ?_ events
  intro id entry found
  cases found

theorem tasks_adjust {task : SendTask} (isTask : state.tasks[index]? = some task) :
    (state.adjust id command).tasks[index]? = some task := by
  have inRange : index < state.tasks.length := (List.getElem?_eq_some_iff.mp isTask).1
  unfold adjust
  split
  · split_ifs
    · rw [List.getElem?_append_left inRange, isTask]
    · exact isTask
  · exact isTask

theorem tasks_execute_other {task : SendTask} {other : Nat} (isTask : state.tasks[index]? = some task)
    (different : other ≠ index) : (state.execute other).tasks[index]? = some task := by
  unfold execute
  split
  · split_ifs
    · exact isTask
    · split
      · rw [List.getElem?_set_ne different, isTask]
      · exact isTask
  · exact isTask

/-- A task stays as it was made until a worker executes it. -/
theorem task_step {task : SendTask} (isTask : state.tasks[index]? = some task) {event : Event}
    (other : event ≠ .execute index) : (state.step event).tasks[index]? = some task := by
  unfold step
  split
  · exact isTask
  · cases event with
    | report | exit | clearStale => exact isTask
    | request id command =>
      simp only
      split_ifs
      · exact isTask
      · exact tasks_adjust isTask
    | execute executed => exact tasks_execute_other isTask (fun same => other (congrArg Event.execute same))

theorem task_run {task : SendTask} (isTask : state.tasks[index]? = some task) (notYet : .execute index ∉ events) :
    (run step state events).tasks[index]? = some task := by
  induction events generalizing state with
  | nil => exact isTask
  | cons event events inductionHypothesis =>
    rw [List.mem_cons, not_or] at notYet
    exact inductionHypothesis (task_step isTask fun same => notYet.1 same.symm) notYet.2

theorem crashed_step (crashed : state.crashed = true) (event : Event) : state.step event = state :=
  if_pos crashed

/-- The framework does not come back. -/
theorem not_crashed_before (alive : (run step state events).crashed = false) : state.crashed = false := by
  cases crashed : state.crashed with
  | false => rfl
  | true =>
    rw [run_eq_self (fun event _ => crashed_step crashed event), crashed] at alive
    cases alive

theorem step_request (alive : state.crashed = false) (isCommand : command ∈ ["connect", "disconnect", "terminate"])
    (found : state.entries id = some entry) (active : isActive entry.heartbeat.state = true) :
    (state.step (.request id command)).tasks = state.tasks ++ [{ client := entry.client, command := command }] := by
  have isOther : command ≠ "start" ∧ (desiredState command).isSome = true := by
    simp only [List.mem_cons, List.not_mem_nil, or_false] at isCommand
    obtain rfl | rfl | rfl := isCommand <;> decide
  simp only [step, alive, Bool.false_eq_true, if_false, if_neg isOther.1, adjust, found, active, isOther.2,
    and_self, if_true]

theorem step_execute {task : SendTask} (alive : state.crashed = false) (isTask : state.tasks[index]? = some task)
    (notDone : task.done = false) :
    ((state.step (.execute index)).crashed = true ↔ task.client = none) ∧
      ∀ client, task.client = some client →
        (state.step (.execute index)).posted = (client.port, task.command) :: state.posted := by
  have isStep : state.step (.execute index) = state.execute index := by
    simp only [step, alive, Bool.false_eq_true, if_false]
  rw [isStep]
  cases isClient : task.client with
  | none => simp [execute, isTask, notDone, isClient]
  | some client => simp [execute, isTask, notDone, isClient, alive]

/-- In every run a lifecycle request, executed whenever, crashes the framework exactly if there was no client for the
ability when it was made; otherwise it goes to the port that the ability had reported last. -/
theorem crash_iff (isCommand : command ∈ ["connect", "disconnect", "terminate"])
    (found : (run step {} before).entries id = some entry) (active : isActive entry.heartbeat.state = true)
    (notYet : .execute (run step {} before).tasks.length ∉ more)
    (alive : (run step {} (before ++ .request id command :: more)).crashed = false) :
    let asked := run step {} (before ++ .request id command :: more)
    let executed := asked.step (.execute (run step {} before).tasks.length)
    (executed.crashed = true ↔ entry.Clientless) ∧
      (¬ entry.Clientless → executed.posted = (entry.heartbeat.ipcPort, command) :: asked.posted) := by
  intro asked executed
  have faithful : Faithful entry := allFaithful_run before id entry found
  have isAsked : asked = run step ((run step {} before).step (.request id command)) more := by
    rw [← run_cons, ← run_append]
  have aliveBefore : (run step {} before).crashed = false := by
    have later : (run step (run step {} before) (.request id command :: more)).crashed = false := by
      rw [← run_append]
      exact alive
    exact not_crashed_before later
  have isTask : asked.tasks[(run step {} before).tasks.length]? = some { client := entry.client, command := command } := by
    rw [isAsked]
    refine task_run ?_ notYet
    rw [step_request aliveBefore isCommand found active, List.getElem?_concat_length]
  obtain ⟨crashes, posts⟩ := step_execute alive isTask rfl
  constructor
  · exact crashes.trans faithful.none_iff
  · intro hasClient
    obtain ⟨client, isClient⟩ := Option.ne_none_iff_exists'.mp fun isNone => hasClient (faithful.none_iff.mp isNone)
    rw [← faithful.port client isClient]
    exact posts client isClient

/-- An ability that speaks `coap`. -/
def coapReport : Report := ⟨⟨1, .running, 5683, 0⟩, .coap⟩

theorem crash_iff_coap :
    let asked := run step {} ([.report coapReport 0] ++ .request 1 "terminate" :: [.report coapReport 1])
    let executed := asked.step (.execute 0)
    (executed.crashed = true ↔ ClientEntry.Clientless ⟨coapReport.heartbeat, 0, none, [coapReport]⟩) ∧
      (¬ ClientEntry.Clientless ⟨coapReport.heartbeat, 0, none, [coapReport]⟩ →
        executed.posted = (5683, "terminate") :: asked.posted) := by
  have notYet : Event.execute 0 ∉ [.report coapReport 1] := by simp
  exact @crash_iff 1 ⟨coapReport.heartbeat, 0, none, [coapReport]⟩ "terminate" [.report coapReport 0]
    [.report coapReport 1] (by decide) rfl rfl notYet rfl

end State

end AbilityFramework.LifecycleMgr.Clients
