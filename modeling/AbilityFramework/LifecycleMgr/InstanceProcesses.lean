import Mathlib.Data.List.Perm.Basic
import AbilityFramework.LifecycleMgr.LifecycleManager

/-! # Ability processes

A start request is checked against the heartbeat map, which its process enters with its first heartbeat
only and leaves when it falls silent for a minute.  The task made of the request starts the process later,
without checking again.  An instance keeps to one process exactly as long as no start request passes the
check while it has a live process or a start that is still to come (`oneProcess_iff_startsAlone`). -/

namespace AbilityFramework.LifecycleMgr

open Library Library.Runs ResourceMgr

variable {shardIndex : Uuid → Fin 8}

/-! ## The model -/

structure Abilities (shardIndex : Uuid → Fin 8) where
  templates : AbilityCRTable
  framework : Framework shardIndex
  /-- The instances of the submitted start tasks whose `start-process` step has not run yet. -/
  starting : List Uuid
  /-- Those of the tasks that wait for the first heartbeat. -/
  waiting : List Uuid
  /-- The instances of the live processes that start tasks have started. -/
  processes : List Uuid

def Abilities.start (templates : AbilityCRTable) : Abilities shardIndex := ⟨templates, .start, [], [], []⟩

/-- `resolve_ability_cr_by_id` -/
def resolveAbilityCrById (templates : AbilityCRTable) (instances : AbilityInstanceTable) (id : Uuid) :
    Option AbilityCR :=
  match getAbilityInstance instances id with
  | some row => some { row.specSnapshot with id }
  | none => getAbilityCr templates id

inductive StartError where
  /-- ability … is already active -/
  | alreadyActive (instanceId : Uuid)
  /-- ability: … not found -/
  | notFound (instanceId : Uuid)
  /-- `ResourceMgr` does not answer. -/
  | sendFailed
  deriving DecidableEq, Repr

/-- The instance for which `make_start_ability_request` makes a task. -/
def makeStartAbilityRequest (state : Abilities shardIndex) (instanceId : Uuid) (delivery : Delivery) :
    Except StartError Uuid :=
  if containsActive state.framework.heartbeats instanceId then .error (.alreadyActive instanceId)
  else if delivery ≠ .answered then .error .sendFailed
  else match resolveAbilityCrById state.templates state.framework.instances instanceId with
  | none => .error (.notFound instanceId)
  | some _ => .ok instanceId

/-- What comes of the `start_process` message. -/
inductive StartProcess where
  | started
  /-- The process is there, but the task is not told so in time. -/
  | unanswered
  | failed
  deriving DecidableEq, Repr

inductive AbilitiesEvent where
  | create (instanceId : Uuid) (crTemplate : AbilityCR)
  | delete (instanceId : Uuid)
  | heartbeat (heartbeat : Heartbeat) (now : Nat) (delivery : Delivery)
  | clearStale (now : Nat)
  /-- A lifecycle request with the command `start`. -/
  | request (instanceId : Uuid) (delivery : Delivery)
  /-- The task at this position of `starting` runs its `start-process` step. -/
  | startProcess (index : Nat) (result : StartProcess)
  /-- The task at this position of `waiting` is resumed, in time or too late. -/
  | awaitHeartbeat (index : Nat) (inTime : Bool)
  /-- The process at this position of `processes` exits. -/
  | exit (index : Nat) (delivery : Delivery)

def abilitiesStep (state : Abilities shardIndex) : AbilitiesEvent → Abilities shardIndex
  | .create instanceId crTemplate =>
    { state with framework := frameworkStep state.framework (.create instanceId crTemplate) }
  | .delete instanceId => { state with framework := frameworkStep state.framework (.delete instanceId) }
  | .heartbeat heartbeat now delivery =>
    { state with framework := frameworkStep state.framework (.heartbeat heartbeat now delivery) }
  | .clearStale now => { state with framework := frameworkStep state.framework (.clearStale now) }
  | .request instanceId delivery =>
    match makeStartAbilityRequest state instanceId delivery with
    | .error _ => state
    | .ok instanceId => { state with starting := state.starting ++ [instanceId] }
  | .startProcess index result =>
    match state.starting[index]? with
    | none => state
    | some instanceId =>
      let rest := { state with starting := state.starting.eraseIdx index }
      match result with
      | .failed => rest
      | .unanswered => { rest with processes := state.processes ++ [instanceId] }
      | .started =>
        { rest with
          processes := state.processes ++ [instanceId]
          waiting := state.waiting ++ [instanceId] }
  | .awaitHeartbeat index inTime =>
    match state.waiting[index]? with
    | none => state
    | some instanceId =>
      -- The task ends with the heartbeat or with a timeout.
      if inTime && !state.framework.heartbeats.contains instanceId then state
      else { state with waiting := state.waiting.eraseIdx index }
  | .exit index delivery =>
    match state.processes[index]? with
    | none => state
    | some instanceId =>
      { state with
        processes := state.processes.eraseIdx index
        framework := frameworkStep state.framework (.exit instanceId delivery) }

/-! ## The property and its condition -/

/-- No two live processes belong to one instance. -/
def OneProcess (state : Abilities shardIndex) : Prop := state.processes.Nodup

instance (state : Abilities shardIndex) : Decidable (OneProcess state) :=
  inferInstanceAs (Decidable state.processes.Nodup)

/-- The start that an event admits. -/
def admittedStart (state : Abilities shardIndex) : AbilitiesEvent → Option Uuid
  | .request instanceId delivery => (makeStartAbilityRequest state instanceId delivery).toOption
  | .create _ _ | .delete _ | .heartbeat _ _ _ | .clearStale _ | .startProcess _ _ | .awaitHeartbeat _ _
  | .exit _ _ => none

/-- The instance of an admitted start has no live process, and no other start of it is to come. -/
def StartsAlone (state : Abilities shardIndex) (event : AbilitiesEvent) : Prop :=
  ∀ instanceId, admittedStart state event = some instanceId →
    instanceId ∉ state.processes ∧ instanceId ∉ state.starting

def AdmitsNoStart (state : Abilities shardIndex) (event : AbilitiesEvent) : Prop :=
  admittedStart state event = none

/-- Instances have at most one process, whatever happens next short of another request: in particular
when the starts to come are carried out. -/
def ProcessesSettle (state : Abilities shardIndex) : Prop :=
  ∀ events, EachStep abilitiesStep AdmitsNoStart state events → OneProcess (run abilitiesStep state events)

/-! ## Processes, present and to come -/

def Abilities.toCome (state : Abilities shardIndex) : List Uuid := state.processes ++ state.starting

variable {state : Abilities shardIndex}

theorem count_eraseIdx {ids : List Uuid} {index : Nat} {taken : Uuid} (found : ids[index]? = some taken)
    (id : Uuid) : (ids.eraseIdx index).count id + [taken].count id = ids.count id := by
  obtain ⟨inside, rfl⟩ := List.getElem?_eq_some_iff.mp found
  rw [← (List.getElem_cons_eraseIdx_perm inside).count_eq id, List.count_cons]
  simp [List.count_cons]

/-- A step adds the start it admits, and otherwise at most takes processes and starts away. -/
theorem count_toCome_step (state : Abilities shardIndex) (event : AbilitiesEvent) (id : Uuid) :
    (abilitiesStep state event).toCome.count id ≤
      state.toCome.count id + (admittedStart state event).toList.count id := by
  cases event with
  | create instanceId crTemplate => exact Nat.le_add_right ..
  | delete instanceId => exact Nat.le_add_right ..
  | heartbeat heartbeat now delivery => exact Nat.le_add_right ..
  | clearStale now => exact Nat.le_add_right ..
  | request instanceId delivery =>
    simp only [abilitiesStep, admittedStart]
    cases makeStartAbilityRequest state instanceId delivery with
    | error error => exact Nat.le_add_right ..
    | ok admitted => simp [Abilities.toCome, Except.toOption, Nat.add_assoc]
  | startProcess index result =>
    simp only [abilitiesStep]
    split
    · exact Nat.le_add_right ..
    · rename_i instanceId found
      -- The process takes the place of the start.
      have moved := count_eraseIdx found id
      cases result with
      | failed => simp only [Abilities.toCome, List.count_append]; omega
      | started | unanswered => simp only [Abilities.toCome, List.count_append]; omega
  | awaitHeartbeat index inTime =>
    simp only [abilitiesStep]
    split
    · exact Nat.le_add_right ..
    · split <;> exact Nat.le_add_right ..
  | exit index delivery =>
    simp only [abilitiesStep]
    split
    · exact Nat.le_add_right ..
    · rename_i instanceId found
      have gone := count_eraseIdx found id
      simp only [Abilities.toCome, List.count_append]
      omega

theorem toCome_of_admitted {event : AbilitiesEvent} {instanceId : Uuid}
    (admitted : admittedStart state event = some instanceId) :
    (abilitiesStep state event).toCome = state.toCome ++ [instanceId] := by
  cases event with
  | request id delivery =>
    simp only [admittedStart, abilitiesStep] at admitted ⊢
    cases made : makeStartAbilityRequest state id delivery with
    | error error =>
      rw [made] at admitted
      cases admitted
    | ok started =>
      rw [made] at admitted
      cases admitted
      simp [Abilities.toCome]
  | create _ _ | delete _ | heartbeat _ _ _ | clearStale _ | startProcess _ _ | awaitHeartbeat _ _ | exit _ _ =>
    cases admitted

/-- The starts to come are carried out, one after another. -/
theorem exists_carryOutStarts (starting : List Uuid) : ∀ state : Abilities shardIndex,
    state.starting = starting → ∃ events, EachStep abilitiesStep AdmitsNoStart state events ∧
      (run abilitiesStep state events).processes = state.toCome := by
  induction starting with
  | nil =>
    intro state isStarting
    exact ⟨[], trivial, by simp [Abilities.toCome, isStarting]⟩
  | cons instanceId starting inductionHypothesis =>
    intro state isStarting
    have first : abilitiesStep state (.startProcess 0 .started) =
        { state with
          starting := starting
          processes := state.processes ++ [instanceId]
          waiting := state.waiting ++ [instanceId] } := by
      simp [abilitiesStep, isStarting]
    obtain ⟨events, admitsNothing, carriedOut⟩ :=
      inductionHypothesis (abilitiesStep state (.startProcess 0 .started)) (by rw [first])
    refine ⟨.startProcess 0 .started :: events, ⟨rfl, admitsNothing⟩, ?_⟩
    rw [run_cons, carriedOut, first]
    simp [Abilities.toCome, isStarting]

/-! ## Runs -/

/-- No instance has two processes, also counting those to come. -/
def Settled (state : Abilities shardIndex) : Prop := state.toCome.Nodup

theorem Settled.oneProcess (settled : Settled state) : OneProcess state :=
  (List.nodup_append.mp settled).1

theorem Settled.step {event : AbilitiesEvent} (settled : Settled state) (alone : StartsAlone state event) :
    Settled (abilitiesStep state event) := by
  unfold Settled at settled ⊢
  rw [List.nodup_iff_count_le_one] at settled ⊢
  intro id
  have counted := count_toCome_step state event id
  have before := settled id
  cases admitted : admittedStart state event with
  | none =>
    rw [admitted] at counted
    exact Nat.le_trans counted before
  | some instanceId =>
    rw [admitted] at counted
    by_cases same : instanceId = id
    · -- The one that is added is the first of its instance.
      obtain ⟨notLive, notStarting⟩ := alone instanceId admitted
      have none : state.toCome.count id = 0 := by
        rw [List.count_eq_zero, Abilities.toCome, List.mem_append, ← same]
        exact not_or.mpr ⟨notLive, notStarting⟩
      rw [none] at counted
      simpa [same] using counted
    · simp only [Option.toList_some, List.count_singleton, beq_iff_eq, same, if_false] at counted
      exact Nat.le_trans counted before

theorem settled_iff_settle : ProcessesSettle state ↔ Settled state := by
  constructor
  · intro settles
    obtain ⟨events, admitsNothing, carriedOut⟩ := exists_carryOutStarts state.starting state rfl
    have nodup := settles events admitsNothing
    rw [OneProcess, carriedOut] at nodup
    exact nodup
  · intro settled events admitsNothing
    refine Settled.oneProcess (run_guarded Settled ?_ state settled events admitsNothing)
    intro later event settledLater nothing
    refine settledLater.step ?_
    intro instanceId admitted
    rw [nothing] at admitted
    cases admitted

theorem settled_start (templates : AbilityCRTable) : Settled (.start templates : Abilities shardIndex) :=
  List.nodup_nil

/-- In a run whose starts are alone every instance has at most one process in every state; and it has so
in every state, also once the starts to come are carried out, in no other run. -/
theorem oneProcess_iff_startsAlone (templates : AbilityCRTable) (events : List AbilitiesEvent) :
    (EachStep abilitiesStep StartsAlone (.start templates : Abilities shardIndex) events →
      Always abilitiesStep OneProcess (.start templates : Abilities shardIndex) events) ∧
    (Always abilitiesStep ProcessesSettle (.start templates : Abilities shardIndex) events ↔
      EachStep abilitiesStep StartsAlone (.start templates : Abilities shardIndex) events) := by
  constructor
  · intro alone
    refine always_of_guarded Settled ?_ ?_ _ (settled_start templates) events alone
    · exact fun state settled => settled.oneProcess
    · exact fun state event settled aloneNow => settled.step aloneNow
  · refine always_exact Settled ?_ ?_ ?_ _ (settled_start templates) events
    · exact fun state settled => settled_iff_settle.mpr settled
    · exact fun state event settled aloneNow => settled.step aloneNow
    · intro state event _ settles instanceId admitted
      have nodup : (state.toCome ++ [instanceId]).Nodup := by
        rw [← toCome_of_admitted admitted]
        exact settled_iff_settle.mp settles
      have fresh : instanceId ∉ state.toCome := by
        intro member
        exact (List.nodup_append.mp nodup).2.2 instanceId member instanceId List.mem_cons_self rfl
      rw [Abilities.toCome, List.mem_append, not_or] at fresh
      exact fresh

/-- An instance of the camera ability is started twice before its first heartbeat. -/
def twoStarts : List AbilitiesEvent :=
  [.create 10
      { id := 1
        metadata := ⟨"camera"⟩
        spec := some ⟨"camera.pkg", "1.0.0", "Camera", "localhost", none, none, none⟩
        runInfo := none },
    .request 10 .answered, .request 10 .answered, .startProcess 0 .started, .startProcess 0 .started]

theorem twoStarts_twoProcesses :
    ¬ OneProcess (run abilitiesStep (.start ∅ : Abilities shardOfId) twoStarts) := by
  decide

end AbilityFramework.LifecycleMgr
