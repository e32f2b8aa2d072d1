import AbilityFramework.Library.FileTree
import AbilityFramework.Library.ReadMap
import AbilityFramework.Library.Runs
import AbilityFramework.Uuid

/-! # Rounds of the controller manager

In a round `fetch_and_check_abilities` visits the running abilities, and starts the controller of each that has not sent
a heartbeat lately.  A start leaves no trace in `heartbeats`, so the abilities of one class that are visited before the
new controller reports each start one more (`roundSound_iff`). -/

namespace AbilityFramework.ControllerMgr

open Library

/-! ## The manager -/

structure ControllerHeartbeat where
  port : Int
  controllerInstanceId : String
  package : String
  version : String
  abilityName : String
  protocol : String

structure Entry where
  controllerheartbeat : ControllerHeartbeat
  /-- In nanoseconds. -/
  lastUpdate : Int

structure ControllerManager where
  heartbeats : Relation (Prod.fst : String × Entry → String) := ∅

def ControllerManager.onReceiveHeartbeat (manager : ControllerManager) (controllerheartbeat : ControllerHeartbeat)
    (now : Int) : ControllerManager where
  heartbeats := manager.heartbeats.replaceInto (controllerheartbeat.controllerInstanceId, ⟨controllerheartbeat, now⟩)

/-- 30 s -/
def limit : Int := 30000000000

def ControllerManager.isProcessRunning (manager : ControllerManager) (controllerId : String) (now : Int) : Bool :=
  match manager.heartbeats.lookup controllerId with
  | none => false
  | some (_, entry) => now - entry.lastUpdate < limit

/-- The data of a message `start_controller`. -/
structure StartController where
  controllerPath : Path
  controllerId : String
  protocol : String := "http"
  port : Nat := 8080

/-- `AbilityClassInfo` -/
structure AbilityClassInfo where
  abilityPackageName : String
  abilityVersion : String

def controllerId (info : AbilityClassInfo) (abilityName : String) : String :=
  "controller-" ++ info.abilityPackageName ++ "-" ++ abilityName ++ "-" ++ info.abilityVersion

def controllerPath (packagesPath : Path) (info : AbilityClassInfo) (abilityName : String) : Path :=
  let binPath := ((packagesPath.join info.abilityPackageName).join info.abilityVersion).join "bin"
  binPath.join (abilityName ++ ".controller")

/-- A round asks for the class of an ability, and then for the time and the executable. -/
structure Visit where
  id : Uuid
  abilityName : String
  /-- The ability is passed over where it is an error. -/
  reply : Except String AbilityClassInfo
  now : Int
  isPresent : Path → Bool

/-- The messages that `check_and_start_controllers` sends. -/
def ControllerManager.checkAndStartControllers (packagesPath : Path) (manager : ControllerManager) (visit : Visit)
    (info : AbilityClassInfo) : List StartController :=
  let id := controllerId info visit.abilityName
  let path := controllerPath packagesPath info visit.abilityName
  if manager.isProcessRunning id visit.now then []
  else if !visit.isPresent path then []
  else [{ controllerPath := path, controllerId := id }]

/-! ## Rounds -/

/-- Controllers report while the round goes on. -/
inductive RoundEvent where
  | receive (controllerheartbeat : ControllerHeartbeat) (now : Int)
  | visit (visit : Visit)

def roundStep (manager : ControllerManager) : RoundEvent → ControllerManager
  | .receive controllerheartbeat now => manager.onReceiveHeartbeat controllerheartbeat now
  | .visit _ => manager

section Rounds

variable (packagesPath : Path)

def eventSends (manager : ControllerManager) : RoundEvent → List StartController
  | .receive _ _ => []
  | .visit visit =>
    match visit.reply with
    | .error _ => []
    | .ok info => manager.checkAndStartControllers packagesPath visit info

def roundSends : ControllerManager → List RoundEvent → List StartController
  | _, [] => []
  | manager, event :: events => eventSends packagesPath manager event ++ roundSends (roundStep manager event) events

/-- When the last heartbeat of a controller came, in the round or before it. -/
def lastHeard (manager : ControllerManager) (events : List RoundEvent) (id : String) : Option Int :=
  events.foldl
    (fun heard event =>
      match event with
      | .receive controllerheartbeat now => if controllerheartbeat.controllerInstanceId = id then some now else heard
      | .visit _ => heard)
    ((manager.heartbeats.lookup id).map fun row => row.2.lastUpdate)

/-- The visit is to an ability with this controller, whose executable is there. -/
def Needs (visit : Visit) (id : String) : Prop :=
  ∃ info, visit.reply = .ok info ∧ controllerId info visit.abilityName = id ∧
    visit.isPresent (controllerPath packagesPath info visit.abilityName) = true

/-- The controller has sent a heartbeat within the limit before the visit. -/
def Fresh (manager : ControllerManager) (before : List RoundEvent) (visit : Visit) (id : String) : Prop :=
  ∃ time ∈ lastHeard manager before id, visit.now - time < limit

/-- The visit finds the executable of the controller, and no fresh heartbeat. -/
def Lacks (manager : ControllerManager) (before : List RoundEvent) (visit : Visit) (id : String) : Prop :=
  Needs packagesPath visit id ∧ ¬ Fresh manager before visit id

variable {packagesPath}

theorem lastHeard_cons (manager : ControllerManager) (event : RoundEvent) (events : List RoundEvent) (id : String) :
    lastHeard manager (event :: events) id = lastHeard (roundStep manager event) events id := by
  rw [lastHeard, lastHeard, List.foldl_cons]
  congr 1
  cases event with
  | visit visit => rfl
  | receive controllerheartbeat now =>
    simp only [roundStep, ControllerManager.onReceiveHeartbeat, Relation.lookup_replaceInto]
    by_cases same : controllerheartbeat.controllerInstanceId = id
    · simp [same]
    · simp [same, Ne.symm same]

theorem isProcessRunning_iff {manager : ControllerManager} {visit : Visit} {id : String} :
    manager.isProcessRunning id visit.now = true ↔ Fresh manager [] visit id := by
  simp only [ControllerManager.isProcessRunning, Fresh, lastHeard, List.foldl_nil]
  cases manager.heartbeats.lookup id with
  | none => simp
  | some row => simp

theorem lacks_cons (manager : ControllerManager) (event : RoundEvent) (before : List RoundEvent) (visit : Visit)
    (id : String) : Lacks packagesPath manager (event :: before) visit id ↔
      Lacks packagesPath (roundStep manager event) before visit id := by
  rw [Lacks, Lacks, Fresh, Fresh, lastHeard_cons]

/-- A visit starts the controller that it finds lacking. -/
theorem mem_eventSends {manager : ControllerManager} {event : RoundEvent} {id : String} :
    id ∈ (eventSends packagesPath manager event).map StartController.controllerId ↔
      ∃ visit, event = .visit visit ∧ Lacks packagesPath manager [] visit id := by
  cases event with
  | receive controllerheartbeat now => simp [eventSends]
  | visit visit =>
    simp only [RoundEvent.visit.injEq, exists_eq_left', Lacks, Needs, ← isProcessRunning_iff]
    cases isReply : visit.reply with
    | error error => simp [eventSends, isReply]
    | ok info =>
      simp only [eventSends, isReply, ControllerManager.checkAndStartControllers, Except.ok.injEq, exists_eq_left']
      by_cases running : manager.isProcessRunning (controllerId info visit.abilityName) visit.now = true
      · rw [if_pos running]
        simp only [List.map_nil, List.not_mem_nil, false_iff]
        rintro ⟨⟨rfl, _⟩, missing⟩
        exact missing running
      · rw [if_neg running]
        by_cases present : visit.isPresent (controllerPath packagesPath info visit.abilityName) = true
        · simp only [present, Bool.not_true, Bool.false_eq_true, if_false, List.map_cons, List.map_nil,
            List.mem_singleton, and_true]
          exact ⟨fun same => ⟨same.symm, same ▸ running⟩, fun needed => needed.1.symm⟩
        · simp [present]

theorem length_eventSends (manager : ControllerManager) (event : RoundEvent) :
    (eventSends packagesPath manager event).length ≤ 1 := by
  cases event with
  | receive controllerheartbeat now => simp [eventSends]
  | visit visit =>
    rw [eventSends]
    split
    · simp
    · simp only [ControllerManager.checkAndStartControllers]
      repeat' split
      all_goals simp

theorem fresh_run (manager : ControllerManager) (before : List RoundEvent) (visit : Visit) (id : String) :
    Fresh (Runs.run roundStep manager before) [] visit id ↔ Fresh manager before visit id := by
  have heard : lastHeard (Runs.run roundStep manager before) [] id = lastHeard manager before id := by
    induction before generalizing manager with
    | nil => rfl
    | cons event before inductionHypothesis => rw [Runs.run_cons, inductionHypothesis, lastHeard_cons]
  rw [Fresh, Fresh, heard]

theorem mem_roundSends {manager : ControllerManager} {events : List RoundEvent} {id : String} :
    id ∈ (roundSends packagesPath manager events).map StartController.controllerId ↔
      ∃ before visit after, events = before ++ .visit visit :: after ∧ Lacks packagesPath manager before visit id := by
  induction events generalizing manager with
  | nil => simp [roundSends]
  | cons event events inductionHypothesis =>
    rw [roundSends, List.map_append, List.mem_append, mem_eventSends, inductionHypothesis]
    constructor
    · rintro (⟨visit, rfl, lacks⟩ | ⟨before, visit, after, rfl, lacks⟩)
      · exact ⟨[], visit, events, rfl, lacks⟩
      · exact ⟨event :: before, visit, after, rfl, (lacks_cons ..).mpr lacks⟩
    · rintro ⟨before, visit, after, split, lacks⟩
      cases before with
      | nil =>
        rw [List.nil_append, List.cons.injEq] at split
        exact .inl ⟨visit, split.1, lacks⟩
      | cons first before =>
        rw [List.cons_append, List.cons.injEq] at split
        obtain ⟨rfl, rfl⟩ := split
        exact .inr ⟨before, visit, after, rfl, (lacks_cons ..).mp lacks⟩

variable (packagesPath)

/-- No two visits of the round lack the same controller. -/
def NeverTwice (manager : ControllerManager) (events : List RoundEvent) : Prop :=
  ∀ before first between second after id, events = before ++ .visit first :: (between ++ .visit second :: after) →
    Lacks packagesPath manager before first id →
      ¬ Lacks packagesPath manager (before ++ .visit first :: between) second id

variable {packagesPath}

theorem neverTwice_cons {manager : ControllerManager} {event : RoundEvent} {events : List RoundEvent} :
    NeverTwice packagesPath manager (event :: events) ↔
      (∀ id ∈ (eventSends packagesPath manager event).map StartController.controllerId,
        id ∉ (roundSends packagesPath (roundStep manager event) events).map StartController.controllerId) ∧
      NeverTwice packagesPath (roundStep manager event) events := by
  constructor
  · intro never
    constructor
    · intro id isFirst isSecond
      obtain ⟨first, rfl, firstLacks⟩ := mem_eventSends.mp isFirst
      obtain ⟨between, second, after, rfl, secondLacks⟩ := mem_roundSends.mp isSecond
      exact never [] first between second after id rfl firstLacks ((lacks_cons ..).mpr secondLacks)
    · rintro before first between second after id rfl firstLacks secondLacks
      exact never (event :: before) first between second after id rfl ((lacks_cons ..).mpr firstLacks)
        ((lacks_cons ..).mpr secondLacks)
  · rintro ⟨once, never⟩ before first between second after id split firstLacks secondLacks
    cases before with
    | nil =>
      -- The event is the first of the two visits.
      rw [List.nil_append, List.cons.injEq] at split
      obtain ⟨rfl, rfl⟩ := split
      exact once id (mem_eventSends.mpr ⟨first, rfl, firstLacks⟩)
        (mem_roundSends.mpr ⟨between, second, after, rfl, (lacks_cons ..).mp secondLacks⟩)
    | cons start before =>
      -- Both visits are later.
      rw [List.cons_append, List.cons.injEq] at split
      obtain ⟨rfl, rfl⟩ := split
      exact never before first between second after id rfl ((lacks_cons ..).mp firstLacks)
        ((lacks_cons ..).mp secondLacks)

theorem nodup_roundSends (manager : ControllerManager) (events : List RoundEvent) :
    ((roundSends packagesPath manager events).map StartController.controllerId).Nodup ↔
      NeverTwice packagesPath manager events := by
  induction events generalizing manager with
  | nil => exact iff_of_true List.nodup_nil fun before _ _ _ _ _ split => by simp at split
  | cons event events inductionHypothesis =>
    have single : ((eventSends packagesPath manager event).map StartController.controllerId).Nodup := by
      rw [List.nodup_iff_count_le_one]
      intro id
      exact List.count_le_length.trans ((List.length_map _).trans_le (length_eventSends manager event))
    rw [roundSends, List.map_append, List.nodup_append', inductionHypothesis, neverTwice_cons, and_iff_right single,
      and_comm]
    rfl

variable (packagesPath)

structure RoundSound (manager : ControllerManager) (events : List RoundEvent) : Prop where
  atMostOne : ∀ id, ((roundSends packagesPath manager events).filter (·.controllerId = id)).length ≤ 1
  noneFresh : ∀ before visit after, events = before ++ .visit visit :: after →
    ∀ message ∈ eventSends packagesPath (Runs.run roundStep manager before) (.visit visit),
      ¬ Fresh manager before visit message.controllerId
  someLacking : ∀ before visit after id, events = before ++ .visit visit :: after →
    Lacks packagesPath manager before visit id →
      ∃ message ∈ roundSends packagesPath manager events, message.controllerId = id

/-- Each controller is started once at most if and only if no two visits of the round lack it. -/
theorem roundSound_iff (manager : ControllerManager) (events : List RoundEvent) :
    RoundSound packagesPath manager events ↔ NeverTwice packagesPath manager events := by
  have counts (id : String) : ((roundSends packagesPath manager events).filter (·.controllerId = id)).length =
      ((roundSends packagesPath manager events).map StartController.controllerId).count id := by
    rw [List.count, List.countP_map, List.countP_eq_length_filter]
    rfl
  constructor
  · intro sound
    rw [← nodup_roundSends, List.nodup_iff_count_le_one]
    exact fun id => counts id ▸ sound.atMostOne id
  · intro never
    -- What follows from the condition is the first part only; the others hold of every round.
    refine ⟨fun id => ?_, fun before visit after _ message sent => ?_, fun before visit after id split lacks => ?_⟩
    · rw [counts]
      exact List.nodup_iff_count_le_one.mp ((nodup_roundSends manager events).mpr never) id
    · obtain ⟨_, same, lacks⟩ := mem_eventSends.mp (List.mem_map_of_mem sent)
      cases same
      exact fun fresh => lacks.2 ((fresh_run ..).mpr fresh)
    · obtain ⟨message, sent, same⟩ := List.mem_map.mp (mem_roundSends.mpr ⟨before, visit, after, split, lacks⟩)
      exact ⟨message, sent, same⟩

end Rounds

/-- A lamp of package home, which comes with a controller. -/
def lampVisit (id : Uuid) : Visit where
  id := id
  abilityName := "lamp"
  reply := .ok ⟨"home", "1.0"⟩
  now := 0
  isPresent path := path = ["packages", "home", "1.0", "bin", "lamp.controller"]

def twoLamps : List RoundEvent := [.visit (lampVisit 1), .visit (lampVisit 2)]

/-- Two lamps start their controller twice. -/
theorem twoLamps_startTwice : ¬ RoundSound ["packages"] {} twoLamps := by
  intro sound
  have single := sound.atMostOne "controller-home-lamp-1.0"
  revert single
  decide

end AbilityFramework.ControllerMgr
