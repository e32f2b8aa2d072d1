import AbilityFramework.Uuid
import AbilityFramework.Library.Runs

/-! # The processes of the framework

`start_process` spawns a process on the thread of the caller and adds its handle to the table afterwards.  The exit of a
process is handled in the event loop and may come in between: the handle is closed, the closed handles are taken out of
the table, and then this one is added.

`run_handles`: what the table holds after every run, what exits are reported, and which processes a shutdown leaves. -/

namespace AbilityFramework.SubprocessMgr

open Library.Runs

structure SubprocessManager where
  /-- The ids of all processes that were spawned. -/
  spawned : List Uuid := []
  /-- Those whose handles are still to be added. -/
  pending : List Uuid := []
  handles : List Uuid := []
  /-- The processes that run. -/
  running : List Uuid := []
  /-- The handles that have data. -/
  data : List Uuid := []
  /-- The handles that `on_exit` closed: the exits of their processes are not reported. -/
  closing : List Uuid := []
  /-- The calls of exit callbacks. -/
  exits : List Uuid := []
  /-- The processes that were sent SIGTERM. -/
  killed : List Uuid := []

inductive ProcessEvent where
  /-- A process is spawned under a new id. -/
  | spawn (id : Uuid)
  | add (id : Uuid)
  /-- A process ends. -/
  | exited (id : Uuid)
  | onExit

namespace SubprocessManager

variable (manager : SubprocessManager)

/-- A handle without data is taken for a removed one. -/
def isClosed (id : Uuid) : Bool := id ∉ manager.data

def cleanup : SubprocessManager := { manager with handles := manager.handles.filter fun id => !manager.isClosed id }

/-- The handler of the exit event. -/
def exitEvent (id : Uuid) : SubprocessManager :=
  cleanup { manager with exits := id :: manager.exits, data := manager.data.filter (· ≠ id) }

def onExit : SubprocessManager :=
  let closed := manager.handles.filter fun id => !manager.isClosed id
  { manager with killed := closed ++ manager.killed, closing := closed ++ manager.closing }

/-- The exit of the process is reported. -/
def Reports : ProcessEvent → Prop
  | .exited id => id ∈ manager.running ∧ id ∉ manager.closing
  | _ => False

def step : ProcessEvent → SubprocessManager
  | .spawn id =>
    if id ∈ manager.spawned then manager
    else { manager with
      spawned := id :: manager.spawned
      pending := id :: manager.pending
      running := id :: manager.running
      data := id :: manager.data }
  | .add id =>
    if id ∈ manager.pending then
      { manager with handles := id :: manager.handles, pending := manager.pending.filter (· ≠ id) }
    else manager
  | .exited id =>
    if id ∈ manager.running then
      let later := { manager with running := manager.running.filter (· ≠ id) }
      if id ∈ manager.closing then later else later.exitEvent id
    else manager
  | .onExit => manager.onExit

/-! ## What every step keeps -/

structure Kept (manager : SubprocessManager) : Prop where
  running : ∀ id ∈ manager.running, id ∈ manager.data ∧ (id ∈ manager.handles ∨ id ∈ manager.pending)
  spawned : ∀ id, id ∈ manager.handles ∨ id ∈ manager.pending ∨ id ∈ manager.exits ∨ id ∈ manager.data → id ∈ manager.spawned
  pending : ∀ id ∈ manager.pending, id ∉ manager.handles
  closed : ∀ id ∈ manager.spawned, id ∈ manager.exits ↔ id ∉ manager.data
  once : manager.exits.Nodup

theorem kept_initial : Kept {} := ⟨by simp, by simp, by simp, by simp, by simp⟩

variable {manager}

theorem kept_spawn (kept : manager.Kept) {id : Uuid} (new : id ∉ manager.spawned) : (manager.step (.spawn id)).Kept := by
  have notHandle : id ∉ manager.handles := fun isHandle => new (kept.spawned id (.inl isHandle))
  have notExit : id ∉ manager.exits := fun isExit => new (kept.spawned id (.inr (.inr (.inl isExit))))
  have isStep : manager.step (.spawn id) = { manager with
      spawned := id :: manager.spawned
      pending := id :: manager.pending
      running := id :: manager.running
      data := id :: manager.data } := if_neg new
  rw [isStep]
  constructor <;> simp only [List.mem_cons]
  · rintro other (rfl | isRunning)
    · exact ⟨.inl rfl, .inr (.inl rfl)⟩
    · obtain ⟨hasData, isHandle | isPending⟩ := kept.running other isRunning
      · exact ⟨.inr hasData, .inl isHandle⟩
      · exact ⟨.inr hasData, .inr (.inr isPending)⟩
  · have := kept.spawned
    grind
  · rintro other (rfl | isPending)
    · exact notHandle
    · exact kept.pending other isPending
  · rintro other (rfl | isSpawned)
    · simp [notExit]
    · have different : other ≠ id := by
        rintro rfl
        exact new isSpawned
      simp [kept.closed other isSpawned, different]
  · exact kept.once

theorem kept_add (kept : manager.Kept) {id : Uuid} (isPending : id ∈ manager.pending) : (manager.step (.add id)).Kept := by
  obtain ⟨running, spawned, pending, closed, once⟩ := kept
  rw [step, if_pos isPending]
  constructor <;> simp only [List.mem_cons, List.mem_filter, decide_eq_true_eq]
  · grind
  · grind
  · grind
  · exact closed
  · exact once

theorem kept_exited (kept : manager.Kept) {id : Uuid} (isRunning : id ∈ manager.running) :
    (manager.step (.exited id)).Kept := by
  obtain ⟨running, spawned, pending, closed, once⟩ := kept
  obtain ⟨hasData, _⟩ := running id isRunning
  have isSpawned := spawned id (.inr (.inr (.inr hasData)))
  have notExit : id ∉ manager.exits := fun isExit => (closed id isSpawned).mp isExit hasData
  rw [step, if_pos isRunning]
  split
  · constructor <;> simp only [List.mem_filter, decide_eq_true_eq]
    · grind
    · exact spawned
    · exact pending
    · exact closed
    · exact once
  · constructor <;> simp only [exitEvent, cleanup, isClosed, List.mem_cons, List.mem_filter, decide_eq_true_eq,
      decide_not, Bool.not_not]
    · grind
    · grind
    · grind
    · grind
    · exact List.nodup_cons.mpr ⟨notExit, once⟩

theorem kept_step (kept : manager.Kept) (event : ProcessEvent) : (manager.step event).Kept := by
  cases event with
  | spawn id =>
    by_cases known : id ∈ manager.spawned
    · rwa [step, if_pos known]
    · exact kept_spawn kept known
  | add id =>
    by_cases isPending : id ∈ manager.pending
    · exact kept_add kept isPending
    · rwa [step, if_neg isPending]
  | exited id =>
    by_cases isRunning : id ∈ manager.running
    · exact kept_exited kept isRunning
    · rwa [step, if_neg isRunning]
  | onExit => exact ⟨kept.running, kept.spawned, kept.pending, kept.closed, kept.once⟩

theorem kept_run (events : List ProcessEvent) : (run step {} events).Kept :=
  run_invariant Kept (fun _ event kept => kept_step kept event) {} kept_initial events

/-! ## Handles that stay behind -/

/-- The process ended before its handle was added, and no exit was reported since. -/
def StaysBehind (events : List ProcessEvent) (id : Uuid) : Prop :=
  ∃ before after, events = before ++ .add id :: after ∧ id ∈ (run step {} before).pending ∧
    id ∈ (run step {} before).exits ∧
    EachStep step (fun manager event => ¬ manager.Reports event) (run step {} (before ++ [.add id])) after

theorem staysBehind_concat (events : List ProcessEvent) (last : ProcessEvent) (id : Uuid) :
    StaysBehind (events ++ [last]) id ↔
      (last = .add id ∧ id ∈ (run step {} events).pending ∧ id ∈ (run step {} events).exits) ∨
        (StaysBehind events id ∧ ¬ (run step {} events).Reports last) := by
  constructor
  · rintro ⟨before, after, isSplit, isPending, isExit, quiet⟩
    obtain ⟨rfl, rfl, rfl⟩ | ⟨rest, rfl, rfl⟩ := concat_eq_split.mp isSplit
    · exact .inl ⟨rfl, isPending, isExit⟩
    · rw [eachStep_append] at quiet
      refine .inr ⟨⟨before, rest, rfl, isPending, isExit, quiet.1⟩, ?_⟩
      have isLast := quiet.2.1
      rwa [← run_append, List.append_assoc, List.singleton_append] at isLast
  · rintro (⟨rfl, isPending, isExit⟩ | ⟨⟨before, after, rfl, isPending, isExit, quiet⟩, silent⟩)
    · exact ⟨events, [], rfl, isPending, isExit, trivial⟩
    · refine ⟨before, after ++ [last], by simp, isPending, isExit, ?_⟩
      rw [eachStep_append]
      refine ⟨quiet, ?_, trivial⟩
      rwa [← run_append, List.append_assoc, List.singleton_append]

/-- What one step does to the handles without data. -/
theorem step_behind (kept : manager.Kept) (event : ProcessEvent) (id : Uuid) :
    (id ∈ (manager.step event).handles ∧ id ∉ (manager.step event).data) ↔
      (event = .add id ∧ id ∈ manager.pending ∧ id ∈ manager.exits) ∨
        (id ∈ manager.handles ∧ id ∉ manager.data ∧ ¬ manager.Reports event) := by
  obtain ⟨running, spawned, pending, closed, once⟩ := kept
  cases event with
  | spawn other =>
    rw [step]
    split
    · simp [Reports]
    · simp [Reports]
      grind
  | add other =>
    rw [step]
    split <;> simp [Reports] <;> grind
  | exited other =>
    rw [step]
    split
    · split <;> simp [Reports, exitEvent, cleanup, isClosed] <;> grind
    · simp [Reports]
      grind
  | onExit => simp [step, onExit, Reports]

theorem behind_iff (events : List ProcessEvent) (id : Uuid) :
    (id ∈ (run step {} events).handles ∧ id ∉ (run step {} events).data) ↔ StaysBehind events id := by
  induction events using List.reverseRecOn with
  | nil => simp [StaysBehind]
  | append_singleton events last inductionHypothesis =>
    rw [run_concat, step_behind (kept_run events), staysBehind_concat, ← inductionHypothesis, and_assoc]

/-- After every run: a process that runs is in the table unless it is still to be added; what the table holds besides
stays behind from processes that ended too early, until an exit is reported; no exit is reported twice or of a process
that runs; and a shutdown leaves exactly those processes alone that are still to be added. -/
theorem run_handles (events : List ProcessEvent) (id : Uuid) :
    (id ∈ (run step {} events).running → id ∈ (run step {} events).handles ∨ id ∈ (run step {} events).pending) ∧
      (id ∈ (run step {} events).handles ∧ id ∉ (run step {} events).data ↔ StaysBehind events id) ∧
      ((run step {} events).exits.Nodup ∧ (id ∈ (run step {} events).exits → id ∉ (run step {} events).running)) ∧
      (id ∈ (run step {} events).running → id ∉ (run step {} events).killed →
        (id ∈ (run step {} (events ++ [.onExit])).killed ↔ id ∉ (run step {} events).pending)) := by
  obtain ⟨running, spawned, pending, closed, once⟩ := kept_run events
  refine ⟨fun isRunning => (running id isRunning).2, behind_iff events id, ⟨once, fun isExit isRunning => ?_⟩, ?_⟩
  · obtain ⟨hasData, _⟩ := running id isRunning
    exact (closed id (spawned id (.inr (.inr (.inr hasData))))).mp isExit hasData
  · intro isRunning notKilled
    obtain ⟨hasData, _⟩ := running id isRunning
    rw [run_concat, step, onExit]
    simp only [List.mem_append, List.mem_filter, isClosed, decide_not, Bool.not_not, decide_eq_true_eq]
    grind

end SubprocessManager

end AbilityFramework.SubprocessMgr
