import Mathlib.Logic.Function.Basic
import Mathlib.Data.Fintype.Basic
import AbilityFramework.Library.Runs

/-! # A pool of workers that serve requests under mutexes

A pool of `size` workers takes requests from one queue.  A request may have to be handled under a
mutex, and while it is handled it may send further requests to the same pool and wait for the reply
of each.  Three things can then hold a worker up: an empty queue, a mutex that another worker holds,
and a reply that another worker has yet to give.

The second half looks at services in which only the requests under one mutex, the guard, send
further requests.  Such a pool is stuck exactly if one worker waits for the reply to a queued request
and all others wait for the guard (`starved_of_stuck`, `stuck_of_starved`); in every other state that
has work left some worker can move (`progress`). -/

namespace AbilityFramework.Library.WorkerPool

open Library.Runs

/-- What serving a request takes: a refused request is answered without its mutex being asked for. -/
structure Service (Request Mutex : Type*) where
  refused : Request → Bool
  mutex : Request → Option Mutex
  calls : Request → List Request

/-- A request in the pool, with the worker that waits for its reply if a worker has sent it. -/
structure Job (Request : Type*) (size : Nat) where
  request : Request
  replyTo : Option (Fin size)
deriving DecidableEq

inductive Worker (Request : Type*) (size : Nat) where
  | idle
  | locking (job : Job Request size)
  | handling (job : Job Request size) (calls : List Request)
  | awaiting (job : Job Request size) (calls : List Request)
  | replied (job : Job Request size)
  | failed (job : Job Request size)
deriving DecidableEq

structure Pool (Request : Type*) (size : Nat) where
  queue : List (Job Request size)
  workers : Fin size → Worker Request size

inductive Event (Request : Type*) (size : Nat) where
  | enqueue (request : Request)
  | dequeue (worker : Fin size)
  | lock (worker : Fin size)
  | call (worker : Fin size)
  | reply (worker : Fin size)
  | finish (worker : Fin size)
  | throw (worker : Fin size)
  | answer (worker : Fin size)

section Definitions

variable {Request Mutex : Type*} {size : Nat}

def Pool.idle : Pool Request size := ⟨[], fun _ => .idle⟩

/-- The job whose mutex, if it has one, the worker holds. -/
def Worker.locked : Worker Request size → Option (Job Request size)
  | .handling job _ | .awaiting job _ | .replied job => some job
  | .idle | .locking _ | .failed _ => none

def Worker.unanswered : Worker Request size → Option (Job Request size)
  | .locking job | .handling job _ | .awaiting job _ | .failed job => some job
  | .idle | .replied _ => none

/-- The event of a worker, as opposed to that of a client. -/
def Event.ofWorker : Event Request size → Bool
  | .enqueue _ => false
  | _ => true

def Worker.resume : Worker Request size → Worker Request size
  | .awaiting job calls => .handling job calls
  | worker => worker

/-- The reply of a job reaches the worker that waits for it. -/
def settle (workers : Fin size → Worker Request size) :
    Option (Fin size) → Fin size → Worker Request size
  | none => workers
  | some caller => Function.update workers caller (workers caller).resume

variable (service : Service Request Mutex)

def held (worker : Worker Request size) : Option Mutex :=
  worker.locked.bind (fun job => service.mutex job.request)

def Contended (pool : Pool Request size) (request : Request) : Prop :=
  service.mutex request ≠ none ∧ ∃ other, held service (pool.workers other) = service.mutex request

/-- What a worker in the given state waits for: a mutex that is held, or the reply to a request that
is itself still queued. -/
def HeldUp (pool : Pool Request size) (worker : Fin size) : Worker Request size → Prop
  | .locking job => Contended service pool job.request
  | .awaiting _ _ => ∃ job ∈ pool.queue, job.replyTo = some worker
  | .idle | .handling _ _ | .replied _ | .failed _ => False

def Blocked (pool : Pool Request size) (worker : Fin size) : Prop :=
  HeldUp service pool worker (pool.workers worker)

def Stuck (pool : Pool Request size) : Prop :=
  pool.queue ≠ [] ∧ ∀ worker, Blocked service pool worker

def Unfinished (pool : Pool Request size) : Prop :=
  pool.queue ≠ [] ∨ ∃ worker, pool.workers worker ≠ .idle

variable [DecidableEq Mutex]

instance (pool : Pool Request size) (request : Request) : Decidable (Contended service pool request) :=
  inferInstanceAs (Decidable (_ ∧ _))

def attempt (pool : Pool Request size) : Event Request size → Option (Pool Request size)
  | .enqueue request => some { pool with queue := pool.queue ++ [⟨request, none⟩] }
  | .dequeue worker =>
    match pool.workers worker, pool.queue with
    | .idle, job :: queue =>
      -- A refused request never gets to its mutex.
      let taken := if service.refused job.request then .failed job else .locking job
      some { queue := queue, workers := Function.update pool.workers worker taken }
    | _, _ => none
  | .lock worker =>
    match pool.workers worker with
    | .locking job =>
      if Contended service pool job.request then none
      else
        -- From here on the mutex is held until the worker has finished or failed.
        let handling := Worker.handling job (service.calls job.request)
        some { pool with workers := Function.update pool.workers worker handling }
    | _ => none
  | .call worker =>
    match pool.workers worker with
    | .handling job (request :: calls) =>
      some { queue := pool.queue ++ [⟨request, some worker⟩]
             workers := Function.update pool.workers worker (.awaiting job calls) }
    | _ => none
  | .reply worker =>
    match pool.workers worker with
    | .handling job _ =>
      let workers := Function.update pool.workers worker (.replied job)
      some { pool with workers := settle workers job.replyTo }
    | _ => none
  | .finish worker =>
    match pool.workers worker with
    | .replied _ => some { pool with workers := Function.update pool.workers worker .idle }
    | _ => none
  | .throw worker =>
    match pool.workers worker with
    | .handling job _ => some { pool with workers := Function.update pool.workers worker (.failed job) }
    | _ => none
  | .answer worker =>
    match pool.workers worker with
    | .failed job =>
      let workers := Function.update pool.workers worker .idle
      some { pool with workers := settle workers job.replyTo }
    | _ => none

def step (pool : Pool Request size) (event : Event Request size) : Pool Request size :=
  (attempt service pool event).getD pool

instance (pool : Pool Request size) (worker : Fin size) :
    (state : Worker Request size) → Decidable (HeldUp service pool worker state)
  | .locking job => inferInstanceAs (Decidable (Contended service pool job.request))
  | .awaiting _ _ => inferInstanceAs (Decidable (∃ job ∈ pool.queue, job.replyTo = some worker))
  | .idle | .handling _ _ | .replied _ | .failed _ => inferInstanceAs (Decidable False)

instance (pool : Pool Request size) (worker : Fin size) : Decidable (Blocked service pool worker) :=
  inferInstanceAs (Decidable (HeldUp ..))

instance [DecidableEq Request] (pool : Pool Request size) : Decidable (Stuck service pool) :=
  inferInstanceAs (Decidable (_ ∧ _))

def CanMove (pool : Pool Request size) : Prop :=
  ∃ event, event.ofWorker = true ∧ (attempt service pool event).isSome

end Definitions

variable {Request Mutex : Type*} {size : Nat} {service : Service Request Mutex}

/-! ## What an event does -/

inductive Moves (service : Service Request Mutex) (pool : Pool Request size) :
    Event Request size → Pool Request size → Prop where
  | enqueue (request : Request) :
      Moves service pool (.enqueue request) { pool with queue := pool.queue ++ [⟨request, none⟩] }
  | dequeue {worker job queue taken} (free : pool.workers worker = .idle)
      (queued : pool.queue = job :: queue)
      (takes : taken = if service.refused job.request then .failed job else .locking job) :
      Moves service pool (.dequeue worker) ⟨queue, Function.update pool.workers worker taken⟩
  | lock {worker job} (waits : pool.workers worker = .locking job)
      (available : ¬ Contended service pool job.request) :
      Moves service pool (.lock worker)
        ⟨pool.queue, Function.update pool.workers worker (.handling job (service.calls job.request))⟩
  | call {worker job request calls} (handles : pool.workers worker = .handling job (request :: calls)) :
      Moves service pool (.call worker)
        ⟨pool.queue ++ [⟨request, some worker⟩], Function.update pool.workers worker (.awaiting job calls)⟩
  | reply {worker job calls} (handles : pool.workers worker = .handling job calls) :
      Moves service pool (.reply worker)
        ⟨pool.queue, settle (Function.update pool.workers worker (.replied job)) job.replyTo⟩
  | finish {worker job} (replied : pool.workers worker = .replied job) :
      Moves service pool (.finish worker) ⟨pool.queue, Function.update pool.workers worker .idle⟩
  | throw {worker job calls} (handles : pool.workers worker = .handling job calls) :
      Moves service pool (.throw worker)
        ⟨pool.queue, Function.update pool.workers worker (.failed job)⟩
  | answer {worker job} (failed : pool.workers worker = .failed job) :
      Moves service pool (.answer worker)
        ⟨pool.queue, settle (Function.update pool.workers worker .idle) job.replyTo⟩

section Attempts

variable [DecidableEq Mutex]

theorem moves_of_attempt {pool next : Pool Request size} {event : Event Request size}
    (attempted : attempt service pool event = some next) : Moves service pool event next := by
  cases event with
  | enqueue request =>
    simp only [attempt, Option.some.injEq] at attempted
    exact attempted ▸ .enqueue request
  | dequeue worker =>
    simp only [attempt] at attempted
    split at attempted
    · rename_i job queue free queued
      simp only [Option.some.injEq] at attempted
      exact attempted ▸ .dequeue free queued rfl
    · cases attempted
  | lock worker =>
    simp only [attempt] at attempted
    split at attempted
    · rename_i job waits
      split_ifs at attempted with available
      simp only [Option.some.injEq] at attempted
      exact attempted ▸ .lock waits available
    · cases attempted
  | call worker =>
    simp only [attempt] at attempted
    split at attempted
    · rename_i job request calls handles
      simp only [Option.some.injEq] at attempted
      exact attempted ▸ .call handles
    · cases attempted
  | reply worker =>
    simp only [attempt] at attempted
    split at attempted
    · rename_i job calls handles
      simp only [Option.some.injEq] at attempted
      exact attempted ▸ .reply handles
    · cases attempted
  | finish worker =>
    simp only [attempt] at attempted
    split at attempted
    · rename_i job replied
      simp only [Option.some.injEq] at attempted
      exact attempted ▸ .finish replied
    · cases attempted
  | throw worker =>
    simp only [attempt] at attempted
    split at attempted
    · rename_i job calls handles
      simp only [Option.some.injEq] at attempted
      exact attempted ▸ .throw handles
    · cases attempted
  | answer worker =>
    simp only [attempt] at attempted
    split at attempted
    · rename_i job failed
      simp only [Option.some.injEq] at attempted
      exact attempted ▸ .answer failed
    · cases attempted

/-- A step moves the pool or, where the event is not enabled, leaves it as it is. -/
theorem step_cases (service : Service Request Mutex) (pool : Pool Request size) (event : Event Request size) :
    step service pool event = pool ∨ Moves service pool event (step service pool event) := by
  unfold step
  cases attempted : attempt service pool event with
  | none => exact .inl rfl
  | some next => exact .inr (moves_of_attempt attempted)

end Attempts

/-! ### Settling a reply -/

theorem settle_cases (workers : Fin size → Worker Request size) (replyTo : Option (Fin size))
    (worker : Fin size) :
    (settle workers replyTo worker = workers worker ∧
      ∀ job calls, workers worker = .awaiting job calls → replyTo ≠ some worker) ∨
    (∃ job calls, workers worker = .awaiting job calls ∧ replyTo = some worker ∧
      settle workers replyTo worker = .handling job calls) := by
  cases replyTo with
  | none => exact .inl ⟨rfl, nofun⟩
  | some caller =>
    by_cases same : worker = caller
    · subst same
      simp only [settle, Function.update_self]
      cases workers worker with
      | awaiting job calls => exact .inr ⟨job, calls, rfl, trivial, rfl⟩
      | _ => exact .inl ⟨rfl, nofun⟩
    · refine .inl ⟨Function.update_of_ne same .., ?_⟩
      intro _ _ _ equal
      exact same (Option.some.inj equal).symm

theorem settle_update_self {workers : Fin size → Worker Request size} {worker : Fin size}
    {state : Worker Request size} (moved : ∀ job calls, state ≠ .awaiting job calls)
    (replyTo : Option (Fin size)) :
    settle (Function.update workers worker state) replyTo worker = state := by
  obtain ⟨same, _⟩ | ⟨job, calls, waits, _, _⟩ :=
    settle_cases (Function.update workers worker state) replyTo worker
  · rw [same, Function.update_self]
  · rw [Function.update_self] at waits
    exact absurd waits (moved job calls)

@[simp] theorem held_settle (workers : Fin size → Worker Request size) (replyTo : Option (Fin size))
    (worker : Fin size) : held service (settle workers replyTo worker) = held service (workers worker) := by
  obtain ⟨same, _⟩ | ⟨job, calls, waits, _, settled⟩ := settle_cases workers replyTo worker
  · rw [same]
  · rw [settled, waits]
    rfl

@[simp] theorem unanswered_settle (workers : Fin size → Worker Request size) (replyTo : Option (Fin size))
    (worker : Fin size) : (settle workers replyTo worker).unanswered = (workers worker).unanswered := by
  obtain ⟨same, _⟩ | ⟨job, calls, waits, _, settled⟩ := settle_cases workers replyTo worker
  · rw [same]
  · rw [settled, waits]
    rfl

theorem awaiting_of_settle {workers : Fin size → Worker Request size} {replyTo : Option (Fin size)}
    {worker : Fin size} {job : Job Request size} {calls : List Request}
    (waits : settle workers replyTo worker = .awaiting job calls) :
    workers worker = .awaiting job calls ∧ replyTo ≠ some worker := by
  obtain ⟨same, other⟩ | ⟨_, _, _, _, settled⟩ := settle_cases workers replyTo worker
  · exact ⟨same ▸ waits, other job calls (same ▸ waits)⟩
  · rw [settled] at waits
    cases waits

theorem awaiting_of_update {workers : Fin size → Worker Request size} {worker other : Fin size}
    {state : Worker Request size} {job : Job Request size} {calls : List Request}
    (moved : ∀ job calls, state ≠ .awaiting job calls)
    (waits : Function.update workers worker state other = .awaiting job calls) :
    other ≠ worker ∧ workers other = .awaiting job calls := by
  by_cases equal : other = worker
  · rw [equal, Function.update_self] at waits
    exact absurd waits (moved job calls)
  · rw [Function.update_of_ne equal] at waits
    exact ⟨equal, waits⟩

/-! ### Where a job is -/

def InPool (pool : Pool Request size) (job : Job Request size) : Prop :=
  job ∈ pool.queue ∨ ∃ worker, (pool.workers worker).unanswered = some job

/-- The job that an event answers. -/
def Answers (pool : Pool Request size) (job : Job Request size) : Event Request size → Prop
  | .reply worker => ∃ calls, pool.workers worker = .handling job calls
  | .answer worker => pool.workers worker = .failed job
  | _ => False

/-- The job that an event adds. -/
def Adds (pool : Pool Request size) (job : Job Request size) : Event Request size → Prop
  | .enqueue request => job = ⟨request, none⟩
  | .call worker => ∃ outer request calls,
      pool.workers worker = .handling outer (request :: calls) ∧ job = ⟨request, some worker⟩
  | _ => False

theorem unanswered_update {workers : Fin size → Worker Request size} {worker : Fin size}
    {state : Worker Request size} (same : state.unanswered = (workers worker).unanswered) (other : Fin size) :
    (Function.update workers worker state other).unanswered = (workers other).unanswered := by
  by_cases equal : other = worker
  · rw [equal, Function.update_self, same]
  · rw [Function.update_of_ne equal]

theorem InPool.of_update {pool : Pool Request size} {worker : Fin size} {state : Worker Request size}
    {job : Job Request size} (same : state.unanswered = (pool.workers worker).unanswered)
    (present : InPool ⟨pool.queue, Function.update pool.workers worker state⟩ job) : InPool pool job := by
  obtain queued | ⟨holder, holds⟩ := present
  · exact .inl queued
  · exact .inr ⟨holder, by rwa [unanswered_update same] at holds⟩

/-- A worker that is done with its job brings in none. -/
theorem InPool.of_settle {pool : Pool Request size} {worker : Fin size} {state : Worker Request size}
    {job : Job Request size} {replyTo : Option (Fin size)} (done : state.unanswered = none)
    (present : InPool ⟨pool.queue, settle (Function.update pool.workers worker state) replyTo⟩ job) :
    InPool pool job := by
  obtain queued | ⟨holder, holds⟩ := present
  · exact .inl queued
  · by_cases equal : holder = worker
    · rw [unanswered_settle, equal, Function.update_self, done] at holds
      cases holds
    · rw [unanswered_settle, Function.update_of_ne equal] at holds
      exact .inr ⟨holder, holds⟩

/-- An event loses no job but the one it answers. -/
theorem Moves.keeps {pool next : Pool Request size} {event : Event Request size} {job : Job Request size}
    (moves : Moves service pool event next) (present : InPool pool job) :
    InPool next job ∨ Answers pool job event := by
  obtain queued | ⟨holder, holds⟩ := present
  · cases moves with
    | enqueue request => exact .inl (.inl (List.mem_append_left _ queued))
    | @dequeue worker head queue taken free split takes =>
      obtain rfl | later := List.mem_cons.mp (split ▸ queued)
      · refine .inl (.inr ⟨worker, ?_⟩)
        simp only [Function.update_self, takes]
        split_ifs <;> rfl
      · exact .inl (.inl later)
    | call handles => exact .inl (.inl (List.mem_append_left _ queued))
    | lock | reply | finish | throw | answer => exact .inl (.inl queued)
  · cases moves with
    | enqueue request => exact .inl (.inr ⟨holder, holds⟩)
    | @dequeue worker head queue taken free split takes =>
      have other : holder ≠ worker := by
        rintro rfl
        rw [free] at holds
        cases holds
      exact .inl (.inr ⟨holder, by simp only [Function.update_of_ne other, holds]⟩)
    | lock waits => exact .inl (.inr ⟨holder, by rw [unanswered_update (by rw [waits]; rfl), holds]⟩)
    | call handles => exact .inl (.inr ⟨holder, by rw [unanswered_update (by rw [handles]; rfl), holds]⟩)
    | @reply worker handled calls handles =>
      by_cases equal : holder = worker
      · rw [equal, handles] at holds
        exact .inr ⟨calls, by rw [handles, Option.some.inj holds]⟩
      · exact .inl (.inr ⟨holder, by rw [unanswered_settle, Function.update_of_ne equal, holds]⟩)
    | finish replied => exact .inl (.inr ⟨holder, by rw [unanswered_update (by rw [replied]; rfl), holds]⟩)
    | throw handles => exact .inl (.inr ⟨holder, by rw [unanswered_update (by rw [handles]; rfl), holds]⟩)
    | @answer worker lost failed =>
      by_cases equal : holder = worker
      · rw [equal, failed] at holds
        exact .inr (by rw [Answers, failed, Option.some.inj holds])
      · exact .inl (.inr ⟨holder, by rw [unanswered_settle, Function.update_of_ne equal, holds]⟩)

/-- An event brings in no job but the one it adds. -/
theorem Moves.origin {pool next : Pool Request size} {event : Event Request size} {job : Job Request size}
    (moves : Moves service pool event next) (present : InPool next job) :
    InPool pool job ∨ Adds pool job event := by
  cases moves with
  | enqueue request =>
    obtain queued | holds := present
    · obtain queued | added := List.mem_append.mp queued
      · exact .inl (.inl queued)
      · exact .inr (List.mem_singleton.mp added)
    · exact .inl (.inr holds)
  | @dequeue worker head queue taken free split takes =>
    obtain queued | ⟨holder, holds⟩ := present
    · exact .inl (.inl (split ▸ List.mem_cons_of_mem _ queued))
    · by_cases equal : holder = worker
      · have same : taken.unanswered = some head := by
          rw [takes]
          split_ifs <;> rfl
        simp only [equal, Function.update_self, same] at holds
        exact .inl (.inl (by rw [split, Option.some.inj holds]; exact List.mem_cons_self))
      · simp only [Function.update_of_ne equal] at holds
        exact .inl (.inr ⟨holder, holds⟩)
  | lock waits => exact .inl (present.of_update (by rw [waits]; rfl))
  | @call worker outer request calls handles =>
    obtain queued | ⟨holder, holds⟩ := present
    · obtain queued | added := List.mem_append.mp queued
      · exact .inl (.inl queued)
      · exact .inr ⟨outer, request, calls, handles, List.mem_singleton.mp added⟩
    · exact .inl (.inr ⟨holder, by rwa [unanswered_update (by rw [handles]; rfl)] at holds⟩)
  | reply handles => exact .inl (present.of_settle rfl)
  | finish replied => exact .inl (present.of_update (by rw [replied]; rfl))
  | throw handles => exact .inl (present.of_update (by rw [handles]; rfl))
  | answer failed => exact .inl (present.of_settle rfl)

/-! ### What becomes of a worker -/

/-- What one event can make of one worker. -/
inductive Turns (service : Service Request Mutex) : Worker Request size → Worker Request size → Prop where
  | stay (worker) : Turns service worker worker
  | refuse (job) : Turns service .idle (.failed job)
  | take (job) : Turns service .idle (.locking job)
  | lock (job) : Turns service (.locking job) (.handling job (service.calls job.request))
  | call (job request calls) : Turns service (.handling job (request :: calls)) (.awaiting job calls)
  | resume (job calls) : Turns service (.awaiting job calls) (.handling job calls)
  | reply (job calls) : Turns service (.handling job calls) (.replied job)
  | throw (job calls) : Turns service (.handling job calls) (.failed job)
  | finish (job) : Turns service (.replied job) .idle
  | answer (job) : Turns service (.failed job) .idle

theorem turns_update {workers : Fin size → Worker Request size} {worker : Fin size}
    {state : Worker Request size} (turns : Turns service (workers worker) state) (other : Fin size) :
    Turns service (workers other) (Function.update workers worker state other) := by
  by_cases equal : other = worker
  · rw [equal, Function.update_self]
    exact turns
  · rw [Function.update_of_ne equal]
    exact .stay _

theorem turns_settle {workers : Fin size → Worker Request size} {worker : Fin size}
    {state : Worker Request size} (turns : Turns service (workers worker) state)
    (moved : ∀ job calls, state ≠ .awaiting job calls) (replyTo : Option (Fin size)) (other : Fin size) :
    Turns service (workers other) (settle (Function.update workers worker state) replyTo other) := by
  obtain ⟨same, _⟩ | ⟨job, calls, waits, _, settled⟩ :=
    settle_cases (Function.update workers worker state) replyTo other
  · rw [same]
    exact turns_update turns other
  · have different : other ≠ worker := by
      rintro rfl
      rw [Function.update_self] at waits
      exact moved job calls waits
    rw [Function.update_of_ne different] at waits
    rw [settled, waits]
    exact .resume job calls

theorem Moves.turns {pool next : Pool Request size} {event : Event Request size}
    (moves : Moves service pool event next) (worker : Fin size) :
    Turns service (pool.workers worker) (next.workers worker) := by
  cases moves with
  | enqueue request => exact .stay _
  | @dequeue taker job queue taken free queued takes =>
    refine turns_update ?_ worker
    rw [free, takes]
    split_ifs
    · exact .refuse job
    · exact .take job
  | lock waits => exact turns_update (by rw [waits]; exact .lock _) worker
  | call handles => exact turns_update (by rw [handles]; exact .call ..) worker
  | reply handles => exact turns_settle (by rw [handles]; exact .reply ..) (by simp) _ worker
  | finish replied => exact turns_update (by rw [replied]; exact .finish _) worker
  | throw handles => exact turns_update (by rw [handles]; exact .throw ..) worker
  | answer failed => exact turns_settle (by rw [failed]; exact .answer _) (by simp) _ worker

theorem held_update {workers : Fin size → Worker Request size} {worker other : Fin size}
    {state : Worker Request size} {mutex : Mutex}
    (kept : held service state = none ∨ held service state = held service (workers worker))
    (holds : held service (Function.update workers worker state other) = some mutex) :
    held service (workers other) = some mutex := by
  by_cases equal : other = worker
  · rw [equal, Function.update_self] at holds
    obtain none | same := kept
    · rw [none] at holds
      cases holds
    · rw [equal, ← same, holds]
  · rwa [Function.update_of_ne equal] at holds

/-- A mutex is taken only by the worker that locks, and only while nobody holds it. -/
theorem Moves.holds {pool next : Pool Request size} {event : Event Request size} {worker : Fin size}
    {mutex : Mutex} (moves : Moves service pool event next)
    (holds : held service (next.workers worker) = some mutex) :
    held service (pool.workers worker) = some mutex ∨
      event = .lock worker ∧ ∀ other, held service (pool.workers other) ≠ some mutex := by
  cases moves with
  | enqueue request => exact .inl holds
  | @dequeue taker job queue taken free queued takes =>
    refine .inl (held_update (.inl ?_) holds)
    rw [takes]
    split_ifs <;> rfl
  | @lock taker job waits available =>
    by_cases equal : worker = taker
    · simp only [equal, Function.update_self] at holds
      refine .inr ⟨by rw [equal], ?_⟩
      intro other otherHolds
      have needs : service.mutex job.request = some mutex := holds
      -- `lock` is enabled only where nobody holds the mutex.
      exact available ⟨by simp [needs], other, by rw [otherHolds, needs]⟩
    · simp only [Function.update_of_ne equal] at holds
      exact .inl holds
  | call handles => exact .inl (held_update (.inr (by rw [handles]; rfl)) holds)
  | reply handles =>
    rw [held_settle] at holds
    exact .inl (held_update (.inr (by rw [handles]; rfl)) holds)
  | finish replied => exact .inl (held_update (.inl rfl) holds)
  | throw handles => exact .inl (held_update (.inl rfl) holds)
  | answer failed =>
    rw [held_settle] at holds
    exact .inl (held_update (.inl rfl) holds)

/-- A worker that waits for a reply waited before, for a request that is not answered by the event,
or has just sent one. -/
theorem Moves.waits {pool next : Pool Request size} {event : Event Request size} {worker : Fin size}
    {job : Job Request size} {calls : List Request} (moves : Moves service pool event next)
    (waits : next.workers worker = .awaiting job calls) :
    (pool.workers worker = .awaiting job calls ∧
      ∀ answered, Answers pool answered event → answered.replyTo ≠ some worker) ∨
    ∃ request, InPool next ⟨request, some worker⟩ := by
  cases moves with
  | enqueue request => exact .inl ⟨waits, fun _ answers => answers.elim⟩
  | @dequeue taker head queue taken free queued takes =>
    by_cases equal : worker = taker
    · simp only [equal, Function.update_self, takes] at waits
      split_ifs at waits
    · simp only [Function.update_of_ne equal] at waits
      exact .inl ⟨waits, fun _ answers => answers.elim⟩
  | lock waiting available =>
    exact .inl ⟨(awaiting_of_update (by simp) waits).2, fun _ answers => answers.elim⟩
  | @call caller outer request rest handles =>
    by_cases equal : worker = caller
    · rw [equal]
      exact .inr ⟨request, .inl (List.mem_append_right _ List.mem_cons_self)⟩
    · simp only [Function.update_of_ne equal] at waits
      exact .inl ⟨waits, fun _ answers => answers.elim⟩
  | @reply replier handled rest handles =>
    obtain ⟨before, unanswered⟩ := awaiting_of_settle waits
    refine .inl ⟨(awaiting_of_update (by simp) before).2, ?_⟩
    rintro answered ⟨others, same⟩
    rw [handles] at same
    rwa [← (Worker.handling.inj same).1]
  | finish replied =>
    exact .inl ⟨(awaiting_of_update (by simp) waits).2, fun _ answers => answers.elim⟩
  | throw handles =>
    exact .inl ⟨(awaiting_of_update (by simp) waits).2, fun _ answers => answers.elim⟩
  | @answer answerer lost failed =>
    obtain ⟨before, unanswered⟩ := awaiting_of_settle waits
    refine .inl ⟨(awaiting_of_update (by simp) before).2, ?_⟩
    intro answered same
    have same : pool.workers answerer = .failed answered := same
    rw [failed] at same
    rwa [← Worker.failed.inj same]

/-! ## The invariant -/

/-- The calls a handler has yet to make are calls of its request, and only a handler that makes calls
waits for a reply. -/
def Worker.WellFormed (service : Service Request Mutex) : Worker Request size → Prop
  | .handling job calls => calls ⊆ service.calls job.request
  | .awaiting job calls => calls ⊆ service.calls job.request ∧ service.calls job.request ≠ []
  | _ => True

structure Sound (service : Service Request Mutex) (pool : Pool Request size) : Prop where
  exclusive : ∀ first second mutex, held service (pool.workers first) = some mutex →
    held service (pool.workers second) = some mutex → first = second
  wellFormed : ∀ worker, (pool.workers worker).WellFormed service
  sent : ∀ job, InPool pool job → job.replyTo ≠ none → ∃ outer, job.request ∈ service.calls outer
  answerable : ∀ worker job calls, pool.workers worker = .awaiting job calls →
    ∃ sent, InPool pool sent ∧ sent.replyTo = some worker

theorem Turns.wellFormed {worker next : Worker Request size} (turns : Turns service worker next)
    (wellFormed : worker.WellFormed service) : next.WellFormed service := by
  cases turns with
  | stay => exact wellFormed
  | lock job => exact List.Subset.refl _
  | call job request calls =>
    exact ⟨List.subset_of_cons_subset wellFormed, List.ne_nil_of_mem (wellFormed List.mem_cons_self)⟩
  | resume job calls => exact wellFormed.1
  | refuse | take | reply | throw | finish | answer => trivial

theorem sound_idle : Sound service (Pool.idle : Pool Request size) where
  exclusive := by
    intro first second mutex holds
    cases holds
  wellFormed := fun _ => trivial
  sent := by
    rintro job (queued | ⟨worker, holds⟩)
    · cases queued
    · cases holds
  answerable := by
    intro worker job calls waits
    cases waits

theorem Sound.moves {pool next : Pool Request size} {event : Event Request size}
    (sound : Sound service pool) (moves : Moves service pool event next) : Sound service next where
  exclusive := by
    intro first second mutex firstHolds secondHolds
    obtain firstHeld | ⟨locks, unheld⟩ := moves.holds firstHolds
    · obtain secondHeld | ⟨_, unheld⟩ := moves.holds secondHolds
      · exact sound.exclusive first second mutex firstHeld secondHeld
      · exact absurd firstHeld (unheld first)
    · obtain secondHeld | ⟨alsoLocks, _⟩ := moves.holds secondHolds
      · exact absurd secondHeld (unheld second)
      · exact Event.lock.inj (locks.symm.trans alsoLocks)
  wellFormed := fun worker => (moves.turns worker).wellFormed (sound.wellFormed worker)
  sent := by
    intro job present fromWorker
    obtain before | adds := moves.origin present
    · exact sound.sent job before fromWorker
    · cases event with
      | enqueue request =>
        -- What a client enqueues has nobody to reply to, so the case is void.
        have fromClient : job = ⟨request, none⟩ := adds
        rw [fromClient] at fromWorker
        exact absurd rfl fromWorker
      | call worker =>
        obtain ⟨outer, request, calls, handles, rfl⟩ := adds
        have subset := sound.wellFormed worker
        rw [handles] at subset
        exact ⟨outer.request, subset List.mem_cons_self⟩
      | dequeue | lock | reply | finish | throw | answer => exact adds.elim
  answerable := by
    intro worker job calls waits
    obtain ⟨before, unanswered⟩ | ⟨request, present⟩ := moves.waits waits
    · obtain ⟨sent, present, replyTo⟩ := sound.answerable worker job calls before
      obtain kept | answers := moves.keeps present
      · exact ⟨sent, kept, replyTo⟩
      · exact absurd replyTo (unanswered sent answers)
    · exact ⟨_, present, rfl⟩

/-! ## Guarded services

Only requests under the guard send requests, and what they send is not under the guard. -/

structure Guarded (service : Service Request Mutex) (guard : Mutex) : Prop where
  callers : ∀ request, service.calls request ≠ [] → service.mutex request = some guard
  callees : ∀ request, ∀ called ∈ service.calls request, service.mutex called ≠ some guard

/-- The worker waits for the reply to a request that no worker has taken yet. -/
def Starved (pool : Pool Request size) (worker : Fin size) : Prop :=
  ∃ job calls, pool.workers worker = .awaiting job calls ∧ ∃ sent ∈ pool.queue, sent.replyTo = some worker

def AtMutex (service : Service Request Mutex) (mutex : Mutex) (pool : Pool Request size)
    (worker : Fin size) : Prop :=
  ∃ job, pool.workers worker = .locking job ∧ service.mutex job.request = some mutex

section Guard

variable {guard : Mutex} {pool : Pool Request size}

theorem held_of_awaiting (guarded : Guarded service guard) (sound : Sound service pool) {worker : Fin size}
    {job : Job Request size} {calls : List Request} (waits : pool.workers worker = .awaiting job calls) :
    held service (pool.workers worker) = some guard := by
  have wellFormed := sound.wellFormed worker
  rw [waits] at wellFormed ⊢
  exact guarded.callers job.request wellFormed.2

theorem calls_of_sent (guarded : Guarded service guard) (sound : Sound service pool) {job : Job Request size}
    (present : InPool pool job) (fromWorker : job.replyTo ≠ none) :
    service.mutex job.request ≠ some guard ∧ service.calls job.request = [] := by
  obtain ⟨outer, called⟩ := sound.sent job present fromWorker
  have elsewhere := guarded.callees outer job.request called
  refine ⟨elsewhere, ?_⟩
  by_contra callsMore
  exact elsewhere (guarded.callers job.request callsMore)

theorem stuck_of_starved (guarded : Guarded service guard) (sound : Sound service pool) {caller : Fin size}
    (starved : Starved pool caller) (others : ∀ other, other ≠ caller → AtMutex service guard pool other) :
    Stuck service pool := by
  obtain ⟨job, calls, waits, sent, queued, replyTo⟩ := starved
  refine ⟨List.ne_nil_of_mem queued, ?_⟩
  intro worker
  by_cases same : worker = caller
  · rw [same, Blocked, waits]
    exact ⟨sent, queued, replyTo⟩
  · obtain ⟨blocked, locking, needs⟩ := others worker same
    rw [Blocked, locking]
    exact ⟨by simp [needs], caller, by rw [held_of_awaiting guarded sound waits, needs]⟩

/-- A worker that holds a mutex and is blocked waits for a reply, and so holds the guard. -/
theorem starved_of_holds (guarded : Guarded service guard) (sound : Sound service pool) {worker : Fin size}
    {mutex : Mutex} (holds : held service (pool.workers worker) = some mutex)
    (blocked : Blocked service pool worker) : Starved pool worker ∧ mutex = guard := by
  unfold Blocked at blocked
  cases state : pool.workers worker with
  | awaiting job calls =>
    rw [state] at blocked
    rw [held_of_awaiting guarded sound state] at holds
    exact ⟨⟨job, calls, state, blocked⟩, (Option.some.inj holds).symm⟩
  | locking job =>
    rw [state] at holds
    cases holds
  | idle | handling | replied | failed =>
    rw [state] at blocked
    exact blocked.elim

theorem starved_of_stuck (guarded : Guarded service guard) (sound : Sound service pool) (worker : Fin size)
    (stuck : Stuck service pool) :
    ∃ caller, Starved pool caller ∧ ∀ other, other ≠ caller → AtMutex service guard pool other := by
  have cases : ∀ other, Starved pool other ∨
      (AtMutex service guard pool other ∧ ∃ caller, Starved pool caller) := by
    intro other
    have blocked := stuck.2 other
    unfold Blocked at blocked
    cases state : pool.workers other with
    | awaiting job calls =>
      rw [state] at blocked
      exact .inl ⟨job, calls, state, blocked⟩
    | locking job =>
      rw [state] at blocked
      obtain ⟨needs, holder, holds⟩ := blocked
      obtain ⟨mutex, needs⟩ := Option.ne_none_iff_exists'.mp needs
      obtain ⟨starved, rfl⟩ := starved_of_holds guarded sound (holds.trans needs) (stuck.2 holder)
      exact .inr ⟨⟨job, state, needs⟩, holder, starved⟩
    | idle | handling | replied | failed =>
      rw [state] at blocked
      exact blocked.elim
  -- Following the mutex one worker waits for to its holder leads to a starved one.
  have someStarved : ∃ caller, Starved pool caller := by
    obtain starved | ⟨_, starved⟩ := cases worker
    · exact ⟨worker, starved⟩
    · exact starved
  obtain ⟨caller, starved⟩ := someStarved
  refine ⟨caller, starved, ?_⟩
  intro other different
  obtain alsoStarved | ⟨atGuard, _⟩ := cases other
  · obtain ⟨_, _, waits, _⟩ := starved
    obtain ⟨_, _, alsoWaits, _⟩ := alsoStarved
    -- Two starved workers would both hold the guard.
    have same := sound.exclusive other caller guard (held_of_awaiting guarded sound alsoWaits)
      (held_of_awaiting guarded sound waits)
    exact absurd same different
  · exact atGuard

/-! ### Progress -/

section Progress

variable [DecidableEq Mutex]

theorem canMove_of_holds {worker : Fin size} {mutex : Mutex}
    (holds : held service (pool.workers worker) = some mutex)
    (elsewhere : ∀ job calls, pool.workers worker ≠ .awaiting job calls) : CanMove service pool := by
  cases state : pool.workers worker with
  | awaiting job calls => exact absurd state (elsewhere job calls)
  | handling job calls => exact ⟨.reply worker, rfl, by simp [attempt, state]⟩
  | replied job => exact ⟨.finish worker, rfl, by simp [attempt, state]⟩
  | idle | locking | failed =>
    rw [state] at holds
    cases holds

/-- The job that a worker waits for is handled to its end without waiting for anything but a mutex,
whose holder is not waiting for a reply. -/
theorem canMove_of_sent (guarded : Guarded service guard) (sound : Sound service pool)
    {worker : Fin size} {job : Job Request size} (holds : (pool.workers worker).unanswered = some job)
    (fromWorker : job.replyTo ≠ none) : CanMove service pool := by
  obtain ⟨unguarded, callsNothing⟩ := calls_of_sent guarded sound (.inr ⟨worker, holds⟩) fromWorker
  cases state : pool.workers worker with
  | locking taken =>
    rw [state] at holds
    obtain rfl := Option.some.inj holds
    by_cases contended : Contended service pool taken.request
    · obtain ⟨needs, holder, holderHolds⟩ := contended
      obtain ⟨mutex, needs⟩ := Option.ne_none_iff_exists'.mp needs
      refine canMove_of_holds (holderHolds.trans needs) ?_
      intro outer calls waits
      rw [← holderHolds] at unguarded
      exact unguarded (held_of_awaiting guarded sound waits)
    · exact ⟨.lock worker, rfl, by simp [attempt, state, contended]⟩
  | handling taken calls => exact ⟨.reply worker, rfl, by simp [attempt, state]⟩
  | failed taken => exact ⟨.answer worker, rfl, by simp [attempt, state]⟩
  | awaiting taken calls =>
    rw [state] at holds
    obtain rfl := Option.some.inj holds
    have wellFormed := sound.wellFormed worker
    rw [state] at wellFormed
    exact absurd callsNothing wellFormed.2
  | idle | replied =>
    rw [state] at holds
    cases holds

theorem canMove_of_not_blocked (guarded : Guarded service guard) (sound : Sound service pool)
    {worker : Fin size} (work : pool.queue ≠ [] ∨ pool.workers worker ≠ .idle)
    (free : ¬ Blocked service pool worker) : CanMove service pool := by
  unfold Blocked at free
  cases state : pool.workers worker with
  | idle =>
    obtain ⟨job, queue, queued⟩ := List.exists_cons_of_ne_nil (work.resolve_right (absurd state))
    exact ⟨.dequeue worker, rfl, by simp [attempt, state, queued]⟩
  | locking job =>
    rw [state] at free
    have available : ¬ Contended service pool job.request := free
    exact ⟨.lock worker, rfl, by simp [attempt, state, available]⟩
  | handling job calls => exact ⟨.reply worker, rfl, by simp [attempt, state]⟩
  | replied job => exact ⟨.finish worker, rfl, by simp [attempt, state]⟩
  | failed job => exact ⟨.answer worker, rfl, by simp [attempt, state]⟩
  | awaiting job calls =>
    rw [state] at free
    obtain ⟨sent, queued | ⟨holder, holds⟩, replyTo⟩ := sound.answerable worker job calls state
    · exact absurd ⟨sent, queued, replyTo⟩ free
    · exact canMove_of_sent guarded sound holds (by simp [replyTo])

/-- While there is work and the pool is not stuck, some worker can move. -/
theorem progress (guarded : Guarded service guard) (sound : Sound service pool)
    (unstuck : ¬ Stuck service pool) (work : Unfinished pool) : CanMove service pool := by
  by_cases queued : pool.queue = []
  · obtain ⟨worker, busy⟩ := work.resolve_left (absurd queued)
    by_cases blocked : Blocked service pool worker
    · unfold Blocked at blocked
      cases state : pool.workers worker with
      | locking job =>
        rw [state] at blocked
        obtain ⟨needs, holder, holds⟩ := blocked
        obtain ⟨mutex, needs⟩ := Option.ne_none_iff_exists'.mp needs
        have holderBusy : pool.workers holder ≠ .idle := by
          intro idle
          rw [idle, needs] at holds
          cases holds
        -- With an empty queue nobody is starved, so a holder is never blocked.
        have holderFree : ¬ Blocked service pool holder := by
          intro holderBlocked
          obtain ⟨⟨_, _, _, sent, present, _⟩, _⟩ :=
            starved_of_holds guarded sound (holds.trans needs) holderBlocked
          rw [queued] at present
          cases present
        exact canMove_of_not_blocked guarded sound (.inr holderBusy) holderFree
      | awaiting job calls =>
        rw [state] at blocked
        obtain ⟨sent, present, _⟩ := blocked
        rw [queued] at present
        cases present
      | idle | handling | replied | failed =>
        rw [state] at blocked
        exact blocked.elim
    · exact canMove_of_not_blocked guarded sound (.inr busy) blocked
  · have someFree : ∃ worker, ¬ Blocked service pool worker := by
      by_contra allBlocked
      exact unstuck ⟨queued, fun worker => not_not.mp (not_exists.mp allBlocked worker)⟩
    obtain ⟨worker, free⟩ := someFree
    exact canMove_of_not_blocked guarded sound (.inl queued) free

end Progress

/-! ### The steps that lead to a stuck pool -/

/-- A request under the guard is not taken while a worker is starved and all the others wait for the
guard, and a handler does not make a call while all the others wait for the guard. -/
def Spares (service : Service Request Mutex) (guard : Mutex) (pool : Pool Request size) :
    Event Request size → Prop
  | .dequeue worker => ∀ job queue, pool.workers worker = .idle → pool.queue = job :: queue →
      service.refused job.request = false → service.mutex job.request = some guard →
      ¬ ∃ caller, Starved pool caller ∧
        ∀ other, other ≠ caller → other ≠ worker → AtMutex service guard pool other
  | .call worker => ∀ job request calls, pool.workers worker = .handling job (request :: calls) →
      ¬ ∀ other, other ≠ worker → AtMutex service guard pool other
  | _ => True

/-- From a pool that is not stuck, an event that spares the guard leads to a pool that is not stuck. -/
theorem Moves.unstuck {next : Pool Request size} {event : Event Request size}
    (moves : Moves service pool event next) (guarded : Guarded service guard) (sound : Sound service pool)
    (worker : Fin size) (unstuck : ¬ Stuck service pool) (spares : Spares service guard pool event) :
    ¬ Stuck service next := by
  intro stuck
  obtain ⟨caller, ⟨job, calls, waits, sent, queued, replyTo⟩, others⟩ :=
    starved_of_stuck guarded (sound.moves moves) worker stuck
  have waiting : ∀ other, next.workers other = .awaiting job calls ∨
      AtMutex service guard next other := by
    intro other
    by_cases same : other = caller
    · exact .inl (same ▸ waits)
    · exact .inr (others other same)
  -- In a stuck pool nobody has just done anything else than to wait.
  have onlyWaits : ∀ mover, next.workers mover ≠ .awaiting job calls →
      (∀ blocked, next.workers mover ≠ .locking blocked) → False := by
    intro mover notAwaiting notLocking
    obtain awaits | ⟨blocked, state, _⟩ := waiting mover
    · exact notAwaiting awaits
    · exact notLocking blocked state
  cases moves with
  | enqueue request =>
    obtain before | added := List.mem_append.mp queued
    · exact unstuck (stuck_of_starved guarded sound ⟨job, calls, waits, sent, before, replyTo⟩ others)
    · rw [List.mem_singleton.mp added] at replyTo
      cases replyTo
  | @dequeue taker head queue taken free split takes =>
    obtain awaits | ⟨locking, state, needs⟩ := waiting taker
    · simp only [Function.update_self, takes] at awaits
      split_ifs at awaits
    · simp only [Function.update_self, takes] at state
      split_ifs at state with accepted
      obtain rfl := Worker.locking.inj state
      -- The worker that takes a request does not wait for a reply.
      have callerOther : caller ≠ taker := by
        rintro rfl
        simp only [Function.update_self, takes] at waits
        split_ifs at waits
      simp only [Function.update_of_ne callerOther] at waits
      refine spares head queue free split (by simpa using accepted) needs ⟨caller, ?_, ?_⟩
      · exact ⟨job, calls, waits, sent, split ▸ List.mem_cons_of_mem _ queued, replyTo⟩
      · intro other notCaller notTaker
        obtain ⟨blocked, state, needs⟩ := others other notCaller
        simp only [Function.update_of_ne notTaker] at state
        exact ⟨blocked, state, needs⟩
  | @call sender outer request rest handles =>
    -- The sender ends up waiting for a reply, not for the guard.
    have senderCalls : sender = caller := by
      by_contra different
      obtain ⟨_, state, _⟩ := others sender different
      simp at state
    refine spares outer request rest handles ?_
    intro other notSender
    obtain ⟨blocked, state, needs⟩ := others other (senderCalls ▸ notSender)
    simp only [Function.update_of_ne notSender] at state
    exact ⟨blocked, state, needs⟩
  | @lock taker taken locking available => exact onlyWaits taker (by simp) (by simp)
  | @finish finisher done replied => exact onlyWaits finisher (by simp) (by simp)
  | @throw thrower thrown rest handles => exact onlyWaits thrower (by simp) (by simp)
  | @reply replier handled rest handles =>
    have state : settle (Function.update pool.workers replier (.replied handled)) handled.replyTo replier =
        .replied handled := settle_update_self (by simp) _
    exact onlyWaits replier (by simp [state]) (by simp [state])
  | @answer answerer lost failed =>
    have state : settle (Function.update pool.workers answerer .idle) lost.replyTo answerer = .idle :=
      settle_update_self (by simp) _
    exact onlyWaits answerer (by simp [state]) (by simp [state])

section Steps

variable [DecidableEq Mutex]

theorem Sound.step (sound : Sound service pool) (event : Event Request size) :
    Sound service (step service pool event) := by
  obtain same | moves := step_cases service pool event
  · rw [same]
    exact sound
  · exact sound.moves moves

/-- An event that does not spare the guard leads to a stuck pool. -/
theorem spares_of_unstuck (guarded : Guarded service guard) (sound : Sound service pool)
    (event : Event Request size) (unstuck : ¬ Stuck service (step service pool event)) :
    Spares service guard pool event := by
  have soundNext := sound.step event
  cases event with
  | dequeue worker =>
    rintro job queue free split accepted needs ⟨caller, ⟨outer, calls, waits, sent, queued, replyTo⟩, others⟩
    have next : step service pool (.dequeue worker) =
        ⟨queue, Function.update pool.workers worker (.locking job)⟩ := by
      simp [step, attempt, free, split, accepted]
    rw [next] at unstuck soundNext
    have callerOther : caller ≠ worker := by
      rintro rfl
      rw [free] at waits
      cases waits
    -- The request taken is under the guard, so it is not the one the caller waits for.
    have sentLater : sent ∈ queue := by
      obtain rfl | later := List.mem_cons.mp (split ▸ queued)
      · exact absurd needs (calls_of_sent guarded sound (.inl queued) (by simp [replyTo])).1
      · exact later
    have starved : Starved ⟨queue, Function.update pool.workers worker (.locking job)⟩ caller :=
      ⟨outer, calls, by simp only [Function.update_of_ne callerOther, waits], sent, sentLater, replyTo⟩
    refine unstuck (stuck_of_starved guarded soundNext starved ?_)
    intro other notCaller
    by_cases same : other = worker
    · exact ⟨job, by simp only [same, Function.update_self], needs⟩
    · obtain ⟨blocked, state, needs⟩ := others other notCaller same
      exact ⟨blocked, by simp only [Function.update_of_ne same, state], needs⟩
  | call worker =>
    intro job request calls handles others
    have next : step service pool (.call worker) =
        ⟨pool.queue ++ [⟨request, some worker⟩], Function.update pool.workers worker (.awaiting job calls)⟩ := by
      simp [step, attempt, handles]
    rw [next] at unstuck soundNext
    have starved : Starved ⟨pool.queue ++ [⟨request, some worker⟩],
        Function.update pool.workers worker (.awaiting job calls)⟩ worker :=
      ⟨job, calls, by simp only [Function.update_self], ⟨request, some worker⟩,
        List.mem_append_right _ List.mem_cons_self, rfl⟩
    refine unstuck (stuck_of_starved guarded soundNext starved ?_)
    intro other notSender
    obtain ⟨blocked, state, needs⟩ := others other notSender
    exact ⟨blocked, by simp only [Function.update_of_ne notSender, state], needs⟩
  | enqueue | lock | reply | finish | throw | answer => trivial

/-- From an idle pool with at least one worker, a run is never stuck and always able to go on with its
work exactly if every event spares the guard. -/
theorem unstuck_iff (guarded : Guarded service guard) (worker : Fin size)
    (events : List (Event Request size)) :
    Always (step service) (fun pool => ¬ Stuck service pool ∧ (Unfinished pool → CanMove service pool))
        Pool.idle events ↔
      EachStep (step service) (Spares service guard) Pool.idle events := by
  refine always_exact (fun pool => Sound service pool ∧ ¬ Stuck service pool) ?_ ?_ ?_ _ ?_ events
  · rintro pool ⟨sound, unstuck⟩
    exact ⟨unstuck, progress guarded sound unstuck⟩
  · rintro pool event ⟨sound, unstuck⟩ spares
    refine ⟨sound.step event, ?_⟩
    obtain same | moves := step_cases service pool event
    · rwa [same]
    · exact moves.unstuck guarded sound worker unstuck spares
  · rintro pool event ⟨sound, _⟩ ⟨unstuck, _⟩
    exact spares_of_unstuck guarded sound event unstuck
  · exact ⟨sound_idle, fun stuck => stuck.1 rfl⟩

end Steps

end Guard

end AbilityFramework.Library.WorkerPool
