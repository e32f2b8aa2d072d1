import AbilityFramework.TaskMgr.TaskInterface

/-! # Parallel tasks

`ParallelTask::resume` resumes one sub-task at a time, in turns: the one whose turn it is, or else the next one
that has not ended.  The loop that looks for that one does not move, so it comes back only if the sub-task it
starts at has not ended.

`parallelTask_schedules_iff`: a run schedules the sub-tasks as it should exactly if, at every resume, the sub-task
whose turn it is or the one after it has not ended. -/

namespace AbilityFramework.TaskMgr

open Library Library.Runs

structure ParallelTask (Sub Error : Type) extends TaskBase Error where
  name : String
  subs : List Sub
  finished : Nat := 0
  current : Nat := 0
  history : List (SubResume Error) := []

variable {Sub Input Error : Type} (tasks : TaskInterface Sub Input Error) (invalidState : Error)

namespace ParallelTask

def start (name : String) (subs : List Sub) : ParallelTask Sub Error := { name, subs }

/-- `is_end(subs[index]->state())` -/
def isEndAt (task : ParallelTask Sub Error) (index : Nat) : Bool :=
  task.subs[index]?.all fun sub => (tasks.state sub).isEnd

/-- `while (start != current)`, whose body returns `start` or leaves everything as it is.  Nothing comes back
when the fuel does not last; an error is that the loop is left. -/
def searchFrom (task : ParallelTask Sub Error) (start : Nat) : (fuel : Nat) → Option (Except Unit Nat)
  | 0 => none
  | fuel + 1 =>
    if start = task.current then some (.error ())
    else if !task.isEndAt tasks start then some (.ok start)
    -- The body of the loop does not advance `start`.
    else task.searchFrom start fuel

/-- The index of a sub-task that has not ended, or the exception `invalid parallel task state`. -/
def findFirstRunning (task : ParallelTask Sub Error) (fuel : Nat) : Option (Except Unit Nat) :=
  if !task.isEndAt tasks task.current then some (.ok task.current)
  else task.searchFrom tasks ((task.current + 1) % task.subs.length) fuel

/-- What comes of the resume of the sub-task whose turn it is. -/
def proceed (task : ParallelTask Sub Error) (sub : Sub) : Except Error TaskState → ParallelTask Sub Error
  | .error exception => { task with toTaskBase := task.recordError (some exception) }
  | .ok .error => { task with toTaskBase := task.recordError (tasks.error sub) }
  | .ok state =>
    let task := if state = .finished then { task with finished := task.finished + 1 } else task
    if state = .finished ∧ task.finished ≥ task.subs.length then
      { task with toTaskBase := task.recordStatus .finished }
    -- A sub-task that was cancelled is passed over like one that goes on.
    else { task with toTaskBase := task.setState .running, current := (task.current + 1) % task.subs.length }

def resumeSub (task : ParallelTask Sub Error) (index : Nat) (input : Input) : ParallelTask Sub Error :=
  match task.subs[index]? with
  | none => task
  | some sub =>
    let (outcome, sub) := tasks.resume sub input
    let task := { task with
      subs := task.subs.set index sub, current := index, history := task.history ++ [(index, outcome)] }
    task.proceed tasks sub outcome

def resume (task : ParallelTask Sub Error) (fuel : Nat) (input : Input) : Option (ParallelTask Sub Error) :=
  let task := { task with toTaskBase := task.recordStartTimeIfFirstTry }
  if task.finished ≥ task.subs.length then some { task with toTaskBase := task.setState .finished }
  else match task.findFirstRunning tasks fuel with
    | none => none
    | some (.error ()) => some { task with toTaskBase := task.recordError (some invalidState) }
    | some (.ok index) => some (task.resumeSub tasks index input)

/-- An ended task is not resumed again.  A resume that comes back does so within a round over the sub-tasks. -/
def step (task : ParallelTask Sub Error) (input : Input) : ParallelTask Sub Error :=
  if task.state.isEnd then task else (task.resume tasks invalidState task.subs.length input).getD task

end ParallelTask

/-- What a parallel task is to do when it is resumed. -/
structure Schedules (task : ParallelTask Sub Error) (input : Input) : Prop where
  terminates : task.state.isEnd = false → ∃ fuel after, task.resume tasks invalidState fuel input = some after
  onlyUnended : ∀ index outcome,
    (task.step tasks invalidState input).history = task.history ++ [(index, outcome)] → task.isEndAt tasks index = false
  finished_iff : (task.step tasks invalidState input).state = .finished ↔
    ∀ index < task.subs.length, (index, .ok .finished) ∈ (task.step tasks invalidState input).history
  fails : ∀ entry ∈ (task.step tasks invalidState input).history, Stops entry.2 → entry.2 ≠ .ok .cancelled →
    (task.step tasks invalidState input).state = .error
  /-- Once all sub-tasks have ended, so has the whole. -/
  ends : (∀ index < task.subs.length, task.isEndAt tasks index = true) → (task.step tasks invalidState input).state.isEnd

/-- The task has ended or all its sub-tasks have finished; or the sub-task whose turn it is or the next one has not
ended, or there is only one. -/
def TurnFound (task : ParallelTask Sub Error) : Prop :=
  task.state.isEnd = true ∨ task.finished ≥ task.subs.length ∨ task.isEndAt tasks task.current = false ∨
    task.isEndAt tasks ((task.current + 1) % task.subs.length) = false ∨ task.subs.length = 1

instance (task : ParallelTask Sub Error) : Decidable (TurnFound tasks task) :=
  inferInstanceAs (Decidable (_ ∨ _ ∨ _ ∨ _ ∨ _))

variable {tasks invalidState} {task : ParallelTask Sub Error} {input : Input}

/-! ## The search -/

/-- The loop stays where it starts. -/
theorem searchFrom_none {start : Nat} (other : start ≠ task.current) (ended : task.isEndAt tasks start = true)
    (fuel : Nat) : task.searchFrom tasks start fuel = none := by
  induction fuel with
  | zero => rfl
  | succ fuel inductionHypothesis => simp [ParallelTask.searchFrom, other, ended, inductionHypothesis]

/-- What the search comes back with is an index of the list whose sub-task has not ended. -/
theorem findFirstRunning_unended {fuel index : Nat} (found : task.findFirstRunning tasks fuel = some (.ok index)) :
    task.isEndAt tasks index = false := by
  unfold ParallelTask.findFirstRunning at found
  split at found
  · rename_i unended
    obtain rfl := Except.ok.inj (Option.some.inj found)
    simpa using unended
  · cases fuel with
    | zero => cases found
    | succ fuel =>
      rw [ParallelTask.searchFrom] at found
      split at found
      · cases found
      · rename_i other
        split at found
        · rename_i unended
          obtain rfl := Except.ok.inj (Option.some.inj found)
          simpa using unended
        · rename_i ended
          rw [searchFrom_none other (by simpa using ended)] at found
          cases found

/-- The search comes back, and at once, if there is a sub-task to be found where it looks. -/
theorem findFirstRunning_isSome (task : ParallelTask Sub Error) (inRange : task.current < task.subs.length)
    (turn : task.isEndAt tasks task.current = false ∨
      task.isEndAt tasks ((task.current + 1) % task.subs.length) = false ∨ task.subs.length = 1) :
    (task.findFirstRunning tasks task.subs.length).isSome := by
  -- The first step of the loop decides, so that the fuel of one sub-task is enough.
  obtain ⟨count, isCount⟩ : ∃ count, task.subs.length = count + 1 := ⟨task.subs.length - 1, by omega⟩
  unfold ParallelTask.findFirstRunning
  split
  · rfl
  · rename_i ended
    rw [isCount, ParallelTask.searchFrom]
    split
    · rfl
    · rename_i other
      rw [isCount] at turn
      rcases turn with unended | unended | single
      · simp [unended] at ended
      · simp [unended]
      · have alone : count = 0 := by omega
        subst alone
        have isZero : task.current = 0 := by omega
        simp [isZero] at other

theorem findFirstRunning_none (task : ParallelTask Sub Error) (several : task.subs.length ≠ 1)
    (inRange : task.current < task.subs.length) (ended : task.isEndAt tasks task.current = true)
    (nextEnded : task.isEndAt tasks ((task.current + 1) % task.subs.length) = true) (fuel : Nat) :
    task.findFirstRunning tasks fuel = none := by
  -- Of several sub-tasks the next one is another, and the loop is not left.
  have other : (task.current + 1) % task.subs.length ≠ task.current := by
    obtain last | notLast : task.current + 1 = task.subs.length ∨ task.current + 1 < task.subs.length := by omega
    · rw [last, Nat.mod_self]
      omega
    · rw [Nat.mod_eq_of_lt notLast]
      omega
  rw [ParallelTask.findFirstRunning, ended]
  exact searchFrom_none other nextEnded fuel

/-! ## The tally of finished sub-tasks -/

def isFinished (tasks : TaskInterface Sub Input Error) (sub : Sub) : Bool := tasks.state sub = .finished

/-- The count, the states and the history agree on which sub-tasks have finished. -/
structure Tallied (tasks : TaskInterface Sub Input Error) (task : ParallelTask Sub Error) : Prop where
  finishedIn : ∀ index sub, task.subs[index]? = some sub →
    ((index, .ok .finished) ∈ task.history ↔ tasks.state sub = .finished)
  count : task.finished = task.subs.countP (isFinished tasks)

theorem Tallied.all_iff (tallied : Tallied tasks task) :
    (∀ index < task.subs.length, (index, .ok .finished) ∈ task.history) ↔ task.finished ≥ task.subs.length := by
  -- The count can only be as large as the list if every sub-task counts.
  have atMost : task.subs.countP (isFinished tasks) ≤ task.subs.length := List.countP_le_length
  have isAll : task.subs.length ≤ task.subs.countP (isFinished tasks) ↔
      task.subs.countP (isFinished tasks) = task.subs.length := ⟨atMost.antisymm, fun same => same.ge⟩
  rw [tallied.count, ge_iff_le, isAll, List.countP_eq_length]
  constructor
  · intro all sub member
    obtain ⟨index, inside, isSub⟩ := List.getElem_of_mem member
    have found : task.subs[index]? = some sub := List.getElem?_eq_some_iff.mpr ⟨inside, isSub⟩
    exact decide_eq_true ((tallied.finishedIn index sub found).mp (all index inside))
  · intro all index inside
    have found := List.getElem?_eq_getElem inside
    exact (tallied.finishedIn index _ found).mpr (of_decide_eq_true (all _ (List.getElem_mem inside)))

/-- A resume that returns is tallied by the state that it returns. -/
theorem Tallied.returned (tallied : Tallied tasks task) {next : ParallelTask Sub Error} {index : Nat} {sub after : Sub}
    {state : TaskState} (found : task.subs[index]? = some sub) (unended : (tasks.state sub).isEnd = false)
    (isState : tasks.state after = state) (subs : next.subs = task.subs.set index after)
    (history : next.history = task.history ++ [(index, .ok state)])
    (finished : next.finished = task.finished + if state = .finished then 1 else 0) : Tallied tasks next := by
  obtain ⟨inside, isSub⟩ := List.getElem?_eq_some_iff.mp found
  have notFinished : tasks.state sub ≠ .finished := fun same => by rw [same] at unended; cases unended
  refine ⟨?_, ?_⟩
  · intro other otherSub otherFound
    rw [history, List.mem_append, List.mem_singleton, Prod.mk.injEq, Except.ok.injEq]
    rw [subs] at otherFound
    -- Of the other sub-tasks neither the states nor the entries are new.
    by_cases same : index = other
    · subst same
      rw [List.getElem?_set_self inside] at otherFound
      rw [← Option.some.inj otherFound, isState]
      have notBefore : (index, .ok .finished) ∉ task.history :=
        fun member => notFinished ((tallied.finishedIn index sub found).mp member)
      simp [notBefore, eq_comm]
    · rw [List.getElem?_set_ne same] at otherFound
      simp [tallied.finishedIn other otherSub otherFound, Ne.symm same]
  -- A sub-task that had not ended was not counted, so the count grows if it has finished now.
  · have before : isFinished tasks task.subs[index] = false := by
      rw [isSub]
      exact decide_eq_false notFinished
    have afterwards : isFinished tasks after = decide (state = .finished) := by rw [isFinished, isState]
    rw [finished, subs, List.countP_set inside, tallied.count, before, afterwards]
    simp

/-! ## Steps -/

/-- The task has not ended, and none of its sub-tasks has failed. -/
structure Busy (tasks : TaskInterface Sub Input Error) (task : ParallelTask Sub Error) : Prop where
  notEnded : task.state.isEnd = false
  inRange : task.subs.length ≠ 0 → task.current < task.subs.length
  tallied : Tallied tasks task
  calm : ∀ entry ∈ task.history, Stops entry.2 → entry.2 = .ok .cancelled

/-- What is to be the case after each resume. -/
structure Settled (task : ParallelTask Sub Error) : Prop where
  finished_iff : task.state = .finished ↔ ∀ index < task.subs.length, (index, .ok .finished) ∈ task.history
  fails : ∀ entry ∈ task.history, Stops entry.2 → entry.2 ≠ .ok .cancelled → task.state = .error

theorem busy_start (name : String) {subs : List Sub} (fresh : ∀ sub ∈ subs, tasks.state sub = .unstarted) :
    Busy tasks (ParallelTask.start name subs : ParallelTask Sub Error) where
  notEnded := rfl
  inRange := Nat.pos_of_ne_zero
  tallied := by
    refine ⟨?_, ?_⟩
    · intro index sub found
      refine iff_of_false List.not_mem_nil ?_
      rw [fresh sub (List.mem_of_getElem? found)]
      nofun
    · refine (List.countP_eq_zero.mpr ?_).symm
      intro sub member
      rw [isFinished, fresh sub member]
      exact Bool.false_ne_true
  calm := fun entry member => absurd member List.not_mem_nil

theorem Busy.settled (busy : Busy tasks task) (unfinished : task.finished < task.subs.length) : Settled task where
  finished_iff := by
    rw [busy.tallied.all_iff]
    refine iff_of_false ?_ (by omega)
    intro finished
    have notEnded := busy.notEnded
    rw [finished] at notEnded
    cases notEnded
  fails := fun entry member stops notCancelled => absurd (busy.calm entry member stops) notCancelled

/-- A task that fails has not finished. -/
theorem settled_error (error : task.state = .error) (index : Nat) (inside : index < task.subs.length)
    (notFinished : (index, .ok .finished) ∉ task.history) : Settled task where
  finished_iff := iff_of_false (by rw [error]; nofun) fun all => notFinished (all index inside)
  fails := fun _ _ _ _ => error

/-- What a resume leaves: the task goes on with some sub-task unfinished, or has ended as it should. -/
def Continues (tasks : TaskInterface Sub Input Error) (task : ParallelTask Sub Error) : Prop :=
  Busy tasks task ∧ task.finished < task.subs.length ∨ task.state.isEnd = true ∧ Settled task

theorem Continues.settled (continues : Continues tasks task) : Settled task :=
  continues.elim (fun busy => busy.1.settled busy.2) fun ended => ended.2

/-- The list with the sub-task that was resumed. -/
def ParallelTask.resumed (task : ParallelTask Sub Error) (index : Nat) (after : Sub)
    (outcome : Except Error TaskState) : ParallelTask Sub Error :=
  { task with subs := task.subs.set index after, current := index, history := task.history ++ [(index, outcome)] }

theorem resumeSub_of_found {index : Nat} {sub : Sub} (found : task.subs[index]? = some sub) :
    task.resumeSub tasks index input =
      (task.resumed index (tasks.resume sub input).2 (tasks.resume sub input).1).proceed tasks
        (tasks.resume sub input).2 (tasks.resume sub input).1 := by
  rw [ParallelTask.resumeSub, found]
  rfl

/-- The count after a resume that returned. -/
def ParallelTask.counted (task : ParallelTask Sub Error) (state : TaskState) : ParallelTask Sub Error :=
  { task with finished := task.finished + if state = .finished then 1 else 0 }

theorem proceed_ok {sub : Sub} {state : TaskState} (noError : state ≠ .error) :
    task.proceed tasks sub (.ok state) =
      if state = .finished ∧ (task.counted state).finished ≥ task.subs.length then
        { task.counted state with toTaskBase := task.recordStatus .finished }
      else { task.counted state with
        toTaskBase := task.setState .running, current := (task.current + 1) % task.subs.length } := by
  cases state with
  | error => exact absurd rfl noError
  | finished => simp [ParallelTask.proceed, ParallelTask.counted]
  | unstarted | running | pending | fine | cancelled => rfl

/-- A sub-task that returns and does not fail. -/
theorem proceed_returned {index : Nat} {sub after : Sub} {state : TaskState} (busy : Busy tasks task)
    (unfinished : task.finished < task.subs.length) (found : task.subs[index]? = some sub)
    (unended : (tasks.state sub).isEnd = false) (isState : tasks.state after = state) (noError : state ≠ .error) :
    Continues tasks ((task.resumed index after (.ok state)).proceed tasks after (.ok state)) := by
  have length : (task.subs.set index after).length = task.subs.length := List.length_set
  have tallied : Tallied tasks ((task.resumed index after (.ok state)).counted state) :=
    busy.tallied.returned found unended isState rfl rfl rfl
  have calm : ∀ entry ∈ task.history ++ [(index, .ok state)], Stops entry.2 → entry.2 = .ok .cancelled := by
    intro entry member stops
    rw [List.mem_append, List.mem_singleton] at member
    obtain old | rfl := member
    · exact busy.calm entry old stops
    · cases state with
      | error => exact absurd rfl noError
      | finished => exact absurd rfl stops.2
      | cancelled => rfl
      | unstarted | running | pending | fine => cases stops.1
  rw [proceed_ok noError]
  split
  · rename_i atEnd
    refine .inr ⟨rfl, iff_of_true rfl ?_, fun entry member stops => absurd (calm entry member stops)⟩
    exact tallied.all_iff.mpr atEnd.2
  · rename_i more
    refine .inl ⟨⟨rfl, fun nonempty => Nat.mod_lt _ (Nat.pos_of_ne_zero nonempty), ?_, calm⟩, ?_⟩
    · exact ⟨tallied.finishedIn, tallied.count⟩
    · have notAll : ¬ (state = .finished ∧ ((task.counted state).finished ≥ (task.subs.set index after).length)) := more
      show (task.counted state).finished < (task.subs.set index after).length
      rw [length] at notAll ⊢
      by_cases isFinished : state = .finished
      · exact Nat.lt_of_not_le fun enough => notAll ⟨isFinished, enough⟩
      · rw [ParallelTask.counted, if_neg isFinished]
        exact unfinished

theorem resumeSub_continues (returns : tasks.ReturnsState) (busy : Busy tasks task)
    (unfinished : task.finished < task.subs.length) {index : Nat} (unended : task.isEndAt tasks index = false) :
    Continues tasks (task.resumeSub tasks index input) := by
  cases found : task.subs[index]? with
  | none =>
    rw [ParallelTask.isEndAt, found] at unended
    cases unended
  | some sub =>
    obtain ⟨inside, _⟩ := List.getElem?_eq_some_iff.mp found
    have subUnended : (tasks.state sub).isEnd = false := by
      rw [ParallelTask.isEndAt, found] at unended
      exact unended
    have notFinished : (index, .ok .finished) ∉ task.history := by
      intro member
      rw [(busy.tallied.finishedIn index sub found).mp member] at subUnended
      cases subUnended
    rw [resumeSub_of_found found]
    have returned := returns sub input
    -- A sub-task that throws or fails ends the whole; it has not finished, so not all have.
    cases outcome : (tasks.resume sub input).1 with
    | error exception =>
      refine .inr ⟨rfl, settled_error rfl index ?_ ?_⟩
      · simpa [ParallelTask.proceed, ParallelTask.resumed] using inside
      · simpa [ParallelTask.proceed, ParallelTask.resumed] using notFinished
    | ok state =>
      have isState := returned state outcome
      by_cases isError : state = .error
      · subst isError
        refine .inr ⟨rfl, settled_error rfl index ?_ ?_⟩
        · simpa [ParallelTask.proceed, ParallelTask.resumed] using inside
        · simpa [ParallelTask.proceed, ParallelTask.resumed] using notFinished
      · exact proceed_returned busy unfinished found subUnended isState isError

theorem proceed_keeps (task : ParallelTask Sub Error) (sub : Sub) (outcome : Except Error TaskState) :
    (task.proceed tasks sub outcome).subs = task.subs ∧ (task.proceed tasks sub outcome).history = task.history := by
  cases outcome with
  | error exception => exact ⟨rfl, rfl⟩
  | ok state =>
    by_cases isError : state = .error
    · subst isError
      exact ⟨rfl, rfl⟩
    · rw [proceed_ok isError]
      split <;> exact ⟨rfl, rfl⟩

/-- What a resume leaves of the task that was resumed. -/
structure Resumed (tasks : TaskInterface Sub Input Error) (before after : ParallelTask Sub Error) : Prop where
  continues : Continues tasks after
  length : after.subs.length = before.subs.length
  onlyUnended : ∀ index outcome, after.history = before.history ++ [(index, outcome)] →
    before.isEndAt tasks index = false
  ends : (∀ index < before.subs.length, before.isEndAt tasks index = true) → after.state.isEnd = true

theorem resumeSub_resumed (returns : tasks.ReturnsState) (busy : Busy tasks task)
    (unfinished : task.finished < task.subs.length) {index : Nat} (unended : task.isEndAt tasks index = false)
    (input : Input) : Resumed tasks task (task.resumeSub tasks index input) := by
  have continues : Continues tasks (task.resumeSub tasks index input) :=
    resumeSub_continues returns busy unfinished unended
  cases found : task.subs[index]? with
  | none =>
    rw [ParallelTask.isEndAt, found] at unended
    cases unended
  | some sub =>
    obtain ⟨inside, _⟩ := List.getElem?_eq_some_iff.mp found
    refine ⟨continues, ?_, ?_, ?_⟩
    · rw [resumeSub_of_found found, (proceed_keeps _ _ _).1]
      exact List.length_set
    · intro other outcome same
      rw [resumeSub_of_found found, (proceed_keeps _ _ _).2] at same
      have sameEntry := List.append_cancel_left same
      rw [List.singleton_inj, Prod.mk.injEq] at sameEntry
      rw [← sameEntry.1]
      exact unended
    · intro allEnded
      rw [allEnded index inside] at unended
      cases unended

/-- A resume without a resume of a sub-task ends the task. -/
theorem resumed_ended {after : ParallelTask Sub Error} (settled : Settled after) (ended : after.state.isEnd = true)
    (subs : after.subs = task.subs) (history : after.history = task.history) : Resumed tasks task after where
  continues := .inr ⟨ended, settled⟩
  length := congrArg List.length subs
  onlyUnended := by
    intro index outcome same
    rw [history, List.self_eq_append_right] at same
    cases same
  ends := fun _ => ended

/-- Recording the start changes nothing that matters. -/
theorem Busy.begun (busy : Busy tasks task) :
    Busy tasks { task with toTaskBase := task.recordStartTimeIfFirstTry } where
  notEnded := TaskBase.notEnded_recordStartTime _ busy.notEnded
  inRange := busy.inRange
  tallied := ⟨busy.tallied.finishedIn, busy.tallied.count⟩
  calm := busy.calm

theorem resume_of_found (returns : tasks.ReturnsState) (busy : Busy tasks task) (found : TurnFound tasks task)
    (invalidState : Error) (input : Input) :
    ∃ after, task.resume tasks invalidState task.subs.length input = some after ∧ Resumed tasks task after := by
  unfold ParallelTask.resume
  simp only
  split
  · rename_i allFinished
    refine ⟨_, rfl, resumed_ended ⟨iff_of_true rfl (busy.tallied.all_iff.mpr allFinished), ?_⟩ rfl rfl rfl⟩
    exact fun entry member stops notCancelled => absurd (busy.calm entry member stops) notCancelled
  · rename_i more
    have unfinished : task.finished < task.subs.length := Nat.lt_of_not_le more
    have inRange : task.current < task.subs.length := busy.inRange (by omega)
    have turn := (found.resolve_left (by simp [busy.notEnded])).resolve_left more
    obtain ⟨search, isFound⟩ := Option.isSome_iff_exists.mp
      (findFirstRunning_isSome { task with toTaskBase := task.recordStartTimeIfFirstTry } inRange turn)
    simp only [isFound]
    cases search with
    | error _ =>
      refine ⟨_, rfl, resumed_ended ⟨iff_of_false nofun ?_, fun _ _ _ _ => rfl⟩ rfl rfl rfl⟩
      exact fun all => more (busy.tallied.all_iff.mp all)
    | ok index =>
      have resumed : Resumed tasks { task with toTaskBase := task.recordStartTimeIfFirstTry } _ :=
        resumeSub_resumed returns busy.begun unfinished (findFirstRunning_unended isFound) input
      exact ⟨_, rfl, resumed.continues, resumed.length, resumed.onlyUnended, resumed.ends⟩

theorem resume_none (inRange : task.subs.length ≠ 0 → task.current < task.subs.length)
    (notFound : ¬ TurnFound tasks task) (fuel : Nat) : task.resume tasks invalidState fuel input = none := by
  simp only [TurnFound, not_or, Bool.not_eq_false] at notFound
  obtain ⟨_, more, ended, nextEnded, several⟩ := notFound
  have inRange : task.current < task.subs.length := inRange (by omega)
  have noSearch := findFirstRunning_none { task with toTaskBase := task.recordStartTimeIfFirstTry } several
    inRange ended nextEnded fuel
  simp only [ParallelTask.resume, if_neg more, noSearch]

/-! ## Runs -/

/-- A task that has not failed or has ended as it should. -/
def Sound (tasks : TaskInterface Sub Input Error) (task : ParallelTask Sub Error) : Prop :=
  Busy tasks task ∨ task.state.isEnd = true ∧ Settled task

theorem step_ended (ended : task.state.isEnd = true) (input : Input) : task.step tasks invalidState input = task :=
  if_pos ended

theorem step_of_found (returns : tasks.ReturnsState) (busy : Busy tasks task) (found : TurnFound tasks task)
    (invalidState : Error) (input : Input) : Resumed tasks task (task.step tasks invalidState input) := by
  obtain ⟨after, isAfter, resumed⟩ := resume_of_found returns busy found invalidState input
  rw [ParallelTask.step, busy.notEnded, if_neg Bool.false_ne_true, isAfter]
  exact resumed

theorem schedules_of_found (returns : tasks.ReturnsState) (busy : Busy tasks task) (found : TurnFound tasks task)
    (input : Input) : Schedules tasks invalidState task input where
  terminates := by
    intro _
    obtain ⟨after, isAfter, _⟩ := resume_of_found returns busy found invalidState input
    exact ⟨task.subs.length, after, isAfter⟩
  onlyUnended := (step_of_found returns busy found invalidState input).onlyUnended
  finished_iff := by
    have resumed := step_of_found returns busy found invalidState input
    rw [resumed.continues.settled.finished_iff, resumed.length]
  fails := (step_of_found returns busy found invalidState input).continues.settled.fails
  ends := (step_of_found returns busy found invalidState input).ends

theorem schedules_ended (ended : task.state.isEnd = true) (settled : Settled task) (input : Input) :
    Schedules tasks invalidState task input where
  terminates := fun notEnded => by rw [ended] at notEnded; cases notEnded
  onlyUnended := by
    intro index outcome same
    rw [step_ended ended, List.self_eq_append_right] at same
    cases same
  finished_iff := by
    rw [step_ended ended]
    exact settled.finished_iff
  fails := by
    rw [step_ended ended]
    exact settled.fails
  ends := by
    rw [step_ended ended]
    exact fun _ => ended

/-- One resume does what it is to do exactly if it finds a turn. -/
theorem schedules_iff (returns : tasks.ReturnsState) (input : Input) (sound : Sound tasks task) :
    Schedules tasks invalidState task input ↔ TurnFound tasks task := by
  obtain busy | ⟨ended, settled⟩ := sound
  · refine ⟨fun schedules => ?_, fun found => schedules_of_found returns busy found input⟩
    -- Without a turn the resume does not come back, whatever the fuel.
    by_contra notFound
    obtain ⟨fuel, after, isAfter⟩ := schedules.terminates busy.notEnded
    rw [resume_none busy.inRange notFound fuel] at isAfter
    cases isAfter
  · exact iff_of_true (schedules_ended ended settled input) (.inl ended)

theorem step_sound (returns : tasks.ReturnsState) (input : Input) (sound : Sound tasks task)
    (found : TurnFound tasks task) : Sound tasks (task.step tasks invalidState input) := by
  obtain busy | ⟨ended, settled⟩ := sound
  · obtain goesOn | hasEnded := (step_of_found returns busy found invalidState input).continues
    · exact .inl goesOn.1
    · exact .inr hasEnded
  · rw [step_ended ended]
    exact .inr ⟨ended, settled⟩

/-- Whatever the sub-tasks do, a run schedules them as it should exactly if every resume finds a turn. -/
theorem parallelTask_schedules_iff (tasks : TaskInterface Sub Input Error) (returns : tasks.ReturnsState)
    (invalidState : Error) (name : String) (subs : List Sub) (fresh : ∀ sub ∈ subs, tasks.state sub = .unstarted)
    (inputs : List Input) :
    EachStep (ParallelTask.step tasks invalidState) (Schedules tasks invalidState) (.start name subs) inputs ↔
      EachStep (ParallelTask.step tasks invalidState) (fun task _ => TurnFound tasks task) (.start name subs) inputs := by
  apply eachStep_exact (Sound tasks)
  · exact fun task input sound found => step_sound returns input sound found
  · exact fun task input sound => schedules_iff returns input sound
  · exact .inl (busy_start name fresh)

/-- Two sub-tasks that finish in their turns. -/
theorem two_schedules : EachStep (ParallelTask.step toldStates "invalid parallel task state")
    (Schedules toldStates "invalid parallel task state") (.start "two" [.unstarted, .unstarted])
    [.finished, .running, .finished] :=
  (parallelTask_schedules_iff toldStates (fun _ _ _ same => Except.ok.inj same) "invalid parallel task state" "two"
    [.unstarted, .unstarted] (by simp [toldStates]) [.finished, .running, .finished]).mpr (by decide)

/-- Two of three sub-tasks finish, and the resume after the turn of the third does not come back. -/
theorem three_hang : ¬ EachStep (ParallelTask.step toldStates "invalid parallel task state")
    (Schedules toldStates "invalid parallel task state") (.start "three" [.unstarted, .unstarted, .unstarted])
    [.finished, .finished, .running, .running] := by
  intro schedules
  -- Before the fourth resume it is the turn of the first sub-task, which has ended like the second.
  obtain ⟨_, _, _, fourth, _⟩ := schedules
  obtain ⟨fuel, after, isAfter⟩ := fourth.terminates rfl
  rw [resume_none (by decide) (by decide) fuel] at isAfter
  cases isAfter

end AbilityFramework.TaskMgr
