import AbilityFramework.TaskMgr.TaskInterface

/-! # Sequential tasks

`SequentialTask::resume` goes through the sub-tasks with an index: it resumes the one at the index, takes over
its state, and moves on when that one has finished.

`sequentialTask_semantics`: in every run, the sub-tasks are resumed one after the other, each until it has ended;
the first one that fails or is cancelled ends the sequence, with its error, and the sequence has finished exactly
when all of them have. -/

namespace AbilityFramework.TaskMgr

open Library Library.Runs

structure SequentialTask (Sub Error : Type) extends TaskBase Error where
  name : String
  subs : List Sub
  current : Nat := 0
  history : List (SubResume Error) := []

variable {Sub Input Error : Type} (tasks : TaskInterface Sub Input Error)

namespace SequentialTask

def start (name : String) (subs : List Sub) : SequentialTask Sub Error := { name, subs }

/-- The result of the last sub-task. -/
def result (task : SequentialTask Sub Error) : Json :=
  match task.subs.getLast? with
  | none => .null
  | some last => tasks.result last

/-- What the sequence makes of the state of the sub-task that it is at. -/
def proceed (task : SequentialTask Sub Error) (sub : Sub) : TaskState → SequentialTask Sub Error
  | .finished =>
    let task := { task with current := task.current + 1 }
    if task.current ≥ task.subs.length then { task with toTaskBase := task.recordStatus .finished }
    else { task with toTaskBase := task.setState .running }
  | .fine => { task with toTaskBase := task.setState .fine }
  | .running => { task with toTaskBase := task.setState .running }
  | .error => { task with toTaskBase := task.recordError (tasks.error sub) }
  | .pending => { task with toTaskBase := task.recordStatus .pending }
  | .cancelled => { task with toTaskBase := task.recordStatus .cancelled }
  | .unstarted => { task with toTaskBase := task.recordStatus .running }

/-- `subs[current]->resume()` -/
def resumeSub (task : SequentialTask Sub Error) (sub : Sub) (input : Input) : SequentialTask Sub Error :=
  let (outcome, sub) := tasks.resume sub input
  let task := { task with
    subs := task.subs.set task.current sub, history := task.history ++ [(task.current, outcome)] }
  match outcome with
  | .error exception => { task with toTaskBase := task.recordError (some exception) }
  | .ok state => task.proceed tasks sub state

/-- What it returns is the state that it leaves. -/
def resume (task : SequentialTask Sub Error) (input : Input) : SequentialTask Sub Error :=
  let task := { task with toTaskBase := task.recordStartTimeIfFirstTry }
  match task.subs[task.current]? with
  | none => { task with toTaskBase := task.recordStatus .finished }
  | some sub =>
    match tasks.state sub with
    | .unstarted | .running | .fine => task.resumeSub tasks sub input
    -- A sub-task that is pending or has ended is only looked at.
    | state => task.proceed tasks sub state

/-- An ended sequence is not resumed again. -/
def step (task : SequentialTask Sub Error) (input : Input) : SequentialTask Sub Error :=
  if task.state.isEnd then task else task.resume tasks input

end SequentialTask

/-- No sub-task is resumed before the ones before it have finished, or after it has ended. -/
def InOrder (history : List (SubResume Error)) : Prop :=
  ∀ before index outcome after, history = before ++ (index, outcome) :: after →
    (∀ earlier < index, (earlier, .ok .finished) ∈ before) ∧ ∀ entry ∈ before, entry.1 = index → ¬ Ends entry.2

/-- What the sub-tasks of a sequence do in a run, and what becomes of the sequence. -/
structure SequenceSemantics (task : SequentialTask Sub Error) : Prop where
  inOrder : InOrder task.history
  finished_iff : task.state = .finished ↔ ∀ index < task.subs.length, (index, .ok .finished) ∈ task.history
  result : task.state = .finished → ∀ last ∈ task.subs.getLast?, task.result tasks = tasks.result last
  /-- A sub-task that fails or is cancelled is the last one that is resumed. -/
  stops : ∀ entry ∈ task.history, Stops entry.2 → task.history.getLast? = some entry
  throws : ∀ index exception, (index, .error exception) ∈ task.history →
    task.state = .error ∧ task.exception = some exception
  fails : ∀ index, (index, .ok .error) ∈ task.history →
    task.state = .error ∧ ∃ sub, task.subs[index]? = some sub ∧ task.exception = tasks.error sub
  cancels : ∀ index, (index, .ok .cancelled) ∈ task.history → task.state = .cancelled
  /-- The sequence fails or is cancelled for no other reason. -/
  ends : task.state = .error ∨ task.state = .cancelled → ∃ entry ∈ task.history, Stops entry.2

/-! ## The invariant -/

/-- The sub-tasks before the index have finished; the one at the index and those after it have not ended. -/
structure Ready (task : SequentialTask Sub Error) : Prop where
  inOrder : InOrder task.history
  passed : ∀ index < task.current, (index, .ok .finished) ∈ task.history
  entries : ∀ entry ∈ task.history, entry.1 ≤ task.current ∧
    (Ends entry.2 → entry.1 < task.current ∧ entry.2 = .ok .finished)
  unended : ∀ index sub, task.current ≤ index → task.subs[index]? = some sub → (tasks.state sub).isEnd = false

variable {tasks} {task next : SequentialTask Sub Error}

theorem Ready.not_stops (ready : Ready tasks task) {entry : SubResume Error} (member : entry ∈ task.history) :
    ¬ Stops entry.2 := fun stops => stops.2 ((ready.entries entry member).2 stops.1).2

/-- Only what the sequence does with its sub-tasks matters. -/
theorem Ready.congr (ready : Ready tasks task) (history : next.history = task.history)
    (current : next.current = task.current) (subs : next.subs = task.subs) : Ready tasks next where
  inOrder := history ▸ ready.inOrder
  passed := by rw [history, current]; exact ready.passed
  entries := by rw [history, current]; exact ready.entries
  unended := by rw [current, subs]; exact ready.unended

theorem ready_start (name : String) {subs : List Sub} (fresh : ∀ sub ∈ subs, tasks.state sub = .unstarted) :
    Ready tasks (SequentialTask.start name subs : SequentialTask Sub Error) where
  inOrder := fun _ _ _ _ split => by simp [SequentialTask.start] at split
  passed := fun index before => absurd before (Nat.not_lt_zero index)
  entries := fun entry member => absurd member List.not_mem_nil
  unended := by
    intro index sub _ found
    rw [fresh sub (List.mem_of_getElem? found)]
    rfl

/-- The next resume is that of the sub-task at the index. -/
theorem Ready.inOrder_concat (ready : Ready tasks task) (outcome : Except Error TaskState) :
    InOrder (task.history ++ [(task.current, outcome)]) := by
  intro before index outcome' after split
  obtain ⟨rfl, isLast, _⟩ | ⟨rest, _, earlier⟩ := concat_eq_split.mp split
  · obtain ⟨rfl, _⟩ := Prod.mk.inj isLast
    refine ⟨ready.passed, fun entry member same ends => ?_⟩
    have past := ((ready.entries entry member).2 ends).1
    omega
  · exact ready.inOrder before index outcome' rest earlier

/-- A sub-task that has not ended is resumed again. -/
theorem Ready.again (ready : Ready tasks task) {sub : Sub} {state : TaskState}
    (history : next.history = task.history ++ [(task.current, .ok state)]) (current : next.current = task.current)
    (subs : next.subs = task.subs.set task.current sub) (isState : tasks.state sub = state)
    (unended : state.isEnd = false) : Ready tasks next where
  inOrder := history ▸ ready.inOrder_concat (.ok state)
  passed := by
    intro index before
    rw [history]
    exact List.mem_append_left _ (ready.passed index (current ▸ before))
  entries := by
    intro entry member
    rw [history, List.mem_append, List.mem_singleton] at member
    rw [current]
    obtain old | rfl := member
    · exact ready.entries entry old
    · refine ⟨Nat.le_refl _, fun ends => ?_⟩
      rw [Ends, unended] at ends
      cases ends
  unended := by
    intro index other after found
    rw [subs, List.getElem?_set] at found
    split at found
    · split at found
      · rw [← Option.some.inj found, isState]
        exact unended
      · cases found
    · exact ready.unended index other (current ▸ after) found

/-- When a sub-task finishes, the sequence moves on. -/
theorem Ready.forward (ready : Ready tasks task) {sub : Sub}
    (history : next.history = task.history ++ [(task.current, .ok .finished)])
    (current : next.current = task.current + 1)
    (subs : next.subs = task.subs.set task.current sub) : Ready tasks next where
  inOrder := history ▸ ready.inOrder_concat _
  passed := by
    intro index before
    rw [history, List.mem_append]
    obtain earlier | rfl : index < task.current ∨ index = task.current := by omega
    · exact .inl (ready.passed index earlier)
    · exact .inr List.mem_cons_self
  entries := by
    intro entry member
    rw [history, List.mem_append, List.mem_singleton] at member
    rw [current]
    obtain old | rfl := member
    · obtain ⟨notPast, ends⟩ := ready.entries entry old
      exact ⟨by omega, fun isEnd => ⟨by have := (ends isEnd).1; omega, (ends isEnd).2⟩⟩
    · exact ⟨Nat.le_succ _, fun _ => ⟨Nat.lt_succ_self _, rfl⟩⟩
  unended := by
    intro index other after found
    -- The sub-task that has finished is behind the index now.
    have different : task.current ≠ index := by omega
    rw [subs, List.getElem?_set_ne different] at found
    exact ready.unended index other (by omega) found

/-! ## Where a sequence stands -/

theorem ne_finished_of_notEnded {state : TaskState} (notEnded : state.isEnd = false) :
    state ≠ .finished ∧ state ≠ .error ∧ state ≠ .cancelled := by
  cases state <;> simp_all [TaskState.isEnd]

/-- The result is the last sub-task's by definition. -/
theorem result_getLast (task : SequentialTask Sub Error) :
    ∀ last ∈ task.subs.getLast?, task.result tasks = tasks.result last := by
  intro last isLast
  rw [SequentialTask.result, Option.mem_def.mp isLast]

theorem Ready.not_passed (ready : Ready tasks task) : (task.current, .ok .finished) ∉ task.history := by
  intro member
  have past := ((ready.entries _ member).2 rfl).1
  exact Nat.lt_irrefl _ past

theorem Ready.semantics_running (ready : Ready tasks task) (notEnded : task.state.isEnd = false)
    (inside : task.current < task.subs.length) : SequenceSemantics tasks task where
  inOrder := ready.inOrder
  finished_iff := iff_of_false (ne_finished_of_notEnded notEnded).1 fun all => ready.not_passed (all task.current inside)
  result := fun finished => absurd finished (ne_finished_of_notEnded notEnded).1
  stops := fun _ member stops => absurd stops (ready.not_stops member)
  throws := fun _ _ member => absurd ⟨trivial, nofun⟩ (ready.not_stops member)
  fails := fun _ member => absurd ⟨rfl, nofun⟩ (ready.not_stops member)
  cancels := fun _ member => absurd ⟨rfl, nofun⟩ (ready.not_stops member)
  ends := fun ended => ended.elim (fun error => absurd error (ne_finished_of_notEnded notEnded).2.1)
    fun cancelled => absurd cancelled (ne_finished_of_notEnded notEnded).2.2

theorem Ready.semantics_finished (ready : Ready tasks task) (finished : task.state = .finished)
    (atEnd : task.subs.length ≤ task.current) : SequenceSemantics tasks task where
  inOrder := ready.inOrder
  finished_iff := iff_of_true finished fun index inside => ready.passed index (by omega)
  result := fun _ => result_getLast task
  stops := fun _ member stops => absurd stops (ready.not_stops member)
  throws := fun _ _ member => absurd ⟨trivial, nofun⟩ (ready.not_stops member)
  fails := fun _ member => absurd ⟨rfl, nofun⟩ (ready.not_stops member)
  cancels := fun _ member => absurd ⟨rfl, nofun⟩ (ready.not_stops member)
  ends := by simp [finished]

/-- How a sequence ends with the sub-task that it is at. -/
def EndsWith (tasks : TaskInterface Sub Input Error) (task : SequentialTask Sub Error) (sub : Sub) :
    Except Error TaskState → Prop
  | .error exception => task.state = .error ∧ task.exception = some exception
  | .ok .error => task.state = .error ∧ task.exception = tasks.error sub
  | .ok .cancelled => task.state = .cancelled
  | .ok _ => False

theorem EndsWith.stops {sub : Sub} {outcome : Except Error TaskState} (endsWith : EndsWith tasks task sub outcome) :
    Stops outcome ∧ task.state ≠ .finished := by
  cases outcome with
  | error exception => exact ⟨⟨trivial, nofun⟩, by rw [endsWith.1]; nofun⟩
  | ok state =>
    cases state with
    | error => exact ⟨⟨rfl, nofun⟩, by rw [endsWith.1]; nofun⟩
    | cancelled => exact ⟨⟨rfl, nofun⟩, by rw [show task.state = .cancelled from endsWith]; nofun⟩
    | unstarted | running | pending | fine | finished => cases endsWith

/-- The resume that ends a sequence is the last one, and says how it ends. -/
theorem Ready.semantics_stopped (ready : Ready tasks task) {sub : Sub} {outcome : Except Error TaskState}
    (inside : task.current < task.subs.length) (history : next.history = task.history ++ [(task.current, outcome)])
    (subs : next.subs = task.subs.set task.current sub) (endsWith : EndsWith tasks next sub outcome) :
    SequenceSemantics tasks next := by
  obtain ⟨stops, notFinished⟩ := endsWith.stops
  have found : next.subs[task.current]? = some sub := by
    rw [subs, List.getElem?_set_self inside]
  -- Only the last resume can have ended a sub-task without finishing it.
  have isLast : ∀ entry ∈ next.history, Stops entry.2 → entry = (task.current, outcome) := by
    intro entry member entryStops
    rw [history, List.mem_append, List.mem_singleton] at member
    obtain old | rfl := member
    · exact absurd entryStops (ready.not_stops old)
    · rfl
  refine ⟨history ▸ ready.inOrder_concat outcome, iff_of_false notFinished ?_,
    fun finished => absurd finished notFinished,
    ?_, ?_, ?_, ?_, fun _ => ⟨(task.current, outcome), by simp [history], stops⟩⟩
  · intro all
    have member := all task.current (by rw [subs, List.length_set]; exact inside)
    rw [history, List.mem_append, List.mem_singleton] at member
    obtain old | same := member
    · exact ready.not_passed old
    · exact stops.2 (Prod.mk.inj same).2.symm
  · intro entry member entryStops
    rw [isLast entry member entryStops, history, List.getLast?_concat]
  · intro index exception member
    obtain ⟨rfl, rfl⟩ := Prod.mk.inj (isLast _ member ⟨trivial, nofun⟩)
    exact endsWith
  · intro index member
    obtain ⟨rfl, rfl⟩ := Prod.mk.inj (isLast _ member ⟨rfl, nofun⟩)
    exact ⟨endsWith.1, sub, found, endsWith.2⟩
  · intro index member
    obtain ⟨rfl, rfl⟩ := Prod.mk.inj (isLast _ member ⟨rfl, nofun⟩)
    exact endsWith

/-! ## What a step does to one sub-task -/

/-- The next resume of the sequence resumes this sub-task. -/
structure StandsAt (tasks : TaskInterface Sub Input Error) (task : SequentialTask Sub Error) (index : Nat) (sub : Sub) :
    Prop where
  notEnded : task.state.isEnd = false
  current : task.current = index
  found : task.subs[index]? = some sub
  resumable : tasks.state sub = .unstarted ∨ tasks.state sub = .running ∨ tasks.state sub = .fine

@[simp] theorem subs_proceed (sub : Sub) (state : TaskState) : (task.proceed tasks sub state).subs = task.subs := by
  cases state with
  | finished =>
    simp only [SequentialTask.proceed]
    split <;> rfl
  | unstarted | running | pending | fine | error | cancelled => rfl

@[simp] theorem subs_resumeSub (sub : Sub) (input : Input) :
    (task.resumeSub tasks sub input).subs = task.subs.set task.current (tasks.resume sub input).2 := by
  simp only [SequentialTask.resumeSub]
  split
  · rfl
  · rw [subs_proceed]

theorem StandsAt.step {index : Nat} {sub : Sub} (stands : StandsAt tasks task index sub) (input : Input) :
    task.step tasks input =
      SequentialTask.resumeSub tasks { task with toTaskBase := task.recordStartTimeIfFirstTry } sub input := by
  have found : task.subs[task.current]? = some sub := by rw [stands.current, stands.found]
  simp only [SequentialTask.step, stands.notEnded, if_neg Bool.false_ne_true, SequentialTask.resume, found]
  obtain isState | isState | isState := stands.resumable <;> simp only [isState]

theorem StandsAt.found_step {index : Nat} {sub : Sub} (stands : StandsAt tasks task index sub) (input : Input) :
    (task.step tasks input).subs[index]? = some (tasks.resume sub input).2 := by
  obtain ⟨inside, _⟩ := List.getElem?_eq_some_iff.mp stands.found
  rw [stands.step, subs_resumeSub, stands.current, List.getElem?_set_self inside]

/-- A sequence stays at a sub-task that goes on. -/
theorem StandsAt.again {index : Nat} {sub : Sub} (stands : StandsAt tasks task index sub) (input : Input)
    (goesOn : (tasks.resume sub input).1 = .ok .running)
    (isRunning : tasks.state (tasks.resume sub input).2 = .running) :
    StandsAt tasks (task.step tasks input) index (tasks.resume sub input).2 where
  notEnded := by
    rw [stands.step]
    simp only [SequentialTask.resumeSub, goesOn]
    rfl
  current := by
    rw [stands.step]
    simp only [SequentialTask.resumeSub, goesOn]
    exact stands.current
  found := stands.found_step input
  resumable := .inr (.inl isRunning)

/-- Nothing else than a resume changes a sub-task, and one that has ended is not resumed. -/
theorem sub_step (tasks : TaskInterface Sub Input Error) (task : SequentialTask Sub Error) (input : Input)
    (index : Nat) :
    (task.step tasks input).subs[index]? = task.subs[index]? ∨
      ∃ sub, StandsAt tasks task index sub ∧ (task.step tasks input).subs[index]? = some (tasks.resume sub input).2 := by
  by_cases ended : task.state.isEnd = true
  · rw [SequentialTask.step, if_pos ended]
    exact .inl rfl
  · cases found : task.subs[task.current]? with
    | none =>
      left
      simp only [SequentialTask.step, if_neg ended, SequentialTask.resume, found]
    | some sub =>
      -- Only the sub-task at the index can change, and only if its state lets it be resumed.
      by_cases resumable : tasks.state sub = .unstarted ∨ tasks.state sub = .running ∨ tasks.state sub = .fine
      · have stands : StandsAt tasks task task.current sub := ⟨by simpa using ended, rfl, found, resumable⟩
        by_cases here : task.current = index
        · subst here
          exact .inr ⟨sub, stands, stands.found_step input⟩
        · rw [stands.step, subs_resumeSub]
          exact .inl (List.getElem?_set_ne here)
      · left
        simp only [not_or] at resumable
        simp only [SequentialTask.step, if_neg ended, SequentialTask.resume, found]
        cases isState : tasks.state sub with
        | unstarted => exact absurd isState resumable.1
        | running => exact absurd isState resumable.2.1
        | fine => exact absurd isState resumable.2.2
        | pending | finished | error | cancelled => simp only [subs_proceed]

/-- What holds of a sub-task and is kept by its resumes holds of it in every run. -/
theorem sub_run {index : Nat} {holds : Sub → Prop}
    (kept : ∀ sub input, (tasks.state sub).isEnd = false → holds sub → holds (tasks.resume sub input).2) {sub : Sub}
    (found : task.subs[index]? = some sub) (initially : holds sub) (inputs : List Input) :
    ∃ sub, (run (SequentialTask.step tasks) task inputs).subs[index]? = some sub ∧ holds sub := by
  refine run_invariant (fun task : SequentialTask Sub Error => ∃ sub, task.subs[index]? = some sub ∧ holds sub) ?_ _
    ⟨sub, found, initially⟩ inputs
  intro task input before
  obtain ⟨sub, found, holdsBefore⟩ := before
  obtain unchanged | ⟨resumed, stands, isResumed⟩ := sub_step tasks task input index
  · exact ⟨sub, unchanged.trans found, holdsBefore⟩
  · obtain rfl := Option.some.inj (stands.found.symm.trans found)
    refine ⟨_, isResumed, kept resumed input ?_ holdsBefore⟩
    obtain isState | isState | isState := stands.resumable <;> rw [isState] <;> rfl

/-! ## Sub-tasks that finish at once -/

theorem standsAt_of_drop {sub : Sub} {rest : List Sub} (notEnded : task.state.isEnd = false)
    (remaining : task.subs.drop task.current = sub :: rest) (fresh : tasks.state sub = .unstarted) :
    StandsAt tasks task task.current sub := by
  have found : (task.subs.drop task.current)[0]? = some sub := by rw [remaining, List.getElem?_cons_zero]
  rw [List.getElem?_drop, Nat.add_zero] at found
  exact ⟨notEnded, rfl, found, .inl fresh⟩

/-- A sequence whose sub-tasks all finish when they are first resumed finishes with the last of them. -/
theorem finished_of_prompt {remaining : List Sub} {inputs : List Input} (some : remaining ≠ [])
    (notEnded : task.state.isEnd = false) (isRemaining : task.subs.drop task.current = remaining)
    (prompt : List.Forall₂ (fun sub input => tasks.state sub = .unstarted ∧ (tasks.resume sub input).1 = .ok .finished)
      remaining inputs) : (run (SequentialTask.step tasks) task inputs).state = .finished := by
  -- The induction is on the sub-tasks that are left; each resume finishes the first of them.
  induction prompt generalizing task with
  | nil => exact absurd rfl some
  | @cons sub input rest inputs first laterPrompt inductionHypothesis =>
    have stands := standsAt_of_drop notEnded isRemaining first.1
    have atEnd : task.subs.length = task.current + 1 + rest.length := by
      have length := congrArg List.length isRemaining
      rw [List.length_drop, List.length_cons] at length
      omega
    rw [run_cons, stands.step]
    simp only [SequentialTask.resumeSub, first.2, SequentialTask.proceed, List.length_set, atEnd]
    cases rest with
    | nil =>
      cases laterPrompt
      rw [if_pos (by simp)]
      rfl
    | cons next rest =>
      rw [if_neg (by rw [List.length_cons]; omega)]
      refine inductionHypothesis nofun rfl ?_
      rw [List.drop_set_of_lt (Nat.lt_succ_self _), List.drop_add_one_eq_tail_drop, isRemaining, List.tail_cons]

/-! ## Sub-tasks that are not cancelled -/

/-- Neither the task nor a sub-task has been cancelled. -/
structure Uncancelled (tasks : TaskInterface Sub Input Error) (task : SequentialTask Sub Error) : Prop where
  state : task.state ≠ .cancelled
  subs : ∀ sub ∈ task.subs, tasks.state sub ≠ .cancelled

theorem state_proceed_ne_cancelled {sub : Sub} {state : TaskState} (notCancelled : state ≠ .cancelled) :
    (task.proceed tasks sub state).state ≠ .cancelled := by
  cases state with
  | finished =>
    simp only [SequentialTask.proceed]
    split <;> nofun
  | unstarted | running | pending | fine | error => nofun
  | cancelled => exact absurd rfl notCancelled

theorem resumeSub_uncancelled (returns : tasks.ReturnsState) {sub : Sub} {input : Input}
    (kept : tasks.state (tasks.resume sub input).2 ≠ .cancelled) (uncancelled : Uncancelled tasks task) :
    Uncancelled tasks (task.resumeSub tasks sub input) where
  state := by
    simp only [SequentialTask.resumeSub]
    split
    · nofun
    · rename_i state returned
      apply state_proceed_ne_cancelled
      rw [← returns sub input state returned]
      exact kept
  subs := by
    rw [subs_resumeSub]
    intro other member
    obtain old | rfl := List.mem_or_eq_of_mem_set member
    · exact uncancelled.subs other old
    · exact kept

theorem step_uncancelled (returns : tasks.ReturnsState)
    (kept : ∀ sub input, tasks.state sub ≠ .cancelled → tasks.state (tasks.resume sub input).2 ≠ .cancelled)
    (task : SequentialTask Sub Error) (input : Input) (uncancelled : Uncancelled tasks task) :
    Uncancelled tasks (task.step tasks input) := by
  have begun : Uncancelled tasks { task with toTaskBase := task.recordStartTimeIfFirstTry } := by
    refine ⟨?_, uncancelled.subs⟩
    unfold TaskBase.recordStartTimeIfFirstTry
    split
    · exact uncancelled.state
    · nofun
  simp only [SequentialTask.step, SequentialTask.resume]
  split
  · exact uncancelled
  · split
    · exact ⟨nofun, uncancelled.subs⟩
    · rename_i sub found
      have notCancelled := uncancelled.subs sub (List.mem_of_getElem? found)
      split
      · exact resumeSub_uncancelled returns (kept sub input notCancelled) begun
      · exact resumeSub_uncancelled returns (kept sub input notCancelled) begun
      · exact resumeSub_uncancelled returns (kept sub input notCancelled) begun
      · exact ⟨state_proceed_ne_cancelled notCancelled, by rw [subs_proceed]; exact uncancelled.subs⟩

/-! ## Steps and runs -/

/-- A sequence is at a sub-task, or has ended as it should. -/
def Proceeds (tasks : TaskInterface Sub Input Error) (task : SequentialTask Sub Error) : Prop :=
  Ready tasks task ∧ task.state.isEnd = false ∧ task.current < task.subs.length ∨
    task.state.isEnd = true ∧ SequenceSemantics tasks task

theorem resumeSub_proceeds (returns : tasks.ReturnsState) (ready : Ready tasks task)
    (inside : task.current < task.subs.length) (sub : Sub) (input : Input) :
    Proceeds tasks (task.resumeSub tasks sub input) := by
  have returned := returns sub input
  unfold SequentialTask.resumeSub
  cases resumed : tasks.resume sub input with
  | mk outcome after =>
    rw [resumed] at returned
    cases outcome with
    | error exception => exact .inr ⟨rfl, ready.semantics_stopped inside rfl rfl ⟨rfl, rfl⟩⟩
    | ok state =>
      have isState : tasks.state after = state := returned state rfl
      have stillInside : task.current < (task.subs.set task.current after).length := by rwa [List.length_set]
      cases state with
      | finished =>
        simp only [SequentialTask.proceed]
        split
        · rename_i atEnd
          exact .inr ⟨rfl, (ready.forward rfl rfl rfl).semantics_finished rfl atEnd⟩
        · rename_i more
          exact .inl ⟨ready.forward rfl rfl rfl, rfl, Nat.lt_of_not_le more⟩
      | error => exact .inr ⟨rfl, ready.semantics_stopped inside rfl rfl ⟨rfl, rfl⟩⟩
      | cancelled => exact .inr ⟨rfl, ready.semantics_stopped inside rfl rfl rfl⟩
      | unstarted | running | pending | fine =>
        exact .inl ⟨ready.again rfl rfl rfl isState rfl, rfl, stillInside⟩

theorem resume_proceeds (returns : tasks.ReturnsState) (ready : Ready tasks task) (input : Input) :
    Proceeds tasks (task.resume tasks input) := by
  unfold SequentialTask.resume
  cases found : task.subs[task.current]? with
  | none =>
    have atEnd : task.subs.length ≤ task.current := List.getElem?_eq_none_iff.mp found
    have done : Ready tasks { task with toTaskBase := task.recordStartTimeIfFirstTry.recordStatus .finished } :=
      ready.congr rfl rfl rfl
    simp only [found]
    exact .inr ⟨rfl, done.semantics_finished rfl atEnd⟩
  | some sub =>
    obtain ⟨inside, _⟩ := List.getElem?_eq_some_iff.mp found
    have unended := ready.unended task.current sub (Nat.le_refl _) found
    have begun : Ready tasks { task with toTaskBase := task.recordStartTimeIfFirstTry } := ready.congr rfl rfl rfl
    simp only [found]
    cases isState : tasks.state sub with
    | unstarted | running | fine => exact resumeSub_proceeds returns begun inside sub input
    -- A sub-task that has not ended and is not resumed is pending.
    | pending => exact .inl ⟨ready.congr rfl rfl rfl, rfl, inside⟩
    | finished | error | cancelled =>
      rw [isState] at unended
      cases unended

theorem step_proceeds (returns : tasks.ReturnsState) (task : SequentialTask Sub Error) (input : Input)
    (proceeds : Proceeds tasks task) : Proceeds tasks (task.step tasks input) := by
  unfold SequentialTask.step
  obtain ⟨ready, notEnded, _⟩ | ended := proceeds
  · rw [notEnded, if_neg Bool.false_ne_true]
    exact resume_proceeds returns ready input
  · rw [if_pos ended.1]
    exact .inr ended

theorem length_step (task : SequentialTask Sub Error) (input : Input) :
    (task.step tasks input).subs.length = task.subs.length := by
  simp only [SequentialTask.step, SequentialTask.resume]
  split
  · rfl
  · split
    · rfl
    · split
      all_goals simp

/-- Whatever the sub-tasks do, a sequence that has been resumed goes through them in order, and ends with the
first one that fails or is cancelled or when all of them have finished. -/
theorem sequentialTask_semantics (tasks : TaskInterface Sub Input Error) (returns : tasks.ReturnsState)
    (name : String) (subs : List Sub) (fresh : ∀ sub ∈ subs, tasks.state sub = .unstarted)
    (first : Input) (inputs : List Input) :
    (run (SequentialTask.step tasks) (.start name subs) (first :: inputs)).subs.length = subs.length ∧
      SequenceSemantics tasks (run (SequentialTask.step tasks) (.start name subs) (first :: inputs)) := by
  have length : (run (SequentialTask.step tasks) (.start name subs) (first :: inputs)).subs.length = subs.length :=
    run_invariant (fun task : SequentialTask Sub Error => task.subs.length = subs.length)
      (fun task input same => (length_step task input).trans same) (.start name subs) rfl (first :: inputs)
  -- A sequence without sub-tasks has not ended before its first resume, so the invariant starts after that.
  have begun : Proceeds tasks ((SequentialTask.start name subs).step tasks first) :=
    resume_proceeds returns (ready_start name fresh) first
  have proceeds : Proceeds tasks (run (SequentialTask.step tasks) (.start name subs) (first :: inputs)) := by
    rw [run_cons]
    exact run_invariant (Proceeds tasks) (step_proceeds returns) _ begun inputs
  obtain ⟨ready, notEnded, inside⟩ | ⟨_, semantics⟩ := proceeds
  · exact ⟨length, ready.semantics_running notEnded inside⟩
  · exact ⟨length, semantics⟩

def twoSubTasks : SequentialTask TaskState String := .start "two" [.unstarted, .unstarted]

/-- The first of two sub-tasks finishes, and the second one fails. -/
theorem sequentialTask_semantics_two :
    (run (SequentialTask.step toldStates) twoSubTasks [.running, .finished, .error]).subs.length = 2 ∧
      SequenceSemantics toldStates (run (SequentialTask.step toldStates) twoSubTasks [.running, .finished, .error]) :=
  sequentialTask_semantics toldStates (fun _ _ _ same => Except.ok.inj same) "two" [.unstarted, .unstarted]
    (by simp [toldStates]) .running [.finished, .error]

end AbilityFramework.TaskMgr
