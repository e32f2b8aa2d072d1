import AbilityFramework.TaskMgr.SequentialTask

/-! # Waiting for a condition

`WaitOnceTask` asks its predicate at every resume until it holds, or fails once the time is over.  The time
starts to run when the task is built, which is when the sequence that it is part of is built, and not when the
tasks before it have finished.

`waitTimeouts_iff`: whatever tasks come before it, a wait is certain to keep its limit exactly if it is first resumed
at the time it was built (or, with a positive limit, one tick later). -/

namespace AbilityFramework.TaskMgr

open Library Library.Runs

inductive WaitError (Error : Type) where
  | timeoutError (what : String)
  | thrown (error : Error)

/-- What the world is like at a resume: the clock, and what the predicate and `on_timeout` give if they are
called. -/
structure WaitInput (Error : Type) where
  now : Int
  predicate : Except Error Bool
  onTimeout : Except Error String

structure WaitOnceTask (Error : Type) extends TaskBase (WaitError Error) where
  name : String
  hasOnTimeout : Bool
  beginTime : Int
  timeoutTime : Int
  /-- At what the task was resumed. -/
  resumes : List (WaitInput Error) := []

variable {Error : Type}

namespace WaitOnceTask

/-- The task as it is built at the time `now`. -/
def build (name : String) (hasOnTimeout : Bool) (maxTimeout now : Int) : WaitOnceTask Error :=
  { name, hasOnTimeout, beginTime := now, timeoutTime := now + maxTimeout }

def timeoutError (task : WaitOnceTask Error) (input : WaitInput Error) : WaitError Error :=
  if task.hasOnTimeout then
    match input.onTimeout with
    | .ok info => .timeoutError info
    | .error error => .thrown error
  else .timeoutError "timeout"

/-- An exception of the predicate is caught.  What it returns is the state that it leaves. -/
def resume (task : WaitOnceTask Error) (input : WaitInput Error) : WaitOnceTask Error :=
  let task := { task with toTaskBase := task.recordStartTimeIfFirstTry, resumes := task.resumes ++ [input] }
  -- The clock is looked at before the predicate is asked.
  if input.now > task.timeoutTime then { task with toTaskBase := task.recordError (some (task.timeoutError input)) }
  else match input.predicate with
    | .error error => { task with toTaskBase := task.recordError (some (.thrown error)) }
    | .ok true => { task with toTaskBase := task.recordStatus .finished }
    | .ok false => { task with toTaskBase := task.setState .running }

end WaitOnceTask

/-! ## Waits among other tasks -/

inductive SequenceItem (Other Error : Type) where
  | other (task : Other)
  | wait (task : WaitOnceTask Error)

/-- Other tasks see a part of the world that waits do not see. -/
structure SequenceInput (OtherInput Error : Type) extends WaitInput Error where
  other : OtherInput

variable {Other OtherInput : Type} (others : TaskInterface Other OtherInput (WaitError Error))

def itemTasks : TaskInterface (SequenceItem Other Error) (SequenceInput OtherInput Error) (WaitError Error) where
  state
    | .other task => others.state task
    | .wait task => task.state
  error
    | .other task => others.error task
    | .wait task => task.exception
  result
    | .other task => others.result task
    | .wait _ => .null
  resume
    | .other task, input => ((others.resume task input.other).1, .other (others.resume task input.other).2)
    | .wait task, input => (.ok (task.resume input.toWaitInput).state, .wait (task.resume input.toWaitInput))

/-- A wait fails with a timeout only after its predicate has been false for as long as the limit says, from the
first resume on; a predicate that holds at the first resume makes it finish. -/
structure KeepsLimit (limit : Int) (task : WaitOnceTask Error) : Prop where
  timeout : ∀ what, task.exception = some (.timeoutError what) → ∃ first last earlier,
    task.resumes = first :: earlier ++ [last] ∧ limit ≤ last.now - first.now ∧
      ∀ asked ∈ first :: earlier, asked.predicate = .ok false
  promptly : ∀ first ∈ task.resumes.head?, first.predicate = .ok true → task.state = .finished

/-! ## A wait that is resumed in time -/

/-- Where a wait stands that has been resumed. -/
structure Asked (limit deadline : Int) (first : WaitInput Error) (task : WaitOnceTask Error) : Prop where
  deadline : task.timeoutTime = deadline
  resumes : ∃ rest, task.resumes = first :: rest
  unended : task.state.isEnd = false → task.exception = none ∧ ∀ asked ∈ task.resumes, asked.predicate = .ok false
  keeps : KeepsLimit limit task

variable {limit deadline : Int} {task : WaitOnceTask Error} {first input : WaitInput Error}

@[simp] theorem exception_recordStartTime {base : TaskBase (WaitError Error)} :
    base.recordStartTimeIfFirstTry.exception = base.exception := by
  unfold TaskBase.recordStartTimeIfFirstTry
  split <;> rfl

theorem resume_resumes (task : WaitOnceTask Error) (input : WaitInput Error) :
    (task.resume input).resumes = task.resumes ++ [input] ∧ (task.resume input).timeoutTime = task.timeoutTime := by
  simp only [WaitOnceTask.resume]
  split
  · exact ⟨rfl, rfl⟩
  · split <;> exact ⟨rfl, rfl⟩

theorem resume_late (late : input.now > task.timeoutTime) :
    (task.resume input).state = .error ∧ (task.resume input).exception = some (task.timeoutError input) := by
  have resumed : task.resume input = { task with
      toTaskBase := task.recordStartTimeIfFirstTry.recordError (some (task.timeoutError input)),
      resumes := task.resumes ++ [input] } := if_pos late
  rw [resumed]
  exact ⟨rfl, rfl⟩

/-- What a resume before the deadline makes of the answer of the predicate. -/
def Answered (before after : WaitOnceTask Error) : Except Error Bool → Prop
  | .error error => after.state = .error ∧ after.exception = some (.thrown error)
  | .ok true => after.state = .finished ∧ after.exception = before.exception
  | .ok false => after.state = .running ∧ after.exception = before.exception

theorem resume_inTime (inTime : input.now ≤ task.timeoutTime) : Answered task (task.resume input) input.predicate := by
  have notLate : ¬ input.now > task.timeoutTime := by omega
  simp only [WaitOnceTask.resume, if_neg notLate]
  cases input.predicate with
  | error error => exact ⟨rfl, rfl⟩
  | ok holds =>
    cases holds with
    | true => exact ⟨rfl, exception_recordStartTime⟩
    | false => exact ⟨rfl, exception_recordStartTime⟩

/-- A resume before the deadline does not fail with a timeout, and finishes if the predicate holds. -/
theorem asked_of_inTime (task : WaitOnceTask Error) (unfailed : task.exception = none)
    (inTime : input.now ≤ task.timeoutTime) {rest : List (WaitInput Error)}
    (resumes : (task.resume input).resumes = first :: rest)
    (earlier : ∀ asked ∈ task.resumes, asked.predicate = .ok false) :
    Asked limit task.timeoutTime first (task.resume input) := by
  have answered := resume_inTime inTime
  obtain ⟨isAppended, sameDeadline⟩ := resume_resumes task input
  -- The predicate has answered otherwise than with false only if this is the first resume.
  have prompt : ∀ head ∈ (task.resume input).resumes.head?, head.predicate = .ok true → head = input := by
    intro head isHead holds
    rw [isAppended, List.head?_append] at isHead
    cases before : task.resumes with
    | nil => simpa [before, eq_comm] using isHead
    | cons _ _ =>
      have isEarlier : head ∈ task.resumes := by simp_all
      rw [earlier head isEarlier] at holds
      cases holds
  cases answer : input.predicate with
  | error error =>
    rw [answer] at answered
    refine ⟨sameDeadline, ⟨rest, resumes⟩, fun unended => ?_, ⟨fun what isTimeout => ?_, fun head isHead holds => ?_⟩⟩
    · rw [answered.1] at unended
      cases unended
    · rw [answered.2] at isTimeout
      cases isTimeout
    · rw [prompt head isHead holds, answer] at holds
      cases holds
  | ok holds =>
    rw [answer] at answered
    cases holds with
    | true =>
      refine ⟨sameDeadline, ⟨rest, resumes⟩, fun unended => ?_, ⟨fun what isTimeout => ?_, fun _ _ _ => answered.1⟩⟩
      · rw [answered.1] at unended
        cases unended
      · rw [answered.2, unfailed] at isTimeout
        cases isTimeout
    | false =>
      refine ⟨sameDeadline, ⟨rest, resumes⟩, fun _ => ⟨answered.2.trans unfailed, ?_⟩,
        ⟨fun what isTimeout => ?_, fun head isHead holds => ?_⟩⟩
      · rw [isAppended]
        intro asked member
        obtain old | rfl := List.mem_append.mp member |>.imp_right List.mem_singleton.mp
        · exact earlier asked old
        · exact answer
      · rw [answered.2, unfailed] at isTimeout
        cases isTimeout
      · rw [prompt head isHead holds, answer] at holds
        cases holds

/-- A wait that has been asked in vain, and is resumed again, has been asked for as long as the limit says when it
fails with a timeout. -/
theorem asked_resume (enough : limit + first.now ≤ deadline + 1) (unended : task.state.isEnd = false)
    (asked : Asked limit deadline first task) (input : WaitInput Error) :
    Asked limit deadline first (task.resume input) := by
  obtain ⟨rest, resumes⟩ := asked.resumes
  obtain ⟨unfailed, inVain⟩ := asked.unended unended
  obtain ⟨isAppended, sameDeadline⟩ := resume_resumes task input
  have appended : (task.resume input).resumes = first :: (rest ++ [input]) := by
    rw [isAppended, resumes, List.cons_append]
  -- Past the deadline nothing is asked any more; all answers before have been false.
  by_cases late : input.now > task.timeoutTime
  · have isDeadline := asked.deadline
    obtain ⟨failed, _⟩ := resume_late late
    refine ⟨sameDeadline.trans asked.deadline, ⟨_, appended⟩, fun notFailed => ?_, ⟨fun _ _ => ?_, ?_⟩⟩
    · rw [failed] at notFailed
      cases notFailed
    · exact ⟨first, input, rest, appended, by omega, resumes ▸ inVain⟩
    · intro head isHead holds
      rw [appended, List.head?_cons] at isHead
      have isFalse := inVain first (by rw [resumes]; exact List.mem_cons_self)
      rw [← Option.some.inj isHead, isFalse] at holds
      cases holds
  · rw [← asked.deadline]
    exact asked_of_inTime task unfailed (Int.not_lt.mp late) appended inVain

/-! ## Waits in sequences -/

/-- A clock that does not run backwards. -/
def ClockMonotone (inputs : List (SequenceInput OtherInput Error)) : Prop :=
  inputs.Pairwise fun earlier later => earlier.now ≤ later.now

variable {others}

/-- A sequence that comes to a wait keeps the limit of the wait if there is still enough time. -/
theorem keepsLimit_of_inTime {sequence : SequentialTask (SequenceItem Other Error) (WaitError Error)} {index : Nat}
    {name : String} {hasOnTimeout : Bool} {built : Int}
    (turn : StandsAt (itemTasks others) sequence index (.wait (.build name hasOnTimeout limit built)))
    (input : SequenceInput OtherInput Error) (inTime : input.now ≤ built + limit) (soon : input.now ≤ built + 1)
    (later : List (SequenceInput OtherInput Error)) :
    ∃ wait, (run (SequentialTask.step (itemTasks others)) sequence (input :: later)).subs[index]? = some (.wait wait) ∧
      KeepsLimit limit wait := by
  -- What `sub_run` carries along is how the item at the index stands.
  let Kept : SequenceItem Other Error → Prop
    | .other _ => False
    | .wait wait => Asked limit (built + limit) input.toWaitInput wait
  have begun : Asked limit (built + limit) input.toWaitInput
      ((WaitOnceTask.build name hasOnTimeout limit built).resume input.toWaitInput) :=
    asked_of_inTime (.build name hasOnTimeout limit built) rfl inTime (resume_resumes _ _).1
      fun _ member => absurd member List.not_mem_nil
  have keptByResumes : ∀ sub (input : SequenceInput OtherInput Error), ((itemTasks others).state sub).isEnd = false →
      Kept sub → Kept ((itemTasks others).resume sub input).2 := by
    intro sub input unended kept
    cases sub with
    | other _ => cases kept
    | wait wait => exact asked_resume (by omega) unended kept input.toWaitInput
  obtain ⟨sub, found, kept⟩ := sub_run keptByResumes (turn.found_step input) begun later
  cases sub with
  | other _ => cases kept
  | wait wait => exact ⟨wait, found, kept.keeps⟩

/-- A wait that is first resumed after its deadline fails even though its predicate holds. -/
theorem not_keepsLimit_late {sequence : SequentialTask (SequenceItem Other Error) (WaitError Error)} {index : Nat}
    {name : String} {hasOnTimeout : Bool} {built : Int}
    (turn : StandsAt (itemTasks others) sequence index (.wait (.build name hasOnTimeout limit built)))
    (input : SequenceInput OtherInput Error) (late : input.now > built + limit) (holds : input.predicate = .ok true) :
    ¬ ∃ wait, (run (SequentialTask.step (itemTasks others)) sequence [input]).subs[index]? = some (.wait wait) ∧
      KeepsLimit limit wait := by
  intro keeps
  obtain ⟨wait, found, keeps⟩ := keeps
  rw [run_cons, run_nil, turn.found_step input] at found
  obtain rfl := SequenceItem.wait.inj (Option.some.inj found)
  have finished := keeps.promptly input.toWaitInput (by rw [(resume_resumes _ _).1]; rfl) holds
  rw [(resume_late late).1] at finished
  cases finished

/-- A wait that is first resumed more than a tick after it was built may fail before its limit. -/
theorem not_keepsLimit_short {sequence : SequentialTask (SequenceItem Other Error) (WaitError Error)} {index : Nat}
    {name : String} {hasOnTimeout : Bool} {built : Int}
    (turn : StandsAt (itemTasks others) sequence index (.wait (.build name hasOnTimeout limit built)))
    (input second : SequenceInput OtherInput Error) (inTime : input.now ≤ built + limit)
    (notSoon : input.now > built + 1) (inVain : input.predicate = .ok false) (atOnce : second.now = built + limit + 1)
    (info : second.onTimeout = .ok "") :
    ¬ ∃ wait, (run (SequentialTask.step (itemTasks others)) sequence [input, second]).subs[index]? = some (.wait wait) ∧
      KeepsLimit limit wait := by
  intro keeps
  obtain ⟨wait, found, keeps⟩ := keeps
  let asked := (WaitOnceTask.build name hasOnTimeout limit built).resume input.toWaitInput
  have answered : Answered (.build name hasOnTimeout limit built) asked input.predicate := resume_inTime inTime
  rw [inVain] at answered
  -- Asked in vain, the wait keeps its turn and is resumed right after its deadline.
  have stillTurn := turn.again input (congrArg Except.ok answered.1) answered.1
  rw [run_cons, run_cons, run_nil, stillTurn.found_step second] at found
  obtain rfl := SequenceItem.wait.inj (Option.some.inj found)
  have late : second.now > asked.timeoutTime := by
    rw [(resume_resumes _ _).2, atOnce]
    exact Int.lt_succ _
  have isTimeout : asked.timeoutError second.toWaitInput = .timeoutError "" ∨
      asked.timeoutError second.toWaitInput = .timeoutError "timeout" := by
    unfold WaitOnceTask.timeoutError
    rw [info]
    split
    · exact .inl rfl
    · exact .inr rfl
  obtain ⟨what, failed⟩ : ∃ what, (asked.resume second.toWaitInput).exception = some (.timeoutError what) := by
    rw [(resume_late late).2]
    obtain same | same := isTimeout <;> exact ⟨_, congrArg some same⟩
  obtain ⟨first, last, earlier, resumes, long, _⟩ := keeps.timeout what failed
  have twice : (asked.resume second.toWaitInput).resumes = [input.toWaitInput, second.toWaitInput] := by
    rw [(resume_resumes _ _).1, (resume_resumes _ _).1]
    rfl
  obtain ⟨rfl, rest⟩ := List.cons.inj (twice.symm.trans resumes)
  obtain ⟨rfl, isLast⟩ : earlier = [] ∧ second.toWaitInput = last := by
    cases earlier <;> simp_all
  rw [← isLast, atOnce] at long
  omega

/-- In every run that has come to a wait, whatever it does from now on, the wait keeps its limit exactly if it is
resumed, for the first time, when it was built or one tick later, and not after its deadline. -/
theorem waitTimeouts_iff [Inhabited OtherInput] (others : TaskInterface Other OtherInput (WaitError Error))
    (name : String)
    (before after : List (SequenceItem Other Error)) (waitName : String) (hasOnTimeout : Bool) (limit built : Int)
    (passed : List (SequenceInput OtherInput Error))
    (turn : StandsAt (itemTasks others)
      (run (SequentialTask.step (itemTasks others))
        (.start name (before ++ .wait (.build waitName hasOnTimeout limit built) :: after)) passed)
      before.length (.wait (.build waitName hasOnTimeout limit built))) (first : Int) :
    (∀ input later, input.now = first → ClockMonotone (input :: later) →
      ∃ wait, (run (SequentialTask.step (itemTasks others))
          (.start name (before ++ .wait (.build waitName hasOnTimeout limit built) :: after))
          (passed ++ input :: later)).subs[before.length]? = some (.wait wait) ∧ KeepsLimit limit wait) ↔
      first ≤ built + min 1 limit := by
  constructor
  · intro keeps
    by_contra late
    -- A late first resume either comes after the deadline or leaves less time than the limit says.
    by_cases afterDeadline : first > built + limit
    · refine not_keepsLimit_late turn ⟨⟨first, .ok true, .ok ""⟩, default⟩ afterDeadline rfl ?_
      rw [← run_append]
      exact keeps _ [] rfl (List.pairwise_singleton _ _)
    · refine not_keepsLimit_short turn ⟨⟨first, .ok false, .ok ""⟩, default⟩
        ⟨⟨built + limit + 1, .ok false, .ok ""⟩, default⟩ (Int.not_lt.mp afterDeadline) (by dsimp only; omega)
        rfl rfl rfl ?_
      rw [← run_append]
      refine keeps _ [_] rfl (List.pairwise_pair.mpr ?_)
      dsimp only
      omega
  · intro soon input later isFirst _
    rw [run_append]
    exact keepsLimit_of_inTime turn input (by omega) (by omega) later

def tick (now : Int) (predicate : Bool) (other : TaskState) : SequenceInput TaskState String :=
  ⟨⟨now, .ok predicate, .ok ""⟩, other⟩

/-- A task, and a wait of 30 ticks, both built at the time 0. -/
def taskAndWait : SequentialTask (SequenceItem TaskState String) (WaitError String) :=
  .start "download-start-ability" ([.other .unstarted] ++ .wait (.build "wait-standby" true 30 0) :: [])

/-- The first task has finished at once. -/
theorem taskAndWait_keepsLimit :
    (run (SequentialTask.step (itemTasks toldStates)) taskAndWait [tick 0 false .finished]).current = 1 ∧
      ∀ (input : SequenceInput TaskState String) later, input.now = 1 → ClockMonotone (input :: later) →
        ∃ wait, (run (SequentialTask.step (itemTasks toldStates)) taskAndWait
            ([tick 0 false .finished] ++ input :: later)).subs[1]? = some (.wait wait) ∧ KeepsLimit 30 wait :=
  have : Inhabited TaskState := ⟨.unstarted⟩
  ⟨rfl, (waitTimeouts_iff toldStates "download-start-ability" [.other .unstarted] [] "wait-standby" true 30 0
    [tick 0 false .finished] ⟨rfl, rfl, rfl, .inl rfl⟩ 1).mpr (by decide)⟩

/-- The first task takes 31 ticks, and the wait fails at once although its predicate holds. -/
theorem taskAndWait_timesOut : ClockMonotone [tick 0 true .running, tick 31 true .finished, tick 31 true .running] ∧
    ¬ ∃ wait, (run (SequentialTask.step (itemTasks toldStates)) taskAndWait
        [tick 0 true .running, tick 31 true .finished, tick 31 true .running]).subs[1]? = some (.wait wait) ∧
      KeepsLimit 30 wait := by
  refine ⟨by simp [ClockMonotone, tick], ?_⟩
  have turn : StandsAt (itemTasks toldStates) (run (SequentialTask.step (itemTasks toldStates)) taskAndWait
      [tick 0 true .running, tick 31 true .finished]) 1 (.wait (.build "wait-standby" true 30 0)) :=
    ⟨rfl, rfl, rfl, .inl rfl⟩
  exact not_keepsLimit_late turn (tick 31 true .running) (by decide) rfl

end AbilityFramework.TaskMgr
