import AbilityFramework.TaskMgr.Task
import AbilityFramework.Uuid

/-! # The update of active tasks

`TaskManager::update` goes through the active handles with an iterator: a task that can go on is woken, and the
handle of one that has ended is closed and erased.  For every other task the iterator stays where it is.

`update_makesProgress_iff`: the loop comes to its end, and has done what it is for, exactly if every task can go on or
has ended. -/

namespace AbilityFramework.TaskMgr

/-- A value of type `TaskState`; nothing keeps it to the values with a name. -/
inductive StateValue where
  | named (state : TaskState)
  | other (value : Int)
  deriving DecidableEq

def StateValue.isWoken : StateValue → Bool
  | .named .unstarted | .named .running | .named .fine => true
  | .named .pending | .named .finished | .named .error | .named .cancelled | .other _ => false

def StateValue.isEnd : StateValue → Bool
  | .named state => state.isEnd
  | .other _ => false

/-- An entry of `active_handles`, with the state of its task. -/
structure ActiveHandle where
  id : Uuid
  state : StateValue
  deriving DecidableEq

structure UpdateLoop where
  /-- The entries that the iterator has passed. -/
  passed : List ActiveHandle := []
  /-- The entry that the iterator is at, and those after it. -/
  rest : List ActiveHandle
  /-- The handles that were sent to, with what `send()` has returned. -/
  sent : List (Uuid × Int) := []
  closed : List Uuid := []
  deriving DecidableEq

namespace UpdateLoop

variable (send : Uuid → Int)

/-- The body of the loop, at an entry. -/
def body (loop : UpdateLoop) (handle : ActiveHandle) (rest : List ActiveHandle) : UpdateLoop :=
  match handle.state with
  | .named .unstarted | .named .running | .named .fine =>
    { loop with passed := loop.passed ++ [handle], rest, sent := loop.sent ++ [(handle.id, send handle.id)] }
  -- What this falls through to does nothing.
  | .named .finished | .named .error | .named .cancelled => { loop with rest, closed := loop.closed ++ [handle.id] }
  | .named .pending | .other _ => loop

/-- Nothing comes back when the fuel does not last. -/
def run : Nat → UpdateLoop → Option UpdateLoop
  | 0, _ => none
  | fuel + 1, loop =>
    match loop.rest with
    | [] => some loop
    | handle :: rest => run fuel (loop.body send handle rest)

end UpdateLoop

/-- `TaskManager::update` of these entries. -/
def update (send : Uuid → Int) (activeHandles : List ActiveHandle) (fuel : Nat) : Option UpdateLoop :=
  UpdateLoop.run send fuel { rest := activeHandles }

/-- What an update is to do with the entries. -/
structure MakesProgress (activeHandles : List ActiveHandle) (after : UpdateLoop) : Prop where
  sent : after.sent.map Prod.fst = (activeHandles.filter fun handle => handle.state.isWoken).map ActiveHandle.id
  closed : after.closed = (activeHandles.filter fun handle => handle.state.isEnd).map ActiveHandle.id
  kept : after.passed ++ after.rest = activeHandles.filter fun handle => !handle.state.isEnd

/-- The task can go on or has ended. -/
def StateValue.advances (state : StateValue) : Bool := state.isWoken || state.isEnd

variable {send : Uuid → Int} {loop : UpdateLoop} {handle : ActiveHandle} {rest : List ActiveHandle}

theorem body_woken (woken : handle.state.isWoken = true) :
    loop.body send handle rest =
      { loop with passed := loop.passed ++ [handle], rest, sent := loop.sent ++ [(handle.id, send handle.id)] } := by
  unfold UpdateLoop.body
  cases isState : handle.state with
  | other _ => simp [isState, StateValue.isWoken] at woken
  | named state => cases state <;> simp_all [StateValue.isWoken]

theorem body_ended (ended : handle.state.isEnd = true) :
    loop.body send handle rest = { loop with rest, closed := loop.closed ++ [handle.id] } := by
  unfold UpdateLoop.body
  cases isState : handle.state with
  | other _ => simp [isState, StateValue.isEnd] at ended
  | named state => cases state <;> simp_all [StateValue.isEnd, TaskState.isEnd]

/-- At any other entry the loop stays as it is. -/
theorem body_stuck (stuck : handle.state.advances = false) : loop.body send handle rest = loop := by
  unfold UpdateLoop.body
  cases isState : handle.state with
  | other _ => rfl
  | named state => cases state <;> simp_all [StateValue.advances, StateValue.isWoken, StateValue.isEnd, TaskState.isEnd]

theorem isEnd_of_isWoken {state : StateValue} (woken : state.isWoken = true) : state.isEnd = false := by
  cases state with
  | other _ => rfl
  | named state => cases state <;> simp_all [StateValue.isWoken, StateValue.isEnd, TaskState.isEnd]

/-- A loop over entries that all advance does to each what is to be done, in as many rounds as there are entries. -/
theorem run_advances (loop : UpdateLoop) (advance : ∀ handle ∈ loop.rest, handle.state.advances = true) :
    UpdateLoop.run send (loop.rest.length + 1) loop = some {
      passed := loop.passed ++ loop.rest.filter fun handle => !handle.state.isEnd
      rest := []
      sent := loop.sent ++
        (loop.rest.filter fun handle => handle.state.isWoken).map fun handle => (handle.id, send handle.id)
      closed := loop.closed ++ (loop.rest.filter fun handle => handle.state.isEnd).map ActiveHandle.id } := by
  obtain ⟨passed, rest, sent, closed⟩ := loop
  induction rest generalizing passed sent closed with
  | nil => simp [UpdateLoop.run]
  | cons handle rest inductionHypothesis =>
    obtain ⟨first, others⟩ := List.forall_mem_cons.mp advance
    simp only [UpdateLoop.run, List.length_cons]
    by_cases woken : handle.state.isWoken = true
    · rw [body_woken woken]
      refine (inductionHypothesis _ _ _ others).trans ?_
      simp [woken, isEnd_of_isWoken woken]
    -- What advances without being woken is closed and erased.
    · have ended : handle.state.isEnd = true := by simpa [StateValue.advances, woken] using first
      rw [body_ended ended]
      refine (inductionHypothesis _ _ _ others).trans ?_
      simp [woken, ended]

/-- An entry that does not advance is never passed. -/
theorem run_stuck (fuel : Nat) (stuck : ∃ handle ∈ loop.rest, handle.state.advances = false) :
    UpdateLoop.run send fuel loop = none := by
  induction fuel generalizing loop with
  | zero => rfl
  | succ fuel inductionHypothesis =>
    obtain ⟨handle, member, stays⟩ := stuck
    simp only [UpdateLoop.run]
    cases isRest : loop.rest with
    | nil => simp [isRest] at member
    | cons first rest =>
      rw [isRest] at member
      dsimp only
      apply inductionHypothesis
      -- The iterator stops at the first entry that does not advance, this one or one before it.
      by_cases advances : first.state.advances = true
      · have later : handle ∈ rest := by
          obtain rfl | later := List.mem_cons.mp member
          · rw [stays] at advances
            cases advances
          · exact later
        refine ⟨handle, ?_, stays⟩
        by_cases woken : first.state.isWoken = true
        · rwa [body_woken woken]
        · rwa [body_ended (by simpa [StateValue.advances, woken] using advances)]
      · rw [body_stuck (by simpa using advances), isRest]
        exact ⟨handle, member, stays⟩

/-- Whatever the tasks and whatever comes of posting, an update ends and makes progress exactly if every active task
can go on or has ended. -/
theorem update_makesProgress_iff (send : Uuid → Int) (activeHandles : List ActiveHandle) :
    (∃ fuel after, update send activeHandles fuel = some after ∧ MakesProgress activeHandles after) ↔
      ∀ handle ∈ activeHandles, handle.state.advances = true := by
  constructor
  · intro progress handle member
    obtain ⟨fuel, after, isAfter, _⟩ := progress
    by_contra stays
    rw [update, run_stuck fuel ⟨handle, member, by simpa using stays⟩] at isAfter
    cases isAfter
  · intro advance
    refine ⟨activeHandles.length + 1, _, run_advances { rest := activeHandles } advance, ?_, ?_, ?_⟩
    · simp [Function.comp_def]
    · simp
    · simp

/-- One pending task is enough. -/
theorem pending_hangs : ¬ ∃ fuel after,
    update (fun _ => 0) [⟨1, .named .running⟩, ⟨2, .named .pending⟩] fuel = some after ∧
      MakesProgress [⟨1, .named .running⟩, ⟨2, .named .pending⟩] after := by
  intro progress
  obtain ⟨fuel, after, isAfter, _⟩ := progress
  rw [update, run_stuck fuel ⟨⟨2, .named .pending⟩, by simp, rfl⟩] at isAfter
  cases isAfter

end AbilityFramework.TaskMgr
