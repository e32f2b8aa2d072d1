import Mathlib.Data.List.Induction

/-! # Runs of a machine

A machine is a total step function over states and events; an event that is not enabled leaves
the state as it is.  Everything a machine can do is then a list of events, and a property of a
run is a property of the states and steps along that list.

* `Always step holds state events` — every state the run visits satisfies `holds`.
* `EachStep step condition state events` — every step meets `condition`, which sees the state
  before the step and the event.

The rules below are the only inductions over runs in the development: an invariant is shown
preserved by one step, and one of the rules carries it along the whole list. -/

namespace AbilityFramework.Library.Runs

variable {State Event : Type*} (step : State → Event → State)

def run (state : State) (events : List Event) : State :=
  events.foldl step state

def Always (holds : State → Prop) : State → List Event → Prop
  | state, [] => holds state
  | state, event :: events => holds state ∧ Always holds (step state event) events

def EachStep (condition : State → Event → Prop) : State → List Event → Prop
  | _, [] => True
  | state, event :: events => condition state event ∧ EachStep condition (step state event) events

variable {step} {holds : State → Prop} {condition good : State → Event → Prop}

@[simp] theorem run_nil (state : State) : run step state [] = state := rfl

@[simp] theorem run_cons (state : State) (event : Event) (events : List Event) :
    run step state (event :: events) = run step (step state event) events := rfl

@[simp] theorem run_append (state : State) (first second : List Event) :
    run step state (first ++ second) = run step (run step state first) second :=
  List.foldl_append

theorem run_concat (state : State) (events : List Event) (last : Event) :
    run step state (events ++ [last]) = step (run step state events) last := by
  rw [run_append, run_cons, run_nil]

instance decidableAlways [DecidablePred holds] :
    (state : State) → (events : List Event) → Decidable (Always step holds state events)
  | state, [] => inferInstanceAs (Decidable (holds state))
  | state, event :: events =>
    @instDecidableAnd _ _ inferInstance (decidableAlways (step state event) events)

instance decidableEachStep [∀ state event, Decidable (condition state event)] :
    (state : State) → (events : List Event) → Decidable (EachStep step condition state events)
  | _, [] => isTrue trivial
  | state, event :: events =>
    @instDecidableAnd _ _ inferInstance (decidableEachStep (step state event) events)

/-- An event of a longer run is the last one, or one of the run before. -/
theorem concat_eq_split {events before after : List Event} {last event : Event} :
    events ++ [last] = before ++ event :: after ↔
      (before = events ∧ event = last ∧ after = []) ∨
        ∃ rest, after = rest ++ [last] ∧ events = before ++ event :: rest := by
  constructor
  · intro split
    cases after using List.reverseRecOn with
    | nil =>
      obtain ⟨same, isLast⟩ := List.append_inj' split rfl
      exact .inl ⟨same.symm, (List.singleton_inj.mp isLast).symm, rfl⟩
    | append_singleton rest final =>
      have shape : events ++ [last] = (before ++ event :: rest) ++ [final] := by
        rw [split, List.append_assoc, List.cons_append]
      obtain ⟨earlier, isLast⟩ := List.append_inj' shape rfl
      rw [List.singleton_inj.mp isLast]
      exact .inr ⟨rest, rfl, earlier⟩
  · rintro (⟨rfl, rfl, rfl⟩ | ⟨rest, rfl, rfl⟩)
    · rfl
    · simp

/-! ## The invariant rule -/

/-- Events that change nothing. -/
theorem run_eq_self {state : State} {events : List Event} (same : ∀ event ∈ events, step state event = state) :
    run step state events = state := by
  induction events with
  | nil => rfl
  | cons event events inductionHypothesis =>
    rw [List.forall_mem_cons] at same
    rw [run_cons, same.1, inductionHypothesis same.2]

/-- What holds at the start and is preserved by every step holds at the end of every run. -/
theorem run_invariant (invariant : State → Prop)
    (preserved : ∀ state event, invariant state → invariant (step state event))
    (state : State) (initially : invariant state) (events : List Event) :
    invariant (run step state events) := by
  induction events generalizing state with
  | nil => exact initially
  | cons event events inductionHypothesis =>
    exact inductionHypothesis (step state event) (preserved state event initially)

/-- The same when the steps preserve the invariant only under a condition each of them meets. -/
theorem run_guarded (invariant : State → Prop)
    (preserved : ∀ state event, invariant state → condition state event → invariant (step state event))
    (state : State) (initially : invariant state) (events : List Event)
    (guarded : EachStep step condition state events) : invariant (run step state events) := by
  induction events generalizing state with
  | nil => exact initially
  | cons event events inductionHypothesis =>
    exact inductionHypothesis (step state event) (preserved state event initially guarded.1) guarded.2

/-- The same with what the events so far have contributed. -/
theorem run_collecting {Item : Type*} (contribution : Event → Option Item) (invariant : State → List Item → Prop)
    (preserved : ∀ state items event, invariant state items →
      invariant (step state event) (items ++ [event].filterMap contribution))
    {state : State} {items : List Item} (initially : invariant state items) (events : List Event) :
    invariant (run step state events) (items ++ events.filterMap contribution) := by
  induction events generalizing state items with
  | nil =>
    rw [List.filterMap_nil, List.append_nil]
    exact initially
  | cons event events inductionHypothesis =>
    have later := inductionHypothesis (preserved state items event initially)
    rwa [List.append_assoc, ← List.filterMap_append, List.singleton_append] at later

/-- The same with all events so far. -/
theorem run_history (invariant : State → List Event → Prop)
    (preserved : ∀ state events event, invariant state events → invariant (step state event) (events ++ [event]))
    {state : State} (initially : invariant state []) (events : List Event) :
    invariant (run step state events) events := by
  have collected := run_collecting some invariant preserved initially events
  rwa [List.filterMap_some, List.nil_append] at collected

/-- A condition on events alone is met by every step exactly if every event of the list meets it. -/
theorem eachStep_iff_forall (step : State → Event → State) {admitted : Event → Prop} (state : State) (events : List Event) :
    EachStep step (fun _ event => admitted event) state events ↔ ∀ event ∈ events, admitted event := by
  induction events generalizing state with
  | nil => simp only [EachStep, List.not_mem_nil, false_implies, implies_true]
  | cons event events inductionHypothesis =>
    simp only [EachStep, List.forall_mem_cons, inductionHypothesis (step state event)]

theorem eachStep_append (state : State) (first second : List Event) :
    EachStep step condition state (first ++ second) ↔
      EachStep step condition state first ∧ EachStep step condition (run step state first) second := by
  induction first generalizing state with
  | nil => simp [EachStep]
  | cons event first inductionHypothesis =>
    simp only [List.cons_append, EachStep, inductionHypothesis, run_cons, and_assoc]

/-- `EachStep` speaks of every event, in the state the events before it lead to. -/
theorem eachStep_iff_splits (state : State) (events : List Event) :
    EachStep step condition state events ↔
      ∀ before event after, events = before ++ event :: after → condition (run step state before) event := by
  constructor
  · intro each before event after split
    rw [split, eachStep_append] at each
    exact each.2.1
  · induction events generalizing state with
    | nil => intro _; trivial
    | cons event events inductionHypothesis =>
      intro all
      refine ⟨all [] event events rfl, inductionHypothesis (step state event) ?_⟩
      intro before later after split
      exact all (event :: before) later after (by rw [split, List.cons_append])

/-- A step that meets the condition, in a state that satisfies the invariant, does what is wanted. -/
theorem eachStep_of_guarded (invariant : State → Prop)
    (sound : ∀ state event, invariant state → condition state event → good state event)
    (preserved : ∀ state event, invariant state → condition state event → invariant (step state event))
    (state : State) (initially : invariant state) (events : List Event)
    (guarded : EachStep step condition state events) : EachStep step good state events := by
  induction events generalizing state with
  | nil => trivial
  | cons event events inductionHypothesis =>
    exact ⟨sound state event initially guarded.1,
      inductionHypothesis (step state event) (preserved state event initially guarded.1) guarded.2⟩

/-! ## States along a run -/

theorem always_of_guarded (invariant : State → Prop) (sound : ∀ state, invariant state → holds state)
    (preserved : ∀ state event, invariant state → condition state event → invariant (step state event))
    (state : State) (initially : invariant state) (events : List Event)
    (guarded : EachStep step condition state events) : Always step holds state events := by
  induction events generalizing state with
  | nil => exact sound state initially
  | cons event events inductionHypothesis =>
    exact ⟨sound state initially,
      inductionHypothesis (step state event) (preserved state event initially guarded.1) guarded.2⟩

theorem eachStep_of_always (sound : ∀ state event, holds state → good state event) (state : State)
    (events : List Event) (always : Always step holds state events) : EachStep step good state events := by
  induction events generalizing state with
  | nil => trivial
  | cons event events inductionHypothesis =>
    exact ⟨sound state event always.1, inductionHypothesis (step state event) always.2⟩

/-- `Always` speaks of the state after every prefix of the events. -/
theorem always_iff_prefixes (state : State) (events : List Event) :
    Always step holds state events ↔
      ∀ before after, events = before ++ after → holds (run step state before) := by
  induction events generalizing state with
  | nil =>
    constructor
    · intro initially before after split
      obtain ⟨rfl, rfl⟩ := List.append_eq_nil_iff.mp split.symm
      exact initially
    · intro all
      exact all [] [] rfl
  | cons event events inductionHypothesis =>
    simp only [Always, inductionHypothesis]
    constructor
    · rintro ⟨initially, later⟩ before after split
      cases before with
      | nil => exact initially
      | cons first before =>
        simp only [List.cons_append, List.cons.injEq] at split
        obtain ⟨rfl, split⟩ := split
        exact later before after split
    · intro all
      refine ⟨all [] (event :: events) rfl, ?_⟩
      intro before after split
      exact all (event :: before) after (by rw [split, List.cons_append])

/-! ## Exact conditions

When, in states that satisfy the invariant, a step does what is wanted exactly if it meets the
condition, a run does what is wanted at every step exactly if every step meets the condition. -/

theorem eachStep_exact (invariant : State → Prop)
    (preserved : ∀ state event, invariant state → condition state event → invariant (step state event))
    (exactly : ∀ state event, invariant state → (good state event ↔ condition state event))
    (state : State) (initially : invariant state) (events : List Event) :
    EachStep step good state events ↔ EachStep step condition state events := by
  induction events generalizing state with
  | nil => exact Iff.rfl
  | cons event events inductionHypothesis =>
    simp only [EachStep, exactly state event initially]
    refine and_congr_right fun meets => ?_
    exact inductionHypothesis (step state event) (preserved state event initially meets)

/-- The same for steps that are admitted. -/
theorem always_exact_admitted {admitted : State → Event → Prop} (invariant : State → Prop)
    (sound : ∀ state, invariant state → holds state)
    (preserved : ∀ state event, invariant state → admitted state event → condition state event → invariant (step state event))
    (necessary : ∀ state event, invariant state → admitted state event → holds (step state event) → condition state event)
    (state : State) (initially : invariant state) (events : List Event) (areAdmitted : EachStep step admitted state events) :
    Always step holds state events ↔ EachStep step condition state events := by
  induction events generalizing state with
  | nil => exact iff_of_true (sound state initially) trivial
  | cons event events inductionHypothesis =>
    obtain ⟨isAdmitted, areAdmitted⟩ := areAdmitted
    constructor
    · rintro ⟨_, later⟩
      -- `Always` holds at the first state of what is left, empty or not.
      have holdsNext : holds (step state event) := by
        cases events with
        | nil => exact later
        | cons _ _ => exact later.1
      have meets := necessary state event initially isAdmitted holdsNext
      have next := preserved state event initially isAdmitted meets
      exact ⟨meets, (inductionHypothesis (step state event) next areAdmitted).mp later⟩
    · rintro ⟨meets, later⟩
      have next := preserved state event initially isAdmitted meets
      exact ⟨sound state initially, (inductionHypothesis (step state event) next areAdmitted).mpr later⟩

theorem always_exact (invariant : State → Prop) (sound : ∀ state, invariant state → holds state)
    (preserved : ∀ state event, invariant state → condition state event → invariant (step state event))
    (necessary : ∀ state event, invariant state → holds (step state event) → condition state event)
    (state : State) (initially : invariant state) (events : List Event) :
    Always step holds state events ↔ EachStep step condition state events := by
  have allAdmitted : EachStep step (fun _ _ => True) state events := by
    rw [eachStep_iff_forall]
    exact fun _ _ => trivial
  refine always_exact_admitted invariant sound ?_ ?_ state initially events allAdmitted
  · exact fun state event holdsBefore _ => preserved state event holdsBefore
  · exact fun state event holdsBefore _ => necessary state event holdsBefore

/-! ## Refinement -/

/-- A relation between the states of two machines that one step preserves relates the states
after any list of events. -/
theorem run_refines {Abstract : Type*} {abstractStep : Abstract → Event → Abstract}
    {related : State → Abstract → Prop}
    (simulates : ∀ state abstract event, related state abstract →
      related (step state event) (abstractStep abstract event))
    (state : State) (abstract : Abstract) (initially : related state abstract) (events : List Event) :
    related (run step state events) (run abstractStep abstract events) := by
  induction events generalizing state abstract with
  | nil => exact initially
  | cons event events inductionHypothesis =>
    exact inductionHypothesis _ _ (simulates state abstract event initially)

/-- The same when a step preserves the relation only for the events that are admitted. -/
theorem run_refines_admitted {Abstract : Type*} {abstractStep : Abstract → Event → Abstract}
    {related : State → Abstract → Prop} {admitted : Event → Prop}
    (simulates : ∀ state abstract event, admitted event → related state abstract →
      related (step state event) (abstractStep abstract event))
    {state : State} {abstract : Abstract} (initially : related state abstract) {events : List Event}
    (all : ∀ event ∈ events, admitted event) : related (run step state events) (run abstractStep abstract events) := by
  induction events generalizing state abstract with
  | nil => exact initially
  | cons event events inductionHypothesis =>
    rw [List.forall_mem_cons] at all
    exact inductionHypothesis (simulates state abstract event all.1 initially) all.2

end AbilityFramework.Library.Runs
