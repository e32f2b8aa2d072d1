import Mathlib.Data.Finset.Card
import Mathlib.Data.Option.Basic

/-! # Loops that may not end

The body of a loop goes on with a new state or leaves with a result.  A loop finishes with at most one result, or runs
for ever.

Where a loop goes next often depends on a part of its state alone, its place.  If the places are finitely many, it runs
for ever exactly if it comes to a place twice, which shows after as many turns as there are places. -/

namespace AbilityFramework.Library.Loops

/-- What the body of a loop does in a state. -/
inductive Turn (State Result : Type*) where
  | again (state : State)
  | leave (result : Result)

namespace Turn

variable {State Result : Type*}

def next? : Turn State Result → Option State
  | again state => some state
  | leave _ => none

theorem next?_eq_some {turn : Turn State Result} {state : State} : turn.next? = some state ↔ turn = again state := by
  cases turn <;> simp [next?]

end Turn

/-! ## Places -/

section Places

variable {Place : Type*}

/-- The place after a number of turns, if there are as many. -/
def follow (next : Place → Option Place) : Nat → Place → Option Place
  | 0, place => some place
  | turns + 1, place => (next place).bind (follow next turns)

def Endless (next : Place → Option Place) (place : Place) : Prop := ∀ turns, (follow next turns place).isSome = true

variable {next : Place → Option Place} {place : Place}

theorem follow_add (first second : Nat) (place : Place) :
    follow next (first + second) place = (follow next first place).bind (follow next second) := by
  induction first generalizing place with
  | zero => simp [follow]
  | succ first inductionHypothesis =>
    rw [Nat.succ_add]
    cases step : next place with
    | none => simp [follow, step]
    | some later => simp [follow, step, inductionHypothesis]

theorem follow_isSome_of_le {few many : Nat} (le : few ≤ many) (many_isSome : (follow next many place).isSome = true) :
    (follow next few place).isSome = true := by
  obtain ⟨rest, rfl⟩ := Nat.exists_eq_add_of_le le
  rw [follow_add] at many_isSome
  cases few_eq : follow next few place with
  | none => simp [few_eq] at many_isSome
  | some reached => rfl

theorem endless_of_follow {turns : Nat} {reached : Place} (isReached : follow next turns place = some reached)
    (endless : Endless next reached) : Endless next place := by
  intro many
  have later : (follow next (turns + many) place).isSome = true := by
    rw [follow_add, isReached]
    exact endless many
  exact follow_isSome_of_le (Nat.le_add_left many turns) later

/-- A place that comes back to itself does so for ever. -/
theorem endless_of_period {period : Nat} (positive : 0 < period) (returns : follow next period place = some place) :
    Endless next place := by
  have rounds : ∀ count, follow next (count * period) place = some place := by
    intro count
    induction count with
    | zero => rw [Nat.zero_mul]; rfl
    | succ count inductionHypothesis => rw [Nat.succ_mul, follow_add, inductionHypothesis]; exact returns
  intro turns
  have enough : turns ≤ turns * period := Nat.le_mul_of_pos_right turns positive
  exact follow_isSome_of_le enough (by rw [rounds]; rfl)

/-- The place is reached twice. -/
def Recurs (next : Place → Option Place) (place : Place) : Prop :=
  ∃ first second reached, first < second ∧ follow next first place = some reached ∧ follow next second place = some reached

theorem endless_of_recurs (recurs : Recurs next place) : Endless next place := by
  obtain ⟨first, second, reached, before, isFirst, isSecond⟩ := recurs
  obtain ⟨period, rfl⟩ := Nat.exists_eq_add_of_lt before
  rw [Nat.add_assoc, follow_add, isFirst] at isSecond
  exact endless_of_follow isFirst (endless_of_period (Nat.succ_pos period) isSecond)

variable {places : Finset Place}
  (within : ∀ turns reached, follow next turns place = some reached → reached ∈ places)
include within

/-- More turns than there are places come to one of them twice. -/
theorem recurs_of_long (long : (follow next places.card place).isSome = true) : Recurs next place := by
  have all : ∀ turn ∈ Finset.range (places.card + 1), (follow next turn place).isSome = true := by
    intro turn isTurn
    exact follow_isSome_of_le (Nat.lt_succ_iff.mp (Finset.mem_range.mp isTurn)) long
  have maps : ∀ turn ∈ Finset.range (places.card + 1), (follow next turn place).getD place ∈ places := by
    intro turn isTurn
    obtain ⟨reached, isReached⟩ := Option.isSome_iff_exists.mp (all turn isTurn)
    rw [isReached]
    exact within turn reached isReached
  obtain ⟨first, isFirst, second, isSecond, differ, same⟩ :=
    Finset.exists_ne_map_eq_of_card_lt_of_maps_to (by rw [Finset.card_range]; exact Nat.lt_succ_self _) maps
  obtain ⟨one, isOne⟩ := Option.isSome_iff_exists.mp (all first isFirst)
  obtain ⟨other, isOther⟩ := Option.isSome_iff_exists.mp (all second isSecond)
  have equal : one = other := by simpa [isOne, isOther] using same
  subst equal
  obtain before | after := Nat.lt_or_gt_of_ne differ
  · exact ⟨first, second, one, before, isOne, isOther⟩
  · exact ⟨second, first, one, after, isOther, isOne⟩

theorem endless_iff_recurs : Endless next place ↔ Recurs next place :=
  ⟨fun endless => recurs_of_long within (endless places.card), endless_of_recurs⟩

end Places

/-! ## Loops -/

variable {State Result Place : Type*} (body : State → Turn State Result)

/-- The result of a loop that leaves within a number of turns. -/
def loop : Nat → State → Option Result
  | 0, _ => none
  | turns + 1, state =>
    match body state with
    | .again later => loop turns later
    | .leave result => some result

def Finishes (state : State) (result : Result) : Prop := ∃ turns, loop body turns state = some result

def Forever (state : State) : Prop := ∀ turns, loop body turns state = none

variable {body} {state later : State} {result : Result}

theorem loop_again (goesOn : body state = .again later) (turns : Nat) :
    loop body (turns + 1) state = loop body turns later := by
  rw [loop, goesOn]

theorem loop_leave (leaves : body state = .leave result) (turns : Nat) : loop body (turns + 1) state = some result := by
  rw [loop, leaves]

theorem loop_of_le {few many : Nat} (le : few ≤ many) (finishes : loop body few state = some result) :
    loop body many state = some result := by
  induction few generalizing state many with
  | zero => cases finishes
  | succ few inductionHypothesis =>
    obtain ⟨many, rfl⟩ := Nat.exists_eq_add_of_lt (Nat.lt_of_lt_of_le few.succ_pos le)
    cases turn : body state with
    | again later =>
      rw [loop_again turn] at finishes ⊢
      exact inductionHypothesis (by omega) finishes
    | leave other =>
      rw [loop_leave turn] at finishes ⊢
      exact finishes

theorem finishes_unique {other : Result} (finishes : Finishes body state result) (alsoFinishes : Finishes body state other) :
    result = other := by
  obtain ⟨few, isResult⟩ := finishes
  obtain ⟨many, isOther⟩ := alsoFinishes
  have first := loop_of_le (Nat.le_max_left few many) isResult
  have second := loop_of_le (Nat.le_max_right few many) isOther
  exact Option.some.inj (first.symm.trans second)

theorem finishes_leave (leaves : body state = .leave result) : Finishes body state result := ⟨1, loop_leave leaves 0⟩

theorem finishes_leave_iff {other : Result} (leaves : body state = .leave result) :
    Finishes body state other ↔ other = result := by
  constructor
  · exact fun finishes => finishes_unique finishes (finishes_leave leaves)
  · rintro rfl
    exact finishes_leave leaves

theorem finishes_again (goesOn : body state = .again later) : Finishes body state result ↔ Finishes body later result := by
  constructor
  · rintro ⟨turns, isResult⟩
    cases turns with
    | zero => cases isResult
    | succ turns => exact ⟨turns, by rwa [loop_again goesOn] at isResult⟩
  · rintro ⟨turns, isResult⟩
    exact ⟨turns + 1, by rwa [loop_again goesOn]⟩

theorem not_forever_iff : ¬ Forever body state ↔ ∃ result, Finishes body state result := by
  simp only [Forever, Finishes, not_forall, ← Option.isSome_iff_ne_none, Option.isSome_iff_exists]
  exact exists_comm

theorem not_forever (finishes : Finishes body state result) : ¬ Forever body state := not_forever_iff.mpr ⟨result, finishes⟩

/-- A loop whose turns lower a measure leaves. -/
theorem exists_finishes (measure : State → Nat) (lowers : ∀ state later, body state = .again later → measure later < measure state)
    (state : State) : ∃ result, loop body (measure state + 1) state = some result := by
  induction size : measure state using Nat.strong_induction_on generalizing state with
  | _ size inductionHypothesis =>
    cases turn : body state with
    | leave result => exact ⟨result, loop_leave turn _⟩
    | again later =>
      have less := lowers state later turn
      obtain ⟨result, isResult⟩ := inductionHypothesis (measure later) (by omega) later rfl
      exact ⟨result, by rw [loop_again turn]; exact loop_of_le (by omega) isResult⟩

/-- What every turn preserves holds where the loop leaves. -/
theorem finishes_invariant (invariant : State → Prop)
    (preserved : ∀ state later, invariant state → body state = .again later → invariant later)
    (initially : invariant state) (finishes : Finishes body state result) :
    ∃ last, invariant last ∧ body last = .leave result := by
  obtain ⟨turns, isResult⟩ := finishes
  induction turns generalizing state with
  | zero => cases isResult
  | succ turns inductionHypothesis =>
    cases turn : body state with
    | leave other =>
      rw [loop_leave turn] at isResult
      cases isResult
      exact ⟨state, initially, turn⟩
    | again later =>
      rw [loop_again turn] at isResult
      exact inductionHypothesis (preserved state later initially turn) isResult

section Projection

variable {place : State → Place} {next : Place → Option Place}
  (projects : ∀ state, (body state).next?.map place = next (place state))
include projects

theorem next_again (goesOn : body state = .again later) : next (place state) = some (place later) := by
  rw [← projects, goesOn]
  rfl

theorem next_leave (leaves : body state = .leave result) : next (place state) = none := by
  rw [← projects, leaves]
  rfl

theorem loop_isNone_iff (turns : Nat) (state : State) :
    loop body turns state = none ↔ (follow next turns (place state)).isSome = true := by
  induction turns generalizing state with
  | zero => simp [loop, follow]
  | succ turns inductionHypothesis =>
    cases turn : body state with
    | leave result => simp [loop_leave turn, follow, next_leave projects turn]
    | again later => rw [loop_again turn, inductionHypothesis, follow, next_again projects turn]; rfl

/-- A place that is followed to is the one of a state that the loop comes to. -/
theorem exists_reached {turns : Nat} {reached : Place} (isReached : follow next turns (place state) = some reached) :
    ∃ last, place last = reached ∧ ∀ result, Finishes body last result → Finishes body state result := by
  induction turns generalizing state with
  | zero => exact ⟨state, Option.some.inj isReached, fun _ finishes => finishes⟩
  | succ turns inductionHypothesis =>
    cases turn : body state with
    | leave result =>
      rw [follow, next_leave projects turn] at isReached
      cases isReached
    | again later =>
      rw [follow, next_again projects turn] at isReached
      obtain ⟨last, isLast, finishes⟩ := inductionHypothesis isReached
      exact ⟨last, isLast, fun result isResult => (finishes_again turn).mpr (finishes result isResult)⟩

/-- Where a loop leaves is a place that is followed to. -/
theorem exists_follow_of_finishes (finishes : Finishes body state result) :
    ∃ last turns, follow next turns (place state) = some (place last) ∧ body last = .leave result := by
  have preserved : ∀ before after, (∃ turns, follow next turns (place state) = some (place before)) →
      body before = .again after → ∃ turns, follow next turns (place state) = some (place after) := by
    rintro before after ⟨turns, isBefore⟩ turn
    refine ⟨turns + 1, ?_⟩
    rw [follow_add, isBefore, Option.bind_some, follow, next_again projects turn]
    rfl
  obtain ⟨last, ⟨turns, isLast⟩, leaves⟩ := finishes_invariant _ preserved ⟨0, rfl⟩ finishes
  exact ⟨last, turns, isLast, leaves⟩

/-- A loop runs for ever exactly if its places do. -/
theorem forever_iff_endless : Forever body state ↔ Endless next (place state) :=
  forall_congr' fun turns => loop_isNone_iff projects turns state

theorem exists_finishes_of_not_recurs {places : Finset Place}
    (within : ∀ turns reached, follow next turns (place state) = some reached → reached ∈ places)
    (once : ¬ Recurs next (place state)) : ∃ result, loop body places.card state = some result := by
  cases outcome : loop body places.card state with
  | some result => exact ⟨result, rfl⟩
  | none =>
    rw [loop_isNone_iff projects] at outcome
    exact absurd (recurs_of_long within outcome) once

end Projection

end AbilityFramework.Library.Loops
