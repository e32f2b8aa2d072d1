import Mathlib.Data.List.Basic

/-! # What a computation returns or throws

`Returns` says that a computation does not throw, `Only` that it throws nothing but errors of a kind.  Both go
through binds and through loops over lists, so that what a decoder of many members throws is known from its parts:
`Only` of a sequence is `Only` of each part that is reached. -/

namespace AbilityFramework.Library

universe u

variable {Error : Type*} {α β : Type u}

def Returns (result : Except Error α) : Prop := ∃ value, result = .ok value

def Only (admitted : Error → Prop) : Except Error α → Prop
  | .ok _ => True
  | .error error => admitted error

variable {admitted : Error → Prop} {result : Except Error α} {next : α → Except Error β}

@[simp] theorem returns_ok (value : α) : Returns (.ok value : Except Error α) := ⟨value, rfl⟩

@[simp] theorem returns_pure (value : α) : Returns (pure value : Except Error α) := ⟨value, rfl⟩

@[simp] theorem not_returns_error (error : Error) : ¬ Returns (.error error : Except Error α) := nofun

@[simp] theorem only_ok (value : α) : Only admitted (.ok value : Except Error α) := trivial

@[simp] theorem only_error (error : Error) : Only admitted (.error error : Except Error α) ↔ admitted error := Iff.rfl

@[simp] theorem only_pure (value : α) : Only admitted (pure value : Except Error α) := trivial

theorem only_bind : Only admitted (result >>= next) ↔
    Only admitted result ∧ ∀ value, result = .ok value → Only admitted (next value) := by
  cases result with
  | error error => exact ⟨fun only => ⟨only, nofun⟩, fun only => only.1⟩
  | ok value =>
    refine ⟨fun only => ⟨trivial, ?_⟩, fun only => only.2 value rfl⟩
    rintro _ ⟨⟩
    exact only

@[simp] theorem only_fmap {change : α → β} : Only admitted (change <$> result) ↔ Only admitted result := by
  cases result <;> exact Iff.rfl

theorem only_map {change : α → β} : Only admitted (result.map change) ↔ Only admitted result := by
  cases result <;> exact Iff.rfl

theorem returns_bind : Returns (result >>= next) ↔ ∃ value, result = .ok value ∧ Returns (next value) := by
  cases result with
  | error error => exact ⟨nofun, nofun⟩
  | ok value =>
    refine ⟨fun returns => ⟨value, rfl, returns⟩, ?_⟩
    rintro ⟨_, ⟨⟩, returns⟩
    exact returns

theorem forall_value {holds : Prop} : (∀ value, result = .ok value → holds) ↔ (Returns result → holds) :=
  ⟨fun all ⟨value, same⟩ => all value same, fun all value same => all ⟨value, same⟩⟩

theorem exists_value {holds : Prop} : (∃ value, result = .ok value ∧ holds) ↔ Returns result ∧ holds := exists_and_right

/-! ## Loops -/

section Loops

variable {Item : Type*} {State : Type u}

/-- What holds of each item that is reached: those before it have passed. -/
def Reached (passes holds : Item → Prop) (items : List Item) : Prop :=
  ∀ before item after, items = before ++ item :: after → (∀ earlier ∈ before, passes earlier) → holds item

variable {passes holds : Item → Prop}

@[simp] theorem reached_nil : Reached passes holds [] := by
  intro before item after split
  exact absurd split.symm (List.append_ne_nil_of_right_ne_nil _ (List.cons_ne_nil _ _))

theorem reached_cons {item : Item} {items : List Item} :
    Reached passes holds (item :: items) ↔ holds item ∧ (passes item → Reached passes holds items) := by
  constructor
  · intro reached
    refine ⟨reached [] item items rfl nofun, fun passed before later after split allPassed => ?_⟩
    exact reached (item :: before) later after (by rw [split, List.cons_append])
      (List.forall_mem_cons.mpr ⟨passed, allPassed⟩)
  · rintro ⟨holdsFirst, rest⟩ before later after split allPassed
    cases before with
    | nil =>
      obtain ⟨rfl, -⟩ := List.cons.inj split
      exact holdsFirst
    | cons first before =>
      obtain ⟨rfl, laterSplit⟩ := List.cons.inj split
      exact rest (allPassed item List.mem_cons_self) before later after laterSplit
        fun earlier isEarlier => allPassed earlier (List.mem_cons_of_mem _ isEarlier)

theorem only_mapM {read : Item → Except Error β} {items : List Item} :
    Only admitted (items.mapM read) ↔
      Reached (fun item => Returns (read item)) (fun item => Only admitted (read item)) items := by
  induction items with
  | nil => simp
  | cons item items inductionHypothesis =>
    rw [List.mapM_cons, only_bind, reached_cons, ← inductionHypothesis]
    refine and_congr_right fun _ => ?_
    simp only [only_bind, only_pure, implies_true, and_true, Returns, forall_exists_index]

/-- A loop over a state, on which it does not depend whether an item passes. -/
theorem only_foldlM {add : State → Item → Except Error State}
    (returns : ∀ state item, Returns (add state item) ↔ passes item)
    (only : ∀ state item, Only admitted (add state item) ↔ holds item) (items : List Item) (start : State) :
    Only admitted (items.foldlM add start) ↔ Reached passes holds items := by
  induction items generalizing start with
  | nil => simp
  | cons item items inductionHypothesis =>
    rw [List.foldlM_cons, only_bind, reached_cons, only, ← returns start item]
    refine and_congr_right fun _ => ?_
    simp only [inductionHypothesis, Returns, forall_exists_index]

theorem returns_foldlM {add : State → Item → Except Error State}
    (returns : ∀ state item, Returns (add state item) ↔ passes item) (items : List Item) (start : State) :
    Returns (items.foldlM add start) ↔ ∀ item ∈ items, passes item := by
  induction items generalizing start with
  | nil => simp
  | cons item items inductionHypothesis =>
    rw [List.foldlM_cons, returns_bind, List.forall_mem_cons, ← returns start item]
    simp only [inductionHypothesis, exists_and_right]
    exact Iff.rfl

end Loops

end AbilityFramework.Library
