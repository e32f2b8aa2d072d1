import AbilityFramework.Library.Runs
import AbilityFramework.Library.SharedLock
import AbilityFramework.ResourceMgr.Occupation

/-! # Abilities as locks

What occupying an ability is for: every ability is an exclusive/shared lock, `occupy_ability`
acquires it and `unoccupy_ability` releases it.  The abstract machine keeps one lock per ability id;
`Represents` says that the rows of the table are exactly the holds of those locks, and
`step_represents` that calls made one after another keep them so. -/

namespace AbilityFramework.ResourceMgr

open Library

def OwnershipMode.lock : OwnershipMode → SharedLock.Mode
  | .unique => .exclusive
  | .shared => .shared

@[simp] theorem OwnershipMode.lock_unique : OwnershipMode.unique.lock = .exclusive := rfl

@[simp] theorem OwnershipMode.lock_shared : OwnershipMode.shared.lock = .shared := rfl

theorem OwnershipMode.lock_injective : Function.Injective OwnershipMode.lock := by
  intro first second same
  cases first <;> cases second <;> first | rfl | cases same

/-! ## Calls -/

/-- A call on an ability that exists and is local when the call is made. -/
structure LocalAbilityCall extends OccupationCall where
  isLocal : catalogue.LocalAbility target

inductive AbilityCall where
  | occupy (call : LocalAbilityCall)
  | unoccupy (call : LocalAbilityCall)

/-- The entry a call is about: the requester's, on the target, in the mode of the call. -/
def LocalAbilityCall.Entry (call : LocalAbilityCall) (row : CROwnership) : Prop :=
  row.parentId = call.requester ∧ row.parentKind = .ability ∧ row.childId = call.target ∧
    row.childKind = .ability ∧ row.isShared = call.mode

def abilityStep (table : OwnershipTable) : AbilityCall → OwnershipTable
  | .occupy call => (call.occupyAbility table).2
  | .unoccupy call => (call.unoccupyAbility table).2

/-! ## The abstract machine -/

abbrev AbilityLocks := Uuid → SharedLock Uuid

def lockStep (locks : AbilityLocks) : AbilityCall → AbilityLocks
  | .occupy call =>
    if (locks call.target).Allows call.requester call.mode.lock then
      Function.update locks call.target ((locks call.target).acquire call.requester call.mode.lock)
    else locks
  | .unoccupy call =>
    Function.update locks call.target ((locks call.target).release call.requester call.mode.lock)

structure Represents (table : OwnershipTable) (locks : AbilityLocks) : Prop where
  abilities : AbilityRows table
  holds : ∀ target holder mode,
    Held table .ability .ability target holder mode ↔ (locks target).Holds holder mode.lock

theorem represents_empty : Represents ∅ fun _ => .free where
  abilities := abilityRows_empty
  holds _ _ _ := iff_of_false not_held_empty id

/-! ## One call -/

section Step

variable {table : OwnershipTable} {locks : AbilityLocks}

theorem Represents.allows_iff (represents : Represents table locks) (target requester : Uuid)
    (mode : OwnershipMode) : (locks target).Allows requester mode.lock ↔
      Held table .ability .ability target requester .unique ∨
        (∀ owner, ¬ Held table .ability .ability target owner .unique) ∧
          (mode = .shared ∨ ∀ sharer, ¬ Held table .ability .ability target sharer .shared) := by
  have sharedMode : mode.lock = .shared ↔ mode = .shared :=
    OwnershipMode.lock_injective.eq_iff (b := .shared)
  simp only [SharedLock.Allows, Option.eq_none_iff_forall_ne_some, ne_eq, SharedLock.owner_eq_some,
    Finset.eq_empty_iff_forall_notMem, SharedLock.mem_sharers, sharedMode, represents.holds,
    OwnershipMode.lock_unique, OwnershipMode.lock_shared]

/-- What the lock forbids: a hold of someone else, or a shared hold, that conflicts with the request. -/
theorem Represents.not_allows (represents : Represents table locks) {target requester other : Uuid}
    {mode held : OwnershipMode} (foreign : other ≠ requester ∨ held = .shared)
    (conflict : held = .unique ∨ mode = .unique) (holds : Held table .ability .ability target other held) :
    ¬ (locks target).Allows requester mode.lock := by
  rw [represents.allows_iff]
  intro allowed
  obtain owns | ⟨unowned, joins⟩ := allowed
  · have alone := SharedLock.holds_exclusive ((represents.holds _ _ _).mp owns) ((represents.holds _ _ _).mp holds)
    have unique : held = .unique := OwnershipMode.lock_injective alone.2
    obtain foreign | shared := foreign
    · exact foreign alone.1
    · rw [unique] at shared
      cases shared
  · cases held with
    | unique => exact unowned other holds
    | shared =>
      have unique : mode = .unique := conflict.resolve_left (by decide)
      obtain shared | unshared := joins
      · rw [unique] at shared
        cases shared
      · exact unshared other holds

theorem occupy_allowed (represents : Represents table locks) (call : LocalAbilityCall)
    (allowed : (locks call.target).Allows call.requester call.mode.lock) :
    (call.occupyAbility table).1 = .ok (.ok ()) ∧
      ∀ target holder mode, Held (call.occupyAbility table).2 .ability .ability target holder mode ↔
        Held table .ability .ability target holder mode ∨
          (locks call.target).owner = none ∧ target = call.target ∧ holder = call.requester ∧ mode = call.mode := by
  obtain ⟨known, same⟩ | refused | ⟨unowned, joins, granted⟩ := occupyAbility_cases table call.isLocal
  · -- The requester already holds the lock in a sufficient mode, so no hold is new.
    simp only [same, true_and]
    intro target holder mode
    refine ⟨.inl, fun holds => ?_⟩
    obtain holds | ⟨free, rfl, rfl, rfl⟩ := holds
    · exact holds
    · obtain owns | ⟨_, shared, joined⟩ := known
      · have owner := SharedLock.owner_eq_some.mpr ((represents.holds _ _ _).mp owns)
        rw [free] at owner
        cases owner
      · exact shared ▸ joined
  · obtain ⟨message, other, held, foreign, conflict, holds, _⟩ := refused
    exact absurd allowed (represents.not_allows foreign conflict holds)
  · have free : (locks call.target).owner = none := by
      rw [Option.eq_none_iff_forall_ne_some]
      intro owner owns
      exact unowned owner ((represents.holds _ _ .unique).mpr (SharedLock.owner_eq_some.mp owns))
    simp only [granted, held_addOwnership, free, true_and]
    intro target holder mode
    constructor
    · intro holds
      obtain ⟨sameHolder, sameTarget, sameMode⟩ | ⟨holds, _⟩ := holds
      · exact .inr ⟨sameTarget, sameHolder, sameMode⟩
      · exact .inl holds
    · intro holds
      obtain holds | ⟨sameTarget, sameHolder, sameMode⟩ := holds
      · by_cases own : holder = call.requester ∧ target = call.target
        · -- A hold the requester already had is a shared one, and so is the new one.
          refine .inl ⟨own.1, own.2, ?_⟩
          rw [own.2] at holds
          cases mode with
          | unique => exact absurd holds (unowned holder)
          | shared => exact (joins.resolve_right fun unshared => unshared holder holds).symm
        · exact .inr ⟨holds, fun ⟨sameHolder, sameTarget, _⟩ => own ⟨sameHolder, sameTarget⟩⟩
      · exact .inl ⟨sameHolder, sameTarget, sameMode⟩

theorem occupy_refused (represents : Represents table locks) (call : LocalAbilityCall)
    (refused : ¬ (locks call.target).Allows call.requester call.mode.lock) :
    (∃ message, (call.occupyAbility table).1 = .ok (.error message)) ∧ (call.occupyAbility table).2 = table := by
  rw [represents.allows_iff] at refused
  obtain ⟨known, _⟩ | ⟨message, _, _, _, _, _, same⟩ | ⟨unowned, joins, _⟩ := occupyAbility_cases table call.isLocal
  · refine absurd (known.imp_right fun known => ?_) refused
    exact ⟨known.1, .inl known.2.1⟩
  · exact ⟨⟨message, congrArg Prod.fst same⟩, congrArg Prod.snd same⟩
  · exact absurd (.inr ⟨unowned, joins⟩) refused

theorem AbilityRows.occupyAbility (abilities : AbilityRows table) (call : LocalAbilityCall) :
    AbilityRows (call.occupyAbility table).2 := by
  obtain ⟨_, same⟩ | ⟨_, _, _, _, _, _, same⟩ | ⟨_, _, granted⟩ := occupyAbility_cases table call.isLocal
  · rwa [same]
  · rwa [same]
  · rw [granted]
    exact abilities.addOwnership

theorem occupy_represents (represents : Represents table locks) (call : LocalAbilityCall) :
    Represents (call.occupyAbility table).2 (lockStep locks (.occupy call)) where
  abilities := represents.abilities.occupyAbility call
  holds target holder mode := by
    by_cases allowed : (locks call.target).Allows call.requester call.mode.lock
    · rw [(occupy_allowed represents call allowed).2, represents.holds]
      simp only [lockStep, allowed, if_true]
      by_cases sameTarget : target = call.target
      · subst sameTarget
        rw [Function.update_self, SharedLock.holds_acquire allowed, OwnershipMode.lock_injective.eq_iff]
        simp only [true_and]
      · rw [Function.update_of_ne sameTarget]
        simp only [sameTarget, false_and, and_false, or_false]
    · rw [(occupy_refused represents call allowed).2, represents.holds]
      simp only [lockStep, allowed, if_false]

theorem unoccupy_represents (represents : Represents table locks) (call : LocalAbilityCall) :
    Represents (call.unoccupyAbility table).2 (lockStep locks (.unoccupy call)) where
  abilities := by
    rw [unoccupyAbility_local call.isLocal]
    exact represents.abilities.removeOwnership
  holds target holder mode := by
    rw [unoccupyAbility_local call.isLocal, held_removeOwnership, represents.holds]
    simp only [lockStep]
    by_cases sameTarget : target = call.target
    · subst sameTarget
      rw [Function.update_self, SharedLock.holds_release, OwnershipMode.lock_injective.eq_iff]
      simp only [true_and]
    · rw [Function.update_of_ne sameTarget]
      simp only [sameTarget, false_and, and_false, not_false_eq_true, and_true]

theorem step_represents (represents : Represents table locks) (call : AbilityCall) :
    Represents (abilityStep table call) (lockStep locks call) := by
  cases call with
  | occupy call => exact occupy_represents represents call
  | unoccupy call => exact unoccupy_represents represents call

end Step

/-! ## Refinement -/

/-- The table is the given locks: it holds what they hold, and from it every call behaves as a call
on them. -/
structure RefinesLocks (table : OwnershipTable) (locks : AbilityLocks) : Prop where
  represents : Represents table locks
  occupy_succeeds_iff : ∀ call : LocalAbilityCall, (call.occupyAbility table).1 = .ok (.ok ()) ↔
    (locks call.target).Allows call.requester call.mode.lock
  failed_occupy : ∀ call : LocalAbilityCall, (call.occupyAbility table).1 ≠ .ok (.ok ()) → (call.occupyAbility table).2 = table
  unoccupy_removes : ∀ (call : LocalAbilityCall) row,
    row ∈ (call.unoccupyAbility table).2 ↔ row ∈ table ∧ ¬ call.Entry row
  exclusive : ∀ target owner other mode, Held table .ability .ability target owner .unique →
    Held table .ability .ability target other mode → other = owner ∧ mode = .unique

theorem Represents.refines {table : OwnershipTable} {locks : AbilityLocks}
    (represents : Represents table locks) : RefinesLocks table locks where
  represents := represents
  occupy_succeeds_iff call := by
    refine ⟨fun succeeded => ?_, fun allowed => (occupy_allowed represents call allowed).1⟩
    by_contra refused
    obtain ⟨message, failed⟩ := (occupy_refused represents call refused).1
    rw [failed] at succeeded
    cases succeeded
  failed_occupy call failed := by
    by_cases allowed : (locks call.target).Allows call.requester call.mode.lock
    · exact absurd (occupy_allowed represents call allowed).1 failed
    · exact (occupy_refused represents call allowed).2
  unoccupy_removes call row := by
    rw [unoccupyAbility_local call.isLocal, removeOwnership, Relation.mem_deleteWhere]
    refine and_congr_right fun member => ?_
    simp only [LocalAbilityCall.Entry, (represents.abilities row member).1, true_and, decide_eq_true_eq]
  exclusive target owner other mode owns holds := by
    have alone := SharedLock.holds_exclusive ((represents.holds target owner .unique).mp owns)
      ((represents.holds target other mode).mp holds)
    exact ⟨alone.1, OwnershipMode.lock_injective alone.2⟩

/-- Calls made one after another on the empty table are calls on free locks. -/
theorem abilityCalls_refine_locks (calls : List AbilityCall) :
    RefinesLocks (Runs.run abilityStep ∅ calls) (Runs.run lockStep (fun _ => .free) calls) := by
  apply Represents.refines
  apply Runs.run_refines
  · intro table locks call represents
    exact step_represents represents call
  · exact represents_empty

end AbilityFramework.ResourceMgr
