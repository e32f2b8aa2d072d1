import Mathlib.Data.Finset.Basic

/-! # Exclusive/shared locks

A lock is free, shared by a non-empty set of holders, or owned by one holder; no other state can be
built.  `Holds` flattens a lock into the pairs (holder, mode) it has granted, which is the form in
which an implementation stores it; `holds_acquire` and `holds_release` say what the two operations
do to those pairs. -/

namespace AbilityFramework.Library

inductive SharedLock (Holder : Type*) where
  | free
  | shared (holders : Finset Holder) (nonempty : holders.Nonempty)
  | owned (holder : Holder)

namespace SharedLock

inductive Mode where
  | exclusive
  | shared
  deriving DecidableEq, Repr

variable {Holder : Type*}

def Holds : SharedLock Holder → Holder → Mode → Prop
  | free, _, _ => False
  | shared holders _, holder, .shared => holder ∈ holders
  | shared _ _, _, .exclusive => False
  | owned owner, holder, .exclusive => holder = owner
  | owned _, _, .shared => False

def owner : SharedLock Holder → Option Holder
  | owned holder => some holder
  | _ => none

def sharers : SharedLock Holder → Finset Holder
  | shared holders _ => holders
  | _ => ∅

@[simp] theorem owner_eq_some {lock : SharedLock Holder} {holder : Holder} :
    lock.owner = some holder ↔ lock.Holds holder .exclusive := by
  cases lock <;> simp [owner, Holds, eq_comm]

@[simp] theorem mem_sharers {lock : SharedLock Holder} {holder : Holder} :
    holder ∈ lock.sharers ↔ lock.Holds holder .shared := by
  cases lock <;> simp [sharers, Holds]

/-- The exclusion a lock is for: beside an exclusive holder there is no other holder, and the
exclusive holder itself holds in no other mode. -/
theorem holds_exclusive {lock : SharedLock Holder} {owner other : Holder} {mode : Mode}
    (owns : lock.Holds owner .exclusive) (holds : lock.Holds other mode) :
    other = owner ∧ mode = .exclusive := by
  cases lock with
  | free => exact owns.elim
  | shared _ _ => exact owns.elim
  | owned holder =>
    cases mode with
    | exclusive => exact ⟨holds.trans owns.symm, rfl⟩
    | shared => exact holds.elim

/-! ## Acquire and release -/

/-- The owner may ask again; anyone else is let in when there is no owner and the sharers, if any,
are joined rather than displaced. -/
def Allows (lock : SharedLock Holder) (requester : Holder) (mode : Mode) : Prop :=
  lock.owner = some requester ∨ lock.owner = none ∧ (mode = .shared ∨ lock.sharers = ∅)

variable [DecidableEq Holder]

instance (lock : SharedLock Holder) (requester : Holder) (mode : Mode) :
    Decidable (lock.Allows requester mode) :=
  inferInstanceAs (Decidable (_ ∨ _ ∧ (_ ∨ _)))

/-- What is not allowed leaves the lock as it is. -/
def acquire : SharedLock Holder → Holder → Mode → SharedLock Holder
  | free, requester, .exclusive => owned requester
  | free, requester, .shared => shared {requester} (Finset.singleton_nonempty requester)
  | shared holders _, requester, .shared =>
    shared (insert requester holders) (Finset.insert_nonempty requester holders)
  | shared holders nonempty, _, .exclusive => shared holders nonempty
  | owned holder, _, _ => owned holder

def release : SharedLock Holder → Holder → Mode → SharedLock Holder
  | free, _, _ => free
  | shared holders nonempty, _, .exclusive => shared holders nonempty
  | shared holders _, requester, .shared =>
    if remaining : (holders.erase requester).Nonempty then shared (holders.erase requester) remaining
    else free
  | owned holder, requester, .exclusive => if holder = requester then free else owned holder
  | owned holder, _, .shared => owned holder

theorem holds_acquire {lock : SharedLock Holder} {requester holder : Holder} {mode held : Mode}
    (allowed : lock.Allows requester mode) :
    (lock.acquire requester mode).Holds holder held ↔
      lock.Holds holder held ∨ lock.owner = none ∧ holder = requester ∧ held = mode := by
  cases lock with
  | free => cases mode <;> cases held <;> simp [acquire, Holds, owner]
  | owned owner' => cases mode <;> simp [acquire, owner]
  | shared holders nonempty =>
    cases mode with
    | exclusive =>
      have empty : holders = ∅ := by simpa [Allows, owner, sharers] using allowed
      exact absurd empty nonempty.ne_empty
    | shared => cases held <;> simp [acquire, Holds, owner, or_comm]

theorem holds_release {lock : SharedLock Holder} {requester holder : Holder} {mode held : Mode} :
    (lock.release requester mode).Holds holder held ↔
      lock.Holds holder held ∧ ¬ (holder = requester ∧ held = mode) := by
  cases lock with
  | free => simp [release, Holds]
  | owned owner' =>
    cases mode with
    | shared => cases held <;> simp [release, Holds]
    | exclusive =>
      simp only [release]
      split
      · cases held <;> simp_all [Holds]
      · cases held <;> simp_all [Holds]
  | shared holders nonempty =>
    cases mode with
    | exclusive => cases held <;> simp [release, Holds]
    | shared =>
      simp only [release]
      split
      · cases held <;> simp [Holds, and_comm]
      · rename_i none
        rw [Finset.not_nonempty_iff_eq_empty, Finset.erase_eq_empty_iff] at none
        cases held <;> rcases none with none | none <;> simp_all [Holds]

end SharedLock

end AbilityFramework.Library
