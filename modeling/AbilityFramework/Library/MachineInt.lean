import Mathlib.Algebra.Order.Group.Int
import Mathlib.Algebra.Order.Ring.Int

/-! # Signed arithmetic of 32 bits

`int` as C++20 has it.  A product that does not fit is undefined; a left shift wraps, and is undefined
when the number of places is negative or not below the width.  Undefined is `none`. -/

namespace AbilityFramework.Library.MachineInt

def Fits (value : Int) : Prop :=
  -2147483648 ≤ value ∧ value < 2147483648

instance (value : Int) : Decidable (Fits value) :=
  inferInstanceAs (Decidable (_ ∧ _))

def multiply (left right : Int) : Option Int :=
  if Fits (left * right) then some (left * right) else none

def shiftLeft (value places : Int) : Option Int :=
  if 0 ≤ places ∧ places < 32 then some ((value * (Nat.pow 2 places.toNat : Nat)).bmod 4294967296) else none

theorem multiply_eq_some_iff {left right product : Int} :
    multiply left right = some product ↔ Fits (left * right) ∧ left * right = product := by
  simp only [multiply, Option.ite_none_right_eq_some, Option.some.injEq]

/-- Shifting the bit below the sign loses nothing; shifting it into the sign does. -/
theorem shiftLeft_one_iff (places : Nat) :
    shiftLeft 1 places = some ((Nat.pow 2 places : Nat) : Int) ↔ places < 31 := by
  constructor
  · intro exact
    by_contra many
    rw [shiftLeft] at exact
    split at exact
    · have last : places = 31 := by omega
      rw [last] at exact
      cases exact
    · cases exact
  · intro few
    have bound : Nat.pow 2 places ≤ Nat.pow 2 30 := Nat.pow_le_pow_right (by decide) (by omega)
    have small : Nat.pow 2 places ≤ 1073741824 := bound
    rw [shiftLeft, if_pos (by omega), Int.toNat_natCast, Int.one_mul]
    rw [Int.bmod_eq_of_le_mul_two (by omega) (by omega)]

end AbilityFramework.Library.MachineInt
