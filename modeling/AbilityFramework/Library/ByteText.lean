import Mathlib.Data.List.Infix
import Mathlib.Data.List.TakeWhile
import AbilityFramework.Library.MachineInt

/-! # Texts as bytes

A text as the C++ library sees it, with `find`, the part after the last occurrence of a byte, and the conversion of the
digits in front to an `int`. -/

namespace AbilityFramework.Library

abbrev ByteText := List UInt8

namespace ByteText

def ofString (text : String) : ByteText := text.toUTF8.data.toList

/-- Bytes that encode no text have none. -/
def decode (text : ByteText) : String := (String.fromUTF8? ⟨text.toArray⟩).getD ""

@[simp] theorem decode_ofString (text : String) : (ofString text).decode = text := by
  have valid : (ByteArray.mk (ofString text).toArray).IsValidUTF8 := text.isValidUTF8
  rw [decode, String.fromUTF8?, dif_pos valid]
  rfl

/-! ## Places -/

/-- Where the pattern is first. -/
def find (text pattern : ByteText) : Option Nat := text.tails.findIdx? fun tail => pattern.isPrefixOf tail

theorem find_of_prefix {text pattern : ByteText} (isPrefix : pattern <+: text) : find text pattern = some 0 := by
  have starts : pattern.isPrefixOf text = true := List.isPrefixOf_iff_prefix.mpr isPrefix
  rw [find, List.findIdx?_eq_some_iff_getElem]
  refine ⟨by rw [List.length_tails]; exact Nat.succ_pos _, ?_, fun index before => absurd before index.not_lt_zero⟩
  rwa [List.getElem_tails, List.drop_zero]

theorem find_isSome {text pattern : ByteText} : (find text pattern).isSome = true ↔ pattern <:+: text := by
  simp [find, List.infix_iff_prefix_suffix, and_comm]

theorem idxOf?_append {front back : ByteText} {byte : UInt8} (first : byte ∉ front) :
    (front ++ byte :: back).idxOf? byte = some front.length := by
  induction front with
  | nil => simp [List.idxOf?_cons]
  | cons other front inductionHypothesis =>
    rw [List.mem_cons, not_or] at first
    obtain ⟨differ, first⟩ := first
    rw [List.cons_append, List.idxOf?_cons, inductionHypothesis first, beq_eq_false_iff_ne.mpr (Ne.symm differ)]
    rfl

/-- A text with the byte splits at its first occurrence. -/
theorem idxOf?_eq_some {text : ByteText} {byte : UInt8} {place : Nat} (isPlace : text.idxOf? byte = some place) :
    ∃ front back, text = front ++ byte :: back ∧ byte ∉ front ∧ front.length = place := by
  have has : byte ∈ text := by
    by_contra lacks
    rw [List.idxOf?_eq_none_iff.mpr lacks] at isPlace
    cases isPlace
  obtain ⟨front, back, split, first⟩ := List.eq_append_cons_of_mem has
  rw [split, idxOf?_append first] at isPlace
  exact ⟨front, back, split, first, Option.some.inj isPlace⟩

theorem drop_behind (front back : ByteText) (byte : UInt8) : (front ++ byte :: back).drop (front.length + 1) = back := by
  rw [← List.drop_drop, List.drop_left, List.drop_one, List.tail_cons]

def afterLast (text : ByteText) (byte : UInt8) : ByteText := (text.reverse.takeWhile (· ≠ byte)).reverse

theorem afterLast_append {front back : ByteText} {byte : UInt8} (last : byte ∉ back) :
    afterLast (front ++ byte :: back) byte = back := by
  have none : ∀ other ∈ back.reverse, decide (other ≠ byte) = true := by
    intro other isOther
    rw [decide_eq_true_eq]
    rintro rfl
    exact last (List.mem_reverse.mp isOther)
  rw [afterLast, List.reverse_append, List.reverse_cons, List.append_assoc, List.takeWhile_append_of_pos none]
  simp

/-- A text with the byte splits at its last occurrence. -/
theorem exists_last {text : ByteText} {byte : UInt8} (has : byte ∈ text) :
    ∃ front back, text = front ++ byte :: back ∧ byte ∉ back := by
  obtain ⟨back, front, split, none⟩ := List.eq_append_cons_of_mem (List.mem_reverse.mpr has)
  refine ⟨front.reverse, back.reverse, ?_, fun isIn => none (List.mem_reverse.mp isIn)⟩
  rw [← List.reverse_reverse text, split]
  simp

/-! ## Numbers -/

def isDigit (byte : UInt8) : Bool := 48 ≤ byte && byte ≤ 57

/-- What the digits say. -/
def decimal (digits : ByteText) : Nat := digits.foldl (fun value byte => 10 * value + (byte.toNat - 48)) 0

/-- `std::from_chars` to an `int`: the digits in front, with a minus sign or without.  There is no result where there
are none or the value is out of range. -/
def fromChars (text : ByteText) : Option Int :=
  let negative := text.head? = some 45
  let digits := (if negative then text.tail else text).takeWhile isDigit
  let value : Int := if negative then -decimal digits else decimal digits
  if digits = [] ∨ ¬ MachineInt.Fits value then none else some value

theorem fromChars_digits {digits : ByteText} (some : digits ≠ []) (all : ∀ byte ∈ digits, isDigit byte = true)
    (value : Int) : fromChars digits = .some value ↔ value = decimal digits ∧ decimal digits < 2147483648 := by
  have positive : ¬ digits.head? = .some 45 := by
    intro isMinus
    have digit := all 45 (List.mem_of_mem_head? isMinus)
    cases digit
  have whole : digits.takeWhile isDigit = digits := List.takeWhile_eq_self_iff.mpr all
  simp only [fromChars, if_neg positive, whole, some, false_or, MachineInt.Fits]
  constructor
  · intro isValue
    split at isValue
    · cases isValue
    · cases isValue
      exact ⟨rfl, by omega⟩
  · rintro ⟨rfl, small⟩
    rw [if_neg]
    omega

end ByteText

end AbilityFramework.Library
