import AbilityFramework.Library.ByteText
import AbilityFramework.Library.JoinedText

/-! # Joining printed values

`intercalate` writes the separator after every element but the first, so it joins a list only if each element after the
first may change places with the separator (`joins_iff`). -/

namespace AbilityFramework.Util

open Library

/-- `OstreamPrintable`, with what `<<` writes. -/
class OstreamPrintable (Value : Type*) where
  printed : Value → ByteText

export OstreamPrintable (printed)

instance : OstreamPrintable ByteText := ⟨id⟩

/-- The variables of the loop in `intercalate`. -/
structure Intercalation where
  oss : ByteText := []
  first : Bool := true

section Printable

variable {Mid Value : Type*} [OstreamPrintable Mid] [OstreamPrintable Value]

def Intercalation.round (mid : Mid) (loop : Intercalation) (x : Value) : Intercalation :=
  let oss := loop.oss ++ printed x
  if loop.first then { oss, first := false } else { loop with oss := oss ++ printed mid }

def intercalate (mid : Mid) (r : List Value) : ByteText := (r.foldl (Intercalation.round mid) {}).oss

theorem foldl_round (mid : Mid) (r : List Value) (oss : ByteText) :
    (r.foldl (Intercalation.round mid) { oss, first := false }).oss =
      oss ++ r.flatMap fun x => printed x ++ printed mid := by
  induction r generalizing oss with
  | nil => simp
  | cons x r inductionHypothesis =>
    rw [List.foldl_cons, Intercalation.round, if_neg Bool.false_ne_true, inductionHypothesis, List.flatMap_cons]
    simp only [List.append_assoc]

@[simp] theorem intercalate_nil (mid : Mid) : intercalate mid ([] : List Value) = [] := rfl

theorem intercalate_cons (mid : Mid) (x : Value) (r : List Value) :
    intercalate mid (x :: r) = printed x ++ r.flatMap fun x => printed x ++ printed mid := by
  rw [intercalate, List.foldl_cons, Intercalation.round, if_pos rfl, foldl_round]
  rfl

end Printable

/-- The elements in order with the separator between consecutive ones, so that proper words can be told apart again. -/
def Joins (mid : ByteText) (r : List ByteText) : Prop :=
  intercalate mid r = List.intercalate mid r ∧
    (mid ≠ [] → (∀ word ∈ r, word ≠ [] ∧ SeparatorFree mid word) → textPieces mid (intercalate mid r) = r)

variable {mid : ByteText} {r : List ByteText}

theorem intercalate_eq_iff : intercalate mid r = List.intercalate mid r ↔ ∀ word ∈ r.tail, word ++ mid = mid ++ word := by
  cases r with
  | nil => exact iff_of_true rfl fun word member => absurd member List.not_mem_nil
  | cons first rest =>
    rw [intercalate_cons, Library.intercalate_cons, List.tail_cons]
    -- The loop writes the separator on the other side of each element, so the blocks have the same lengths.
    have lengths (word : ByteText) : (printed word ++ printed mid).length = (mid ++ word).length := by
      rw [List.length_append, List.length_append, Nat.add_comm]
      rfl
    exact (List.append_right_inj first).trans (flatMap_inj_of_length lengths)

theorem joins_iff_commutes : Joins mid r ↔ ∀ word ∈ r.tail, word ++ mid = mid ++ word := by
  rw [← intercalate_eq_iff]
  refine ⟨And.left, fun same => ⟨same, fun isNonempty proper => ?_⟩⟩
  rw [same]
  exact textPieces_intercalate isNonempty proper

/-- A list is joined exactly if each element after the first is, with the separator, a repetition of one text. -/
theorem joins_iff (mid : ByteText) (r : List ByteText) :
    Joins mid r ↔
      ∀ word ∈ r.tail, ∃ root wordCount midCount, word = repeated wordCount root ∧ mid = repeated midCount root := by
  rw [joins_iff_commutes]
  exact forall₂_congr fun word _ => append_comm_iff

/-- The elements `a` and `b` with the separator of the messages come out as `ab, `. -/
theorem not_joins_letters : ¬ Joins (ByteText.ofString ", ") [ByteText.ofString "a", ByteText.ofString "b"] := by
  have written : intercalate (ByteText.ofString ", ") [ByteText.ofString "a", ByteText.ofString "b"] =
      ByteText.ofString "ab, " := by decide
  have joined : List.intercalate (ByteText.ofString ", ") [ByteText.ofString "a", ByteText.ofString "b"] =
      ByteText.ofString "a, b" := by decide
  intro joins
  have same := joins.1
  rw [written, joined] at same
  exact absurd same (by decide)

end AbilityFramework.Util
