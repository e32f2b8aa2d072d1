import Mathlib.Algebra.Order.BigOperators.Group.List
import Mathlib.Data.List.Basic

/-! # Pieces between separators

The pieces of a text between the occurrences of a separator, without the empty ones, and when the pieces of consecutive
parts are those of the whole. -/

namespace AbilityFramework.Library

variable {α : Type*} [DecidableEq α] (separator : α)

def pieces (text : List α) : List (List α) := (text.splitOn separator).filter (· ≠ [])

@[simp] theorem pieces_nil : pieces separator [] = [] := by simp [pieces]

theorem pieces_append_cons (first second : List α) :
    pieces separator (first ++ separator :: second) = pieces separator first ++ pieces separator second := by
  rw [pieces, List.splitOn_append_cons_self, List.filter_append]
  rfl

@[simp] theorem pieces_cons_self (text : List α) : pieces separator (separator :: text) = pieces separator text := by
  have split := pieces_append_cons separator [] text
  rwa [pieces_nil, List.nil_append, List.nil_append] at split

theorem pieces_of_notMem {word : List α} (lacks : separator ∉ word) :
    pieces separator word = if word = [] then [] else [word] := by
  rw [pieces, List.splitOn_eq_singleton lacks]
  split <;> simp [*]

theorem pieces_eq_splitOn {text : List α} (noneEmpty : [] ∉ text.splitOn separator) :
    pieces separator text = text.splitOn separator :=
  List.filter_eq_self.mpr fun _ member => decide_eq_true fun empty => noneEmpty (empty ▸ member)

theorem ne_nil_of_mem_pieces {text piece : List α} (member : piece ∈ pieces separator text) : piece ≠ [] :=
  of_decide_eq_true (List.mem_filter.mp member).2

/-- Nothing but separators is lost. -/
theorem flatten_pieces (text : List α) : (pieces separator text).flatten = text.filter (· ≠ separator) := by
  rw [pieces, List.flatten_filter_ne_nil]
  induction text with
  | nil => simp
  | cons first rest inductionHypothesis =>
    rw [List.splitOn_cons_eq_if_modifyHead, List.filter_cons, ← inductionHypothesis]
    by_cases isSeparator : first = separator
    · simp [isSeparator]
    · cases split : rest.splitOn separator with
      | nil => exact absurd split (List.splitOn_ne_nil separator rest)
      | cons word words => simp [isSeparator]

/-! ## Consecutive parts -/

/-- No piece runs across from one text into the next. -/
def parted (first second : List α) : Bool :=
  first.getLast?.all (· = separator) || second.head?.all (· = separator)

theorem length_pieces_cons {first : α} (rest : List α) (isOther : first ≠ separator) :
    (pieces separator (first :: rest)).length =
      (pieces separator rest).length + (if rest.head?.all (· = separator) then 1 else 0) := by
  cases rest with
  | nil => simp [pieces_of_notMem, Ne.symm isOther]
  | cons second rest =>
    by_cases isSeparator : second = separator
    · subst isSeparator
      have single : pieces second [first] = [[first]] := pieces_of_notMem second (by simpa using Ne.symm isOther)
      have split := pieces_append_cons second [first] rest
      rw [List.singleton_append, single] at split
      simp [split, Nat.add_comm]
    · simp only [pieces, List.splitOn_cons_eq_if_modifyHead]
      cases split : rest.splitOn separator with
      | nil => exact absurd split (List.splitOn_ne_nil separator rest)
      | cons word words => simp [isOther, isSeparator]

/-- A piece that runs across is one piece of the whole and two of the parts. -/
theorem length_pieces_append (first second : List α) :
    (pieces separator (first ++ second)).length + (if parted separator first second then 0 else 1) =
      (pieces separator first).length + (pieces separator second).length := by
  induction first with
  | nil => simp [parted]
  | cons character first inductionHypothesis =>
    cases first with
    | nil =>
      -- The last element of the first text, next to the second.
      by_cases isSeparator : character = separator
      · simp [isSeparator, parted]
      · rw [List.singleton_append, length_pieces_cons separator second isSeparator,
          length_pieces_cons separator [] isSeparator]
        by_cases starts : second.head?.all (· = separator) = true
        · simp [parted, starts, Nat.add_comm]
        · simp [parted, starts, isSeparator, Nat.add_comm]
    | cons next first =>
      have same : parted separator (character :: next :: first) second = parted separator (next :: first) second := by
        simp [parted]
      rw [same, List.cons_append]
      by_cases isSeparator : character = separator
      · rw [isSeparator, pieces_cons_self, pieces_cons_self]
        exact inductionHypothesis
      · rw [length_pieces_cons separator _ isSeparator, length_pieces_cons separator _ isSeparator]
        simp only [List.cons_append, List.head?_cons, Option.all_some, decide_eq_true_eq] at inductionHypothesis ⊢
        omega

theorem pieces_append_of_parted {first second : List α} (isParted : parted separator first second = true) :
    pieces separator (first ++ second) = pieces separator first ++ pieces separator second := by
  rw [parted, Bool.or_eq_true] at isParted
  obtain ends | starts := isParted
  · rcases List.eq_nil_or_concat' first with rfl | ⟨front, last, rfl⟩
    · simp
    · have isSeparator : last = separator := by simpa using ends
      rw [isSeparator, List.append_assoc, List.singleton_append, pieces_append_cons, pieces_append_cons, pieces_nil,
        List.append_nil]
  · cases second with
    | nil => simp
    | cons head back =>
      have isSeparator : head = separator := by simpa using starts
      rw [isSeparator, pieces_append_cons, pieces_cons_self]

/-- The parts have at least as many pieces as the whole. -/
theorem length_pieces_flatten (parts : List (List α)) :
    (pieces separator parts.flatten).length ≤ (parts.flatMap (pieces separator)).length := by
  induction parts with
  | nil => simp
  | cons part parts inductionHypothesis =>
    have counted := length_pieces_append separator part parts.flatten
    rw [List.flatten_cons, List.flatMap_cons, List.length_append]
    omega

/-- The pieces of nonempty parts are those of the whole if and only if none runs across from one part into the next. -/
theorem flatMap_pieces_eq_iff {parts : List (List α)} (nonempty : ∀ part ∈ parts, part ≠ []) :
    parts.flatMap (pieces separator) = pieces separator parts.flatten ↔
      parts.IsChain fun first second => parted separator first second = true := by
  induction parts with
  | nil => simp
  | cons part parts inductionHypothesis =>
    have rest := inductionHypothesis fun part member => nonempty part (List.mem_cons_of_mem _ member)
    cases parts with
    | nil => simp
    | cons next parts =>
      obtain ⟨first, others, isNext⟩ := List.exists_cons_of_ne_nil (nonempty next (by simp))
      have sameHead : parted separator part (next :: parts).flatten = parted separator part next := by
        simp [parted, isNext]
      rw [List.isChain_cons_cons, ← rest, List.flatMap_cons, List.flatten_cons]
      constructor
      · intro same
        have lengths := congrArg List.length same
        have counted := length_pieces_append separator part (next :: parts).flatten
        have atLeast := length_pieces_flatten separator (next :: parts)
        rw [List.length_append] at lengths
        -- A piece that runs across would make the parts have one more than the whole.
        have isParted : parted separator part (next :: parts).flatten = true := by
          by_contra runsAcross
          rw [if_neg runsAcross] at counted
          omega
        rw [pieces_append_of_parted separator isParted] at same
        exact ⟨sameHead ▸ isParted, List.append_cancel_left same⟩
      · rintro ⟨isParted, same⟩
        rw [same, pieces_append_of_parted separator (sameHead.trans isParted)]

end AbilityFramework.Library
