import Mathlib.Data.List.Basic
import Mathlib.Data.List.Infix

/-! # Joined texts

Texts joined by a separator, the pieces between the occurrences of a separator, and when the pieces of a joined text are
the texts it is made of.  Two texts that may change places are repetitions of one text. -/

namespace AbilityFramework.Library

variable {α : Type*}

/-! ## Repetitions -/

def repeated (count : Nat) (root : List α) : List α := (List.replicate count root).flatten

@[simp] theorem repeated_zero (root : List α) : repeated 0 root = [] := rfl

@[simp] theorem repeated_one (root : List α) : repeated 1 root = root := by simp [repeated]

theorem repeated_add (first second : Nat) (root : List α) :
    repeated (first + second) root = repeated first root ++ repeated second root := by
  rw [repeated, List.replicate_add, List.flatten_append]
  rfl

theorem repeated_append_comm (first second : Nat) (root : List α) :
    repeated first root ++ repeated second root = repeated second root ++ repeated first root := by
  rw [← repeated_add, Nat.add_comm, repeated_add]

theorem exists_root_of_append_comm {first second : List α} (same : first ++ second = second ++ first) :
    ∃ root firstCount secondCount, first = repeated firstCount root ∧ second = repeated secondCount root := by
  -- The longer text starts with the shorter one, and what is left of it commutes with the shorter one again.
  induction size : first.length + second.length using Nat.strong_induction_on generalizing first second with
  | h size inductionHypothesis =>
    subst size
    by_cases firstEmpty : first = []
    · exact ⟨second, 0, 1, firstEmpty, (repeated_one second).symm⟩
    by_cases secondEmpty : second = []
    · exact ⟨first, 1, 0, (repeated_one first).symm, secondEmpty⟩
    have firstPositive : 0 < first.length := List.length_pos_iff.mpr firstEmpty
    have secondPositive : 0 < second.length := List.length_pos_iff.mpr secondEmpty
    obtain shorter | longer := Nat.le_total first.length second.length
    · -- What is left is a repetition of the root of the shorter text.
      obtain ⟨rest, rfl⟩ : first <+: second :=
        List.prefix_of_prefix_length_le ⟨second, same⟩ ⟨first, rfl⟩ shorter
      have restSame : first ++ rest = rest ++ first := by
        rw [List.append_assoc, List.append_cancel_left_eq] at same
        exact same
      obtain ⟨root, firstCount, restCount, isFirst, isRest⟩ :=
        inductionHypothesis _ (by rw [List.length_append]; omega) restSame rfl
      exact ⟨root, firstCount, firstCount + restCount, isFirst, by rw [repeated_add, ← isFirst, ← isRest]⟩
    · obtain ⟨rest, rfl⟩ : second <+: first :=
        List.prefix_of_prefix_length_le ⟨first, same.symm⟩ ⟨second, rfl⟩ longer
      have restSame : rest ++ second = second ++ rest := by
        rw [List.append_assoc, List.append_cancel_left_eq] at same
        exact same
      obtain ⟨root, restCount, secondCount, isRest, isSecond⟩ :=
        inductionHypothesis _ (by rw [List.length_append]; omega) restSame rfl
      exact ⟨root, secondCount + restCount, secondCount, by rw [repeated_add, ← isRest, ← isSecond], isSecond⟩

theorem append_comm_iff {first second : List α} :
    first ++ second = second ++ first ↔
      ∃ root firstCount secondCount, first = repeated firstCount root ∧ second = repeated secondCount root := by
  refine ⟨exists_root_of_append_comm, ?_⟩
  rintro ⟨root, firstCount, secondCount, rfl, rfl⟩
  exact repeated_append_comm firstCount secondCount root

/-! ## Joining -/

theorem intercalate_cons (separator first : List α) (rest : List (List α)) :
    separator.intercalate (first :: rest) = first ++ rest.flatMap (separator ++ ·) := by
  induction rest generalizing first with
  | nil => simp [List.intercalate]
  | cons second rest inductionHypothesis =>
    have split : separator.intercalate (first :: second :: rest) =
        first ++ (separator ++ separator.intercalate (second :: rest)) := by simp [List.intercalate]
    rw [split, inductionHypothesis, List.flatMap_cons, List.append_assoc]

/-- Blocks of the same lengths fill the same text only one by one. -/
theorem flatMap_inj_of_length {β : Type*} {first second : β → List α} {items : List β}
    (lengths : ∀ item, (first item).length = (second item).length) :
    items.flatMap first = items.flatMap second ↔ ∀ item ∈ items, first item = second item := by
  induction items with
  | nil => simp
  | cons item items inductionHypothesis =>
    rw [List.flatMap_cons, List.flatMap_cons, List.forall_mem_cons, ← inductionHypothesis]
    exact ⟨fun same => List.append_inj same (lengths item), fun ⟨same, sameRest⟩ => by rw [same, sameRest]⟩

/-! ## Words without the separator -/

/-- No occurrence of the separator begins in the word, also where the separator follows it. -/
def SeparatorFree (separator word : List α) : Prop :=
  ∀ place < word.length, ¬ separator <+: (word ++ separator).drop place

variable {separator : List α}

theorem SeparatorFree.before {word : List α} (free : SeparatorFree separator word) (rest : List α) :
    ∀ place < word.length, ¬ separator <+: (word ++ (separator ++ rest)).drop place := by
  intro place before starts
  -- An occurrence that begins in the word ends before what follows the separator.
  refine free place before (List.prefix_of_prefix_length_le starts ?_ ?_)
  · rw [List.drop_append_of_le_length before.le, List.drop_append_of_le_length before.le, ← List.append_assoc]
    exact List.prefix_append _ _
  · rw [List.length_drop, List.length_append]
    omega

theorem SeparatorFree.last {word : List α} (free : SeparatorFree separator word) :
    ∀ place < word.length, ¬ separator <+: (word ++ []).drop place := by
  intro place before starts
  rw [List.append_nil] at starts
  refine free place before (starts.trans ?_)
  rw [List.drop_append_of_le_length before.le]
  exact List.prefix_append _ _

/-! ## Splitting -/

variable [DecidableEq α]

instance (separator word : List α) : Decidable (SeparatorFree separator word) :=
  inferInstanceAs (Decidable (∀ place < word.length, _))

/-- The pieces between the occurrences of the separator, found from the left: `skip` elements of the last one are still
to pass, and `piece` is what has been read after it. -/
def splitText (separator : List α) : Nat → List α → List α → List (List α)
  | _, piece, [] => [piece]
  | skip + 1, piece, _ :: rest => splitText separator skip piece rest
  | 0, piece, head :: rest =>
    if separator <+: head :: rest then piece :: splitText separator (separator.length - 1) [] rest
    else splitText separator 0 (piece ++ [head]) rest

/-- The pieces that are not empty. -/
def textPieces (separator text : List α) : List (List α) := (splitText separator 0 [] text).filter (· ≠ [])

theorem splitText_skip (piece skipped rest : List α) :
    splitText separator skipped.length piece (skipped ++ rest) = splitText separator 0 piece rest := by
  induction skipped with
  | nil => rfl
  | cons head skipped inductionHypothesis =>
    -- `splitText` counts down without looking at what it passes.
    rw [List.length_cons, List.cons_append, splitText]
    exact inductionHypothesis

theorem splitText_separator (isNonempty : separator ≠ []) (piece rest : List α) :
    splitText separator 0 piece (separator ++ rest) = piece :: splitText separator 0 [] rest := by
  obtain ⟨head, tail, rfl⟩ := List.exists_cons_of_ne_nil isNonempty
  have starts : head :: tail <+: head :: (tail ++ rest) := ⟨rest, rfl⟩
  rw [List.cons_append, splitText, if_pos starts, List.length_cons, Nat.add_sub_cancel, splitText_skip]

theorem splitText_word {word rest : List α} (free : ∀ place < word.length, ¬ separator <+: (word ++ rest).drop place)
    (piece : List α) : splitText separator 0 piece (word ++ rest) = splitText separator 0 (piece ++ word) rest := by
  induction word generalizing piece with
  | nil => rw [List.nil_append, List.append_nil]
  | cons head word inductionHypothesis =>
    have notHere : ¬ separator <+: head :: (word ++ rest) := free 0 (Nat.succ_pos _)
    have freeAfter : ∀ place < word.length, ¬ separator <+: (word ++ rest).drop place :=
      fun place before => free (place + 1) (Nat.succ_lt_succ before)
    rw [List.cons_append, splitText, if_neg notHere, inductionHypothesis freeAfter, List.append_assoc,
      List.singleton_append]

theorem splitText_intercalate (isNonempty : separator ≠ []) {first : List α} {rest : List (List α)}
    (free : ∀ word ∈ first :: rest, SeparatorFree separator word) :
    splitText separator 0 [] (separator.intercalate (first :: rest)) = first :: rest := by
  induction rest generalizing first with
  | nil =>
    rw [intercalate_cons, List.flatMap_nil, splitText_word (free first List.mem_cons_self).last]
    rfl
  | cons second rest inductionHypothesis =>
    obtain ⟨firstFree, restFree⟩ := List.forall_mem_cons.mp free
    have split : separator.intercalate (first :: second :: rest) =
        first ++ (separator ++ separator.intercalate (second :: rest)) := by
      rw [intercalate_cons, intercalate_cons, List.flatMap_cons, List.append_assoc]
    -- The word is read, the separator after it is passed, and the rest starts anew.
    rw [split, splitText_word (firstFree.before _), splitText_separator isNonempty, List.nil_append,
      inductionHypothesis restFree]

/-- Words that are not empty come back from the text they are joined to. -/
theorem textPieces_intercalate (isNonempty : separator ≠ []) {words : List (List α)}
    (proper : ∀ word ∈ words, word ≠ [] ∧ SeparatorFree separator word) :
    textPieces separator (separator.intercalate words) = words := by
  cases words with
  | nil => rfl
  | cons first rest =>
    rw [textPieces, splitText_intercalate isNonempty fun word member => (proper word member).2]
    exact List.filter_eq_self.mpr fun word member => decide_eq_true (proper word member).1

end AbilityFramework.Library
