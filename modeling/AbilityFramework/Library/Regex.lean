import Mathlib.Computability.RegularExpressions
import Mathlib.Data.Set.List

/-! # Regular expressions in their usual notation

Alternatives, character classes, literals and bounded repetition as regular expressions over characters,
with what is needed to show that a text of a given form matches. -/

namespace AbilityFramework.Library

open RegularExpression

abbrev Regex := RegularExpression Char

namespace Regex

def anyOf (alternatives : List Regex) : Regex := alternatives.foldr (· + ·) 0

/-- `[…]` -/
def oneOf (characters : String) : Regex := anyOf (characters.toList.map .char)

def literal (text : String) : Regex := text.toList.foldr (fun character rest => .char character * rest) 1

/-- `{low,high}` -/
def between (regex : Regex) (low high : Nat) : Regex :=
  anyOf ((List.range (high + 1 - low)).map fun more => regex ^ (low + more))

/-- `{1,}` -/
def oneOrMore (regex : Regex) : Regex := regex * .star regex

/-- `regex_match`, of the whole text. -/
def regexMatch (regex : Regex) (text : String) : Bool := regex.rmatch text.toList

theorem rmatch_anyOf {alternatives : List Regex} {text : List Char} :
    (anyOf alternatives).rmatch text = true ↔ ∃ regex ∈ alternatives, regex.rmatch text = true := by
  induction alternatives with
  | nil => simp [anyOf]
  | cons regex alternatives inductionHypothesis =>
    simp only [anyOf, List.foldr_cons, add_rmatch_iff, List.exists_mem_cons_iff]
    rw [← inductionHypothesis, anyOf]

theorem rmatch_mul {first second : Regex} {left right : List Char} (matchesLeft : first.rmatch left = true)
    (matchesRight : second.rmatch right = true) : (first * second).rmatch (left ++ right) = true := by
  rw [rmatch_iff_matches'] at matchesLeft matchesRight ⊢
  rw [matches'_mul]
  exact Language.append_mem_mul matchesLeft matchesRight

theorem rmatch_mul_iff {first second : Regex} {text : List Char} : (first * second).rmatch text = true ↔
    ∃ left right, text = left ++ right ∧ first.rmatch left = true ∧ second.rmatch right = true :=
  mul_rmatch_iff first second text

theorem rmatch_pow_three {regex : Regex} {first second third : List Char} (matchesFirst : regex.rmatch first = true)
    (matchesSecond : regex.rmatch second = true) (matchesThird : regex.rmatch third = true) :
    (regex ^ 3).rmatch (first ++ second ++ third) = true := by
  rw [rmatch_iff_matches'] at matchesFirst matchesSecond matchesThird ⊢
  rw [matches'_pow, pow_succ, pow_two]
  exact Language.append_mem_mul (Language.append_mem_mul matchesFirst matchesSecond) matchesThird

theorem rmatch_pow_three_iff {regex : Regex} {text : List Char} : (regex ^ 3).rmatch text = true ↔
    ∃ first second third, text = first ++ second ++ third ∧
      regex.rmatch first = true ∧ regex.rmatch second = true ∧ regex.rmatch third = true := by
  constructor
  · intro matched
    rw [rmatch_iff_matches', matches'_pow, pow_succ, pow_two] at matched
    obtain ⟨_, ⟨first, isFirst, second, isSecond, rfl⟩, third, isThird, rfl⟩ := matched
    exact ⟨first, second, third, rfl, (rmatch_iff_matches' ..).mpr isFirst, (rmatch_iff_matches' ..).mpr isSecond,
      (rmatch_iff_matches' ..).mpr isThird⟩
  · rintro ⟨first, second, third, rfl, isFirst, isSecond, isThird⟩
    exact rmatch_pow_three isFirst isSecond isThird

/-! ## Repetition

An expression that takes the texts of items, repeated, takes the texts of lists of items. -/

section Repetition

variable {Item : Type*} {regex : Regex} {itemText : Item → List Char} {text : List Char}

/-- The parts of a text are those of items. -/
theorem exists_items (takes : ∀ part, regex.rmatch part = true ↔ ∃ item, part = itemText item)
    {parts : List (List Char)} (match_all : ∀ part ∈ parts, regex.rmatch part = true) :
    ∃ items : List Item, parts = items.map itemText := by
  have inRange : parts ∈ Set.range (List.map itemText) := by
    rw [Set.range_list_map]
    intro part member
    obtain ⟨item, isText⟩ := (takes part).mp (match_all part member)
    exact ⟨item, isText.symm⟩
  obtain ⟨items, isParts⟩ := inRange
  exact ⟨items, isParts.symm⟩

theorem rmatch_mul_char (takes : ∀ part, regex.rmatch part = true ↔ ∃ item, part = itemText item) (character : Char) :
    (regex * .char character).rmatch text = true ↔ ∃ item, text = itemText item ++ [character] := by
  simp only [rmatch_mul_iff, takes, char_rmatch_iff]
  constructor
  · rintro ⟨_, _, rfl, ⟨item, rfl⟩, rfl⟩
    exact ⟨item, rfl⟩
  · rintro ⟨item, rfl⟩
    exact ⟨_, _, rfl, ⟨item, rfl⟩, rfl⟩

theorem rmatch_char_mul (takes : ∀ part, regex.rmatch part = true ↔ ∃ item, part = itemText item) (character : Char) :
    (.char character * regex).rmatch text = true ↔ ∃ item, text = character :: itemText item := by
  simp only [rmatch_mul_iff, takes, char_rmatch_iff]
  constructor
  · rintro ⟨_, _, rfl, rfl, ⟨item, rfl⟩⟩
    exact ⟨item, rfl⟩
  · rintro ⟨item, rfl⟩
    exact ⟨[character], _, rfl, rfl, ⟨item, rfl⟩⟩

theorem rmatch_pow_iff (takes : ∀ part, regex.rmatch part = true ↔ ∃ item, part = itemText item) (count : Nat) :
    (regex ^ count).rmatch text = true ↔ ∃ items : List Item, items.length = count ∧ text = items.flatMap itemText := by
  rw [rmatch_iff_matches', matches'_pow, Language.mem_pow]
  constructor
  · rintro ⟨parts, rfl, isCount, areMatched⟩
    obtain ⟨items, rfl⟩ := exists_items takes fun part member => (rmatch_iff_matches' regex part).mpr (areMatched part member)
    rw [List.length_map] at isCount
    exact ⟨items, isCount, List.flatMap_def.symm⟩
  · rintro ⟨items, isCount, rfl⟩
    refine ⟨items.map itemText, List.flatMap_def, by rwa [List.length_map], ?_⟩
    rintro _ isPart
    obtain ⟨item, _, rfl⟩ := List.mem_map.mp isPart
    exact (rmatch_iff_matches' regex _).mp ((takes _).mpr ⟨item, rfl⟩)

theorem rmatch_between_iff (takes : ∀ part, regex.rmatch part = true ↔ ∃ item, part = itemText item) {low high : Nat} :
    (between regex low high).rmatch text = true ↔
      ∃ items : List Item, low ≤ items.length ∧ items.length ≤ high ∧ text = items.flatMap itemText := by
  rw [between, rmatch_anyOf]
  constructor
  · rintro ⟨_, isPower, matched⟩
    obtain ⟨more, inRange, rfl⟩ := List.mem_map.mp isPower
    rw [List.mem_range] at inRange
    obtain ⟨items, isCount, isText⟩ := (rmatch_pow_iff takes _).mp matched
    exact ⟨items, by omega, by omega, isText⟩
  · rintro ⟨items, enough, notTooMany, isText⟩
    have inRange : items.length - low ∈ List.range (high + 1 - low) := by
      rw [List.mem_range]
      omega
    exact ⟨_, List.mem_map_of_mem inRange, (rmatch_pow_iff takes _).mpr ⟨items, by omega, isText⟩⟩

theorem rmatch_optional_iff : (between regex 0 1).rmatch text = true ↔ text = [] ∨ regex.rmatch text = true := by
  have takes (part : List Char) : regex.rmatch part = true ↔ ∃ item : {part // regex.rmatch part = true}, part = item.val := by
    simp
  rw [rmatch_between_iff takes]
  constructor
  · rintro ⟨items, _, notTooMany, rfl⟩
    match items, notTooMany with
    | [], _ => exact .inl rfl
    | [item], _ => exact .inr (by simpa using item.property)
  · rintro (rfl | matched)
    · exact ⟨[], Nat.le_refl 0, Nat.zero_le 1, rfl⟩
    · exact ⟨[⟨text, matched⟩], Nat.zero_le 1, Nat.le_refl 1, by simp⟩

theorem rmatch_oneOrMore_iff (takes : ∀ part, regex.rmatch part = true ↔ ∃ item, part = itemText item) :
    (oneOrMore regex).rmatch text = true ↔ ∃ items : List Item, items ≠ [] ∧ text = items.flatMap itemText := by
  rw [oneOrMore, rmatch_mul_iff]
  constructor
  · rintro ⟨front, back, rfl, isFront, isBack⟩
    obtain ⟨first, rfl⟩ := (takes front).mp isFront
    obtain ⟨parts, rfl, areMatched⟩ := Language.mem_kstar.mp ((rmatch_iff_matches' _ _).mp isBack)
    obtain ⟨items, rfl⟩ := exists_items takes fun part member => (rmatch_iff_matches' regex part).mpr (areMatched part member)
    exact ⟨first :: items, List.cons_ne_nil _ _, by rw [List.flatMap_cons, List.flatMap_def]⟩
  · rintro ⟨items, some, rfl⟩
    obtain ⟨first, rest, rfl⟩ := List.exists_cons_of_ne_nil some
    refine ⟨itemText first, rest.flatMap itemText, List.flatMap_cons, (takes _).mpr ⟨first, rfl⟩, ?_⟩
    rw [rmatch_iff_matches', matches'_star, List.flatMap_def]
    apply Language.join_mem_kstar
    intro part isPart
    obtain ⟨item, _, rfl⟩ := List.mem_map.mp isPart
    exact (rmatch_iff_matches' regex _).mp ((takes _).mpr ⟨item, rfl⟩)

end Repetition

theorem rmatch_oneOf_iff {characters : String} {text : List Char} :
    (oneOf characters).rmatch text = true ↔ ∃ character : {character // character ∈ characters.toList}, text = [character.val] := by
  rw [oneOf, rmatch_anyOf]
  constructor
  · rintro ⟨_, isCharacter, matched⟩
    obtain ⟨character, member, rfl⟩ := List.mem_map.mp isCharacter
    exact ⟨⟨character, member⟩, (char_rmatch_iff character text).mp matched⟩
  · rintro ⟨⟨character, member⟩, rfl⟩
    exact ⟨.char character, List.mem_map_of_mem member, (char_rmatch_iff character _).mpr rfl⟩

theorem rmatch_literal_iff {literalText : String} {text : List Char} :
    (literal literalText).rmatch text = true ↔ text = literalText.toList := by
  rw [literal]
  induction literalText.toList generalizing text with
  | nil => exact one_rmatch_iff text
  | cons character rest inductionHypothesis =>
    rw [List.foldr_cons, rmatch_mul_iff]
    simp only [inductionHypothesis, char_rmatch_iff]
    constructor
    · rintro ⟨_, _, rfl, rfl, rfl⟩
      rfl
    · rintro rfl
      exact ⟨[character], rest, rfl, rfl, rfl⟩

/-! ## Expressions without stars -/

def starFree : Regex → Bool
  | .zero | .epsilon | .char _ => true
  | .plus first second | .comp first second => starFree first && starFree second
  | .star _ => false

/-- All the texts that match an expression without stars. -/
def words : Regex → List (List Char)
  | .zero | .star _ => []
  | .epsilon => [[]]
  | .char character => [[character]]
  | .plus first second => words first ++ words second
  | .comp first second => (words first).flatMap fun left => (words second).map (left ++ ·)

theorem mem_words {regex : Regex} {text : List Char} (free : starFree regex = true)
    (matched : regex.rmatch text = true) : text ∈ words regex := by
  induction regex generalizing text with
  | zero =>
    rw [zero_def, zero_rmatch] at matched
    cases matched
  | epsilon => exact List.mem_singleton.mpr ((one_rmatch_iff text).mp matched)
  | char character => exact List.mem_singleton.mpr ((char_rmatch_iff character text).mp matched)
  | plus first second ofFirst ofSecond =>
    simp only [starFree, Bool.and_eq_true] at free
    rw [words, List.mem_append]
    exact ((add_rmatch_iff first second text).mp matched).imp (ofFirst free.1) (ofSecond free.2)
  | comp first second ofFirst ofSecond =>
    simp only [starFree, Bool.and_eq_true] at free
    obtain ⟨left, right, rfl, isLeft, isRight⟩ := rmatch_mul_iff.mp matched
    exact List.mem_flatMap.mpr ⟨left, ofFirst free.1 isLeft, List.mem_map.mpr ⟨right, ofSecond free.2 isRight, rfl⟩⟩
  | star => cases free

end Regex

end AbilityFramework.Library
