import Mathlib.Data.List.Basic
import Mathlib.Data.List.TakeWhile
import Mathlib.Data.List.Forall2
import Mathlib.Data.List.Perm.Basic

/-! # Values and results of SQLite

A column with a declared type that contains `INT` has integer affinity: a text that is bound to it is stored as a
number if it is the literal of one, and reads back as the text of that number.  A column with text affinity holds
the texts bound to it.  A text is read as a C string, up to the first NUL.

`Latest` says what `ORDER BY … DESC LIMIT n` returns. -/

namespace AbilityFramework.Library

/-! ## Number literals -/

inductive NumberLiteral where
  | integer (value : Int)
  /-- With a point or an exponent. -/
  | real
  deriving DecidableEq

namespace Sqlite

def isSpace (char : Char) : Bool := char = ' ' || ('\t'.toNat ≤ char.toNat && char.toNat ≤ '\r'.toNat)

/-- Whether there is a minus, and what is after the sign. -/
def takeSign : List Char → Bool × List Char
  | '-' :: rest => (true, rest)
  | '+' :: rest => (false, rest)
  | rest => (false, rest)

/-- The digits after a mark, if it is there, and what is after them. -/
def takeFraction : List Char → Option (List Char) × List Char
  | '.' :: rest => (some (rest.takeWhile Char.isDigit), rest.dropWhile Char.isDigit)
  | rest => (none, rest)

def takeExponent (characters : List Char) : Option (List Char) × List Char :=
  match characters with
  | first :: rest =>
    if first = 'e' ∨ first = 'E' then
      let unsigned := (takeSign rest).2
      (some (unsigned.takeWhile Char.isDigit), unsigned.dropWhile Char.isDigit)
    else (none, characters)
  | [] => (none, [])

def digitsValue (digits : List Char) : Nat := digits.foldl (fun value digit => 10 * value + (digit.toNat - '0'.toNat)) 0

/-- `sqlite3AtoF`: spaces, a sign, digits with a point among them, an exponent, and spaces. -/
def numberLiteral (text : String) : Option NumberLiteral :=
  let (negative, unsigned) := takeSign (text.toList.dropWhile isSpace)
  let digits := unsigned.takeWhile Char.isDigit
  let (fraction, afterFraction) := takeFraction (unsigned.dropWhile Char.isDigit)
  let (exponent, rest) := takeExponent afterFraction
  if digits = [] ∧ fraction.getD [] = [] ∨ exponent = some [] ∨ !rest.all isSpace then none
  else if fraction = none ∧ exponent = none then
    some (.integer (if negative then -(digitsValue digits : Int) else digitsValue digits))
  else some .real

/-- What begins neither like a number nor with a space is no number. -/
theorem numberLiteral_eq_none {text : String} {first : Char} {rest : List Char} (isText : text.toList = first :: rest)
    (noSpace : isSpace first = false) (noDigit : first.isDigit = false) (noSign : first ∉ ['-', '+', '.']) :
    numberLiteral text = none := by
  simp only [List.mem_cons, List.not_mem_nil, or_false, not_or] at noSign
  have sign : takeSign (first :: rest) = (false, first :: rest) := by
    rw [takeSign.eq_3]
    · rintro _ ⟨⟩
      exact noSign.1 rfl
    · rintro _ ⟨⟩
      exact noSign.2.1 rfl
  have fraction : takeFraction (first :: rest) = (none, first :: rest) := by
    rw [takeFraction.eq_2]
    rintro _ ⟨⟩
    exact noSign.2.2 rfl
  simp [numberLiteral, isText, noSpace, noDigit, sign, fraction]

/-! ## Columns -/

end Sqlite

/-- A real number is known by its text. -/
inductive SqlValue where
  | integer (value : Int)
  | real (text : String)
  | text (value : String)
  deriving DecidableEq

namespace Sqlite

/-- A text up to the first NUL. -/
def cText (text : String) : String := String.ofList (text.toList.takeWhile (· ≠ Char.ofNat 0))

theorem cText_eq_self {text : String} : cText text = text ↔ Char.ofNat 0 ∉ text.toList := by
  rw [cText, ← String.toList_inj, String.toList_ofList, List.takeWhile_eq_self_iff]
  simp only [decide_eq_true_eq]
  exact ⟨fun all nul => all _ nul rfl, fun noNul char member isNul => noNul (isNul ▸ member)⟩

theorem cText_cText (text : String) : cText (cText text) = cText text := by
  rw [cText_eq_self, cText, String.toList_ofList]
  intro nul
  exact absurd (List.mem_takeWhile_imp nul) (by simp)

variable (toReal : String → SqlValue)

/-- What a column with integer affinity holds; literals that are not those of 64-bit integers are converted by way of
floating-point numbers. -/
def integerAffinity : SqlValue → SqlValue
  | .text text =>
    match numberLiteral text with
    | none => .text text
    | some (.integer value) => if Int64.minValue.toInt ≤ value ∧ value ≤ Int64.maxValue.toInt then .integer value else toReal text
    | some .real => toReal text
  | value => value

/-- `sqlite3_column_text` -/
def columnText : SqlValue → String
  | .integer value => toString value
  | .real text => text
  | .text text => cText text

/-- `sqlite3_column_int` of an integer. -/
def columnInt (value : Int) : Int32 := Int32.ofInt value

/-- The text is no number and has no NUL, or it is a number as SQLite writes it. -/
def KeptAsNumber (text : String) : Prop :=
  match numberLiteral text with
  | none => Char.ofNat 0 ∉ text.toList
  | some (.integer value) =>
    if Int64.minValue.toInt ≤ value ∧ value ≤ Int64.maxValue.toInt then toString value = text else columnText (toReal text) = text
  | some .real => columnText (toReal text) = text

theorem columnText_integerAffinity {text : String} :
    columnText (integerAffinity toReal (.text text)) = text ↔ KeptAsNumber toReal text := by
  rw [integerAffinity, KeptAsNumber]
  cases numberLiteral text with
  | none => exact cText_eq_self
  | some literal =>
    cases literal with
    | real => exact Iff.rfl
    | integer value =>
      simp only
      split_ifs <;> exact Iff.rfl

instance (text : String) : Decidable (KeptAsNumber toReal text) := decidable_of_iff _ (columnText_integerAffinity toReal)

theorem integerAffinity_of_no_number {text : String} (noNumber : numberLiteral text = none) :
    integerAffinity toReal (.text text) = .text text := by
  rw [integerAffinity, noNumber]

end Sqlite

/-! ## Ordered results -/

/-- `ORDER BY … DESC`; the order of rows with the same key is up to the database. -/
structure OrderByDesc {Row Key : Type*} [LE Key] (key : Row → Key) where
  sort : List Row → List Row
  perm : ∀ rows, (sort rows).Perm rows
  descending : ∀ rows, (sort rows).Pairwise fun earlier later => key later ≤ key earlier

/-- `LIMIT n`, where a negative number is no limit. -/
def limitTo {Row : Type*} (limit : Int) (rows : List Row) : List Row := if limit < 0 then rows else rows.take limit.toNat

/-- As many rows as there are, up to the limit, in descending order, and none of the others is greater. -/
def Latest {Row Key : Type*} [LE Key] (key : Row → Key) (rows : List Row) (limit : Nat) (latest : List Row) : Prop :=
  latest.length = min limit rows.length ∧ latest.Pairwise (fun earlier later => key later ≤ key earlier) ∧
    ∃ rest, (latest ++ rest).Perm rows ∧ ∀ row ∈ rest, ∀ other ∈ latest, key row ≤ key other

section Latest

variable {Row Key : Type*} [LE Key] {key : Row → Key} {rows sorted : List Row}

/-- Rows made of items in another order are the rows of the items in another order. -/
theorem exists_perm_of_perm_map {Item : Type*} {make : Item → Row} {items : List Item} (perm : rows.Perm (items.map make)) :
    ∃ arranged : List Item, arranged.Perm items ∧ rows = arranged.map make := by
  have made : List.Forall₂ (fun row item => row = make item) (items.map make) items :=
    List.forall₂_map_left_iff.mpr (List.forall₂_same.mpr fun _ _ => rfl)
  obtain ⟨arranged, areMade, isPerm⟩ := List.perm_comp_forall₂ perm made
  exact ⟨arranged, isPerm, List.forall₂_eq_eq_eq ▸ List.forall₂_map_right_iff.mpr areMade⟩

theorem limitTo_natCast (limit : Nat) (rows : List Row) : limitTo limit rows = rows.take limit := by
  rw [limitTo, if_neg (Int.not_lt.mpr (Int.natCast_nonneg limit)), Int.toNat_natCast]

theorem latest_take (perm : sorted.Perm rows)
    (descending : sorted.Pairwise fun earlier later => key later ≤ key earlier) (limit : Nat) :
    Latest key rows limit (sorted.take limit) := by
  refine ⟨?_, descending.sublist (List.take_sublist limit sorted), sorted.drop limit, ?_, ?_⟩
  · rw [List.length_take, perm.length_eq]
  · rw [List.take_append_drop]
    exact perm
  · rw [← List.take_append_drop limit sorted] at descending
    intro row isRest other isLatest
    exact (List.pairwise_append.mp descending).2.2 other isLatest row isRest

theorem Latest.perm {latest : List Row} (isLatest : Latest key rows rows.length latest) : latest.Perm rows := by
  obtain ⟨length, _, rest, perm, _⟩ := isLatest
  have lengths := perm.length_eq
  rw [List.length_append, length, Nat.min_self, Nat.add_eq_left] at lengths
  rwa [List.eq_nil_of_length_eq_zero lengths, List.append_nil] at perm

end Latest

end AbilityFramework.Library
