import Mathlib.Data.Nat.Digits.Defs
import Mathlib.Data.Prod.Lex
import Mathlib.Data.UInt
import AbilityFramework.Library.Json
import AbilityFramework.Library.Outcome

/-! # Versions

`semver::version` is read from a text, written back and compared.  The texts are read as characters: the bytes of those
that are not ASCII are none that the code looks for.

`toString_roundTrip`: what is written is read back.
`fromString_exact`: which texts are read, and that a prerelease that breaks off lets the code read behind the text.
`compare_eq`: versions are compared as their parts are, one after the other. -/

namespace AbilityFramework.Util.Semver

inductive Prerelease where
  | alpha
  | beta
  | rc
  | none
  deriving DecidableEq

/-- The value of the enumeration. -/
def Prerelease.toNat : Prerelease → Nat
  | alpha => 0
  | beta => 1
  | rc => 2
  | none => 3

def Prerelease.text : Prerelease → List Char
  | alpha => ['a', 'l', 'p', 'h', 'a']
  | beta => ['b', 'e', 't', 'a']
  | rc => ['r', 'c']
  | none => []

structure Version where
  major : UInt16
  minor : UInt16
  patch : UInt16
  prereleaseType : Prerelease
  prereleaseNumber : Option UInt16
  numbered : prereleaseType = .none → prereleaseNumber = none
  deriving DecidableEq

/-! ## Reading -/

inductive Fault where
  /-- `std::errc::invalid_argument`. -/
  | invalid
  /-- The `int32_t` of a number overflows. -/
  | overflow
  /-- What is behind the text is read. -/
  | outside
  deriving DecidableEq

/-- `is_digit`, of a character. -/
def isDigit (char : Char) : Bool := '0' ≤ char && char ≤ '9'

def toDigit (char : Char) : Nat := char.toNat - '0'.toNat

def toLower (char : Char) : Char := if 'A' ≤ char ∧ char ≤ 'Z' then Char.ofNat (char.toNat + 32) else char

/-- The digits from a number on. -/
def numberFrom (number : Nat) : List Char → Except Fault (Nat × List Char)
  | [] => pure (number, [])
  | char :: rest =>
    if isDigit char then
      if number * 10 + toDigit char < 2 ^ 31 then numberFrom (number * 10 + toDigit char) rest else throw .overflow
    else pure (number, char :: rest)

/-- `from_chars` of a number. -/
def readNumber : List Char → Except Fault (UInt16 × List Char)
  | [] => throw .invalid
  | char :: rest =>
    if isDigit char then do
      let (number, rest) ← numberFrom 0 (char :: rest)
      if number < 2 ^ 16 then pure (UInt16.ofNat number, rest) else throw .invalid
    else throw .invalid

/-- `equals`: a text that ends before the word is taken for it. -/
def equals (text word : List Char) : Bool := (text.zip word).all fun (char, other) => toLower char == toLower other

/-- `from_chars` of a prerelease, behind the hyphen. -/
def readPrerelease (text : List Char) : Except Fault (Prerelease × List Char) :=
  match [Prerelease.alpha, .beta, .rc].find? (equals text ·.text) with
  | some found => if text.length < found.text.length then throw .outside else pure (found, text.drop found.text.length)
  | none => throw .invalid

/-- `check_delimiter`, with what is behind the delimiter. -/
def delimiter (char : Char) : List Char → Except Fault (List Char)
  | [] => throw .invalid
  | first :: rest => if first = char then pure rest else throw .invalid

/-- `from_chars` of a version behind the patch number. -/
def readTail : List Char → Except Fault (Prerelease × Option UInt16)
  | [] => pure (.none, none)
  | text => do
    let text ← delimiter '-' text
    let (found, text) ← readPrerelease text
    if text = [] then pure (found, none)
    else do
      let text ← delimiter '.' text
      let (number, text) ← readNumber text
      if text = [] then pure (found, some number) else throw .invalid

/-- The constructor: the number of a plain version is dropped. -/
def Version.make (major minor patch : UInt16) (found : Prerelease) (number : Option UInt16) : Version where
  major
  minor
  patch
  prereleaseType := found
  prereleaseNumber := if found = .none then none else number
  numbered isNone := if_pos isNone

def fromString (text : List Char) : Except Fault Version :=
  if text.length < 5 then throw .invalid
  else do
    let (major, text) ← readNumber text
    let text ← delimiter '.' text
    let (minor, text) ← readNumber text
    let text ← delimiter '.' text
    let (patch, text) ← readNumber text
    let (found, number) ← readTail text
    pure (.make major minor patch found number)

/-! ## Writing -/

/-- `to_chars` of a number. -/
def numberText (number : UInt16) : List Char := Nat.toDigits 10 number.toNat

def Version.tailText (version : Version) : List Char :=
  if version.prereleaseType = .none then []
  else '-' :: version.prereleaseType.text ++
    match version.prereleaseNumber with
    | some number => '.' :: numberText number
    | none => []

def Version.toString (version : Version) : List Char :=
  numberText version.major ++ '.' :: (numberText version.minor ++ '.' :: (numberText version.patch ++ version.tailText))

/-- `detail::length` of a number. -/
def numberLength (number : UInt16) : Nat :=
  if number < 10 then 1 else if number < 100 then 2 else if number < 1000 then 3 else if number < 10000 then 4 else 5

def Version.stringLength (version : Version) : Nat :=
  numberLength version.major + numberLength version.minor + numberLength version.patch + 2 +
    if version.prereleaseType = .none then 0
    else version.prereleaseType.text.length + 1 +
      match version.prereleaseNumber with
      | some number => numberLength number + 1
      | none => 0

/-! ## Comparing -/

def Version.compare (first second : Version) : Int :=
  if first.major ≠ second.major then (first.major.toNat : Int) - second.major.toNat
  else if first.minor ≠ second.minor then (first.minor.toNat : Int) - second.minor.toNat
  else if first.patch ≠ second.patch then (first.patch.toNat : Int) - second.patch.toNat
  else if first.prereleaseType ≠ second.prereleaseType then
    (first.prereleaseType.toNat : Int) - second.prereleaseType.toNat
  else match first.prereleaseNumber, second.prereleaseNumber with
    | some number, some other => (number.toNat : Int) - other.toNat
    | some _, none => 1
    | none, some _ => -1
    | none, none => 0

/-! ## Numbers -/

/-- Digits that are read as a number. -/
structure Numeral (digits : List Char) (number : UInt16) : Prop where
  nonempty : digits ≠ []
  all : ∀ char ∈ digits, isDigit char = true
  value : Nat.ofDigitChars 10 digits 0 = number.toNat

/-- A number ends in front of the text. -/
def NoDigit (text : List Char) : Prop := ∀ char ∈ text.head?, isDigit char = false

@[simp] theorem noDigit_nil : NoDigit [] := by simp [NoDigit]

@[simp] theorem noDigit_cons {char : Char} {rest : List Char} : NoDigit (char :: rest) ↔ isDigit char = false := by
  simp [NoDigit]

theorem le_ofDigitChars (digits : List Char) (number : Nat) : number ≤ Nat.ofDigitChars 10 digits number := by
  rw [Nat.ofDigitChars_eq_ofDigitChars_zero]
  have large : 1 ≤ 10 ^ digits.length := Nat.one_le_pow _ _ (by decide)
  have := Nat.mul_le_mul_right number large
  omega

theorem numberFrom_digits {digits rest : List Char} {number : Nat} (all : ∀ char ∈ digits, isDigit char = true)
    (ends : NoDigit rest) (small : Nat.ofDigitChars 10 digits number < 2 ^ 31) :
    numberFrom number (digits ++ rest) = .ok (Nat.ofDigitChars 10 digits number, rest) := by
  induction digits generalizing number with
  | nil =>
    cases rest with
    | nil => rfl
    | cons char rest => simp [numberFrom, noDigit_cons.mp ends, pure, Except.pure]
  | cons char digits inductionHypothesis =>
    rw [List.forall_mem_cons] at all
    have same : 10 * number + (char.toNat - '0'.toNat) = number * 10 + toDigit char := by
      rw [toDigit]
      omega
    rw [Nat.ofDigitChars_cons, same] at small ⊢
    have fits : number * 10 + toDigit char < 2 ^ 31 := Nat.lt_of_le_of_lt (le_ofDigitChars digits _) small
    rw [List.cons_append, numberFrom, if_pos all.1, if_pos fits, inductionHypothesis all.2 small]

theorem numberFrom_ok {text rest : List Char} {number result : Nat} (isOk : numberFrom number text = .ok (result, rest)) :
    ∃ digits, text = digits ++ rest ∧ (∀ char ∈ digits, isDigit char = true) ∧ NoDigit rest ∧
      result = Nat.ofDigitChars 10 digits number := by
  induction text generalizing number with
  | nil =>
    cases isOk
    exact ⟨[], rfl, by simp, noDigit_nil, by simp⟩
  | cons char text inductionHypothesis =>
    rw [numberFrom] at isOk
    split at isOk
    · next digit =>
      split at isOk
      · obtain ⟨digits, rfl, all, ends, rfl⟩ := inductionHypothesis isOk
        refine ⟨char :: digits, rfl, List.forall_mem_cons.mpr ⟨digit, all⟩, ends, ?_⟩
        rw [Nat.ofDigitChars_cons, toDigit, Nat.mul_comm]
      · cases isOk
    · next noDigit =>
      cases isOk
      exact ⟨[], rfl, by simp, by simpa using noDigit, by simp⟩

theorem readNumber_eq_ok_iff {text rest : List Char} {number : UInt16} :
    readNumber text = .ok (number, rest) ↔ ∃ digits, text = digits ++ rest ∧ Numeral digits number ∧ NoDigit rest := by
  constructor
  · intro isOk
    cases text with
    | nil => cases isOk
    | cons char text =>
      rw [readNumber] at isOk
      split at isOk
      · next digit =>
        obtain ⟨⟨value, behind⟩, isValue, isOk⟩ := Library.except_bind_eq_ok.mp isOk
        simp only at isOk
        split at isOk
        · next small =>
          cases isOk
          obtain ⟨digits, same, all, ends, rfl⟩ := numberFrom_ok isValue
          refine ⟨digits, same, ⟨?_, all, ?_⟩, ends⟩
          · rintro rfl
            rw [List.nil_append] at same
            rw [← same, noDigit_cons, digit] at ends
            cases ends
          · rw [UInt16.toNat_ofNat_of_lt' small]
        · cases isOk
      · cases isOk
  · rintro ⟨digits, rfl, ⟨nonempty, all, isValue⟩, ends⟩
    cases digits with
    | nil => exact absurd rfl nonempty
    | cons char digits =>
      have small : Nat.ofDigitChars 10 (char :: digits) 0 < 2 ^ 16 := isValue ▸ number.toNat_lt
      have isNumber := numberFrom_digits all ends (Nat.lt_trans small (by decide))
      rw [List.cons_append] at isNumber ⊢
      rw [readNumber, if_pos (all char (List.mem_cons_self ..)), isNumber]
      simp only [bind, Except.bind]
      rw [if_pos small, isValue, UInt16.ofNat_toNat]
      rfl

theorem numeral_numberText (number : UInt16) : Numeral (numberText number) number where
  nonempty := Nat.toDigits_ne_nil
  all char isChar := by
    have isDigit' : char.isDigit = true := Nat.isDigit_of_mem_toDigits (by decide) (by decide) isChar
    simpa [isDigit, Char.isDigit, Char.le_def] using isDigit'
  value := Nat.ofDigitChars_ten_toDigits

theorem delimiter_eq_ok_iff {char : Char} {text rest : List Char} : delimiter char text = .ok rest ↔ text = char :: rest := by
  cases text with
  | nil => simp [delimiter, throw, throwThe, MonadExceptOf.throw]
  | cons first text =>
    rw [delimiter]
    split
    · next same => simp [pure, Except.pure, same]
    · next differ => simp [throw, throwThe, MonadExceptOf.throw, differ]

/-! ## Prereleases -/

/-- The same word, whatever the case of its letters. -/
def SameWord (word : List Char) (found : Prerelease) : Prop := word.map toLower = found.text

/-- A beginning of the word of a prerelease that is not all of it. -/
def CutWord (word : List Char) (found : Prerelease) : Prop :=
  word.length < found.text.length ∧ word.map toLower = found.text.take word.length

theorem map_toLower_text (found : Prerelease) : found.text.map toLower = found.text := by cases found <;> decide

theorem equals_iff_take {text word : List Char} :
    equals text word = true ↔ (text.take word.length).map toLower = (word.take text.length).map toLower := by
  induction text generalizing word with
  | nil => simp [equals]
  | cons char text inductionHypothesis =>
    cases word with
    | nil => simp [equals]
    | cons other word =>
      have rest : (text.zip word).all (fun (char, other) => toLower char == toLower other) = true ↔ _ :=
        @inductionHypothesis word
      simp only [equals, List.zip_cons_cons, List.all_cons, Bool.and_eq_true, beq_iff_eq, List.length_cons,
        List.take_succ_cons, List.map_cons, List.cons.injEq]
      rw [rest]

/-- A text is taken for the word of a prerelease if it begins with it, or is a beginning of it. -/
theorem equals_iff {text : List Char} {found : Prerelease} : equals text found.text = true ↔
    (∃ word rest, text = word ++ rest ∧ SameWord word found) ∨ CutWord text found := by
  rw [equals_iff_take]
  constructor
  · intro same
    by_cases short : text.length < found.text.length
    · rw [List.take_of_length_le short.le, List.map_take, map_toLower_text] at same
      exact .inr ⟨short, same⟩
    · rw [List.take_of_length_le (Nat.not_lt.mp short), map_toLower_text] at same
      exact .inl ⟨_, _, (List.take_append_drop found.text.length text).symm, same⟩
  · rintro (⟨word, rest, rfl, same⟩ | ⟨short, same⟩)
    · have sameLength : word.length = found.text.length := by rw [← same, List.length_map]
      rw [← sameLength, List.take_left, List.take_of_length_le (by simp [sameLength]), map_toLower_text, same]
    · rw [List.take_of_length_le short.le, List.map_take, map_toLower_text, same]

/-- The first letters of the words tell them apart. -/
theorem found_unique {char : Char} {text : List Char} {found other : Prerelease} (some : found ≠ .none) (otherSome : other ≠ .none)
    (isFound : equals (char :: text) found.text = true) (isOther : equals (char :: text) other.text = true) : found = other := by
  cases found <;> cases other <;> first | rfl | contradiction | skip
  all_goals
    simp only [equals, Prerelease.text, List.zip_cons_cons, List.all_cons, Bool.and_eq_true, beq_iff_eq] at isFound isOther
    exact absurd (isFound.1.symm.trans isOther.1) (by decide)

theorem find_eq_some_iff {char : Char} {text : List Char} {found : Prerelease} :
    [Prerelease.alpha, .beta, .rc].find? (equals (char :: text) ·.text) = some found ↔
      found ≠ .none ∧ equals (char :: text) found.text = true := by
  constructor
  · intro isFound
    have isEqual := List.find?_some isFound
    have isMember := List.mem_of_find?_eq_some isFound
    refine ⟨?_, isEqual⟩
    rintro rfl
    simp at isMember
  · rintro ⟨some, isEqual⟩
    have isMember : found ∈ [Prerelease.alpha, .beta, .rc] := by cases found <;> simp at some ⊢
    cases isFirst : [Prerelease.alpha, .beta, .rc].find? (equals (char :: text) ·.text) with
    | none => exact absurd isEqual (List.find?_eq_none.mp isFirst found isMember)
    | some first =>
      have otherSome : first ≠ .none := by
        rintro rfl
        have := List.mem_of_find?_eq_some isFirst
        simp at this
      have isOther := List.find?_some isFirst
      rw [found_unique some otherSome isEqual isOther]

/-- Whether a text that is taken for a prerelease is one. -/
theorem readPrerelease_cons {char : Char} {text : List Char} {found : Prerelease} (some : found ≠ .none)
    (isEqual : equals (char :: text) found.text = true) : readPrerelease (char :: text) =
      if (char :: text).length < found.text.length then .error .outside
      else .ok (found, (char :: text).drop found.text.length) := by
  rw [readPrerelease, find_eq_some_iff.mpr ⟨some, isEqual⟩]
  rfl

theorem readPrerelease_eq_ok_iff {text rest : List Char} {found : Prerelease} : readPrerelease text = .ok (found, rest) ↔
    found ≠ .none ∧ ∃ word, text = word ++ rest ∧ SameWord word found := by
  constructor
  · intro isOk
    cases text with
    | nil => cases isOk
    | cons char text =>
      cases isFound : [Prerelease.alpha, .beta, .rc].find? (equals (char :: text) ·.text) with
      | none =>
        rw [readPrerelease, isFound] at isOk
        cases isOk
      | some other =>
        obtain ⟨some, isEqual⟩ := find_eq_some_iff.mp isFound
        rw [readPrerelease_cons some isEqual] at isOk
        split at isOk
        · cases isOk
        · next whole =>
          cases isOk
          obtain ⟨word, rest, same, isWord⟩ | ⟨short, _⟩ := equals_iff.mp isEqual
          · have sameLength : word.length = found.text.length := by rw [← isWord, List.length_map]
            rw [same, ← sameLength, List.drop_left]
            exact ⟨some, word, rfl, isWord⟩
          · exact absurd short whole
  · rintro ⟨some, word, rfl, isWord⟩
    have sameLength : word.length = found.text.length := by rw [← isWord, List.length_map]
    have isEqual := equals_iff.mpr (.inl ⟨word, rest, rfl, isWord⟩)
    cases word with
    | nil => cases found <;> simp [SameWord, Prerelease.text] at isWord some
    | cons char word =>
      rw [List.cons_append] at isEqual ⊢
      rw [readPrerelease_cons some isEqual, if_neg (by rw [← sameLength, ← List.cons_append, List.length_append]; omega),
        ← sameLength, ← List.cons_append, List.drop_left]

theorem readPrerelease_outside_iff {text : List Char} :
    readPrerelease text = .error .outside ↔ ∃ found, found ≠ .none ∧ CutWord text found := by
  cases text with
  | nil => exact iff_of_true rfl ⟨.rc, by decide, by decide, rfl⟩
  | cons char text =>
    constructor
    · intro isOutside
      cases isFound : [Prerelease.alpha, .beta, .rc].find? (equals (char :: text) ·.text) with
      | none =>
        rw [readPrerelease, isFound] at isOutside
        cases isOutside
      | some found =>
        obtain ⟨some, isEqual⟩ := find_eq_some_iff.mp isFound
        rw [readPrerelease_cons some isEqual] at isOutside
        split at isOutside
        · next short =>
          obtain ⟨word, rest, same, isWord⟩ | cut := equals_iff.mp isEqual
          · have sameLength : word.length = found.text.length := by rw [← isWord, List.length_map]
            rw [same, List.length_append] at short
            omega
          · exact ⟨found, some, cut⟩
        · cases isOutside
    · rintro ⟨found, some, cut⟩
      rw [readPrerelease_cons some (equals_iff.mpr (.inr cut)), if_pos cut.1]

/-- What the text behind the patch number stands for. -/
inductive TailOf : List Char → Prerelease → Option UInt16 → Prop where
  | plain : TailOf [] .none none
  | named {word : List Char} {found : Prerelease} (some : found ≠ .none) (isWord : SameWord word found) :
      TailOf ('-' :: word) found none
  | numbered {word digits : List Char} {found : Prerelease} {number : UInt16} (some : found ≠ .none)
      (isWord : SameWord word found) (numeral : Numeral digits number) :
      TailOf ('-' :: (word ++ '.' :: digits)) found (Option.some number)

theorem readTail_eq_ok_iff {text : List Char} {found : Prerelease} {number : Option UInt16} :
    readTail text = .ok (found, number) ↔ TailOf text found number := by
  constructor
  · intro isOk
    cases text with
    | nil =>
      cases isOk
      exact .plain
    | cons char text =>
      rw [readTail] at isOk
      · obtain ⟨behind, isHyphen, behindHyphen⟩ := Library.except_bind_eq_ok.mp isOk
        obtain ⟨⟨other, rest⟩, isFound, behindWord⟩ := Library.except_bind_eq_ok.mp behindHyphen
        rw [delimiter_eq_ok_iff] at isHyphen
        obtain ⟨some, word, rfl, isWord⟩ := readPrerelease_eq_ok_iff.mp isFound
        rw [isHyphen]
        simp only at behindWord
        split at behindWord
        · next isEnd =>
          cases behindWord
          rw [isEnd, List.append_nil]
          exact .named some isWord
        · obtain ⟨behind, isDot, behindDot⟩ := Library.except_bind_eq_ok.mp behindWord
          obtain ⟨⟨value, last⟩, isNumber, behindNumber⟩ := Library.except_bind_eq_ok.mp behindDot
          rw [delimiter_eq_ok_iff] at isDot
          obtain ⟨digits, rfl, numeral, _⟩ := readNumber_eq_ok_iff.mp isNumber
          simp only at behindNumber
          split at behindNumber
          · next isEnd =>
            cases behindNumber
            rw [isDot, isEnd, List.append_nil]
            exact .numbered some isWord numeral
          · cases behindNumber
      · simp
  · intro tail
    cases tail with
    | plain => rfl
    | @named word _ some isWord =>
      have isFound : readPrerelease word = .ok (found, []) :=
        readPrerelease_eq_ok_iff.mpr ⟨some, word, (List.append_nil word).symm, isWord⟩
      rw [readTail, delimiter_eq_ok_iff.mpr rfl]
      · simp only [bind, Except.bind, isFound]
        rfl
      · simp
    | @numbered word digits _ value some isWord numeral =>
      have isFound : readPrerelease (word ++ '.' :: digits) = .ok (found, '.' :: digits) :=
        readPrerelease_eq_ok_iff.mpr ⟨some, word, rfl, isWord⟩
      have isNumber : readNumber digits = .ok (value, []) :=
        readNumber_eq_ok_iff.mpr ⟨digits, (List.append_nil digits).symm, numeral, noDigit_nil⟩
      rw [readTail, delimiter_eq_ok_iff.mpr rfl]
      · simp only [bind, Except.bind, isFound, delimiter_eq_ok_iff.mpr rfl, isNumber]
        rfl
      · simp

/-! ## Versions -/

section Versions

variable {text major minor patch tail : List Char} {first second third : UInt16} {version : Version}

/-- The three numbers of a version with what is behind them. -/
structure Front (text major minor patch tail : List Char) (first second third : UInt16) : Prop where
  text : text = major ++ '.' :: (minor ++ '.' :: (patch ++ tail))
  major : Numeral major first
  minor : Numeral minor second
  patch : Numeral patch third
  ends : NoDigit tail

theorem noDigit_tail {found : Prerelease} {number : Option UInt16} (isTail : TailOf tail found number) : NoDigit tail := by
  cases isTail <;> simp [NoDigit, isDigit]

theorem readNumber_dot {digits : List Char} {number : UInt16} (numeral : Numeral digits number) (rest : List Char) :
    readNumber (digits ++ '.' :: rest) = .ok (number, '.' :: rest) :=
  readNumber_eq_ok_iff.mpr ⟨digits, rfl, numeral, noDigit_cons.mpr rfl⟩

theorem fromString_front (front : Front text major minor patch tail first second third) : fromString text = (do
    let (found, number) ← readTail tail
    pure (.make first second third found number)) := by
  obtain ⟨rfl, isMajor, isMinor, isPatch, ends⟩ := front
  have long : ¬ (major ++ '.' :: (minor ++ '.' :: (patch ++ tail))).length < 5 := by
    have := List.length_pos_iff.mpr isMajor.nonempty
    have := List.length_pos_iff.mpr isMinor.nonempty
    have := List.length_pos_iff.mpr isPatch.nonempty
    simp
    omega
  have readPatch := readNumber_eq_ok_iff.mpr ⟨patch, rfl, isPatch, ends⟩
  rw [fromString, if_neg long, readNumber_dot isMajor]
  simp only [bind, Except.bind, delimiter_eq_ok_iff.mpr rfl, readNumber_dot isMinor, readPatch]

theorem invalid_ne_outside : Fault.invalid ≠ .outside := by decide

theorem overflow_ne_outside : Fault.overflow ≠ .outside := by decide

theorem only_numberFrom (number : Nat) (text : List Char) : Library.Only (· ≠ Fault.outside) (numberFrom number text) := by
  induction text generalizing number with
  | nil => exact Library.only_pure _
  | cons char text inductionHypothesis =>
    rw [numberFrom]
    split
    · split
      · exact inductionHypothesis _
      · exact overflow_ne_outside
    · exact Library.only_pure _

theorem only_readNumber (text : List Char) : Library.Only (· ≠ Fault.outside) (readNumber text) := by
  cases text with
  | nil => exact invalid_ne_outside
  | cons char text =>
    rw [readNumber]
    split
    · refine Library.only_bind.mpr ⟨only_numberFrom _ _, ?_⟩
      rintro ⟨number, rest⟩ _
      simp only
      split
      · exact Library.only_pure _
      · exact invalid_ne_outside
    · exact invalid_ne_outside

theorem only_delimiter (char : Char) (text : List Char) : Library.Only (· ≠ Fault.outside) (delimiter char text) := by
  cases text with
  | nil => exact invalid_ne_outside
  | cons first text =>
    rw [delimiter]
    split
    · exact Library.only_pure _
    · exact invalid_ne_outside

/-- A part that fails ends the reading. -/
theorem refused_bind {α : Type} {goal : Prop} {found : Except Fault α} {next : α → Except Fault Version}
    (only : Library.Only (· ≠ Fault.outside) found)
    (rest : ∀ value, found = .ok value → goal ∨ ∃ fault, next value = .error fault ∧ fault ≠ .outside) :
    goal ∨ ∃ fault, (found >>= next) = .error fault ∧ fault ≠ .outside := by
  cases found with
  | ok value => exact rest value rfl
  | error fault => exact .inr ⟨fault, rfl, only⟩

/-- Only behind the three numbers a version is read, or read too far. -/
theorem fromString_cases (text : List Char) : (∃ major minor patch tail first second third,
    Front text major minor patch tail first second third) ∨
      ∃ fault, fromString text = .error fault ∧ fault ≠ .outside := by
  rw [fromString]
  split
  · exact .inr ⟨.invalid, rfl, by decide⟩
  · refine refused_bind (only_readNumber text) fun ⟨first, behindMajor⟩ readMajor => ?_
    refine refused_bind (only_delimiter '.' behindMajor) fun behindDot isDot => ?_
    refine refused_bind (only_readNumber behindDot) fun ⟨second, behindMinor⟩ readMinor => ?_
    refine refused_bind (only_delimiter '.' behindMinor) fun behindOther isOther => ?_
    refine refused_bind (only_readNumber behindOther) fun ⟨third, tail⟩ readPatch => .inl ?_
    obtain ⟨major, rfl, isMajor, _⟩ := readNumber_eq_ok_iff.mp readMajor
    obtain ⟨minor, rfl, isMinor, _⟩ := readNumber_eq_ok_iff.mp readMinor
    obtain ⟨patch, rfl, isPatch, ends⟩ := readNumber_eq_ok_iff.mp readPatch
    rw [delimiter_eq_ok_iff] at isDot isOther
    exact ⟨major, minor, patch, tail, first, second, third, by rw [isDot, isOther], isMajor, isMinor, isPatch, ends⟩

theorem make_eq_iff {found : Prerelease} {number : Option UInt16} (isTail : TailOf tail found number) :
    Version.make first second third found number = version ↔ first = version.major ∧ second = version.minor ∧
      third = version.patch ∧ found = version.prereleaseType ∧ number = version.prereleaseNumber := by
  have kept : (if found = .none then none else number) = number := by
    cases isTail with
    | plain => rfl
    | named some _ => rw [if_neg some]
    | numbered some _ _ => rw [if_neg some]
  obtain ⟨major, minor, patch, type, other, _⟩ := version
  simp only [Version.make, Version.mk.injEq, kept]

/-- The texts that are read: three numbers of 16 bits with any zeros in front, and a word with or without a number. -/
theorem fromString_eq_ok_iff {text : List Char} {version : Version} : fromString text = .ok version ↔
    ∃ major minor patch tail, text = major ++ '.' :: (minor ++ '.' :: (patch ++ tail)) ∧ Numeral major version.major ∧
      Numeral minor version.minor ∧ Numeral patch version.patch ∧
      TailOf tail version.prereleaseType version.prereleaseNumber := by
  constructor
  · intro isOk
    obtain ⟨major, minor, patch, tail, first, second, third, front⟩ | ⟨fault, isFault, _⟩ := fromString_cases text
    · rw [fromString_front front] at isOk
      obtain ⟨⟨found, number⟩, isTail, isVersion⟩ := Library.except_bind_eq_ok.mp isOk
      rw [readTail_eq_ok_iff] at isTail
      obtain ⟨rfl, rfl, rfl, rfl, rfl⟩ := (make_eq_iff isTail).mp (Except.ok.inj isVersion)
      exact ⟨major, minor, patch, tail, front.text, front.major, front.minor, front.patch, isTail⟩
    · rw [isFault] at isOk
      cases isOk
  · rintro ⟨major, minor, patch, tail, rfl, isMajor, isMinor, isPatch, isTail⟩
    rw [fromString_front ⟨rfl, isMajor, isMinor, isPatch, noDigit_tail isTail⟩, readTail_eq_ok_iff.mpr isTail]
    exact congrArg Except.ok ((make_eq_iff isTail).mpr ⟨rfl, rfl, rfl, rfl, rfl⟩)

theorem readTail_outside_iff : readTail tail = .error .outside ↔
    ∃ word found, tail = '-' :: word ∧ found ≠ .none ∧ CutWord word found := by
  cases tail with
  | nil =>
    refine iff_of_false (by simp [readTail, pure, Except.pure]) ?_
    rintro ⟨word, found, wrong, _⟩
    cases wrong
  | cons char tail =>
    rw [readTail]
    · constructor
      · intro isOutside
        cases isHyphen : delimiter '-' (char :: tail) with
        | error fault =>
          have inside := only_delimiter '-' (char :: tail)
          rw [isHyphen] at isOutside inside
          cases isOutside
          exact absurd rfl inside
        | ok word =>
          rw [isHyphen] at isOutside
          rw [delimiter_eq_ok_iff] at isHyphen
          cases isFound : readPrerelease word with
          | error fault =>
            simp only [bind, Except.bind, isFound] at isOutside
            cases isOutside
            obtain ⟨found, some, cut⟩ := readPrerelease_outside_iff.mp isFound
            exact ⟨word, found, isHyphen, some, cut⟩
          | ok found =>
            -- Behind the word nothing is read too far.
            simp only [bind, Except.bind, isFound] at isOutside
            split at isOutside
            · cases isOutside
            · have inside : Library.Only (· ≠ Fault.outside) (delimiter '.' found.2 >>= fun rest => readNumber rest >>= fun
                  (number, last) => if last = [] then pure (found.1, some number) else throw .invalid) := by
                refine Library.only_bind.mpr ⟨only_delimiter _ _, fun rest _ => ?_⟩
                refine Library.only_bind.mpr ⟨only_readNumber _, fun ⟨number, last⟩ _ => ?_⟩
                simp only
                split
                · exact Library.only_pure _
                · exact invalid_ne_outside
              simp only [bind, Except.bind] at inside
              rw [isOutside] at inside
              exact absurd rfl inside
      · rintro ⟨word, found, isTail, some, cut⟩
        rw [delimiter_eq_ok_iff.mpr isTail]
        simp only [bind, Except.bind, readPrerelease_outside_iff.mpr ⟨found, some, cut⟩]
    · simp

/-- What is behind a text is read exactly if it breaks off within the word of a prerelease. -/
theorem fromString_outside_iff {text : List Char} : fromString text = .error .outside ↔
    ∃ major minor patch word first second third found,
      text = major ++ '.' :: (minor ++ '.' :: (patch ++ '-' :: word)) ∧ Numeral major first ∧ Numeral minor second ∧
        Numeral patch third ∧ found ≠ .none ∧ CutWord word found := by
  constructor
  · intro isOutside
    obtain ⟨major, minor, patch, tail, first, second, third, front⟩ | ⟨fault, isFault, inside⟩ := fromString_cases text
    · rw [fromString_front front] at isOutside
      cases isTail : readTail tail with
      | ok found =>
        rw [isTail] at isOutside
        cases isOutside
      | error fault =>
        rw [isTail] at isOutside
        cases isOutside
        obtain ⟨word, found, rfl, some, cut⟩ := readTail_outside_iff.mp isTail
        exact ⟨major, minor, patch, word, first, second, third, found, front.text, front.major, front.minor, front.patch, some,
          cut⟩
    · rw [isFault] at isOutside
      exact absurd (Except.error.inj isOutside) inside
  · rintro ⟨major, minor, patch, word, first, second, third, found, rfl, isMajor, isMinor, isPatch, some, cut⟩
    rw [fromString_front ⟨rfl, isMajor, isMinor, isPatch, noDigit_cons.mpr rfl⟩,
      readTail_outside_iff.mpr ⟨word, found, rfl, some, cut⟩]
    rfl

/-- What a text is read as, and when the code reads behind it. -/
theorem fromString_exact (text : List Char) :
    (∀ version, fromString text = .ok version ↔ ∃ major minor patch tail,
      text = major ++ '.' :: (minor ++ '.' :: (patch ++ tail)) ∧ Numeral major version.major ∧
        Numeral minor version.minor ∧ Numeral patch version.patch ∧
        TailOf tail version.prereleaseType version.prereleaseNumber) ∧
      (fromString text = .error .outside ↔ ∃ major minor patch word first second third found,
        text = major ++ '.' :: (minor ++ '.' :: (patch ++ '-' :: word)) ∧ Numeral major first ∧ Numeral minor second ∧
          Numeral patch third ∧ found ≠ .none ∧ CutWord word found) :=
  ⟨fun _ => fromString_eq_ok_iff, fromString_outside_iff⟩

/-! ## Written and read back -/

theorem tailOf_tailText (version : Version) :
    TailOf version.tailText version.prereleaseType version.prereleaseNumber := by
  obtain ⟨major, minor, patch, found, number, numbered⟩ := version
  rw [Version.tailText]
  split
  · next isNone =>
    simp only at isNone numbered ⊢
    rw [isNone, numbered isNone]
    exact .plain
  · next some =>
    cases number with
    | none =>
      rw [List.append_nil]
      exact .named some (map_toLower_text found)
    | some number => exact .numbered some (map_toLower_text found) (numeral_numberText number)

theorem length_numberText (number : UInt16) : (numberText number).length = numberLength number := by
  have small := number.toNat_lt
  have atMost : ∀ digits, 0 < digits → ((numberText number).length ≤ digits ↔ number.toNat < 10 ^ digits) := by
    intro digits positive
    exact Nat.length_toDigits_le_iff (by decide) positive
  have one := atMost 1 (by decide)
  have two := atMost 2 (by decide)
  have three := atMost 3 (by decide)
  have four := atMost 4 (by decide)
  have five := atMost 5 (by decide)
  have some : 0 < (numberText number).length := Nat.length_toDigits_pos
  rw [numberLength]
  simp only [UInt16.lt_iff_toNat_lt, UInt16.reduceToNat]
  split
  · omega
  · split
    · omega
    · split
      · omega
      · split <;> omega

theorem length_toString (version : Version) : version.toString.length = version.stringLength := by
  rw [Version.toString, Version.stringLength, Version.tailText]
  split
  · simp [length_numberText]
    omega
  · cases version.prereleaseNumber <;> simp [length_numberText] <;> omega

theorem fromString_toString (version : Version) : fromString version.toString = .ok version :=
  fromString_eq_ok_iff.mpr ⟨_, _, _, _, rfl, numeral_numberText _, numeral_numberText _, numeral_numberText _,
    tailOf_tailText version⟩

/-- What is written is read back, and is as long as is said. -/
theorem toString_roundTrip (version : Version) : fromString version.toString = .ok version ∧
    version.toString.length = version.stringLength ∧ version.stringLength ≤ 29 := by
  refine ⟨fromString_toString version, length_toString version, ?_⟩
  have atMost : ∀ number, numberLength number ≤ 5 := by
    intro number
    rw [numberLength]
    repeat' split
    all_goals decide
  have word : version.prereleaseType.text.length ≤ 5 := by cases version.prereleaseType <;> decide
  have := atMost version.major
  have := atMost version.minor
  have := atMost version.patch
  rw [Version.stringLength]
  split
  · omega
  · cases version.prereleaseNumber with
    | none =>
      simp only
      omega
    | some number =>
      have := atMost number
      simp only
      omega

end Versions

/-! ## The order of versions -/

/-- No number is less than any. -/
def numberKey : Option UInt16 → WithBot ℕ
  | none => ⊥
  | some number => (number.toNat : WithBot ℕ)

/-- The parts of a version in the order of their weight. -/
def Version.key (version : Version) : ℕ ×ₗ ℕ ×ₗ ℕ ×ₗ ℕ ×ₗ WithBot ℕ :=
  toLex (version.major.toNat, toLex (version.minor.toNat, toLex (version.patch.toNat,
    toLex (version.prereleaseType.toNat, numberKey version.prereleaseNumber))))

theorem prereleaseType_toNat_inj {first second : Prerelease} : first.toNat = second.toNat ↔ first = second := by
  cases first <;> cases second <;> decide

theorem lt_of_differ {first second : Nat} {Rest : Type*} [LT Rest] {rest otherRest : Rest} (differ : first ≠ second) :
    (first : Int) - second < 0 ↔ toLex (first, rest) < toLex (second, otherRest) := by
  rw [Prod.Lex.toLex_lt_toLex]
  simp [differ]

theorem lt_of_same {first : Nat} {Rest : Type*} [LT Rest] {rest otherRest : Rest} :
    toLex (first, rest) < toLex (first, otherRest) ↔ rest < otherRest := by
  rw [Prod.Lex.toLex_lt_toLex]
  simp

theorem compare_neg_iff (first second : Version) : first.compare second < 0 ↔ first.key < second.key := by
  rw [Version.compare, Version.key, Version.key]
  by_cases sameMajor : first.major = second.major
  · rw [if_neg (not_not.mpr sameMajor), sameMajor, lt_of_same]
    by_cases sameMinor : first.minor = second.minor
    · rw [if_neg (not_not.mpr sameMinor), sameMinor, lt_of_same]
      by_cases samePatch : first.patch = second.patch
      · rw [if_neg (not_not.mpr samePatch), samePatch, lt_of_same]
        by_cases sameType : first.prereleaseType = second.prereleaseType
        · rw [if_neg (not_not.mpr sameType), sameType, lt_of_same]
          cases first.prereleaseNumber <;> cases second.prereleaseNumber <;> simp [numberKey]
        · rw [if_pos sameType]
          exact lt_of_differ (mt prereleaseType_toNat_inj.mp sameType)
      · rw [if_pos samePatch]
        exact lt_of_differ (mt UInt16.toNat_inj.mp samePatch)
    · rw [if_pos sameMinor]
      exact lt_of_differ (mt UInt16.toNat_inj.mp sameMinor)
  · rw [if_pos sameMajor]
    exact lt_of_differ (mt UInt16.toNat_inj.mp sameMajor)

theorem compare_swap (first second : Version) : second.compare first = -first.compare second := by
  rw [Version.compare, Version.compare]
  by_cases sameMajor : first.major = second.major
  · rw [if_neg (not_not.mpr sameMajor), if_neg (not_not.mpr sameMajor.symm)]
    by_cases sameMinor : first.minor = second.minor
    · rw [if_neg (not_not.mpr sameMinor), if_neg (not_not.mpr sameMinor.symm)]
      by_cases samePatch : first.patch = second.patch
      · rw [if_neg (not_not.mpr samePatch), if_neg (not_not.mpr samePatch.symm)]
        by_cases sameType : first.prereleaseType = second.prereleaseType
        · rw [if_neg (not_not.mpr sameType), if_neg (not_not.mpr sameType.symm)]
          cases first.prereleaseNumber <;> cases second.prereleaseNumber <;> simp
        · rw [if_pos sameType, if_pos (Ne.symm sameType), Int.neg_sub]
      · rw [if_pos samePatch, if_pos (Ne.symm samePatch), Int.neg_sub]
    · rw [if_pos sameMinor, if_pos (Ne.symm sameMinor), Int.neg_sub]
  · rw [if_pos sameMajor, if_pos (Ne.symm sameMajor), Int.neg_sub]

theorem numberKey_injective : Function.Injective numberKey := by
  intro first second same
  cases first <;> cases second <;> simp_all [numberKey, UInt16.toNat_inj]

theorem key_injective : Function.Injective Version.key := by
  intro first second same
  obtain ⟨major, minor, patch, type, number, _⟩ := first
  obtain ⟨otherMajor, otherMinor, otherPatch, otherType, otherNumber, _⟩ := second
  simp only [Version.key, toLex_inj, Prod.mk.injEq, UInt16.toNat_inj, prereleaseType_toNat_inj] at same
  obtain ⟨rfl, rfl, rfl, rfl, sameNumber⟩ := same
  cases numberKey_injective sameNumber
  rfl

/-- Versions are compared by their parts one after the other, and only a version compares equal to itself. -/
theorem compare_eq (first second : Version) : (first.compare second < 0 ↔ first.key < second.key) ∧
    (first.compare second = 0 ↔ first = second) ∧ (0 < first.compare second ↔ second.key < first.key) := by
  have less := compare_neg_iff first second
  have greater := compare_neg_iff second first
  rw [compare_swap first second] at greater
  refine ⟨less, ?_, by rw [← greater]; omega⟩
  constructor
  · intro zero
    refine key_injective (le_antisymm (not_lt.mp fun isLess => ?_) (not_lt.mp fun isLess => ?_))
    · have := greater.mpr isLess
      omega
    · have := less.mpr isLess
      omega
  · rintro rfl
    have notLess : ¬ first.compare first < 0 := fun isLess => lt_irrefl _ (less.mp isLess)
    have notGreater : ¬ -first.compare first < 0 := fun isLess => lt_irrefl _ (greater.mp isLess)
    omega

end AbilityFramework.Util.Semver
