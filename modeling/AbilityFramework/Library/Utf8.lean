import AbilityFramework.Library.ByteText
import Mathlib.Data.List.DropRight

/-! # Texts that are UTF-8

Bytes that encode characters.  Cut at a byte of ASCII, a text is UTF-8 exactly if both its parts are
(`isUtf8_append_cons`). -/

namespace AbilityFramework.Library.ByteText

def IsUtf8 (text : ByteText) : Prop := (ByteArray.mk text.toArray).IsValidUTF8

instance (text : ByteText) : Decidable (IsUtf8 text) := inferInstanceAs (Decidable (ByteArray.IsValidUTF8 _))

theorem isUtf8_ofString (text : String) : IsUtf8 (ofString text) := text.isValidUTF8

theorem isUtf8_nil : IsUtf8 [] := isUtf8_ofString ""

theorem isUtf8_iff {text : ByteText} :
    IsUtf8 text ↔ ∃ characters : List Char, text = characters.flatMap String.utf8EncodeChar := by
  constructor
  · intro valid
    obtain ⟨characters, same⟩ := valid
    have bytes := congrArg (fun bytes : ByteArray => bytes.data.toList) same
    simp only [List.utf8Encode, List.data_toByteArray] at bytes
    exact ⟨characters, bytes⟩
  · intro encoded
    obtain ⟨characters, rfl⟩ := encoded
    exact ⟨characters, ByteArray.ext (by simp only [List.utf8Encode, List.data_toByteArray])⟩

theorem IsUtf8.append {front back : ByteText} (first : IsUtf8 front) (second : IsUtf8 back) : IsUtf8 (front ++ back) := by
  obtain ⟨characters, rfl⟩ := isUtf8_iff.mp first
  obtain ⟨others, rfl⟩ := isUtf8_iff.mp second
  exact isUtf8_iff.mpr ⟨characters ++ others, List.flatMap_append.symm⟩

/-- Behind a text that is UTF-8 the rest decides. -/
theorem IsUtf8.append_iff {front : ByteText} (valid : IsUtf8 front) (back : ByteText) :
    IsUtf8 (front ++ back) ↔ IsUtf8 back := by
  obtain ⟨characters, rfl⟩ := isUtf8_iff.mp valid
  have shape : ByteArray.mk (characters.flatMap String.utf8EncodeChar ++ back).toArray =
      characters.utf8Encode ++ ByteArray.mk back.toArray := by
    ext1
    simp only [List.utf8Encode, ByteArray.data_append, List.data_toByteArray, List.append_toArray]
  rw [IsUtf8, shape]
  clear valid shape
  induction characters with
  | nil => simp [IsUtf8]
  | cons character characters inductionHypothesis =>
    rw [List.utf8Encode_cons, ByteArray.append_assoc, ByteArray.isValidUTF8_utf8Encode_singleton_append_iff]
    exact inductionHypothesis

/-- A byte of ASCII is a character of its own. -/
theorem utf8EncodeChar_ascii {character : Char} {byte : UInt8} (member : byte ∈ String.utf8EncodeChar character)
    (ascii : byte < 128) : String.utf8EncodeChar character = [byte] := by
  have small : byte.toNat < 128 := UInt8.lt_iff_toNat_lt.mp ascii
  unfold String.utf8EncodeChar at member ⊢
  extract_lets at member ⊢
  split_ifs at member ⊢
  · rw [List.mem_singleton.mp member]
  all_goals
    simp only [List.mem_cons, List.not_mem_nil, or_false] at member
    exfalso
    obtain rfl | rfl | rfl | rfl := member <;>
    · rw [UInt8.toNat_ofNat'] at small
      omega

theorem isUtf8_singleton {byte : UInt8} (ascii : byte < 128) : IsUtf8 [byte] := by
  have value : (Char.ofUInt8 byte).val = byte.toUInt32 := rfl
  have isOne : (Char.ofUInt8 byte).utf8Size = 1 := by
    rw [Char.utf8Size_eq_one_iff, UInt32.le_iff_toNat_le, value]
    have small : byte.toNat < 128 := UInt8.lt_iff_toNat_lt.mp ascii
    simpa using Nat.lt_succ_iff.mp small
  refine isUtf8_iff.mpr ⟨[Char.ofUInt8 byte], ?_⟩
  rw [List.flatMap_singleton, String.utf8EncodeChar_eq_singleton isOne, value]
  simp

/-- A text is UTF-8 if what is before and behind a byte of ASCII is. -/
theorem isUtf8_append_cons {front back : ByteText} {byte : UInt8} (ascii : byte < 128) :
    IsUtf8 (front ++ byte :: back) ↔ IsUtf8 front ∧ IsUtf8 back := by
  constructor
  · intro valid
    obtain ⟨characters, encoded⟩ := isUtf8_iff.mp valid
    induction characters generalizing front with
    | nil => simp at encoded
    | cons character characters inductionHypothesis =>
      rw [List.flatMap_cons] at encoded
      have rest : IsUtf8 (characters.flatMap String.utf8EncodeChar) := isUtf8_iff.mpr ⟨characters, rfl⟩
      have first : IsUtf8 (String.utf8EncodeChar character) := isUtf8_iff.mpr ⟨[character], by simp⟩
      obtain ⟨middle, isFirst, isRest⟩ | ⟨middle, isFront, isRest⟩ := List.append_eq_append_iff.mp encoded
      · cases middle with
        | nil =>
          rw [List.nil_append] at isRest
          rw [List.append_nil] at isFirst
          have after : IsUtf8 [] ∧ IsUtf8 back := inductionHypothesis (isRest ▸ rest) isRest
          exact ⟨isFirst ▸ first, after.2⟩
        | cons other middle =>
          obtain ⟨rfl, rfl⟩ := List.cons.inj isRest
          -- The byte is the whole character.
          have alone := utf8EncodeChar_ascii (isFirst ▸ List.mem_append_right front List.mem_cons_self) ascii
          rw [isFirst] at alone
          obtain ⟨rfl, isMiddle⟩ | ⟨_, isNone⟩ := List.append_eq_singleton_iff.mp alone
          · rw [(List.cons.inj isMiddle).2]
            exact ⟨isUtf8_nil, rest⟩
          · cases isNone
      · have after := inductionHypothesis (isRest ▸ rest) isRest.symm
        rw [isFront]
        exact ⟨first.append after.1, after.2⟩
  · intro valid
    exact valid.1.append ((isUtf8_singleton ascii).append valid.2)

theorem isUtf8_cons {byte : UInt8} {back : ByteText} (ascii : byte < 128) : IsUtf8 (byte :: back) ↔ IsUtf8 back := by
  have split : IsUtf8 ([] ++ byte :: back) ↔ IsUtf8 [] ∧ IsUtf8 back := isUtf8_append_cons ascii
  rwa [List.nil_append, and_iff_right isUtf8_nil] at split

theorem isUtf8_concat {byte : UInt8} {front : ByteText} (ascii : byte < 128) : IsUtf8 (front ++ [byte]) ↔ IsUtf8 front := by
  rw [isUtf8_append_cons ascii, and_iff_left isUtf8_nil]

/-- Around a text of ASCII bytes the rest decides. -/
theorem isUtf8_ascii_append {front : ByteText} (ascii : ∀ byte ∈ front, byte < 128) (back : ByteText) :
    IsUtf8 (front ++ back) ↔ IsUtf8 back := by
  induction front with
  | nil => rw [List.nil_append]
  | cons byte front inductionHypothesis =>
    rw [List.forall_mem_cons] at ascii
    rw [List.cons_append, isUtf8_cons ascii.1, inductionHypothesis ascii.2]

theorem isUtf8_append_ascii {back : ByteText} (ascii : ∀ byte ∈ back, byte < 128) (front : ByteText) :
    IsUtf8 (front ++ back) ↔ IsUtf8 front := by
  induction back using List.reverseRecOn with
  | nil => rw [List.append_nil]
  | append_singleton back byte inductionHypothesis =>
    rw [List.forall_mem_append, List.forall_mem_singleton] at ascii
    rw [← List.append_assoc, isUtf8_concat ascii.2, inductionHypothesis ascii.1]

/-- Cutting bytes of ASCII off the front changes nothing. -/
theorem isUtf8_dropWhile {cut : UInt8 → Bool} (ascii : ∀ byte, cut byte = true → byte < 128) (text : ByteText) :
    IsUtf8 (text.dropWhile cut) ↔ IsUtf8 text := by
  have front : ∀ byte ∈ text.takeWhile cut, byte < 128 := by
    intro byte member
    exact ascii byte (List.mem_takeWhile_imp member)
  rw [← isUtf8_ascii_append front (text.dropWhile cut), List.takeWhile_append_dropWhile]

theorem isUtf8_rdropWhile {cut : UInt8 → Bool} (ascii : ∀ byte, cut byte = true → byte < 128) (text : ByteText) :
    IsUtf8 (text.rdropWhile cut) ↔ IsUtf8 text := by
  have back : ∀ byte ∈ text.rtakeWhile cut, byte < 128 := by
    intro byte member
    exact ascii byte (List.mem_rtakeWhile_imp member)
  rw [← isUtf8_append_ascii back (text.rdropWhile cut), List.rdropWhile_append_rtakeWhile]

/-! ## C strings -/

/-- What is read of a text that is given as a C string. -/
def cString (text : ByteText) : ByteText := text.takeWhile (· ≠ 0)

theorem cString_append {front : ByteText} (noNull : ∀ byte ∈ front, byte ≠ 0) (back : ByteText) :
    cString (front ++ back) = front ++ cString back := by
  apply List.takeWhile_append_of_pos
  simpa using noNull

/-- Only the null character has a null byte. -/
theorem ne_zero_of_mem_ofString {text : String} (noNull : '\x00' ∉ text.toList) :
    ∀ byte ∈ ofString text, byte ≠ 0 := by
  intro byte member isNull
  have encoded := congrArg (fun bytes : ByteArray => bytes.data.toList) text.utf8Encode_toList
  simp only [List.utf8Encode, List.data_toByteArray] at encoded
  rw [isNull, ofString, String.toUTF8, ← encoded] at member
  obtain ⟨character, isCharacter, member⟩ := List.mem_flatMap.mp member
  have alone := utf8EncodeChar_ascii member (by decide)
  have isOne : character.utf8Size = 1 := by rw [← String.length_utf8EncodeChar, alone, List.length_singleton]
  have small : character.val ≤ 127 := Char.utf8Size_eq_one_iff.mp isOne
  rw [String.utf8EncodeChar_eq_singleton isOne, List.singleton_inj] at alone
  have isZero : character = '\x00' := by
    apply Char.ext
    apply UInt32.toNat_inj.mp
    have value := congrArg UInt8.toNat alone
    have bound := UInt32.le_iff_toNat_le.mp small
    simp only [UInt32.toNat_toUInt8, UInt8.toNat_ofNat, UInt32.toNat_ofNat] at value bound
    change character.val.toNat = 0
    omega
  exact noNull (isZero ▸ isCharacter)

/-- A text that ends at a null byte is UTF-8 as well. -/
theorem IsUtf8.cString {text : ByteText} (valid : IsUtf8 text) : IsUtf8 text.cString := by
  cases rest : text.dropWhile (· ≠ 0) with
  | nil =>
    have whole : text.cString = text := by
      rw [ByteText.cString, List.takeWhile_eq_self_iff]
      simpa using rest
    rwa [whole]
  | cons byte back =>
    have isNull : byte = 0 := by
      have stops := List.head?_dropWhile_not (· ≠ (0 : UInt8)) text
      rw [rest] at stops
      simpa using stops
    have split : text = text.cString ++ byte :: back := by
      rw [← rest]
      exact (List.takeWhile_append_dropWhile).symm
    rw [split, isUtf8_append_cons (by rw [isNull]; decide)] at valid
    exact valid.1

/-- Behind a string without the null character the rest decides. -/
theorem isUtf8_cString_append {front : String} (noNull : '\x00' ∉ front.toList) (back : ByteText) :
    (ByteText.cString (ofString front ++ back)).IsUtf8 ↔ back.cString.IsUtf8 := by
  rw [cString_append (ne_zero_of_mem_ofString noNull), (isUtf8_ofString front).append_iff]

end AbilityFramework.Library.ByteText
