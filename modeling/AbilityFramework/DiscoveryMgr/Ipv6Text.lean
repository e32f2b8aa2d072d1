import AbilityFramework.DiscoveryMgr.MultiAddress
import AbilityFramework.Library.JoinedText

/-! # Texts of IPv6 addresses

The regular expression of `is_valid_ipv6` takes eight groups, or up to seven with one `::`, link-local addresses with a
zone, and addresses that end in a dotted quad right behind the `::` (`isValidIpv6_form`).  What it takes becomes an
address of the family `ip6`, to which `impl_send` does not post: every message for it times out. -/

namespace AbilityFramework.DiscoveryMgr

open Library

/-! ## Forms of addresses -/

def hexDigits : String := "0123456789abcdefABCDEF"

def zoneCharacters : String := "0123456789abcdefghijklmnopqrstuvwxyzABCDEFGHIJKLMNOPQRSTUVWXYZ"

structure HexDigits (low high : Nat) where
  digits : List {digit : Char // digit ∈ hexDigits.toList}
  enough : low ≤ digits.length
  notTooMany : digits.length ≤ high

def HexDigits.text {low high : Nat} (group : HexDigits low high) : List Char := group.digits.map Subtype.val

abbrev HexGroup := HexDigits 1 4

/-- Unlike in an address of its own, a zero may stand before one digit. -/
structure EmbeddedOctet where
  value : Fin 256
  zeroBefore : Bool
  short : zeroBefore = true → value < 10

def EmbeddedOctet.text (octet : EmbeddedOctet) : List Char :=
  (if octet.zeroBefore then ['0'] else []) ++ Nat.toDigits 10 octet.value

structure EmbeddedIpv4 where
  first : EmbeddedOctet
  second : EmbeddedOctet
  third : EmbeddedOctet
  fourth : EmbeddedOctet

def EmbeddedIpv4.text (ip : EmbeddedIpv4) : List Char :=
  ip.first.text ++ ['.'] ++ (ip.second.text ++ ['.']) ++ (ip.third.text ++ ['.']) ++ ip.fourth.text

inductive Ipv6Form where
  | full (groups : List HexGroup) (eight : groups.length = 8)
  /-- One `::` between the groups, in front of them or behind. -/
  | compressed (left right : List HexGroup) (short : left.length + right.length ≤ 7)
  | linkLocal (pieces : List (HexDigits 0 4)) (few : pieces.length ≤ 4)
      (zone : List {character : Char // character ∈ zoneCharacters.toList}) (named : zone ≠ [])
  /-- `::ffff:` or `::ffff:0:`, with up to four zeros. -/
  | mapped (zeros : Option {count : Nat // 1 ≤ count ∧ count ≤ 4}) (ip : EmbeddedIpv4)
  | embedded (left : List HexGroup) (few : left.length ≤ 4) (ip : EmbeddedIpv4)

def groupsText (groups : List HexGroup) : List Char := [':'].intercalate (groups.map HexDigits.text)

def zerosText : Option {count : Nat // 1 ≤ count ∧ count ≤ 4} → List Char
  | none => []
  | some count => ':' :: List.replicate count.val '0'

def Ipv6Form.characters : Ipv6Form → List Char
  | .full groups _ => groupsText groups
  | .compressed left right _ => groupsText left ++ [':', ':'] ++ groupsText right
  | .linkLocal pieces _ zone _ =>
    "fe80:".toList ++ pieces.flatMap (fun piece => ':' :: piece.text) ++ ['%'] ++ zone.map Subtype.val
  | .mapped zeros ip => "::ffff".toList ++ zerosText zeros ++ [':'] ++ ip.text
  | .embedded left _ ip => groupsText left ++ [':', ':'] ++ ip.text

def Ipv6Form.text (form : Ipv6Form) : String := .ofList form.characters

/-! ## Pieces of the expression -/

variable {text : List Char}

theorem rmatch_hexDigits {low high : Nat} :
    (Regex.between hex low high).rmatch text = true ↔ ∃ group : HexDigits low high, text = group.text := by
  have takes (part : List Char) : hex.rmatch part = true ↔
      ∃ digit : {digit : Char // digit ∈ hexDigits.toList}, part = [digit.val] := Regex.rmatch_oneOf_iff
  rw [Regex.rmatch_between_iff takes]
  constructor
  · rintro ⟨digits, enough, notTooMany, rfl⟩
    exact ⟨⟨digits, enough, notTooMany⟩, List.map_eq_flatMap.symm⟩
  · rintro ⟨group, rfl⟩
    exact ⟨group.digits, group.enough, group.notTooMany, List.map_eq_flatMap⟩

def groupBefore : Regex := .between hex 1 4 * .char ':'

def groupAfter : Regex := .char ':' * .between hex 1 4

theorem rmatch_groupBefore : groupBefore.rmatch text = true ↔ ∃ group : HexGroup, text = group.text ++ [':'] :=
  Regex.rmatch_mul_char (fun _ => rmatch_hexDigits) ':'

theorem rmatch_groupAfter : groupAfter.rmatch text = true ↔ ∃ group : HexGroup, text = ':' :: group.text :=
  Regex.rmatch_char_mul (fun _ => rmatch_hexDigits) ':'

/-- The groups with a colon behind each. -/
def beforeText (left : List HexGroup) : List Char := left.flatMap fun group => group.text ++ [':']

def afterText (right : List HexGroup) : List Char := right.flatMap fun group => ':' :: group.text

theorem groupsText_after {right : List HexGroup} (some : right ≠ []) : ':' :: groupsText right = afterText right := by
  obtain ⟨first, rest, rfl⟩ := List.exists_cons_of_ne_nil some
  rw [groupsText, List.map_cons, intercalate_cons, afterText, List.flatMap_cons, List.flatMap_map]
  rfl

theorem groupsText_before {left : List HexGroup} (some : left ≠ []) : groupsText left ++ [':'] = beforeText left := by
  obtain ⟨first, rest, rfl⟩ := List.exists_cons_of_ne_nil some
  clear some
  induction rest generalizing first with
  | nil => simp [groupsText, beforeText]
  | cons second rest inductionHypothesis =>
    have later := inductionHypothesis second
    rw [groupsText, List.map_cons, intercalate_cons] at later ⊢
    rw [beforeText, List.flatMap_cons, ← beforeText, ← later]
    simp

/-! ### Dotted quads at the end -/

theorem embeddedOctet_words : ∀ word ∈ Regex.words embeddedOctet,
    Nat.ofDigitChars 10 word 0 < 256 ∧
      (Nat.toDigits 10 (Nat.ofDigitChars 10 word 0) = word ∨
        Nat.ofDigitChars 10 word 0 < 10 ∧ '0' :: Nat.toDigits 10 (Nat.ofDigitChars 10 word 0) = word) := by
  decide +kernel

theorem rmatch_embeddedDigits : ∀ value : Fin 256, embeddedOctet.rmatch (Nat.toDigits 10 value) = true := by
  decide +kernel

theorem rmatch_zeroBefore : ∀ value : Fin 10, embeddedOctet.rmatch ('0' :: Nat.toDigits 10 value) = true := by
  decide +kernel

theorem rmatch_embeddedOctet : embeddedOctet.rmatch text = true ↔ ∃ octet : EmbeddedOctet, text = octet.text := by
  constructor
  · intro matched
    obtain ⟨small, same | ⟨isDigit, same⟩⟩ := embeddedOctet_words text (Regex.mem_words (by decide) matched)
    · exact ⟨⟨⟨_, small⟩, false, nofun⟩, same.symm⟩
    · exact ⟨⟨⟨_, small⟩, true, fun _ => isDigit⟩, same.symm⟩
  · rintro ⟨octet, rfl⟩
    rw [EmbeddedOctet.text]
    split
    · rename_i zeroBefore
      exact rmatch_zeroBefore ⟨octet.value, octet.short zeroBefore⟩
    · exact rmatch_embeddedDigits octet.value

theorem rmatch_embeddedDot :
    (embeddedOctet * .char '.').rmatch text = true ↔ ∃ octet : EmbeddedOctet, text = octet.text ++ ['.'] :=
  Regex.rmatch_mul_char (fun _ => rmatch_embeddedOctet) '.'

theorem rmatch_embeddedIpv4 : embeddedIpv4.rmatch text = true ↔ ∃ ip : EmbeddedIpv4, text = ip.text := by
  rw [embeddedIpv4, Regex.rmatch_mul_iff]
  simp only [rmatch_embeddedOctet, Regex.rmatch_pow_three_iff, rmatch_embeddedDot]
  constructor
  · rintro ⟨_, _, rfl, ⟨_, _, _, rfl, ⟨first, rfl⟩, ⟨second, rfl⟩, ⟨third, rfl⟩⟩, ⟨fourth, rfl⟩⟩
    exact ⟨⟨first, second, third, fourth⟩, rfl⟩
  · rintro ⟨ip, rfl⟩
    exact ⟨_, _, rfl, ⟨_, _, _, rfl, ⟨ip.first, rfl⟩, ⟨ip.second, rfl⟩, ⟨ip.third, rfl⟩⟩, ⟨ip.fourth, rfl⟩⟩

/-! ### Groups on both sides -/

/-- Groups and then more groups, with an empty one between them. -/
def Sided (many few : Nat) (text : List Char) : Prop :=
  ∃ left right : List HexGroup, 1 ≤ left.length ∧ left.length ≤ many ∧ 1 ≤ right.length ∧ right.length ≤ few ∧
    text = beforeText left ++ afterText right

theorem rmatch_groupsBefore {low high : Nat} : (Regex.between groupBefore low high).rmatch text = true ↔
    ∃ left : List HexGroup, low ≤ left.length ∧ left.length ≤ high ∧ text = beforeText left :=
  Regex.rmatch_between_iff fun _ => rmatch_groupBefore

theorem rmatch_groupsAfter {low high : Nat} : (Regex.between groupAfter low high).rmatch text = true ↔
    ∃ right : List HexGroup, low ≤ right.length ∧ right.length ≤ high ∧ text = afterText right :=
  Regex.rmatch_between_iff fun _ => rmatch_groupAfter

theorem rmatch_sided {many few : Nat} :
    (Regex.between groupBefore 1 many * .between groupAfter 1 few).rmatch text = true ↔ Sided many few text := by
  simp only [Regex.rmatch_mul_iff, rmatch_groupsBefore, rmatch_groupsAfter]
  constructor
  · rintro ⟨_, _, rfl, ⟨left, someLeft, fewLeft, rfl⟩, ⟨right, someRight, fewRight, rfl⟩⟩
    exact ⟨left, right, someLeft, fewLeft, someRight, fewRight, rfl⟩
  · rintro ⟨left, right, someLeft, fewLeft, someRight, fewRight, rfl⟩
    exact ⟨_, _, rfl, ⟨left, someLeft, fewLeft, rfl⟩, ⟨right, someRight, fewRight, rfl⟩⟩

theorem rmatch_oneAfter {many : Nat} :
    (Regex.between groupBefore 1 many * .char ':' * .between hex 1 4).rmatch text = true ↔ Sided many 1 text := by
  simp only [Regex.rmatch_mul_iff, rmatch_groupsBefore, RegularExpression.char_rmatch_iff, rmatch_hexDigits]
  constructor
  · rintro ⟨_, _, rfl, ⟨_, _, rfl, ⟨left, someLeft, fewLeft, rfl⟩, rfl⟩, ⟨group, rfl⟩⟩
    exact ⟨left, [group], someLeft, fewLeft, Nat.le_refl 1, Nat.le_refl 1, by simp [afterText]⟩
  · rintro ⟨left, right, someLeft, fewLeft, someRight, fewRight, rfl⟩
    obtain ⟨group, rfl⟩ := List.length_eq_one_iff.mp (Nat.le_antisymm fewRight someRight)
    exact ⟨beforeText left ++ [':'], group.text, by simp [afterText], ⟨_, _, rfl, ⟨left, someLeft, fewLeft, rfl⟩, rfl⟩,
      ⟨group, rfl⟩⟩

theorem rmatch_oneBefore {few : Nat} :
    (Regex.between hex 1 4 * .char ':' * .between groupAfter 1 few).rmatch text = true ↔ Sided 1 few text := by
  have before : Regex.between hex 1 4 * .char ':' = groupBefore := rfl
  rw [before]
  simp only [Regex.rmatch_mul_iff, rmatch_groupBefore, rmatch_groupsAfter]
  constructor
  · rintro ⟨_, _, rfl, ⟨group, rfl⟩, ⟨right, someRight, fewRight, rfl⟩⟩
    exact ⟨[group], right, Nat.le_refl 1, Nat.le_refl 1, someRight, fewRight, by simp [beforeText]⟩
  · rintro ⟨left, right, someLeft, fewLeft, someRight, fewRight, rfl⟩
    obtain ⟨group, rfl⟩ := List.length_eq_one_iff.mp (Nat.le_antisymm fewLeft someLeft)
    exact ⟨group.text ++ [':'], afterText right, by simp [beforeText], ⟨group, rfl⟩, ⟨right, someRight, fewRight, rfl⟩⟩

/-! ### Alternatives -/

theorem groupsText_concat (groups : List HexGroup) (last : HexGroup) :
    groupsText (groups ++ [last]) = beforeText groups ++ last.text := by
  have some : groups ++ [last] ≠ [] := by simp
  have closed := groupsText_before some
  rw [beforeText, List.flatMap_append, List.flatMap_singleton, ← List.append_assoc] at closed
  exact List.append_cancel_right closed

theorem rmatch_full : (groupBefore ^ 7 * Regex.between hex 1 4).rmatch text = true ↔
    ∃ groups : List HexGroup, groups.length = 8 ∧ text = groupsText groups := by
  simp only [Regex.rmatch_mul_iff, Regex.rmatch_pow_iff fun _ => rmatch_groupBefore, rmatch_hexDigits]
  constructor
  · rintro ⟨_, _, rfl, ⟨groups, seven, rfl⟩, ⟨last, rfl⟩⟩
    exact ⟨groups ++ [last], by simp [seven], (groupsText_concat groups last).symm⟩
  · rintro ⟨groups, eight, rfl⟩
    cases groups using List.reverseRecOn with
    | nil => cases eight
    | append_singleton groups last =>
      rw [List.length_append, List.length_singleton] at eight
      exact ⟨_, _, groupsText_concat groups last, ⟨groups, by omega, rfl⟩, ⟨last, rfl⟩⟩

theorem rmatch_behind : (Regex.between groupBefore 1 7 * .char ':').rmatch text = true ↔
    ∃ left : List HexGroup, 1 ≤ left.length ∧ left.length ≤ 7 ∧ text = beforeText left ++ [':'] := by
  simp only [Regex.rmatch_mul_iff, rmatch_groupsBefore, RegularExpression.char_rmatch_iff]
  constructor
  · rintro ⟨_, _, rfl, ⟨left, some, few, rfl⟩, rfl⟩
    exact ⟨left, some, few, rfl⟩
  · rintro ⟨left, some, few, rfl⟩
    exact ⟨_, _, rfl, ⟨left, some, few, rfl⟩, rfl⟩

theorem rmatch_inFront : (.char ':' * Regex.anyOf [.between groupAfter 1 7, .char ':']).rmatch text = true ↔
    text = [':', ':'] ∨
      ∃ right : List HexGroup, 1 ≤ right.length ∧ right.length ≤ 7 ∧ text = ':' :: afterText right := by
  simp only [Regex.rmatch_mul_iff, Regex.rmatch_anyOf, List.mem_cons, List.not_mem_nil, or_false, exists_eq_or_imp,
    exists_eq_left, rmatch_groupsAfter, RegularExpression.char_rmatch_iff]
  constructor
  · rintro ⟨_, _, rfl, rfl, ⟨right, some, few, rfl⟩ | rfl⟩
    · exact .inr ⟨right, some, few, rfl⟩
    · exact .inl rfl
  · rintro (rfl | ⟨right, some, few, rfl⟩)
    · exact ⟨[':'], [':'], rfl, rfl, .inr rfl⟩
    · exact ⟨[':'], afterText right, rfl, rfl, .inl ⟨right, some, few, rfl⟩⟩

/-- The alternatives with groups on both sides leave room for one group. -/
theorem sided_iff :
    (Sided 6 1 text ∨ Sided 5 2 text ∨ Sided 4 3 text ∨ Sided 3 4 text ∨ Sided 2 5 text ∨ Sided 1 6 text) ↔
      ∃ left right : List HexGroup, 1 ≤ left.length ∧ 1 ≤ right.length ∧ left.length + right.length ≤ 7 ∧
        text = beforeText left ++ afterText right := by
  have both {many few : Nat} (room : many + few = 7) (sided : Sided many few text) :
      ∃ left right : List HexGroup, 1 ≤ left.length ∧ 1 ≤ right.length ∧ left.length + right.length ≤ 7 ∧
        text = beforeText left ++ afterText right := by
    obtain ⟨left, right, someLeft, fewLeft, someRight, fewRight, isText⟩ := sided
    exact ⟨left, right, someLeft, someRight, by omega, isText⟩
  constructor
  · rintro (sided | sided | sided | sided | sided | sided) <;> exact both rfl sided
  · rintro ⟨left, right, someLeft, someRight, short, isText⟩
    have sided (few : Nat) (isFew : right.length = few) : Sided (7 - few) few text :=
      ⟨left, right, someLeft, by omega, someRight, by omega, isText⟩
    obtain one | two | three | four | five | six : right.length = 1 ∨ right.length = 2 ∨ right.length = 3 ∨
        right.length = 4 ∨ right.length = 5 ∨ right.length = 6 := by omega
    · exact .inl (sided 1 one)
    · exact .inr (.inl (sided 2 two))
    · exact .inr (.inr (.inl (sided 3 three)))
    · exact .inr (.inr (.inr (.inl (sided 4 four))))
    · exact .inr (.inr (.inr (.inr (.inl (sided 5 five)))))
    · exact .inr (.inr (.inr (.inr (.inr (sided 6 six)))))

theorem compressed_iff :
    (∃ left right : List HexGroup, left.length + right.length ≤ 7 ∧
      text = groupsText left ++ [':', ':'] ++ groupsText right) ↔
    (∃ left right : List HexGroup, 1 ≤ left.length ∧ 1 ≤ right.length ∧ left.length + right.length ≤ 7 ∧
      text = beforeText left ++ afterText right) ∨
    (∃ left : List HexGroup, 1 ≤ left.length ∧ left.length ≤ 7 ∧ text = beforeText left ++ [':']) ∨
    text = [':', ':'] ∨
    ∃ right : List HexGroup, 1 ≤ right.length ∧ right.length ≤ 7 ∧ text = ':' :: afterText right := by
  have none : groupsText [] = [] := rfl
  have split (left right : List HexGroup) :
      groupsText left ++ [':', ':'] ++ groupsText right = groupsText left ++ [':'] ++ (':' :: groupsText right) := by simp
  constructor
  · rintro ⟨left, right, short, rfl⟩
    by_cases noLeft : left = []
    · subst noLeft
      by_cases noRight : right = []
      · subst noRight
        exact .inr (.inr (.inl rfl))
      · refine .inr (.inr (.inr ⟨right, List.length_pos_iff.mpr noRight, by simpa using short, ?_⟩))
        rw [split, none, groupsText_after noRight]
        rfl
    · by_cases noRight : right = []
      · subst noRight
        refine .inr (.inl ⟨left, List.length_pos_iff.mpr noLeft, by simpa using short, ?_⟩)
        rw [split, none, groupsText_before noLeft]
      · refine .inl ⟨left, right, List.length_pos_iff.mpr noLeft, List.length_pos_iff.mpr noRight, short, ?_⟩
        rw [split, groupsText_before noLeft, groupsText_after noRight]
  · rintro (⟨left, right, someLeft, someRight, short, rfl⟩ | ⟨left, someLeft, short, rfl⟩ | rfl |
      ⟨right, someRight, short, rfl⟩)
    · refine ⟨left, right, short, ?_⟩
      rw [split, groupsText_before (List.length_pos_iff.mp someLeft), groupsText_after (List.length_pos_iff.mp someRight)]
    · refine ⟨left, [], by simpa using short, ?_⟩
      rw [split, none, groupsText_before (List.length_pos_iff.mp someLeft)]
    · exact ⟨[], [], Nat.zero_le 7, rfl⟩
    · refine ⟨[], right, by simpa using short, ?_⟩
      rw [split, none, groupsText_after (List.length_pos_iff.mp someRight)]
      rfl

theorem rmatch_linkLocal :
    (Regex.literal "fe80:" * .between (.char ':' * .between hex 0 4) 0 4 * .char '%' *
      .oneOrMore (.oneOf zoneCharacters)).rmatch text = true ↔
      ∃ (pieces : List (HexDigits 0 4)) (zone : List {character : Char // character ∈ zoneCharacters.toList}),
        pieces.length ≤ 4 ∧ zone ≠ [] ∧
          text = "fe80:".toList ++ pieces.flatMap (fun piece => ':' :: piece.text) ++ ['%'] ++ zone.map Subtype.val := by
  have takes (part : List Char) : (.char ':' * Regex.between hex 0 4).rmatch part = true ↔
      ∃ piece : HexDigits 0 4, part = ':' :: piece.text := Regex.rmatch_char_mul (fun _ => rmatch_hexDigits) ':'
  simp only [Regex.rmatch_mul_iff, Regex.rmatch_literal_iff, Regex.rmatch_between_iff takes,
    Regex.rmatch_oneOrMore_iff fun _ => Regex.rmatch_oneOf_iff, RegularExpression.char_rmatch_iff]
  constructor
  · rintro ⟨_, _, rfl, ⟨_, _, rfl, ⟨_, _, rfl, rfl, ⟨pieces, _, few, rfl⟩⟩, rfl⟩, ⟨zone, named, rfl⟩⟩
    exact ⟨pieces, zone, few, named, by rw [List.map_eq_flatMap]⟩
  · rintro ⟨pieces, zone, few, named, rfl⟩
    exact ⟨_, _, rfl, ⟨_, _, rfl, ⟨_, _, rfl, rfl, ⟨pieces, Nat.zero_le _, few, rfl⟩⟩, rfl⟩,
      ⟨zone, named, List.map_eq_flatMap⟩⟩

def optionalZeros : Regex := .between (.char ':' * .between (.char '0') 1 4) 0 1

theorem rmatch_zeros : optionalZeros.rmatch text = true ↔
    ∃ zeros : Option {count : Nat // 1 ≤ count ∧ count ≤ 4}, text = zerosText zeros := by
  have takes (part : List Char) : (RegularExpression.char '0').rmatch part = true ↔ ∃ _ : Unit, part = ['0'] := by
    rw [RegularExpression.char_rmatch_iff, exists_const]
  have zeros (items : List Unit) : items.flatMap (fun _ => ['0']) = List.replicate items.length '0' := by
    rw [← List.map_eq_flatMap, List.map_const']
  simp only [optionalZeros, Regex.rmatch_optional_iff, Regex.rmatch_mul_iff, RegularExpression.char_rmatch_iff,
    Regex.rmatch_between_iff takes]
  constructor
  · rintro (rfl | ⟨_, _, rfl, rfl, ⟨items, some, few, rfl⟩⟩)
    · exact ⟨none, rfl⟩
    · exact ⟨.some ⟨items.length, some, few⟩, by rw [zeros]; rfl⟩
  · rintro ⟨none | ⟨count, some, few⟩, rfl⟩
    · exact .inl rfl
    · refine .inr ⟨[':'], List.replicate count '0', rfl, rfl, List.replicate count (), ?_⟩
      simp [some, few, zeros]

theorem rmatch_mapped :
    (Regex.literal "::" * .between (.literal "ffff" * optionalZeros * .char ':') 0 1 * embeddedIpv4).rmatch text = true ↔
      (∃ ip : EmbeddedIpv4, text = [':', ':'] ++ ip.text) ∨
        ∃ zeros, ∃ ip : EmbeddedIpv4, text = "::ffff".toList ++ zerosText zeros ++ [':'] ++ ip.text := by
  have colons : "::".toList = [':', ':'] := by decide
  have front : "::ffff".toList = [':', ':'] ++ "ffff".toList := by decide
  simp only [Regex.rmatch_mul_iff, Regex.rmatch_optional_iff, Regex.rmatch_literal_iff, rmatch_zeros,
    rmatch_embeddedIpv4, RegularExpression.char_rmatch_iff, colons, front]
  constructor
  · rintro ⟨_, _, rfl, ⟨_, _, rfl, rfl, rfl | ⟨_, _, rfl, ⟨_, _, rfl, rfl, ⟨zeros, rfl⟩⟩, rfl⟩⟩, ⟨ip, rfl⟩⟩
    · exact .inl ⟨ip, by simp⟩
    · exact .inr ⟨zeros, ip, by simp⟩
  · rintro (⟨ip, rfl⟩ | ⟨zeros, ip, rfl⟩)
    · exact ⟨_, _, rfl, ⟨_, [], (List.append_nil _).symm, rfl, .inl rfl⟩, ⟨ip, rfl⟩⟩
    · exact ⟨_, _, rfl, ⟨_, "ffff".toList ++ zerosText zeros ++ [':'], by simp, rfl,
        .inr ⟨_, _, rfl, ⟨_, _, rfl, rfl, ⟨zeros, rfl⟩⟩, rfl⟩⟩, ⟨ip, rfl⟩⟩

theorem rmatch_embedded : (Regex.between groupBefore 1 4 * .char ':' * embeddedIpv4).rmatch text = true ↔
    ∃ (left : List HexGroup) (ip : EmbeddedIpv4), 1 ≤ left.length ∧ left.length ≤ 4 ∧
      text = groupsText left ++ [':', ':'] ++ ip.text := by
  simp only [Regex.rmatch_mul_iff, rmatch_groupsBefore, rmatch_embeddedIpv4, RegularExpression.char_rmatch_iff]
  constructor
  · rintro ⟨_, _, rfl, ⟨_, _, rfl, ⟨left, some, few, rfl⟩, rfl⟩, ⟨ip, rfl⟩⟩
    refine ⟨left, ip, some, few, ?_⟩
    rw [← groupsText_before (List.length_pos_iff.mp some)]
    simp
  · rintro ⟨left, ip, some, few, rfl⟩
    refine ⟨_, _, ?_, ⟨_, _, rfl, ⟨left, some, few, rfl⟩, rfl⟩, ⟨ip, rfl⟩⟩
    rw [← groupsText_before (List.length_pos_iff.mp some)]
    simp

/-! ## The expression -/

theorem regexIpv6_eq : regexIpv6 = .anyOf
    [groupBefore ^ 7 * Regex.between hex 1 4,
      Regex.between groupBefore 1 7 * .char ':',
      Regex.between groupBefore 1 6 * .char ':' * .between hex 1 4,
      Regex.between groupBefore 1 5 * .between groupAfter 1 2,
      Regex.between groupBefore 1 4 * .between groupAfter 1 3,
      Regex.between groupBefore 1 3 * .between groupAfter 1 4,
      Regex.between groupBefore 1 2 * .between groupAfter 1 5,
      Regex.between hex 1 4 * .char ':' * .between groupAfter 1 6,
      .char ':' * Regex.anyOf [.between groupAfter 1 7, .char ':'],
      Regex.literal "fe80:" * .between (.char ':' * .between hex 0 4) 0 4 * .char '%' * .oneOrMore (.oneOf zoneCharacters),
      Regex.literal "::" * .between (.literal "ffff" * optionalZeros * .char ':') 0 1 * embeddedIpv4,
      Regex.between groupBefore 1 4 * .char ':' * embeddedIpv4] := rfl

theorem compressed_together {full behind one two three four five six inFront rest : Prop} :
    (full ∨ behind ∨ one ∨ two ∨ three ∨ four ∨ five ∨ six ∨ inFront ∨ rest) ↔
      full ∨ ((one ∨ two ∨ three ∨ four ∨ five ∨ six) ∨ behind ∨ inFront) ∨ rest := by
  tauto

/-- The alternatives, with those that compress groups taken together. -/
theorem rmatch_alternatives : regexIpv6.rmatch text = true ↔
    (∃ groups : List HexGroup, groups.length = 8 ∧ text = groupsText groups) ∨
    (∃ left right : List HexGroup, left.length + right.length ≤ 7 ∧
      text = groupsText left ++ [':', ':'] ++ groupsText right) ∨
    (∃ (pieces : List (HexDigits 0 4)) (zone : List {character : Char // character ∈ zoneCharacters.toList}),
      pieces.length ≤ 4 ∧ zone ≠ [] ∧
        text = "fe80:".toList ++ pieces.flatMap (fun piece => ':' :: piece.text) ++ ['%'] ++ zone.map Subtype.val) ∨
    ((∃ ip : EmbeddedIpv4, text = [':', ':'] ++ ip.text) ∨
      ∃ zeros, ∃ ip : EmbeddedIpv4, text = "::ffff".toList ++ zerosText zeros ++ [':'] ++ ip.text) ∨
    ∃ (left : List HexGroup) (ip : EmbeddedIpv4), 1 ≤ left.length ∧ left.length ≤ 4 ∧
      text = groupsText left ++ [':', ':'] ++ ip.text := by
  rw [regexIpv6_eq, Regex.rmatch_anyOf, compressed_iff, ← sided_iff]
  simp only [List.mem_cons, List.not_mem_nil, or_false, exists_eq_or_imp, exists_eq_left, rmatch_full, rmatch_behind,
    rmatch_oneAfter, rmatch_sided, rmatch_oneBefore, rmatch_inFront, rmatch_linkLocal, rmatch_mapped, rmatch_embedded]
  exact compressed_together

theorem rmatch_regexIpv6 : regexIpv6.rmatch text = true ↔ ∃ form : Ipv6Form, text = form.characters := by
  rw [rmatch_alternatives]
  constructor
  · rintro (⟨groups, eight, rfl⟩ | ⟨left, right, short, rfl⟩ | ⟨pieces, zone, few, named, rfl⟩ |
      (⟨ip, rfl⟩ | ⟨zeros, ip, rfl⟩) | ⟨left, ip, _, few, rfl⟩)
    · exact ⟨.full groups eight, rfl⟩
    · exact ⟨.compressed left right short, rfl⟩
    · exact ⟨.linkLocal pieces few zone named, rfl⟩
    · exact ⟨.embedded [] (Nat.zero_le 4) ip, rfl⟩
    · exact ⟨.mapped zeros ip, rfl⟩
    · exact ⟨.embedded left few ip, rfl⟩
  · rintro ⟨form, rfl⟩
    cases form with
    | full groups eight => exact .inl ⟨groups, eight, rfl⟩
    | compressed left right short => exact .inr (.inl ⟨left, right, short, rfl⟩)
    | linkLocal pieces few zone named => exact .inr (.inr (.inl ⟨pieces, zone, few, named, rfl⟩))
    | mapped zeros ip => exact .inr (.inr (.inr (.inl (.inr ⟨zeros, ip, rfl⟩))))
    | embedded left few ip =>
      by_cases none : left = []
      · subst none
        exact .inr (.inr (.inr (.inl (.inl ⟨ip, rfl⟩))))
      · exact .inr (.inr (.inr (.inr ⟨left, ip, List.length_pos_iff.mpr none, few, rfl⟩)))

theorem isValidIpv6_form {ip : String} : isValidIpv6 ip = true ↔ ∃ form : Ipv6Form, ip = form.text := by
  rw [isValidIpv6, Regex.regexMatch, rmatch_regexIpv6]
  simp only [Ipv6Form.text, ← String.toList_inj, String.toList_ofList]

/-! ## Messages to such addresses -/

theorem colon_mem_groupsText {groups : List HexGroup} (several : 2 ≤ groups.length) : ':' ∈ groupsText groups := by
  match groups, several with
  | first :: second :: rest, _ =>
    rw [groupsText, List.map_cons, intercalate_cons]
    simp

theorem colon_mem (form : Ipv6Form) : ':' ∈ form.characters := by
  cases form with
  | full groups eight =>
    apply colon_mem_groupsText
    omega
  | compressed left right short => exact List.mem_append_left _ (List.mem_append_right _ List.mem_cons_self)
  | linkLocal pieces few zone named =>
    have front : ':' ∈ "fe80:".toList := by decide
    exact List.mem_append_left _ (List.mem_append_left _ (List.mem_append_left _ front))
  | mapped zeros ip => exact List.mem_append_left _ (List.mem_append_right _ List.mem_cons_self)
  | embedded left few ip => exact List.mem_append_left _ (List.mem_append_right _ List.mem_cons_self)

theorem Ipv4.noColon (ip : Ipv4) : ':' ∉ ip.characters := by
  have digits (value : Fin 256) : ':' ∉ Nat.toDigits 10 value := by
    intro member
    exact absurd (Nat.isDigit_of_mem_toDigits (by decide) (Nat.le_refl 10) member) (by decide)
  simp [Ipv4.characters, digits]

theorem toMultiaddr_ipv6 (form : Ipv6Form) : toMultiaddr form.text = "/ip6/" ++ form.text := by
  have notIpv4 : ¬ isValidIpv4 form.text = true := by
    intro valid
    obtain ⟨quad, same⟩ := isValidIpv4_iff.mp valid
    have characters := congrArg String.toList same
    rw [Ipv6Form.text, Ipv4.text, String.toList_ofList, String.toList_ofList] at characters
    exact quad.noColon (characters ▸ colon_mem form)
  rw [toMultiaddr, if_neg notIpv4, if_pos (isValidIpv6_form.mpr ⟨form, rfl⟩)]

/-- No other family than `ip4` has a scheme. -/
theorem target_ip6 (rest : String) : target ("/ip6/" ++ rest) = none := by
  have front : "/ip6/".toList = ['/', 'i', 'p', '6', '/'] := by decide
  have segments : multiaddrSegments ("/ip6/" ++ rest) = "ip6" :: (splitSegments [] rest.toList).map String.ofList := by
    rw [multiaddrSegments, String.toList_append, front]
    simp only [List.cons_append, List.nil_append, splitSegments]
    rfl
  rw [target, segments]
  unfold HttpOverIpv4.fromSegments
  split
  · rename_i family _ isSegments
    rw [← (List.cons.inj isSegments).1]
    rfl
  · rename_i family _ _ _ isSegments
    rw [← (List.cons.inj isSegments).1]
    rfl
  · rfl

/-- The texts that are taken for IPv6 addresses are known exactly, and every message for one of them times out without
a request. -/
theorem ipv6_neverReached :
    (∀ ip, isValidIpv6 ip = true ↔ ∃ form : Ipv6Form, ip = form.text) ∧
      ∀ (form : Ipv6Form) (uuidText : UuidText) (post : Post) (msg : ElectionMsg),
        implSend uuidText post (toMultiaddr form.text) msg = .timeout := by
  refine ⟨fun ip => isValidIpv6_form, ?_⟩
  intro form uuidText post msg
  rw [implSend, toMultiaddr_ipv6, target_ip6]

end AbilityFramework.DiscoveryMgr
