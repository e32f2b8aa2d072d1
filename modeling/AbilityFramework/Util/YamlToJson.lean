import AbilityFramework.Library.JsonDepth

/-! # YAML and JSON

A scalar of YAML is a text without a type, so `json_to_yaml` writes the values of JSON as texts and `yaml_to_json`
guesses what they were.  A JSON value comes back unchanged exactly if the guess is right for each of its texts, its
integers are `int`s, and none of its objects and arrays is empty (`roundTrip_iff`). -/

namespace AbilityFramework.Util

open Library

/-- `YAML::Node` -/
inductive YamlNode where
  | null
  | scalar (text : String)
  | sequence (items : List YamlNode)
  | map (entries : List (YamlNode × YamlNode))

/-- `Scalar`, which is empty for the other kinds. -/
def YamlNode.text : YamlNode → String
  | scalar text => text
  | null | sequence _ | map _ => ""

/-- What the YAML library makes of numbers. -/
structure YamlNumbers where
  /-- `as<int64_t>` -/
  asInt64 : String → Option Int
  /-- `as<double>` -/
  asDouble : String → Option Double
  isDouble : Double → Bool
  /-- The text of a node made from a `double`. -/
  ofDouble : Double → String
  asInt64_ofInt : ∀ value : Int, -2147483648 ≤ value → value < 2147483648 → asInt64 (toString value) = some value
  asDouble_ofDouble : ∀ value, isDouble value = true → asDouble (ofDouble value) = some value
  asInt64_word : asInt64 "true" = none ∧ asInt64 "false" = none
  asDouble_word : asDouble "true" = none ∧ asDouble "false" = none

/-- `container[key] = value` -/
def assign {α : Type} (members : List (String × α)) (member : String × α) : List (String × α) :=
  if members.any (·.1 = member.1) then members.map fun other => if other.1 = member.1 then member else other
  else members ++ [member]

def assignAll {α : Type} (members : List (String × α)) : List (String × α) := members.foldl assign []

/-- An integer where that is possible, or else a floating-point number. -/
def YamlNumbers.number (numbers : YamlNumbers) (text : String) : Option Json :=
  match numbers.asInt64 text with
  | some value => some (.integer value)
  | none => (numbers.asDouble text).map .float

section FromYaml

variable (number : String → Option Json)

def convertScalar (text : String) : Json :=
  if text = "true" ∨ text = "false" then .boolean (text = "true") else (number text).getD (.string text)

mutual

/-- An empty sequence or map becomes null. -/
def yamlToJson : YamlNode → Json
  | .null => .null
  | .scalar text => convertScalar number text
  | .sequence items => if items.isEmpty then .null else .array (yamlToJsonItems items)
  | .map entries => if entries.isEmpty then .null else .object (assignAll (yamlToJsonEntries entries))

def yamlToJsonItems : List YamlNode → List Json
  | [] => []
  | item :: items => yamlToJson item :: yamlToJsonItems items

def yamlToJsonEntries : List (YamlNode × YamlNode) → List (String × Json)
  | [] => []
  | (key, value) :: entries => (key.text, yamlToJson value) :: yamlToJsonEntries entries

end

end FromYaml

section ToYaml

variable (numbers : YamlNumbers)

mutual

/-- Integers go through `int`. -/
def jsonToYaml : Json → YamlNode
  | .object members => .map ((assignAll (jsonToYamlMembers members)).map fun (key, value) => (.scalar key, value))
  | .array items => .sequence (jsonToYamlItems items)
  | .string value => .scalar value
  | .boolean value => .scalar (if value then "true" else "false")
  | .integer value => .scalar (toString (value.bmod (2 ^ 32)))
  | .float value => .scalar (numbers.ofDouble value)
  | .null => .null

def jsonToYamlItems : List Json → List YamlNode
  | [] => []
  | item :: items => jsonToYaml item :: jsonToYamlItems items

def jsonToYamlMembers : List (String × Json) → List (String × YamlNode)
  | [] => []
  | (key, value) :: members => (key, jsonToYaml value) :: jsonToYamlMembers members

end

end ToYaml

/-! ## Assignments -/

section Assignments

variable {α β : Type} {members : List (String × α)}

theorem foldl_assign {before : List (String × α)} (distinct : ((before ++ members).map Prod.fst).Nodup) :
    members.foldl assign before = before ++ members := by
  induction members generalizing before with
  | nil => rw [List.append_nil, List.foldl_nil]
  | cons member members inductionHypothesis =>
    have isNew : before.any (·.1 = member.1) = false := by
      rw [List.any_eq_false]
      intro other isOther
      rw [decide_eq_true_eq]
      intro sameKey
      rw [List.map_append, List.nodup_append] at distinct
      exact distinct.2.2 _ (List.mem_map_of_mem isOther) _ (List.mem_map_of_mem List.mem_cons_self) sameKey
    rw [List.foldl_cons, assign, isNew, if_neg Bool.false_ne_true,
      inductionHypothesis (by rwa [List.append_cons] at distinct), ← List.append_cons]

theorem assignAll_of_distinct (distinct : (members.map Prod.fst).Nodup) : assignAll members = members := by
  rw [assignAll, foldl_assign distinct, List.nil_append]

end Assignments

/-! ## Round trips -/

section RoundTrips

variable (numbers : YamlNumbers)

/-- The keys of an object are distinct, and a floating-point number is a `double`. -/
def representable : Json → Bool
  | .object members => (members.map Prod.fst).Nodup
  | .float value => numbers.isDouble value
  | .null | .boolean _ | .integer _ | .string _ | .array _ => true

/-- A text that is not taken for anything else, an integer that is an `int`, a floating-point number whose text is not
taken for an integer, an object or array that is not empty. -/
def survives : Json → Bool
  | .string text => text ≠ "true" && text ≠ "false" && numbers.asInt64 text = none && numbers.asDouble text = none
  | .integer value => -2147483648 ≤ value && value < 2147483648
  | .float value => numbers.asInt64 (numbers.ofDouble value) = none
  | .array items => !items.isEmpty
  | .object members => !members.isEmpty
  | .null | .boolean _ => true

variable {numbers}

theorem convertScalar_string (text : String) :
    convertScalar numbers.number text = .string text ↔ survives numbers (.string text) = true := by
  simp only [survives, Bool.and_eq_true, decide_eq_true_eq, convertScalar, YamlNumbers.number]
  by_cases word : text = "true" ∨ text = "false"
  · rw [if_pos word]
    refine iff_of_false (fun impossible => by cases impossible) fun plain => ?_
    obtain isTrue | isFalse := word
    · exact plain.1.1.1 isTrue
    · exact plain.1.1.2 isFalse
  · rw [if_neg word, and_assoc, and_iff_right (not_or.mp word)]
    cases isInt : numbers.asInt64 text with
    | some value => exact iff_of_false (fun impossible => by cases impossible) fun plain => by cases plain.1
    | none =>
      rw [and_iff_right rfl]
      cases numbers.asDouble text with
      | none => exact iff_of_true rfl rfl
      | some value => exact iff_of_false (fun impossible => by cases impossible) fun impossible => by cases impossible

theorem convertScalar_boolean (value : Bool) :
    convertScalar numbers.number (if value then "true" else "false") = .boolean value := by
  cases value <;> rfl

theorem not_word {text : String} (isNumber : numbers.asInt64 text ≠ none ∨ numbers.asDouble text ≠ none) :
    ¬ (text = "true" ∨ text = "false") := by
  rintro (rfl | rfl)
  · exact isNumber.elim (absurd numbers.asInt64_word.1) (absurd numbers.asDouble_word.1)
  · exact isNumber.elim (absurd numbers.asInt64_word.2) (absurd numbers.asDouble_word.2)

theorem convertScalar_integer (value : Int) :
    convertScalar numbers.number (toString (value.bmod (2 ^ 32))) = .integer value ↔
      survives numbers (.integer value) = true := by
  -- What is written is an `int`, whatever the value is.
  have low : -2147483648 ≤ value.bmod (2 ^ 32) := Int.le_bmod (by decide)
  have high : value.bmod (2 ^ 32) < 2147483648 := Int.bmod_lt (by decide)
  have readBack := numbers.asInt64_ofInt _ low high
  rw [convertScalar, if_neg (not_word (.inl (by rw [readBack]; exact Option.some_ne_none _))), YamlNumbers.number, readBack]
  simp only [Option.getD_some, Json.integer.injEq, survives, Bool.and_eq_true, decide_eq_true_eq]
  constructor
  · intro same
    rw [same] at low high
    exact ⟨low, high⟩
  · rintro ⟨low, high⟩
    exact Int.bmod_eq_of_le_mul_two (by omega) (by omega)

theorem convertScalar_float {value : Double} (isDouble : numbers.isDouble value = true) :
    convertScalar numbers.number (numbers.ofDouble value) = .float value ↔ survives numbers (.float value) = true := by
  have readBack := numbers.asDouble_ofDouble value isDouble
  rw [convertScalar, if_neg (not_word (.inr (by rw [readBack]; exact Option.some_ne_none _))), YamlNumbers.number,
    survives, decide_eq_true_eq]
  cases numbers.asInt64 (numbers.ofDouble value) with
  | some integer => exact iff_of_false (fun impossible => by cases impossible) fun impossible => by cases impossible
  | none =>
    rw [readBack]
    exact iff_of_true rfl rfl

theorem yamlToJsonItems_eq (number : String → Option Json) (items : List YamlNode) :
    yamlToJsonItems number items = items.map (yamlToJson number) := by
  induction items with
  | nil => rfl
  | cons item items inductionHypothesis => rw [yamlToJsonItems, inductionHypothesis, List.map_cons]

theorem jsonToYamlItems_eq (items : List Json) : jsonToYamlItems numbers items = items.map (jsonToYaml numbers) := by
  induction items with
  | nil => rfl
  | cons item items inductionHypothesis => rw [jsonToYamlItems, inductionHypothesis, List.map_cons]

theorem yamlToJsonEntries_eq (number : String → Option Json) (entries : List (YamlNode × YamlNode)) :
    yamlToJsonEntries number entries = entries.map fun entry => (entry.1.text, yamlToJson number entry.2) := by
  induction entries with
  | nil => rfl
  | cons entry entries inductionHypothesis => rw [yamlToJsonEntries, inductionHypothesis, List.map_cons]

theorem jsonToYamlMembers_eq (members : List (String × Json)) :
    jsonToYamlMembers numbers members = members.map fun member => (member.1, jsonToYaml numbers member.2) := by
  induction members with
  | nil => rfl
  | cons member members inductionHypothesis => rw [jsonToYamlMembers, inductionHypothesis, List.map_cons]

theorem roundTrip_array {items : List Json} :
    yamlToJson numbers.number (jsonToYaml numbers (.array items)) = .array items ↔
      items ≠ [] ∧ ∀ item ∈ items, yamlToJson numbers.number (jsonToYaml numbers item) = item := by
  rw [jsonToYaml, yamlToJson, jsonToYamlItems_eq, yamlToJsonItems_eq, List.map_map, List.isEmpty_map]
  cases items with
  | nil => exact iff_of_false (fun impossible => by cases impossible) fun some => some.1 rfl
  | cons item items =>
    rw [List.isEmpty_cons, if_neg Bool.false_ne_true, Json.array.injEq, and_iff_right (List.cons_ne_nil _ _)]
    exact Json.map_eq_self

theorem roundTrip_object {members : List (String × Json)} (distinct : (members.map Prod.fst).Nodup) :
    yamlToJson numbers.number (jsonToYaml numbers (.object members)) = .object members ↔
      members ≠ [] ∧ ∀ member ∈ members, yamlToJson numbers.number (jsonToYaml numbers member.2) = member.2 := by
  have sameKeys {β : Type} (change : Json → β) :
      ((members.map fun member => (member.1, change member.2)).map Prod.fst).Nodup := by
    rwa [List.map_map]
  have entries : yamlToJsonEntries numbers.number
      ((members.map fun member => (member.1, jsonToYaml numbers member.2)).map fun member =>
        (YamlNode.scalar member.1, member.2)) =
      members.map fun member => (member.1, yamlToJson numbers.number (jsonToYaml numbers member.2)) := by
    rw [yamlToJsonEntries_eq, List.map_map, List.map_map]
    rfl
  -- The keys are distinct all along, so no assignment replaces a member.
  rw [jsonToYaml, yamlToJson, jsonToYamlMembers_eq, assignAll_of_distinct (sameKeys (jsonToYaml numbers)), entries,
    assignAll_of_distinct (sameKeys fun value => yamlToJson numbers.number (jsonToYaml numbers value)), List.isEmpty_map,
    List.isEmpty_map]
  cases members with
  | nil => exact iff_of_false (fun impossible => by cases impossible) fun some => some.1 rfl
  | cons member members =>
    rw [List.isEmpty_cons, if_neg Bool.false_ne_true, Json.object.injEq, and_iff_right (List.cons_ne_nil _ _),
      Json.map_eq_self]
    refine forall₂_congr fun member _ => ?_
    rw [Prod.ext_iff, and_iff_right rfl]

theorem roundTrip_iff (numbers : YamlNumbers) (json : Json) (valid : json.everywhere (representable numbers) = true) :
    yamlToJson numbers.number (jsonToYaml numbers json) = json ↔ json.everywhere (survives numbers) = true := by
  induction json using Json.depthInduction with
  | null => exact iff_of_true rfl rfl
  | boolean value => exact iff_of_true (convertScalar_boolean value) rfl
  | integer value => exact convertScalar_integer value
  | float value => exact convertScalar_float valid
  | string text => exact convertScalar_string text
  | array items inductionHypothesis =>
    have each := (Json.everywhere_array.mp valid).2
    rw [roundTrip_array, Json.everywhere_array, survives, Bool.not_eq_true', List.isEmpty_eq_false_iff]
    exact and_congr_right fun _ => forall₂_congr fun item isItem => inductionHypothesis item isItem (each item isItem)
  | object members inductionHypothesis =>
    obtain ⟨distinct, each⟩ := Json.everywhere_object.mp valid
    rw [roundTrip_object (of_decide_eq_true distinct), Json.everywhere_object, survives, Bool.not_eq_true',
      List.isEmpty_eq_false_iff]
    exact and_congr_right fun _ => forall₂_congr fun member isMember =>
      inductionHypothesis member isMember (each member isMember)

end RoundTrips

/-! ## Decimal numbers -/

def plainDigits (digits : List Char) : Option Int :=
  if digits ≠ [] ∧ digits.all Char.isDigit then some (Nat.ofDigitChars 10 digits 0 : Nat) else none

def plainInt (text : String) : Option Int :=
  match text.toList with
  | '-' :: digits => (plainDigits digits).map Neg.neg
  | digits => plainDigits digits

theorem plainDigits_repr (value : Nat) : plainDigits value.repr.toList = some (value : Int) := by
  have digits : (Nat.toDigits 10 value).all Char.isDigit = true := by
    rw [List.all_eq_true]
    exact fun _ isDigit => Nat.isDigit_of_mem_toDigits (by decide) (by decide) isDigit
  rw [plainDigits, Nat.toList_repr, if_pos ⟨Nat.toDigits_ne_nil, digits⟩,
    Nat.ofDigitChars_toDigits (by decide) (by decide)]

theorem plainInt_repr (value : Nat) : plainInt value.repr = some (value : Int) := by
  rw [plainInt]
  split
  · rename_i digits isMinus
    have minus : '-' ∈ Nat.toDigits 10 value := by
      rw [← Nat.toList_repr, isMinus]
      exact List.mem_cons_self
    cases Nat.isDigit_of_mem_toDigits (by decide) (by decide) minus
  · exact plainDigits_repr value

theorem plainInt_toString (value : Int) : plainInt (toString value) = some value := by
  rw [Int.toString_eq_repr, Int.repr_eq_if]
  by_cases positive : 0 ≤ value
  · rw [if_pos positive, plainInt_repr, Int.toNat_of_nonneg positive]
  · have text : ("-" ++ (-value).toNat.repr).toList = '-' :: (-value).toNat.repr.toList := String.toList_append
    rw [if_neg positive, plainInt, text]
    show (plainDigits (-value).toNat.repr.toList).map Neg.neg = some value
    rw [plainDigits_repr, Option.map_some, Int.toNat_of_nonneg (by omega), Int.neg_neg]

def half : Double := .finite { num := 1, den := 2 }

/-- Integers in decimal and the number 0.5. -/
def plainNumbers : YamlNumbers where
  asInt64 := plainInt
  asDouble text := if text = "0.5" then some half else (plainInt text).map fun value => .finite value
  isDouble value := value = half
  ofDouble _ := "0.5"
  asInt64_ofInt value _ _ := plainInt_toString value
  asDouble_ofDouble value isHalf := by rw [if_pos rfl, of_decide_eq_true isHalf]
  asInt64_word := by decide
  asDouble_word := by decide

def lampDocument : Json :=
  .object [("name", .string "lamp"), ("port", .integer 8080), ("dim", .float half), ("tags", .array [.boolean true, .null])]

theorem lampDocument_roundTrip :
    yamlToJson plainNumbers.number (jsonToYaml plainNumbers lampDocument) = lampDocument :=
  (roundTrip_iff plainNumbers lampDocument (by decide)).mpr (by decide)

/-- A text of digits comes back as a number. -/
theorem digits_become_number :
    ¬ ((Json.string "12").everywhere (representable plainNumbers) = true →
      yamlToJson plainNumbers.number (jsonToYaml plainNumbers (.string "12")) = .string "12") := by
  intro roundTrip
  have number : yamlToJson plainNumbers.number (jsonToYaml plainNumbers (.string "12")) = .integer 12 := by rfl
  rw [number] at roundTrip
  cases roundTrip rfl

end AbilityFramework.Util
