import Mathlib.Algebra.Ring.Nat
import Mathlib.Data.Rat.Defs

/-! # JSON values

JSON values with the accessors of a C++ JSON library: lookups that throw a typed error when the value
has the wrong type or the key is missing, and conversions to the machine types.  A number is an
integer or a floating-point value, which need not be finite.  The library keeps the members of an object in the
order of their keys; here they have the order in which they are written, and no accessor depends on it. -/

namespace AbilityFramework.Library

theorem except_bind_eq_ok {Error α β : Type} {result : Except Error α} {next : α → Except Error β} {value : β} :
    result >>= next = .ok value ↔ ∃ middle, result = .ok middle ∧ next middle = .ok value := by
  cases result with
  | error error => exact iff_of_false (fun impossible => by cases impossible) (by rintro ⟨_, impossible, _⟩; cases impossible)
  | ok middle =>
    refine ⟨fun same => ⟨middle, rfl, same⟩, ?_⟩
    rintro ⟨_, same, result⟩
    exact Except.ok.inj same ▸ result

/-- A floating-point value; what is finite is the rational number it denotes. -/
inductive Double where
  | finite (value : Rat)
  | infinite (negative : Bool)
  | nan
  deriving DecidableEq

namespace Double

def isFinite : Double → Bool
  | finite _ => true
  | infinite _ | nan => false

/-- Conversion to a signed integer, cut off towards zero.  What is not finite has no integer in C++, and is the
least one here. -/
def toInt (bits : Nat) : Double → Int
  | finite value => (value.num.tdiv value.den).bmod (2 ^ bits)
  | infinite _ | nan => -(2 ^ (bits - 1) : Nat)

/-- What is converted fits. -/
theorem toInt_settled (bits : Nat) (value : Double) : (value.toInt (bits + 1)).bmod (2 ^ (bits + 1)) = value.toInt (bits + 1) := by
  cases value with
  | finite value => exact Int.bmod_bmod
  | infinite | nan =>
    show (-(2 ^ bits : Nat) : Int).bmod (2 ^ (bits + 1)) = -(2 ^ bits : Nat)
    have twice : (2 : Nat) ^ (bits + 1) = 2 * 2 ^ bits := by rw [Nat.pow_succ, Nat.mul_comm]
    have positive : 0 < 2 ^ bits := Nat.two_pow_pos bits
    rw [twice]
    refine Int.bmod_eq_of_le_mul_two ?_ ?_ <;> omega

end Double

inductive Json where
  | null
  | boolean (value : Bool)
  | integer (value : Int)
  | float (value : Double)
  | string (value : String)
  | array (items : List Json)
  | object (members : List (String × Json))

namespace Json

inductive Error where
  /-- The value converted has another type than the one expected. -/
  | typeError302 (expected actual : String)
  /-- `at` on something that is not an object. -/
  | typeError304 (actual : String)
  /-- `value` on something that is not an object. -/
  | typeError306 (actual : String)
  /-- `at` with a key the object does not have. -/
  | outOfRange403 (key : String)
  deriving DecidableEq, Repr

def typeName : Json → String
  | null => "null"
  | boolean _ => "boolean"
  | integer _ => "number"
  | float _ => "number"
  | string _ => "string"
  | array _ => "array"
  | object _ => "object"

def find (json : Json) (key : String) : Option Json :=
  match json with
  | object members => members.lookup key
  | _ => none

def contains (json : Json) (key : String) : Bool := (json.find key).isSome

def isString : Json → Bool
  | string _ => true
  | _ => false

/-- `empty`: strings and numbers never are. -/
def isEmpty : Json → Bool
  | null => true
  | array items => items.isEmpty
  | object members => members.isEmpty
  | boolean _ | integer _ | float _ | string _ => false

def asMember : Json → Option (String × Json)
  | array [string key, value] => some (key, value)
  | _ => none

/-- Brace initialisation: an object if every element is a pair of a string and a value, else an array. -/
def ofInitializerList (elements : List Json) : Json :=
  match elements.mapM asMember with
  | some members => object members
  | none => array elements

/-- `at`; the source's name is a keyword. -/
def getAt (json : Json) (key : String) : Except Error Json :=
  match json with
  | object members => (members.lookup key).elim (.error (.outOfRange403 key)) .ok
  | other => .error (.typeError304 other.typeName)

def getString : Json → Except Error String
  | string value => .ok value
  | other => .error (.typeError302 "string" other.typeName)

def getBool : Json → Except Error Bool
  | boolean value => .ok value
  | other => .error (.typeError302 "boolean" other.typeName)

/-- Conversion to a 32-bit `int`, to which integers wrap. -/
def getInt32 : Json → Except Error Int
  | boolean value => .ok value.toNat
  | integer value => .ok (value.bmod (2 ^ 32))
  | float value => .ok (value.toInt 32)
  | other => .error (.typeError302 "number" other.typeName)

/-- `value`: the member, converted, or the default when an object lacks it. -/
def value {α : Type} (json : Json) (key : String) (get : Json → Except Error α) (default : α) :
    Except Error α :=
  match json with
  | object members => (members.lookup key).elim (.ok default) get
  | other => .error (.typeError306 other.typeName)

theorem getAt_of_find {json found : Json} {key : String} (present : json.find key = some found) :
    json.getAt key = .ok found := by
  cases json with
  | object members =>
    have listed : members.lookup key = some found := present
    simp only [getAt, listed, Option.elim_some]
  | null | boolean | integer | float | string | array => cases present

theorem isEmpty_of_find {json found : Json} {key : String} (present : json.find key = some found) :
    json.isEmpty = false := by
  cases json with
  | object members =>
    cases members with
    | nil => cases present
    | cons => rfl
  | null | boolean | integer | float | string | array => cases present

/-- A default counts only where the key is missing. -/
theorem value_of_find {α : Type} {json found : Json} {key : String} (present : json.find key = some found)
    (get : Json → Except Error α) (default : α) : json.value key get default = get found := by
  cases json with
  | object members =>
    have listed : members.lookup key = some found := present
    simp only [value, listed, Option.elim_some]
  | null | boolean | integer | float | string | array => cases present

theorem value_of_missing {α : Type} {json other : Json} {key otherKey : String}
    (isObject : json.find otherKey = some other) (missing : json.find key = none)
    (get : Json → Except Error α) (default : α) : json.value key get default = .ok default := by
  cases json with
  | object members =>
    have unlisted : members.lookup key = none := missing
    simp only [value, unlisted, Option.elim_none]
  | null | boolean | integer | float | string | array => cases isObject

/-- An object with those of its members that are there. -/
def pack (members : List (String × Option Json)) : Json :=
  object (members.filterMap fun member => member.2.map (member.1, ·))

theorem find_pack {members : List (String × Option Json)} (distinct : (members.map Prod.fst).Nodup) (key : String) :
    (pack members).find key = (members.lookup key).join := by
  rw [pack, find]
  induction members with
  | nil => rfl
  | cons member members inductionHypothesis =>
    obtain ⟨first, value⟩ := member
    rw [List.map_cons, List.nodup_cons] at distinct
    have later := inductionHypothesis distinct.2
    rw [List.lookup_cons]
    cases value with
    | none =>
      rw [List.filterMap_cons_none rfl, later]
      by_cases same : key = first
      · -- A key of its own, which no later member has.
        have absent : members.lookup key = none := by
          rw [List.lookup_eq_none_iff]
          intro member isMember
          rw [bne_iff_ne]
          intro isKey
          exact distinct.1 (List.mem_map.mpr ⟨member, isMember, isKey.symm.trans same⟩)
        rw [beq_iff_eq.mpr same, absent]
        rfl
      · rw [beq_eq_false_iff_ne.mpr same]
    | some value =>
      have kept : ((first, some value) :: members).filterMap (fun member => member.2.map (member.1, ·)) =
          (first, value) :: members.filterMap fun member => member.2.map (member.1, ·) := List.filterMap_cons_some rfl
      rw [kept, List.lookup_cons, later]
      cases same : key == first <;> rfl

/-! ## Equality -/

mutual

def equals : Json → Json → Bool
  | null, null => true
  | boolean first, boolean second => first = second
  | integer first, integer second => first = second
  | float first, float second => first = second
  | string first, string second => first = second
  | array first, array second => itemsEqual first second
  | object first, object second => membersEqual first second
  | _, _ => false

def itemsEqual : List Json → List Json → Bool
  | [], [] => true
  | first :: firsts, second :: seconds => first.equals second && itemsEqual firsts seconds
  | _, _ => false

def membersEqual : List (String × Json) → List (String × Json) → Bool
  | [], [] => true
  | (firstKey, first) :: firsts, (secondKey, second) :: seconds =>
    firstKey = secondKey && first.equals second && membersEqual firsts seconds
  | _, _ => false

end

mutual

theorem equals_iff (first second : Json) : first.equals second = true ↔ first = second := by
  cases first with
  | array items => cases second <;> simp [equals, itemsEqual_iff items]
  | object members => cases second <;> simp [equals, membersEqual_iff members]
  | null | boolean | integer | float | string => cases second <;> simp [equals]

theorem itemsEqual_iff (firsts seconds : List Json) : itemsEqual firsts seconds = true ↔ firsts = seconds := by
  cases firsts with
  | nil => cases seconds <;> simp [itemsEqual]
  | cons first firsts => cases seconds <;> simp [itemsEqual, equals_iff first, itemsEqual_iff firsts]

theorem membersEqual_iff (firsts seconds : List (String × Json)) :
    membersEqual firsts seconds = true ↔ firsts = seconds := by
  cases firsts with
  | nil => cases seconds <;> simp [membersEqual]
  | cons member firsts =>
    obtain ⟨key, first⟩ := member
    cases seconds with
    | nil => simp [membersEqual]
    | cons other seconds =>
      obtain ⟨otherKey, second⟩ := other
      simp [membersEqual, equals_iff first, membersEqual_iff firsts]

end

instance : DecidableEq Json := fun first second => decidable_of_iff _ (equals_iff first second)

end Json

end AbilityFramework.Library
