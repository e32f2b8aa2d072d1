import AbilityFramework.Library.ReadMap
import AbilityFramework.Library.Runs

/-! # Ordinary maps

A map from keys to values whose traversals come in an order of their own, with what each operation lets its caller
observe.  The function of a traversal is given what it has seen so far, so it may depend on the order. -/

namespace AbilityFramework.Library

/-- An order of traversal. -/
structure Reordering (Row : Type*) where
  apply : List Row → List Row
  perm : ∀ rows, (apply rows).Perm rows

/-- The order that visits these rows, where the rows are these. -/
noncomputable def Reordering.towards {Row : Type*} (wanted : List Row) : Reordering Row where
  apply rows := open Classical in if wanted.Perm rows then wanted else rows
  perm rows := by
    split
    · assumption
    · exact List.Perm.refl rows

theorem Reordering.towards_apply {Row : Type*} {wanted rows : List Row} (perm : wanted.Perm rows) :
    (Reordering.towards wanted).apply rows = wanted := if_pos perm

variable {Key Value : Type*}

/-! ## Traversals -/

/-- The entries after a function that may change their values has visited them in this order. -/
def visitEntries (func : List (Key × Value) → Key → Value → Value) :
    List (Key × Value) → List (Key × Value) → List (Key × Value)
  | _, [] => []
  | seen, entry :: rest => (entry.1, func seen entry.1 entry.2) :: visitEntries func (seen ++ [entry]) rest

variable (func : List (Key × Value) → Key → Value → Value)

theorem visitEntries_append (seen first second : List (Key × Value)) :
    visitEntries func seen (first ++ second) =
      visitEntries func seen first ++ visitEntries func (seen ++ first) second := by
  induction first generalizing seen with
  | nil => rw [List.nil_append, List.append_nil, visitEntries, List.nil_append]
  | cons entry first inductionHypothesis =>
    rw [List.cons_append, visitEntries, inductionHypothesis, visitEntries, List.cons_append, List.append_assoc,
      List.singleton_append]

theorem map_fst_visitEntries (seen entries : List (Key × Value)) :
    (visitEntries func seen entries).map Prod.fst = entries.map Prod.fst := by
  induction entries generalizing seen with
  | nil => rfl
  | cons entry entries inductionHypothesis =>
    rw [visitEntries, List.map_cons, inductionHypothesis, List.map_cons]

/-! ## Operations -/

inductive MapCall (Key Value : Type*) where
  | find (key : Key)
  | contains (key : Key)
  | subscript (key : Key)
  | insertOrAssign (key : Key) (value : Value)
  | emplace (key : Key) (value : Value)
  | erase (key : Key)
  | clear
  | size
  | empty
  | forEach (func : List (Key × Value) → Key → Value → Value)
  | execOnKey (key : Key) (func : Value → Value)

/-- The key an operation is on. -/
def MapCall.key? : MapCall Key Value → Option Key
  | find key | contains key | subscript key | insertOrAssign key _ | emplace key _ | erase key | execOnKey key _ =>
    some key
  | clear | size | empty | forEach _ => none

inductive MapObservation (Key Value : Type*) where
  | found (value : Option Value)
  | flag (answer : Bool)
  /-- What is returned, or what the function of `execOnKey` is given. -/
  | value (value : Value)
  | count (number : Nat)
  | visited (entries : List (Key × Value))
  | nothing

abbrev OrdinaryMap (Key Value : Type*) := Relation (Prod.fst : Key × Value → Key)

namespace OrdinaryMap

def visit (map : OrdinaryMap Key Value) (order : Reordering (Key × Value)) : OrdinaryMap Key Value where
  rows := visitEntries func [] (order.apply map.rows)
  keyed := by
    rw [map_fst_visitEntries]
    exact ((order.perm map.rows).map Prod.fst).nodup_iff.mpr map.keyed

theorem rows_visit (map : OrdinaryMap Key Value) (order : Reordering (Key × Value)) :
    (visit func map order).rows = visitEntries func [] (order.apply map.rows) := rfl

variable [DecidableEq Key]

def find (map : OrdinaryMap Key Value) (key : Key) : Option Value := (map.lookup key).map Prod.snd

def assign (map : OrdinaryMap Key Value) (key : Key) (value : Value) : OrdinaryMap Key Value :=
  map.replaceInto (key, value)

def remove (map : OrdinaryMap Key Value) (key : Key) : OrdinaryMap Key Value :=
  map.deleteWhere fun entry => entry.1 = key

/-- What an operation leaves and what its caller observes; `order` is that of a traversal. -/
def perform [Inhabited Value] (map : OrdinaryMap Key Value) (order : Reordering (Key × Value)) :
    MapCall Key Value → OrdinaryMap Key Value × MapObservation Key Value
  | .find key => (map, .found (map.find key))
  | .contains key => (map, .flag (map.find key).isSome)
  | .subscript key =>
    ((map.find key).elim (map.assign key default) fun _ => map, .value ((map.find key).getD default))
  | .insertOrAssign key value => (map.assign key value, .nothing)
  | .emplace key value => ((map.find key).elim (map.assign key value) fun _ => map, .flag (map.find key).isNone)
  | .erase key => (map.remove key, .count (if (map.find key).isSome then 1 else 0))
  | .clear => (∅, .nothing)
  | .size => (map, .count map.rows.length)
  | .empty => (map, .flag map.rows.isEmpty)
  | .forEach func => (map.visit func order, .visited (order.apply map.rows))
  | .execOnKey key func =>
    (map.assign key (func ((map.find key).getD default)), .value ((map.find key).getD default))

/-- One operation after others, with what was observed so far. -/
def step [Inhabited Value] (state : OrdinaryMap Key Value × List (MapObservation Key Value))
    (event : MapCall Key Value × Reordering (Key × Value)) :
    OrdinaryMap Key Value × List (MapObservation Key Value) :=
  let (next, observation) := perform state.1 event.2 event.1
  (next, state.2 ++ [observation])

/-! ## The map as a partial function -/

theorem find_eq_some {map : OrdinaryMap Key Value} {key : Key} {value : Value} :
    map.find key = some value ↔ (key, value) ∈ map := by
  rw [find, Option.map_eq_some_iff]
  constructor
  · rintro ⟨⟨foundKey, foundValue⟩, found, rfl⟩
    obtain ⟨member, rfl⟩ := Relation.lookup_eq_some.mp found
    exact member
  · intro member
    exact ⟨(key, value), Relation.lookup_eq_some.mpr ⟨member, rfl⟩, rfl⟩

@[simp] theorem find_empty (key : Key) : find (∅ : OrdinaryMap Key Value) key = none := rfl

theorem find_assign (map : OrdinaryMap Key Value) (key other : Key) (value : Value) :
    (map.assign key value).find other = if other = key then some value else map.find other := by
  rw [find, assign, Relation.lookup_replaceInto]
  split <;> rfl

theorem find_remove (map : OrdinaryMap Key Value) (key other : Key) :
    (map.remove key).find other = if other = key then none else map.find other := by
  rw [find, remove, Relation.lookup_deleteKey]
  split <;> rfl

end OrdinaryMap

end AbilityFramework.Library
