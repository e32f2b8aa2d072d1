import Mathlib.Logic.Function.Basic
import AbilityFramework.Library.Relation

/-! # Sharded maps

A map split by a function of the key into shards, each behind a lock of its own.  An operation on one key
holds the lock of that key's shard from beginning to end and is one step; a traversal locks the shards one
after the other, so it is as many steps as there are shards.

`find` is the map's meaning as a partial function, and the operations are stated through it. -/

namespace AbilityFramework.Library

variable {Key Value : Type*} {count : Nat}

structure ShardedLockMap {Key : Type*} (Value : Type*) {count : Nat} (shardIndex : Key → Fin count) where
  shards : Fin count → Relation (Prod.fst : Key × Value → Key)
  placed : ∀ index, ∀ entry ∈ shards index, shardIndex entry.1 = index

namespace ShardedLockMap

variable {shardIndex : Key → Fin count}

def empty : ShardedLockMap Value shardIndex where
  shards := fun _ => ∅
  placed := fun _ entry member => absurd member (Relation.not_mem_empty entry)

instance : EmptyCollection (ShardedLockMap Value shardIndex) := ⟨empty⟩

/-- `for_each` on one shard. -/
def visit (map : ShardedLockMap Value shardIndex) (index : Fin count) : List (Key × Value) :=
  (map.shards index).rows

/-- `for_each`, when nothing happens between the shards. -/
def entries (map : ShardedLockMap Value shardIndex) : List (Key × Value) :=
  (List.finRange count).flatMap map.visit

/-- The keys of a shard are distinct. -/
theorem nodup_visit (map : ShardedLockMap Value shardIndex) (index : Fin count) :
    ((map.visit index).map Prod.fst).Nodup := (map.shards index).keyed

variable [DecidableEq Key]

def find (map : ShardedLockMap Value shardIndex) (key : Key) : Option Value :=
  ((map.shards (shardIndex key)).lookup key).map Prod.snd

def contains (map : ShardedLockMap Value shardIndex) (key : Key) : Bool := (map.find key).isSome

def erase (map : ShardedLockMap Value shardIndex) (key : Key) : ShardedLockMap Value shardIndex where
  shards := Function.update map.shards (shardIndex key)
    ((map.shards (shardIndex key)).deleteWhere fun entry => entry.1 = key)
  placed := by
    intro index entry member
    by_cases same : index = shardIndex key
    · rw [same, Function.update_self, Relation.mem_deleteWhere] at member
      rw [same]
      exact map.placed _ entry member.1
    · rw [Function.update_of_ne same] at member
      exact map.placed index entry member

/-- `exec_on_key`: a key that is not there gets the default value before the change. -/
def execOnKey [Inhabited Value] (map : ShardedLockMap Value shardIndex) (key : Key) (change : Value → Value) :
    ShardedLockMap Value shardIndex where
  shards := Function.update map.shards (shardIndex key)
    ((map.shards (shardIndex key)).replaceInto (key, change ((map.find key).getD default)))
  placed := by
    intro index entry member
    by_cases same : index = shardIndex key
    · rw [same, Function.update_self, Relation.mem_replaceInto] at member
      rw [same]
      rcases member with rfl | ⟨old, _⟩
      · rfl
      · exact map.placed _ entry old
    · rw [Function.update_of_ne same] at member
      exact map.placed index entry member

/-! ## The map as a partial function -/

theorem find_eq_some {map : ShardedLockMap Value shardIndex} {key : Key} {value : Value} :
    map.find key = some value ↔ (key, value) ∈ map.shards (shardIndex key) := by
  simp only [find, Option.map_eq_some_iff, Relation.lookup_eq_some]
  constructor
  · rintro ⟨⟨otherKey, otherValue⟩, ⟨member, rfl⟩, rfl⟩
    exact member
  · intro member
    exact ⟨(key, value), ⟨member, rfl⟩, rfl⟩

/-- A shard holds the entries of the map whose keys belong to it. -/
theorem mem_visit {map : ShardedLockMap Value shardIndex} {index : Fin count} {key : Key} {value : Value} :
    (key, value) ∈ map.visit index ↔ shardIndex key = index ∧ map.find key = some value := by
  rw [find_eq_some]
  constructor
  · intro member
    have placed : shardIndex key = index := map.placed index (key, value) member
    rw [placed]
    exact ⟨rfl, member⟩
  · rintro ⟨rfl, member⟩
    exact member

theorem mem_entries {map : ShardedLockMap Value shardIndex} {key : Key} {value : Value} :
    (key, value) ∈ map.entries ↔ map.find key = some value := by
  simp [entries, mem_visit]

@[simp] theorem find_empty (key : Key) : (∅ : ShardedLockMap Value shardIndex).find key = none := rfl

@[simp] theorem find_erase_self (map : ShardedLockMap Value shardIndex) (key : Key) :
    (map.erase key).find key = none := by
  rw [Option.eq_none_iff_forall_ne_some]
  intro value found
  rw [find_eq_some] at found
  simp [erase] at found

theorem find_erase_of_ne (map : ShardedLockMap Value shardIndex) {key other : Key} (different : other ≠ key) :
    (map.erase key).find other = map.find other := by
  apply Option.ext
  intro value
  rw [find_eq_some, find_eq_some]
  by_cases same : shardIndex other = shardIndex key
  · simp [erase, same, different]
  · simp [erase, Function.update_of_ne same]

theorem find_erase (map : ShardedLockMap Value shardIndex) (key other : Key) :
    (map.erase key).find other = if other = key then none else map.find other := by
  split
  · rename_i same
    rw [same, find_erase_self]
  · rename_i different
    exact map.find_erase_of_ne different

section ExecOnKey

variable [Inhabited Value]

@[simp] theorem find_execOnKey_self (map : ShardedLockMap Value shardIndex) (key : Key)
    (change : Value → Value) :
    (map.execOnKey key change).find key = some (change ((map.find key).getD default)) := by
  rw [find_eq_some]
  simp [execOnKey]

theorem find_execOnKey_of_ne (map : ShardedLockMap Value shardIndex) {key other : Key}
    (change : Value → Value) (different : other ≠ key) :
    (map.execOnKey key change).find other = map.find other := by
  apply Option.ext
  intro value
  rw [find_eq_some, find_eq_some]
  by_cases same : shardIndex other = shardIndex key
  · simp [execOnKey, same, different]
  · simp [execOnKey, Function.update_of_ne same]

theorem find_execOnKey (map : ShardedLockMap Value shardIndex) (key other : Key) (change : Value → Value) :
    (map.execOnKey key change).find other =
      if other = key then some (change ((map.find key).getD default)) else map.find other := by
  split
  · rename_i same
    rw [same, find_execOnKey_self]
  · rename_i different
    exact map.find_execOnKey_of_ne change different

end ExecOnKey

end ShardedLockMap

end AbilityFramework.Library
