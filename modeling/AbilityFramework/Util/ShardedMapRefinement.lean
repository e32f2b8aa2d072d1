import AbilityFramework.Library.OrdinaryMap
import AbilityFramework.Library.ShardedLockMap
import Mathlib.Data.Set.Card

/-! # A sharded map as one map

Every operation of `ShardedLockMap` computes the shard of its key for itself, and those on the whole map go through the
shards one after the other.  Whatever the hash function makes of the keys, what the operations let their callers observe
is what they would observe of one ordinary map (`behaves_as_one_map`); the order in which an ordinary map is traversed is
its own in both. -/

namespace AbilityFramework.Library.ShardedLockMap

variable {Key Value : Type*} {count : Nat} {shardIndex : Key → Fin count}

/-! ## The other operations -/

/-- Every shard is cleared. -/
def clear (_map : ShardedLockMap Value shardIndex) : ShardedLockMap Value shardIndex := empty

def size (map : ShardedLockMap Value shardIndex) : Nat :=
  (List.finRange count).foldl (fun total index => total + (map.shards index).rows.length) 0

/-- `empty()` -/
def isEmpty (map : ShardedLockMap Value shardIndex) : Bool :=
  (List.finRange count).all fun index => (map.shards index).rows.isEmpty

/-- `for_each` on one shard, after what has been seen of the shards before. -/
def visitShard (func : List (Key × Value) → Key → Value → Value) (order : Fin count → Reordering (Key × Value))
    (state : ShardedLockMap Value shardIndex × List (Key × Value)) (index : Fin count) :
    ShardedLockMap Value shardIndex × List (Key × Value) :=
  let visited := (order index).apply (state.1.shards index).rows
  have sameKeys : (visitEntries func state.2 visited).map Prod.fst = visited.map Prod.fst :=
    map_fst_visitEntries func state.2 visited
  have isOrder : visited.Perm (state.1.shards index).rows := (order index).perm _
  ({ shards := Function.update state.1.shards index
      ⟨visitEntries func state.2 visited, sameKeys ▸ (isOrder.map Prod.fst).nodup_iff.mpr (state.1.shards index).keyed⟩
     placed := by
      intro other entry member
      by_cases same : other = index
      · rw [same, Function.update_self] at member
        -- The values may have changed, the keys have not.
        have key : entry.1 ∈ visited.map Prod.fst := sameKeys ▸ List.mem_map_of_mem member
        obtain ⟨old, oldMember, sameKey⟩ := List.mem_map.mp key
        rw [← sameKey, same]
        exact state.1.placed index old (isOrder.mem_iff.mp oldMember)
      · rw [Function.update_of_ne same] at member
        exact state.1.placed other entry member },
    state.2 ++ visited)

/-- `for_each`, with what the function has been called with. -/
def forEach (map : ShardedLockMap Value shardIndex) (func : List (Key × Value) → Key → Value → Value)
    (order : Fin count → Reordering (Key × Value)) : ShardedLockMap Value shardIndex × List (Key × Value) :=
  (List.finRange count).foldl (visitShard func order) (map, [])

section Keys

variable [DecidableEq Key]

def insertOrAssign (map : ShardedLockMap Value shardIndex) (key : Key) (value : Value) :
    ShardedLockMap Value shardIndex where
  shards := Function.update map.shards (shardIndex key) ((map.shards (shardIndex key)).replaceInto (key, value))
  placed := by
    intro index entry member
    by_cases same : index = shardIndex key
    · rw [same, Function.update_self, Relation.mem_replaceInto] at member
      rw [same]
      rcases member with rfl | ⟨old, _⟩
      · rfl
      · exact map.placed _ entry old
    · rw [Function.update_of_ne same] at member
      exact map.placed index entry member

def emplace (map : ShardedLockMap Value shardIndex) (key : Key) (value : Value) :
    ShardedLockMap Value shardIndex × Bool :=
  if (map.find key).isSome then (map, false) else (map.insertOrAssign key value, true)

/-- `operator[]`, which inserts the default value for a key that is not there. -/
def subscript [Inhabited Value] (map : ShardedLockMap Value shardIndex) (key : Key) :
    ShardedLockMap Value shardIndex × Value :=
  match map.find key with
  | some value => (map, value)
  | none => (map.insertOrAssign key default, default)

/-- How many elements `erase` removes. -/
def eraseCount (map : ShardedLockMap Value shardIndex) (key : Key) : Nat := if map.contains key then 1 else 0

/-- What an operation leaves and what its caller observes; `order` is that of a traversal in each shard. -/
def perform [Inhabited Value] (map : ShardedLockMap Value shardIndex) (order : Fin count → Reordering (Key × Value)) :
    MapCall Key Value → ShardedLockMap Value shardIndex × MapObservation Key Value
  | .find key => (map, .found (map.find key))
  | .contains key => (map, .flag (map.contains key))
  | .subscript key => ((map.subscript key).1, .value (map.subscript key).2)
  | .insertOrAssign key value => (map.insertOrAssign key value, .nothing)
  | .emplace key value => ((map.emplace key value).1, .flag (map.emplace key value).2)
  | .erase key => (map.erase key, .count (map.eraseCount key))
  | .clear => (map.clear, .nothing)
  | .size => (map, .count map.size)
  | .empty => (map, .flag map.isEmpty)
  | .forEach func => ((map.forEach func order).1, .visited (map.forEach func order).2)
  | .execOnKey key func => (map.execOnKey key func, .value ((map.find key).getD default))

/-- One operation after others, with what was observed so far. -/
def step [Inhabited Value] (state : ShardedLockMap Value shardIndex × List (MapObservation Key Value))
    (event : MapCall Key Value × (Fin count → Reordering (Key × Value))) :
    ShardedLockMap Value shardIndex × List (MapObservation Key Value) :=
  let (next, observation) := perform state.1 event.2 event.1
  (next, state.2 ++ [observation])

end Keys

/-! ## The shards together -/

section Whole

variable {map : ShardedLockMap Value shardIndex}

theorem nodup_keys_entries (map : ShardedLockMap Value shardIndex) : (map.entries.map Prod.fst).Nodup := by
  rw [entries, List.map_flatMap, List.nodup_flatMap]
  refine ⟨fun index _ => map.nodup_visit index, (List.nodup_finRange count).imp fun {first second} differ => ?_⟩
  intro key firstKey secondKey
  obtain ⟨firstEntry, firstMember, rfl⟩ := List.mem_map.mp firstKey
  obtain ⟨secondEntry, secondMember, same⟩ := List.mem_map.mp secondKey
  apply differ
  -- A key of both shards has the index of each.
  rw [← map.placed first firstEntry firstMember, ← same, map.placed second secondEntry secondMember]

theorem size_eq_length_entries (map : ShardedLockMap Value shardIndex) : map.size = map.entries.length := by
  have total (indices : List (Fin count)) (start : Nat) :
      indices.foldl (fun total index => total + (map.shards index).rows.length) start =
        start + (indices.flatMap map.visit).length := by
    induction indices generalizing start with
    | nil => rfl
    | cons index indices inductionHypothesis =>
      rw [List.foldl_cons, inductionHypothesis, List.flatMap_cons, List.length_append, visit, Nat.add_assoc]
  rw [size, total, Nat.zero_add, entries]

theorem isEmpty_iff : map.isEmpty = true ↔ map.entries = [] := by
  simp [isEmpty, entries, visit]

/-- Every order of traversal visits the entries. -/
theorem perm_entries (map : ShardedLockMap Value shardIndex) (order : Fin count → Reordering (Key × Value)) :
    ((List.finRange count).flatMap fun index => (order index).apply (map.shards index).rows).Perm map.entries :=
  List.Perm.flatMap_left _ fun index _ => (order index).perm _

/-- After some of the shards: what has been seen, which shards are as before, and what the others hold. -/
theorem foldl_visitShard (func : List (Key × Value) → Key → Value → Value) (order : Fin count → Reordering (Key × Value))
    {indices : List (Fin count)} (distinct : indices.Nodup) :
    let after := indices.foldl (visitShard func order) (map, [])
    after.2 = indices.flatMap (fun index => (order index).apply (map.shards index).rows) ∧
      (∀ index, index ∉ indices → after.1.shards index = map.shards index) ∧
      ∀ entry, entry ∈ visitEntries func [] after.2 ↔ ∃ index ∈ indices, entry ∈ after.1.shards index := by
  induction indices using List.reverseRecOn with
  | nil => simp [visitEntries]
  | append_singleton indices index inductionHypothesis =>
    obtain ⟨earlierDistinct, _, apart⟩ := List.nodup_append.mp distinct
    have isNew : index ∉ indices := fun member => apart index member index (List.mem_singleton_self index) rfl
    obtain ⟨seen, untouched, holds⟩ := inductionHypothesis earlierDistinct
    intro after
    set before := indices.foldl (visitShard func order) (map, []) with isBefore
    -- The last shard is visited as it was at the beginning, since the others leave it alone.
    have isAfter : after = visitShard func order before index := List.foldl_concat ..
    have same : before.1.shards index = map.shards index := untouched index isNew
    have seenAfter : after.2 = before.2 ++ (order index).apply (map.shards index).rows := by
      rw [isAfter, ← same]
      rfl
    have shardAfter : ∀ entry, entry ∈ after.1.shards index ↔
        entry ∈ visitEntries func before.2 ((order index).apply (map.shards index).rows) := by
      intro entry
      rw [isAfter, ← same]
      simp only [visitShard, Function.update_self]
      exact Iff.rfl
    have otherAfter : ∀ other, other ≠ index → after.1.shards other = before.1.shards other := by
      intro other differs
      rw [isAfter]
      exact Function.update_of_ne differs ..
    refine ⟨?_, fun other notVisited => ?_, fun entry => ?_⟩
    · rw [seenAfter, seen, List.flatMap_append, List.flatMap_singleton]
    · rw [List.mem_append, not_or, List.mem_singleton] at notVisited
      rw [otherAfter other notVisited.2, untouched other notVisited.1]
    · rw [seenAfter, visitEntries_append, List.mem_append, holds, List.nil_append, ← shardAfter]
      simp only [List.mem_append, List.mem_singleton, or_and_right, exists_or, exists_eq_left]
      refine or_congr_left (exists_congr fun other => and_congr_right fun visited => ?_)
      rw [otherAfter other fun isIndex => isNew (isIndex ▸ visited)]

theorem forEach_snd (func : List (Key × Value) → Key → Value → Value) (order : Fin count → Reordering (Key × Value)) :
    (map.forEach func order).2.Perm map.entries := by
  rw [forEach, (foldl_visitShard func order (List.nodup_finRange count)).1]
  exact map.perm_entries order

theorem mem_entries_forEach (func : List (Key × Value) → Key → Value → Value)
    (order : Fin count → Reordering (Key × Value)) {entry : Key × Value} :
    entry ∈ (map.forEach func order).1.entries ↔ entry ∈ visitEntries func [] (map.forEach func order).2 := by
  rw [forEach, (foldl_visitShard func order (List.nodup_finRange count)).2.2]
  simp only [entries, List.mem_flatMap]
  exact Iff.rfl

end Whole

/-! ## One map -/

section Refinement

variable [DecidableEq Key] {map : ShardedLockMap Value shardIndex} {ordinary : OrdinaryMap Key Value}

def Represents (map : ShardedLockMap Value shardIndex) (ordinary : OrdinaryMap Key Value) : Prop :=
  ∀ key, map.find key = ordinary.find key

theorem find_insertOrAssign (map : ShardedLockMap Value shardIndex) (key other : Key) (value : Value) :
    (map.insertOrAssign key value).find other = if other = key then some value else map.find other := by
  refine Option.ext fun found => ?_
  rw [find_eq_some]
  split
  · rename_i same
    subst same
    simp [insertOrAssign, eq_comm]
  · rename_i different
    rw [find_eq_some]
    by_cases sameShard : shardIndex other = shardIndex key
    · simp [insertOrAssign, sameShard, different]
    · simp [insertOrAssign, Function.update_of_ne sameShard]

/-- `exec_on_key` leaves what an assignment of the changed value leaves. -/
theorem find_execOnKey_eq [Inhabited Value] (key other : Key) (change : Value → Value) :
    (map.execOnKey key change).find other =
      (map.insertOrAssign key (change ((map.find key).getD default))).find other := by
  rw [find_execOnKey, find_insertOrAssign]

theorem represents_iff : map.Represents ordinary ↔ ∀ entry, entry ∈ map.entries ↔ entry ∈ ordinary := by
  constructor
  · rintro represents ⟨key, value⟩
    rw [mem_entries, represents key, OrdinaryMap.find_eq_some]
  · intro same key
    refine Option.ext fun value => ?_
    rw [← mem_entries, same, OrdinaryMap.find_eq_some]

theorem Represents.perm (represents : map.Represents ordinary) : map.entries.Perm ordinary.rows :=
  (List.perm_ext_iff_of_nodup (map.nodup_keys_entries.of_map _) (ordinary.keyed.of_map _)).mpr
    (represents_iff.mp represents)

theorem represents_empty : (∅ : ShardedLockMap Value shardIndex).Represents ∅ := fun _ => rfl

theorem Represents.assign (represents : map.Represents ordinary) (key : Key) (value : Value) :
    (map.insertOrAssign key value).Represents (ordinary.assign key value) := by
  intro other
  rw [find_insertOrAssign, OrdinaryMap.find_assign, represents other]

theorem Represents.erase (represents : map.Represents ordinary) (key : Key) :
    (map.erase key).Represents (ordinary.remove key) := by
  intro other
  rw [find_erase, OrdinaryMap.find_remove, represents other]

theorem Represents.clear (map : ShardedLockMap Value shardIndex) : map.clear.Represents ∅ := fun _ => rfl

theorem Represents.size (represents : map.Represents ordinary) : map.size = ordinary.rows.length := by
  rw [size_eq_length_entries, represents.perm.length_eq]

theorem Represents.isEmpty (represents : map.Represents ordinary) : map.isEmpty = ordinary.rows.isEmpty := by
  rw [Bool.eq_iff_iff, isEmpty_iff, List.isEmpty_iff]
  constructor
  · intro noEntry
    exact List.nil_perm.mp (noEntry ▸ represents.perm)
  · intro noRow
    exact List.perm_nil.mp (noRow ▸ represents.perm)

/-- The ordinary map is traversed in the order the shards are. -/
theorem Represents.forEach (represents : map.Represents ordinary) (func : List (Key × Value) → Key → Value → Value)
    (order : Fin count → Reordering (Key × Value)) :
    ∃ ordinaryOrder : Reordering (Key × Value),
      (map.forEach func order).2 = ordinaryOrder.apply ordinary.rows ∧
        (map.forEach func order).1.Represents (ordinary.visit func ordinaryOrder) := by
  have isOrder : (map.forEach func order).2.Perm ordinary.rows := (forEach_snd func order).trans represents.perm
  refine ⟨Reordering.towards (map.forEach func order).2, (Reordering.towards_apply isOrder).symm, ?_⟩
  rw [represents_iff]
  intro entry
  rw [mem_entries_forEach, Relation.mem_def, OrdinaryMap.rows_visit, Reordering.towards_apply isOrder]

theorem Represents.perform [Inhabited Value] (represents : map.Represents ordinary)
    (order : Fin count → Reordering (Key × Value)) (call : MapCall Key Value) :
    ∃ ordinaryOrder, (map.perform order call).2 = (ordinary.perform ordinaryOrder call).2 ∧
      (map.perform order call).1.Represents (ordinary.perform ordinaryOrder call).1 := by
  have anyOrder : Reordering (Key × Value) := ⟨id, List.Perm.refl⟩
  cases call with
  | find key => exact ⟨anyOrder, congrArg MapObservation.found (represents key), represents⟩
  | contains key =>
    refine ⟨anyOrder, ?_, represents⟩
    simp only [ShardedLockMap.perform, OrdinaryMap.perform, contains, represents key]
  | subscript key =>
    refine ⟨anyOrder, ?_⟩
    simp only [ShardedLockMap.perform, OrdinaryMap.perform, subscript, ← represents key]
    cases map.find key with
    | none => exact ⟨rfl, represents.assign key default⟩
    | some value => exact ⟨rfl, represents⟩
  | insertOrAssign key value => exact ⟨anyOrder, rfl, represents.assign key value⟩
  | emplace key value =>
    refine ⟨anyOrder, ?_⟩
    simp only [ShardedLockMap.perform, OrdinaryMap.perform, emplace, ← represents key]
    cases map.find key with
    | none => exact ⟨rfl, represents.assign key value⟩
    | some value => exact ⟨rfl, represents⟩
  | erase key =>
    refine ⟨anyOrder, ?_, represents.erase key⟩
    rw [ShardedLockMap.perform, OrdinaryMap.perform, eraseCount, contains, ← represents key]
  | clear => exact ⟨anyOrder, rfl, Represents.clear map⟩
  | size => exact ⟨anyOrder, congrArg MapObservation.count represents.size, represents⟩
  | empty => exact ⟨anyOrder, congrArg MapObservation.flag represents.isEmpty, represents⟩
  | forEach func =>
    obtain ⟨ordinaryOrder, visited, after⟩ := represents.forEach func order
    exact ⟨ordinaryOrder, congrArg MapObservation.visited visited, after⟩
  | execOnKey key func =>
    refine ⟨anyOrder, ?_, fun other => ?_⟩
    · simp only [ShardedLockMap.perform, OrdinaryMap.perform, ← represents key]
    · simp only [ShardedLockMap.perform, OrdinaryMap.perform, find_execOnKey_eq, ← represents key]
      exact represents.assign key _ other

end Refinement

end AbilityFramework.Library.ShardedLockMap

namespace AbilityFramework.Util

open Library Library.Runs Library.ShardedLockMap

variable {Key Value : Type*} {count : Nat}

/-- `get_shard_index` -/
def getShardIndex (hash : Key → UInt64) (shardCount : Nat) [NeZero shardCount] (key : Key) : Fin shardCount :=
  ⟨(hash key).toNat % shardCount, Nat.mod_lt _ (NeZero.pos shardCount)⟩

variable [DecidableEq Key]

section Whole

variable {shardIndex : Key → Fin count} {map : ShardedLockMap Value shardIndex}

theorem size_eq_ncard (map : ShardedLockMap Value shardIndex) : map.size = {key | map.contains key = true}.ncard := by
  have isSet : {key | map.contains key = true} = ((map.entries.map Prod.fst).toFinset : Set Key) := by
    ext key
    simp [contains, Option.isSome_iff_exists, mem_entries]
  rw [isSet, Set.ncard_coe_finset, List.toFinset_card_of_nodup map.nodup_keys_entries, List.length_map,
    size_eq_length_entries]

/-- An operation on one key leaves what the map has for the others. -/
theorem find_perform_of_ne [Inhabited Value] {order : Fin count → Reordering (Key × Value)} {call : MapCall Key Value}
    {key other : Key} (isOn : call.key? = some key) (differs : other ≠ key) :
    (map.perform order call).1.find other = map.find other := by
  cases call with
  | clear | size | empty | forEach => cases isOn
  | find | contains => rfl
  | subscript =>
    obtain rfl := Option.some.inj isOn
    simp only [perform, subscript]
    split
    · rfl
    · rw [find_insertOrAssign, if_neg differs]
  | insertOrAssign =>
    obtain rfl := Option.some.inj isOn
    rw [perform, find_insertOrAssign, if_neg differs]
  | emplace =>
    obtain rfl := Option.some.inj isOn
    simp only [perform, emplace]
    split
    · rfl
    · rw [find_insertOrAssign, if_neg differs]
  | erase =>
    obtain rfl := Option.some.inj isOn
    rw [perform, find_erase, if_neg differs]
  | execOnKey =>
    obtain rfl := Option.some.inj isOn
    rw [perform, find_execOnKey, if_neg differs]

end Whole

/-- Where the entries are, and what the operations on the whole map and those on one key do. -/
structure WellSharded [Inhabited Value] (hash : Key → UInt64) [NeZero count]
    (map : ShardedLockMap Value (getShardIndex hash count)) : Prop where
  placed : ∀ index, ∀ entry ∈ map.shards index, index.val = (hash entry.1).toNat % count
  size : map.size = {key | map.contains key = true}.ncard
  forEach : ∀ func order, ((map.forEach func order).2.map Prod.fst).Nodup ∧
    ∀ key value, (key, value) ∈ (map.forEach func order).2 ↔ map.find key = some value
  frame : ∀ order call key, call.key? = some key → ∀ other, other ≠ key →
    (map.perform order call).1.find other = map.find other

theorem wellSharded [Inhabited Value] (hash : Key → UInt64) [NeZero count]
    (map : ShardedLockMap Value (getShardIndex hash count)) : WellSharded hash map where
  placed index entry member := (congrArg Fin.val (map.placed index entry member)).symm
  size := size_eq_ncard map
  forEach func order := by
    refine ⟨((forEach_snd func order).map Prod.fst).nodup_iff.mpr map.nodup_keys_entries, fun key value => ?_⟩
    rw [(forEach_snd func order).mem_iff, mem_entries]
  frame _ _ _ isOn _ differs := find_perform_of_ne isOn differs

/-- Whatever the hash function and the number of shards, a sequence of operations is answered as by one ordinary map,
which is traversed in some order. -/
theorem behaves_as_one_map [Inhabited Value] (hash : Key → UInt64) [NeZero count]
    (events : List (MapCall Key Value × (Fin count → Reordering (Key × Value)))) :
    let sharded := run (@step Key Value count (getShardIndex hash count) _ _) (∅, []) events
    WellSharded hash sharded.1 ∧
      ∃ ordinaryEvents : List (MapCall Key Value × Reordering (Key × Value)),
        ordinaryEvents.map Prod.fst = events.map Prod.fst ∧
          sharded.2 = (run OrdinaryMap.step (∅, []) ordinaryEvents).2 ∧
            ∀ key, sharded.1.find key = OrdinaryMap.find (run OrdinaryMap.step (∅, []) ordinaryEvents).1 key := by
  refine ⟨wellSharded hash _, ?_⟩
  refine run_history (fun (sharded : ShardedLockMap Value (getShardIndex hash count) × List (MapObservation Key Value))
    (events : List (MapCall Key Value × (Fin count → Reordering (Key × Value)))) =>
      ∃ ordinaryEvents : List (MapCall Key Value × Reordering (Key × Value)),
        ordinaryEvents.map Prod.fst = events.map Prod.fst ∧
          sharded.2 = (run OrdinaryMap.step (∅, []) ordinaryEvents).2 ∧
            sharded.1.Represents (run OrdinaryMap.step (∅, []) ordinaryEvents).1)
    ?_ ⟨[], rfl, rfl, represents_empty⟩ events
  rintro ⟨map, observations⟩ events ⟨call, order⟩ ⟨ordinaryEvents, sameCalls, sameObservations, represents⟩
  obtain ⟨ordinaryOrder, sameObservation, after⟩ := represents.perform order call
  refine ⟨ordinaryEvents ++ [(call, ordinaryOrder)], ?_, ?_, ?_⟩
  · rw [List.map_append, List.map_append, sameCalls, List.map_singleton, List.map_singleton]
  · rw [run_concat]
    exact congrArg₂ (· ++ [·]) sameObservations sameObservation
  · rw [run_concat]
    exact after

/-- Two keys of one shard, and a traversal from the back. -/
def collidingEvents : List (MapCall UInt64 Nat × (Fin 4 → Reordering (UInt64 × Nat))) :=
  [(.insertOrAssign 1 10, fun _ => ⟨id, List.Perm.refl⟩), (.emplace 5 50, fun _ => ⟨id, List.Perm.refl⟩),
    (.forEach fun seen _ value => seen.length + value, fun _ => ⟨List.reverse, List.reverse_perm⟩),
    (.execOnKey 1 (· + 1), fun _ => ⟨id, List.Perm.refl⟩), (.size, fun _ => ⟨id, List.Perm.refl⟩)]

theorem behaves_as_one_map_colliding :
    let sharded := run (@step UInt64 Nat 4 (getShardIndex id 4) _ _) (∅, []) collidingEvents
    WellSharded id sharded.1 ∧
      ∃ ordinaryEvents : List (MapCall UInt64 Nat × Reordering (UInt64 × Nat)),
        ordinaryEvents.map Prod.fst = collidingEvents.map Prod.fst ∧
          sharded.2 = (run OrdinaryMap.step (∅, []) ordinaryEvents).2 ∧
            ∀ key, sharded.1.find key = OrdinaryMap.find (run OrdinaryMap.step (∅, []) ordinaryEvents).1 key :=
  behaves_as_one_map id collidingEvents

/-- The traversal comes to the second key first. -/
example : (run (@step UInt64 Nat 4 (getShardIndex id 4) _ _) (∅, []) collidingEvents).1.find 1 = some 12 := by decide

end AbilityFramework.Util
