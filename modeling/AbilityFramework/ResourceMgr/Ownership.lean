import AbilityFramework.Library.Relation
import AbilityFramework.Uuid

/-! # The CROwnership table

`resourcemgr/resource_mgr.cpp`: the table that records which ability occupies which ability or
device, and the statements `ResourceManager` runs on it.  The two `get_*_sharers`, the two
`get_*_owner`, the four `add_*` and the four `remove_*` functions differ only in the constants they
bind, so each group is one statement here and every member is that statement at its own constants.

`Held` reads the table as a relation between occupiers and occupied resources; the last section
says how each statement reads or changes it, and the rest of the development only uses those
lemmas. -/

namespace AbilityFramework.ResourceMgr

open Library

inductive OwnershipMode where
  | unique
  | shared
  deriving DecidableEq, Repr

/-- `KIND_ABILITY` and `KIND_DEVICE`. -/
inductive Kind where
  | ability
  | device
  deriving DecidableEq, Repr

structure CROwnership where
  parentId : Uuid
  parentKind : Kind
  parentAddress : String
  childId : Uuid
  childKind : Kind
  isShared : OwnershipMode
  deriving DecidableEq, Repr

/-- `PRIMARY KEY (parent_id, parent_kind, child_id, child_kind)`: the mode is not part of it. -/
def CROwnership.key (row : CROwnership) : Uuid × Kind × Uuid × Kind :=
  (row.parentId, row.parentKind, row.childId, row.childKind)

abbrev OwnershipTable := Relation CROwnership.key

structure OwnerInfo where
  id : Uuid
  position : String
  deriving DecidableEq, Repr

/-! ## Queries -/

/-- `SELECT … WHERE parent_kind = ? and child_id = ? and child_kind = ? and is_shared = ?`. -/
def selectOwnership (table : OwnershipTable) (parentKind : Kind) (childId : Uuid) (childKind : Kind)
    (mode : OwnershipMode) : List CROwnership :=
  table.select fun row =>
    row.parentKind = parentKind ∧ row.childId = childId ∧ row.childKind = childKind ∧ row.isShared = mode

/-- `db_execute_to_id_str_map`: the ids and addresses of the rows, the parent being the map's key. -/
def sharersOf (kind : Kind) (table : OwnershipTable) (childId : Uuid) : List (Uuid × String) :=
  (selectOwnership table kind childId kind .shared).map fun row => (row.parentId, row.parentAddress)

def ownerOf (kind : Kind) (table : OwnershipTable) (childId : Uuid) : Option OwnerInfo :=
  (selectOwnership table kind childId kind .unique).head?.map fun row =>
    ⟨row.parentId, row.parentAddress⟩

def getAbilitySharers : OwnershipTable → Uuid → List (Uuid × String) := sharersOf .ability

-- The parents it looks for are devices, while `addOwnership` only ever writes ability parents.
def getDeviceSharers : OwnershipTable → Uuid → List (Uuid × String) := sharersOf .device

def getAbilityOwner : OwnershipTable → Uuid → Option OwnerInfo := ownerOf .ability

def getDeviceOwner : OwnershipTable → Uuid → Option OwnerInfo := ownerOf .device

/-! ## Inserts -/

/-- `REPLACE INTO CROwnership … VALUES (?, "ability", ?, ?, ?, ?)`. -/
def addOwnership (childKind : Kind) (mode : OwnershipMode) (table : OwnershipTable) (id childId : Uuid)
    (position : String) : OwnershipTable :=
  table.replaceInto ⟨id, .ability, position, childId, childKind, mode⟩

def addAbilitySharers : OwnershipTable → Uuid → Uuid → String → OwnershipTable :=
  addOwnership .ability .shared

def addAbilityOwner : OwnershipTable → Uuid → Uuid → String → OwnershipTable :=
  addOwnership .ability .unique

/-! ## Deletes -/

/-- `_impl_remove_ownership`; the parent's kind is not in its WHERE clause. -/
def removeOwnership (childKind : Kind) (mode : OwnershipMode) (table : OwnershipTable)
    (parentId childId : Uuid) : OwnershipTable :=
  table.deleteWhere fun row =>
    row.parentId = parentId ∧ row.childId = childId ∧ row.childKind = childKind ∧ row.isShared = mode

def removeAbilitySharer : OwnershipTable → Uuid → Uuid → OwnershipTable := removeOwnership .ability .shared

def removeDeviceSharer : OwnershipTable → Uuid → Uuid → OwnershipTable := removeOwnership .device .shared

def removeAbilityOwner : OwnershipTable → Uuid → Uuid → OwnershipTable := removeOwnership .ability .unique

def removeDeviceOwner : OwnershipTable → Uuid → Uuid → OwnershipTable := removeOwnership .device .unique

/-! ## What the statements mean -/

/-- `holder`, of kind `parentKind`, occupies the resource `childId` of kind `childKind`. -/
def Held (table : OwnershipTable) (parentKind childKind : Kind) (childId holder : Uuid)
    (mode : OwnershipMode) : Prop :=
  ∃ row ∈ table, row.parentId = holder ∧ row.parentKind = parentKind ∧ row.childId = childId ∧
    row.childKind = childKind ∧ row.isShared = mode

variable {table : OwnershipTable} {parentKind kind childKind : Kind} {id childId holder resource : Uuid}
  {position : String} {mode held : OwnershipMode}

@[simp] theorem not_held_empty : ¬ Held ∅ parentKind childKind childId holder mode := by
  rintro ⟨row, member, _⟩
  exact Relation.not_mem_empty row member

theorem mem_sharersOf : (∃ address, (holder, address) ∈ sharersOf kind table childId) ↔
    Held table kind kind childId holder .shared := by
  simp only [sharersOf, selectOwnership, List.mem_map, Relation.mem_select, decide_eq_true_eq,
    Prod.mk.injEq, Held]
  constructor
  · rintro ⟨_, row, ⟨member, sameKind, sameChild, sameChildKind, sameMode⟩, sameId, _⟩
    exact ⟨row, member, sameId, sameKind, sameChild, sameChildKind, sameMode⟩
  · rintro ⟨row, member, sameId, sameKind, sameChild, sameChildKind, sameMode⟩
    exact ⟨row.parentAddress, row, ⟨member, sameKind, sameChild, sameChildKind, sameMode⟩, sameId, rfl⟩

theorem sharersOf_eq_nil : sharersOf kind table childId = [] ↔
    ∀ holder, ¬ Held table kind kind childId holder .shared := by
  simp only [← mem_sharersOf, List.eq_nil_iff_forall_not_mem, Prod.forall, not_exists]

theorem held_of_ownerOf {owner : OwnerInfo} (found : ownerOf kind table childId = some owner) :
    Held table kind kind childId owner.id .unique := by
  obtain ⟨row, first, rfl⟩ := Option.map_eq_some_iff.mp found
  have member := List.mem_of_mem_head? first
  simp only [selectOwnership, Relation.mem_select, decide_eq_true_eq] at member
  obtain ⟨member, sameKind, sameChild, sameChildKind, sameMode⟩ := member
  exact ⟨row, member, rfl, sameKind, sameChild, sameChildKind, sameMode⟩

theorem ownerOf_eq_none : ownerOf kind table childId = none ↔
    ∀ holder, ¬ Held table kind kind childId holder .unique := by
  simp only [ownerOf, Option.map_eq_none_iff, List.head?_eq_none_iff, selectOwnership,
    Relation.select_eq_nil, decide_eq_true_eq, Held]
  constructor
  · rintro none holder ⟨row, member, _, matches'⟩
    exact none row member matches'
  · intro none row member matches'
    exact none row.parentId ⟨row, member, rfl, matches'⟩

/-- The new row takes the place of the row its holder had on the resource, in either mode. -/
theorem held_addOwnership : Held (addOwnership childKind mode table id childId position)
      parentKind kind resource holder held ↔
    (holder = id ∧ parentKind = .ability ∧ resource = childId ∧ kind = childKind ∧ held = mode) ∨
      Held table parentKind kind resource holder held ∧
        ¬ (holder = id ∧ parentKind = .ability ∧ resource = childId ∧ kind = childKind) := by
  simp only [Held, addOwnership, Relation.mem_replaceInto, CROwnership.key, ne_eq, Prod.mk.injEq]
  constructor
  · rintro ⟨row, rfl | ⟨member, other⟩, rfl, rfl, rfl, rfl, rfl⟩
    · exact .inl ⟨rfl, rfl, rfl, rfl, rfl⟩
    · exact .inr ⟨⟨row, member, rfl, rfl, rfl, rfl, rfl⟩, other⟩
  · rintro (⟨rfl, rfl, rfl, rfl, rfl⟩ | ⟨⟨row, member, rfl, rfl, rfl, rfl, rfl⟩, other⟩)
    · exact ⟨_, .inl rfl, rfl, rfl, rfl, rfl, rfl⟩
    · exact ⟨row, .inr ⟨member, other⟩, rfl, rfl, rfl, rfl, rfl⟩

theorem held_removeOwnership : Held (removeOwnership childKind mode table id childId)
      parentKind kind resource holder held ↔
    Held table parentKind kind resource holder held ∧
      ¬ (holder = id ∧ resource = childId ∧ kind = childKind ∧ held = mode) := by
  simp only [Held, removeOwnership, Relation.mem_deleteWhere, decide_eq_true_eq]
  constructor
  · rintro ⟨row, ⟨member, other⟩, rfl, rfl, rfl, rfl, rfl⟩
    exact ⟨⟨row, member, rfl, rfl, rfl, rfl, rfl⟩, other⟩
  · rintro ⟨⟨row, member, rfl, rfl, rfl, rfl, rfl⟩, other⟩
    exact ⟨row, ⟨member, other⟩, rfl, rfl, rfl, rfl, rfl⟩

/-! ## Tables of abilities only -/

def AbilityRows (table : OwnershipTable) : Prop :=
  ∀ row ∈ table, row.parentKind = .ability ∧ row.childKind = .ability

theorem abilityRows_empty : AbilityRows ∅ := fun row member => absurd member (Relation.not_mem_empty row)

theorem AbilityRows.addOwnership (abilities : AbilityRows table) :
    AbilityRows (addOwnership .ability mode table id childId position) := by
  intro row member
  rw [ResourceMgr.addOwnership, Relation.mem_replaceInto] at member
  obtain rfl | ⟨member, _⟩ := member
  · exact ⟨rfl, rfl⟩
  · exact abilities row member

theorem AbilityRows.removeOwnership (abilities : AbilityRows table) :
    AbilityRows (removeOwnership childKind mode table id childId) := by
  intro row member
  rw [ResourceMgr.removeOwnership, Relation.mem_deleteWhere] at member
  exact abilities row member.1

end AbilityFramework.ResourceMgr
