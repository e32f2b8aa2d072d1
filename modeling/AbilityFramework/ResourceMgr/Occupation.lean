import AbilityFramework.ResourceMgr.AbilityCR
import AbilityFramework.ResourceMgr.Ownership

/-! # Occupying abilities and devices

`ResourceManager::occupy_ability`, `occupy_device`, `unoccupy_ability` and `unoccupy_device`.
The functions read other tables (does the id exist, on which node does it live) and may forward the
request to another node; `Catalogue` is what those reads and the peer answer at the moment of a call.
The ownership table is passed explicitly: each function gives its result together with the table
it leaves. -/

namespace AbilityFramework.ResourceMgr

/-- What a C++ function of this file can throw through its caller. -/
inductive Exception where
  /-- `std::bad_optional_access`, from `get_device_cr(id).value()` -/
  | badOptionalAccess
  /-- `nlohmann::json::parse_error`, from the reply of a peer -/
  | parseError
  deriving DecidableEq, Repr

/-- `send_post_request`, and what `json["result"]` of the parsed reply says. -/
inductive PostReply where
  | failed
  | unparsable
  | result (success : Bool)
  deriving DecidableEq, Repr

/-- The requests a node forwards, with the fields of their JSON payloads. -/
inductive PeerRequest where
  | occupyAbility (occupyAbilityId : Uuid) (occupyAbilityPosition : String) (occupiedAbilityId : Uuid)
      (mode : OwnershipMode)
  | occupyDevice (occupyDeviceId : Uuid) (occupyDevicePosition : String) (occupiedDeviceId : Uuid)
      (mode : OwnershipMode)
  | unoccupyAbility (occupyAbilityId occupiedAbilityId : Uuid) (mode : OwnershipMode)
  | unoccupyDevice (occupyDeviceId occupiedDeviceId : Uuid) (mode : OwnershipMode)
  deriving DecidableEq, Repr

structure DeviceCR where
  position : String
  deriving DecidableEq, Repr

structure Catalogue where
  judgeAbilityExist : Uuid → Bool
  resolveAbilityCrById : Uuid → Option AbilityCR
  /-- True of every id in the source: it returns at the first row of `SELECT exists(…)`, which always
  has one. -/
  judgeDeviceExist : Uuid → Bool
  getDeviceCr : Uuid → Option DeviceCR
  isLocalCr : String → Bool
  sendPostRequest : String → PeerRequest → PostReply

/-- `expected<void, std::string>`, unless an exception escapes. -/
abbrev Expected := Except Exception (Except String Unit)

/-- The local part of `occupy_ability` and `occupy_device`, after the owner query.  The two agree in it
word for word: the sharers are looked up, and both inserts made, among the abilities. -/
def occupyLocal (owner : Option OwnerInfo) (table : OwnershipTable) (requester : Uuid) (position : String)
    (target : Uuid) (mode : OwnershipMode) : Expected × OwnershipTable :=
  match owner with
  | some owner =>
    if owner.id = requester then (.ok (.ok ()), table)
    else match mode with
    | .shared => (.ok (.error "can't add sharers to unique object"), table)
    | .unique => (.ok (.error "can't add owner to unique object, it is already occupied"), table)
  | none =>
    let sharers := getAbilitySharers table target
    if !sharers.isEmpty && mode = .unique then (.ok (.error "can't add owner to shared object"), table)
    else match mode with
    | .shared =>
      if sharers.any (fun sharer => sharer.1 = requester) then (.ok (.ok ()), table)
      else (.ok (.ok ()), addAbilitySharers table requester target position)
    | .unique => (.ok (.ok ()), addAbilityOwner table requester target position)

/-! ## Abilities -/

def sendHttpOccupyRequest (catalogue : Catalogue) (position : String) (occupyAbilityId : Uuid)
    (occupyAbilityPosition : String) (occupiedAbilityId : Uuid) (mode : OwnershipMode) : Expected :=
  match catalogue.sendPostRequest position
      (.occupyAbility occupyAbilityId occupyAbilityPosition occupiedAbilityId mode) with
  | .failed => .ok (.error "post error")
  | .unparsable => .error .parseError
  | .result true => .ok (.ok ())
  | .result false => .ok (.error "remote occupy ability error")

def occupyAbility (catalogue : Catalogue) (table : OwnershipTable) (occupyAbilityId : Uuid)
    (position : String) (occupiedAbilityId : Uuid) (mode : OwnershipMode) : Expected × OwnershipTable :=
  if !catalogue.judgeAbilityExist occupiedAbilityId then
    (.ok (.error "can't occupy an ability that does not exist"), table)
  else match (catalogue.resolveAbilityCrById occupiedAbilityId).bind AbilityCR.spec with
  | none => (.ok (.error s!"ability cr spec not available for {occupiedAbilityId}"), table)
  | some spec =>
    if !catalogue.isLocalCr spec.position then
      (sendHttpOccupyRequest catalogue spec.position occupyAbilityId position occupiedAbilityId mode, table)
    else
      occupyLocal (getAbilityOwner table occupiedAbilityId) table occupyAbilityId position occupiedAbilityId mode

def unoccupyAbility (catalogue : Catalogue) (table : OwnershipTable)
    (occupyAbilityId occupiedAbilityId : Uuid) (mode : OwnershipMode) :
    Except Exception Bool × OwnershipTable :=
  if !catalogue.judgeAbilityExist occupiedAbilityId then (.ok false, table)
  else match (catalogue.resolveAbilityCrById occupiedAbilityId).bind AbilityCR.spec with
  | none => (.ok false, table)
  | some spec =>
    if catalogue.isLocalCr spec.position then
      match mode with
      | .shared => (.ok true, removeAbilitySharer table occupyAbilityId occupiedAbilityId)
      | .unique => (.ok true, removeAbilityOwner table occupyAbilityId occupiedAbilityId)
    else match catalogue.sendPostRequest spec.position
        (.unoccupyAbility occupyAbilityId occupiedAbilityId mode) with
    | .failed => (.ok false, table)
    | .unparsable => (.error .parseError, table)
    | .result success => (.ok success, table)

/-! ## Devices -/

def occupyRemoteDevice (catalogue : Catalogue) (cr : DeviceCR) (occupyDeviceId : Uuid) (position : String)
    (occupiedDeviceId : Uuid) (mode : OwnershipMode) : Expected :=
  match catalogue.sendPostRequest cr.position
      (.occupyDevice occupyDeviceId position occupiedDeviceId mode) with
  | .failed => .ok (.error "post error")
  | .unparsable => .error .parseError
  | .result true => .ok (.ok ())
  | .result false => .ok (.error "remote occupy device error")

def occupyDevice (catalogue : Catalogue) (table : OwnershipTable) (occupyDeviceId : Uuid)
    (position : String) (occupiedDeviceId : Uuid) (mode : OwnershipMode) : Expected × OwnershipTable :=
  if !catalogue.judgeDeviceExist occupiedDeviceId then
    (.ok (.error "can't occupy a device that does not exist"), table)
  else match catalogue.getDeviceCr occupiedDeviceId with
  | none => (.error .badOptionalAccess, table)
  | some cr =>
    if !catalogue.isLocalCr cr.position then
      (occupyRemoteDevice catalogue cr occupyDeviceId position occupiedDeviceId mode, table)
    else
      occupyLocal (getDeviceOwner table occupiedDeviceId) table occupyDeviceId position occupiedDeviceId mode

def unoccupyDevice (catalogue : Catalogue) (table : OwnershipTable)
    (occupyDeviceId occupiedDeviceId : Uuid) (mode : OwnershipMode) :
    Except Exception Bool × OwnershipTable :=
  if !catalogue.judgeDeviceExist occupiedDeviceId then (.ok false, table)
  else match catalogue.getDeviceCr occupiedDeviceId with
  | none => (.error .badOptionalAccess, table)
  | some cr =>
    if catalogue.isLocalCr cr.position then
      match mode with
      | .shared => (.ok true, removeDeviceSharer table occupyDeviceId occupiedDeviceId)
      | .unique => (.ok true, removeDeviceOwner table occupyDeviceId occupiedDeviceId)
    else match catalogue.sendPostRequest cr.position
        (.unoccupyDevice occupyDeviceId occupiedDeviceId mode) with
    | .failed => (.ok false, table)
    | .unparsable => (.error .parseError, table)
    | .result success => (.ok success, table)

/-! ## Calls -/

/-- The arguments of a call, with what the other tables and the peers answer when it is made. -/
structure OccupationCall where
  catalogue : Catalogue
  requester : Uuid
  position : String
  target : Uuid
  mode : OwnershipMode

namespace OccupationCall

def occupyAbility (call : OccupationCall) (table : OwnershipTable) : Expected × OwnershipTable :=
  ResourceMgr.occupyAbility call.catalogue table call.requester call.position call.target call.mode

def unoccupyAbility (call : OccupationCall) (table : OwnershipTable) :
    Except Exception Bool × OwnershipTable :=
  ResourceMgr.unoccupyAbility call.catalogue table call.requester call.target call.mode

def occupyDevice (call : OccupationCall) (table : OwnershipTable) : Expected × OwnershipTable :=
  ResourceMgr.occupyDevice call.catalogue table call.requester call.position call.target call.mode

def unoccupyDevice (call : OccupationCall) (table : OwnershipTable) :
    Except Exception Bool × OwnershipTable :=
  ResourceMgr.unoccupyDevice call.catalogue table call.requester call.target call.mode

end OccupationCall

/-! ## Local resources -/

/-- The id names an existing ability whose CR places it on this node. -/
def Catalogue.LocalAbility (catalogue : Catalogue) (id : Uuid) : Prop :=
  catalogue.judgeAbilityExist id = true ∧
    ∃ spec, (catalogue.resolveAbilityCrById id).bind AbilityCR.spec = some spec ∧
      catalogue.isLocalCr spec.position = true

def Catalogue.LocalDevice (catalogue : Catalogue) (id : Uuid) : Prop :=
  catalogue.judgeDeviceExist id = true ∧
    ∃ cr, catalogue.getDeviceCr id = some cr ∧ catalogue.isLocalCr cr.position = true

def localCr : AbilityCR where
  id := 0
  metadata := ⟨"local"⟩
  spec := some ⟨"pkg", "1.0.0", "Ability", "localhost", none, none, none⟩
  runInfo := none

/-- A node on which every id exists and is local. -/
def oneNode : Catalogue where
  judgeAbilityExist _ := true
  resolveAbilityCrById id := some { localCr with id := id }
  judgeDeviceExist _ := true
  getDeviceCr _ := some ⟨"localhost"⟩
  isLocalCr position := position == "localhost"
  sendPostRequest _ _ := .failed

variable {call : OccupationCall} {table : OwnershipTable}

/-- On another node an occupation leaves this node's table as it is. -/
theorem occupyAbility_elsewhere (elsewhere : ¬ call.catalogue.LocalAbility call.target) :
    (call.occupyAbility table).2 = table := by
  unfold OccupationCall.occupyAbility occupyAbility
  cases exist : call.catalogue.judgeAbilityExist call.target with
  | false => rfl
  | true =>
    simp only [Bool.not_true, Bool.false_eq_true, if_false]
    cases resolved : (call.catalogue.resolveAbilityCrById call.target).bind AbilityCR.spec with
    | none => rfl
    | some spec =>
      have remote : call.catalogue.isLocalCr spec.position = false := by
        rw [← Bool.not_eq_true]
        exact fun isLocal => elsewhere ⟨exist, spec, resolved, isLocal⟩
      simp only [remote, Bool.not_false, if_true]

theorem occupyAbility_local (isLocal : call.catalogue.LocalAbility call.target) :
    call.occupyAbility table = occupyLocal (getAbilityOwner table call.target) table call.requester
      call.position call.target call.mode := by
  obtain ⟨exist, spec, resolved, isLocal⟩ := isLocal
  simp only [OccupationCall.occupyAbility, occupyAbility, exist, resolved, isLocal, Bool.not_true,
    Bool.false_eq_true, if_false]

theorem unoccupyAbility_local (isLocal : call.catalogue.LocalAbility call.target) :
    call.unoccupyAbility table =
      (.ok true, removeOwnership .ability call.mode table call.requester call.target) := by
  obtain ⟨exist, spec, resolved, isLocal⟩ := isLocal
  simp only [OccupationCall.unoccupyAbility, unoccupyAbility, exist, resolved, isLocal, Bool.not_true,
    Bool.false_eq_true, if_false, if_true]
  cases call.mode <;> rfl

theorem occupyDevice_local (isLocal : call.catalogue.LocalDevice call.target) :
    call.occupyDevice table = occupyLocal (getDeviceOwner table call.target) table call.requester
      call.position call.target call.mode := by
  obtain ⟨exist, cr, found, isLocal⟩ := isLocal
  simp only [OccupationCall.occupyDevice, occupyDevice, exist, found, isLocal, Bool.not_true,
    Bool.false_eq_true, if_false]

theorem unoccupyDevice_local (isLocal : call.catalogue.LocalDevice call.target) :
    call.unoccupyDevice table =
      (.ok true, removeOwnership .device call.mode table call.requester call.target) := by
  obtain ⟨exist, cr, found, isLocal⟩ := isLocal
  simp only [OccupationCall.unoccupyDevice, unoccupyDevice, exist, found, isLocal, Bool.not_true,
    Bool.false_eq_true, if_false, if_true]
  cases call.mode <;> rfl

/-! ## The decision -/

theorem occupyLocal_some (owner : OwnerInfo) (table : OwnershipTable) (requester : Uuid)
    (position : String) (target : Uuid) (mode : OwnershipMode) :
    owner.id = requester ∧
        occupyLocal (some owner) table requester position target mode = (.ok (.ok ()), table) ∨
      owner.id ≠ requester ∧ ∃ message,
        occupyLocal (some owner) table requester position target mode = (.ok (.error message), table) := by
  by_cases same : owner.id = requester
  · exact .inl ⟨same, by simp only [occupyLocal, same, if_true]⟩
  · refine .inr ⟨same, ?_⟩
    simp only [occupyLocal, same, if_false]
    cases mode with
    | shared => exact ⟨_, rfl⟩
    | unique => exact ⟨_, rfl⟩

/-- Without an owner, a unique request is refused while there are sharers, a sharer is let in again,
and any other request writes its row. -/
theorem occupyLocal_none (table : OwnershipTable) (requester : Uuid) (position : String) (target : Uuid)
    (mode : OwnershipMode) :
    (mode = .unique ∧ (∃ sharer, Held table .ability .ability target sharer .shared) ∧
        ∃ message, occupyLocal none table requester position target mode = (.ok (.error message), table)) ∨
    (mode = .shared ∧ Held table .ability .ability target requester .shared ∧
        occupyLocal none table requester position target mode = (.ok (.ok ()), table)) ∨
    ((mode = .shared ∧ ¬ Held table .ability .ability target requester .shared ∨
        mode = .unique ∧ ∀ sharer, ¬ Held table .ability .ability target sharer .shared) ∧
      occupyLocal none table requester position target mode =
        (.ok (.ok ()), addOwnership .ability mode table requester target position)) := by
  cases mode with
  | shared =>
    simp only [occupyLocal, reduceCtorEq, decide_false, Bool.and_false, Bool.false_eq_true, if_false]
    -- `sharers.find(id) != sharers.end()` as a fact about the table.
    have joined_iff : (getAbilitySharers table target).any (fun sharer => sharer.1 = requester) = true ↔
        Held table .ability .ability target requester .shared := by
      rw [← mem_sharersOf, List.any_eq_true]
      constructor
      · intro found
        obtain ⟨⟨holder, address⟩, member, same⟩ := found
        have same : holder = requester := of_decide_eq_true same
        exact ⟨address, same ▸ member⟩
      · intro joined
        obtain ⟨address, member⟩ := joined
        exact ⟨_, member, by simp only [decide_true]⟩
    by_cases joined : Held table .ability .ability target requester .shared
    · exact .inr (.inl ⟨trivial, joined, by simp only [joined_iff.mpr joined, if_true]⟩)
    · refine .inr (.inr ⟨.inl ⟨trivial, joined⟩, ?_⟩)
      simp only [mt joined_iff.mp joined]
      rfl
  | unique =>
    simp only [occupyLocal, decide_true, Bool.and_true]
    cases shared : getAbilitySharers table target with
    | nil =>
      refine .inr (.inr ⟨.inr ⟨trivial, sharersOf_eq_nil.mp shared⟩, ?_⟩)
      simp only [List.isEmpty_nil, Bool.not_true, Bool.false_eq_true, if_false]
      rfl
    | cons sharer sharers =>
      have member : sharer ∈ getAbilitySharers table target := shared ▸ List.mem_cons_self
      refine .inl ⟨trivial, ⟨sharer.1, mem_sharersOf.mp ⟨sharer.2, member⟩⟩,
        "can't add owner to shared object", ?_⟩
      simp only [List.isEmpty_cons, Bool.not_false, if_true]

/-- All a local ability call can do: it is let in without a new row, refused, or writes the row. -/
theorem occupyAbility_cases (table : OwnershipTable) (isLocal : call.catalogue.LocalAbility call.target) :
    (Held table .ability .ability call.target call.requester .unique ∨
        (∀ owner, ¬ Held table .ability .ability call.target owner .unique) ∧ call.mode = .shared ∧
          Held table .ability .ability call.target call.requester .shared) ∧
      call.occupyAbility table = (.ok (.ok ()), table) ∨
    (∃ message other held, (other ≠ call.requester ∨ held = .shared) ∧ (held = .unique ∨ call.mode = .unique) ∧
        Held table .ability .ability call.target other held ∧
        call.occupyAbility table = (.ok (.error message), table)) ∨
    (∀ owner, ¬ Held table .ability .ability call.target owner .unique) ∧
      (call.mode = .shared ∨ ∀ sharer, ¬ Held table .ability .ability call.target sharer .shared) ∧
      call.occupyAbility table =
        (.ok (.ok ()), addOwnership .ability call.mode table call.requester call.target call.position) := by
  rw [occupyAbility_local isLocal]
  cases owned : getAbilityOwner table call.target with
  | some owner =>
    have holds := held_of_ownerOf owned
    obtain ⟨same, result⟩ | ⟨other, message, result⟩ :=
      occupyLocal_some owner table call.requester call.position call.target call.mode
    · exact .inl ⟨.inl (same ▸ holds), result⟩
    · exact .inr (.inl ⟨message, owner.id, .unique, .inl other, .inl rfl, holds, result⟩)
  | none =>
    have unowned := ownerOf_eq_none.mp owned
    obtain ⟨unique, ⟨sharer, holds⟩, message, result⟩ | ⟨shared, joined, result⟩ | ⟨joins, result⟩ :=
      occupyLocal_none table call.requester call.position call.target call.mode
    · exact .inr (.inl ⟨message, sharer, .shared, .inr rfl, .inr unique, holds, result⟩)
    · exact .inl ⟨.inr ⟨unowned, shared, joined⟩, result⟩
    · exact .inr (.inr ⟨unowned, joins.imp And.left And.right, result⟩)

/-! ## What is written -/

/-- Whatever is in the table, an occupation writes at most a row of an ability. -/
theorem occupyLocal_table (owner : Option OwnerInfo) (table : OwnershipTable) (requester : Uuid) (position : String)
    (target : Uuid) (mode : OwnershipMode) :
    (occupyLocal owner table requester position target mode).2 = table ∨
      (occupyLocal owner table requester position target mode).2 =
        addOwnership .ability mode table requester target position := by
  cases owner with
  | some owner =>
    obtain ⟨_, result⟩ | ⟨_, message, result⟩ := occupyLocal_some owner table requester position target mode
    · exact .inl (congrArg Prod.snd result)
    · exact .inl (congrArg Prod.snd result)
  | none =>
    obtain ⟨_, _, message, result⟩ | ⟨_, _, result⟩ | ⟨_, result⟩ :=
      occupyLocal_none table requester position target mode
    · exact .inl (congrArg Prod.snd result)
    · exact .inl (congrArg Prod.snd result)
    · exact .inr (congrArg Prod.snd result)

theorem OccupationCall.occupyAbility_table (call : OccupationCall) (table : OwnershipTable) :
    (call.occupyAbility table).2 = table ∨
      (call.occupyAbility table).2 =
        addOwnership .ability call.mode table call.requester call.target call.position := by
  rw [OccupationCall.occupyAbility, ResourceMgr.occupyAbility]
  split
  · exact .inl rfl
  · split
    · exact .inl rfl
    · split
      · exact .inl rfl
      · exact occupyLocal_table ..

theorem OccupationCall.occupyDevice_table (call : OccupationCall) (table : OwnershipTable) :
    (call.occupyDevice table).2 = table ∨
      (call.occupyDevice table).2 =
        addOwnership .ability call.mode table call.requester call.target call.position := by
  rw [OccupationCall.occupyDevice, ResourceMgr.occupyDevice]
  split
  · exact .inl rfl
  · split
    · exact .inl rfl
    · split
      · exact .inl rfl
      · exact occupyLocal_table ..

theorem OccupationCall.mem_unoccupyAbility {row : CROwnership} (member : row ∈ (call.unoccupyAbility table).2) :
    row ∈ table := by
  unfold OccupationCall.unoccupyAbility ResourceMgr.unoccupyAbility at member
  split at member
  · exact member
  · split at member
    · exact member
    · split at member
      · split at member <;> exact (Library.Relation.mem_deleteWhere.mp member).1
      · split at member <;> exact member

theorem OccupationCall.mem_unoccupyDevice {row : CROwnership} (member : row ∈ (call.unoccupyDevice table).2) :
    row ∈ table := by
  unfold OccupationCall.unoccupyDevice ResourceMgr.unoccupyDevice at member
  split at member
  · exact member
  · split at member
    · exact member
    · split at member
      · split at member <;> exact (Library.Relation.mem_deleteWhere.mp member).1
      · split at member <;> exact member

end AbilityFramework.ResourceMgr
