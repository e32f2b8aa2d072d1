import AbilityFramework.Library.Runs
import AbilityFramework.ResourceMgr.AbilityLock

/-! # Devices as locks

What occupying a device is for is what occupying an ability is for, and `occupy_device` follows
`occupy_ability` line by line, but its statements disagree on the kinds they bind: the owner query asks for
device parents, the sharers query and both inserts use ability children, and the deletes use device
children.  So what is granted is never reported and never released.

The machine records, beside the table, the occupations granted and not yet released.  `DeviceLocks`
is what they should be; `deviceCalls_lock_iff` says that runs keep it only while no device is
occupied at all. -/

namespace AbilityFramework.ResourceMgr

open Library

/-- A call on a device that exists and is local when the call is made. -/
structure LocalDeviceCall extends OccupationCall where
  isLocal : catalogue.LocalDevice target

inductive DeviceCall where
  | occupy (call : LocalDeviceCall)
  | unoccupy (call : LocalDeviceCall)

structure DeviceState where
  table : OwnershipTable
  /-- Device, holder and mode of the occupations granted and not yet released. -/
  granted : Uuid → Uuid → OwnershipMode → Prop

def noDevices : DeviceState := ⟨∅, fun _ _ _ => False⟩

def deviceStep (state : DeviceState) : DeviceCall → DeviceState
  | .occupy call =>
    match call.occupyDevice state.table with
    | (.ok (.ok ()), table) =>
      { table
        -- An owner that asks again is let in, but is given nothing it does not have.
        granted := fun device holder mode => state.granted device holder mode ∨
          device = call.target ∧ holder = call.requester ∧ mode = call.mode ∧
            ¬ state.granted call.target call.requester .unique }
    | (_, table) => { state with table }
  | .unoccupy call =>
    match call.unoccupyDevice state.table with
    | (.ok true, table) =>
      { table
        granted := fun device holder mode => state.granted device holder mode ∧
          ¬ (device = call.target ∧ holder = call.requester ∧ mode = call.mode) }
    | (_, table) => { state with table }

/-- What `get_device_owner` and `get_device_sharers` tell a client. -/
def DeviceReported (table : OwnershipTable) (device holder : Uuid) : OwnershipMode → Prop
  | .unique => ∃ position, getDeviceOwner table device = some ⟨holder, position⟩
  | .shared => ∃ position, (holder, position) ∈ getDeviceSharers table device

structure DeviceLocks (state : DeviceState) : Prop where
  /-- Each device is free, shared by a non-empty set of holders, or owned by one. -/
  locks : ∀ device, ∃ lock : SharedLock Uuid, ∀ holder mode,
    state.granted device holder mode ↔ lock.Holds holder mode.lock
  reported : ∀ device holder mode,
    DeviceReported state.table device holder mode ↔ state.granted device holder mode
  released : ∀ call : LocalDeviceCall, state.granted call.target call.requester call.mode →
    (call.unoccupyDevice state.table).1 = .ok true →
    ¬ DeviceReported (call.unoccupyDevice state.table).2 call.target call.requester call.mode ∧
      ∀ other : LocalDeviceCall, other.target = call.target → other.requester ≠ call.requester →
        other.mode = .unique →
        (∀ holder mode, state.granted call.target holder mode → holder = call.requester ∧ mode = call.mode) →
        (other.occupyDevice (call.unoccupyDevice state.table).2).1 = .ok (.ok ())

/-! ## What the calls do -/

variable {table : OwnershipTable}

theorem deviceReported_iff {device holder : Uuid} {mode : OwnershipMode} :
    DeviceReported table device holder mode → Held table .device .device device holder mode := by
  cases mode with
  | unique =>
    intro reported
    obtain ⟨position, found⟩ := reported
    exact held_of_ownerOf found
  | shared => exact mem_sharersOf.mp

theorem AbilityRows.not_reported (abilities : AbilityRows table) (device holder : Uuid) (mode : OwnershipMode) :
    ¬ DeviceReported table device holder mode := by
  intro reported
  obtain ⟨row, member, _, isDevice, _⟩ := deviceReported_iff reported
  rw [(abilities row member).1] at isDevice
  cases isDevice

theorem AbilityRows.unoccupyDevice (abilities : AbilityRows table) (call : LocalDeviceCall) :
    (call.unoccupyDevice table).2 = table := by
  rw [unoccupyDevice_local call.isLocal]
  apply Relation.deleteWhere_eq_self
  intro row member
  simp only [(abilities row member).2, decide_eq_true_eq]
  exact fun selected => nomatch selected.2.2.1

theorem AbilityRows.occupyDevice (abilities : AbilityRows table) (call : LocalDeviceCall) :
    AbilityRows (call.occupyDevice table).2 := by
  obtain same | inserted := call.toOccupationCall.occupyDevice_table table
  · rwa [same]
  · rw [inserted]
    exact abilities.addOwnership

/-- The owner query never finds anyone, so nobody but a sharer is in the way. -/
theorem AbilityRows.occupyDevice_eq (abilities : AbilityRows table) (call : LocalDeviceCall) :
    call.occupyDevice table =
      occupyLocal none table call.requester call.position call.target call.mode := by
  -- The query looks for a device parent, and every parent is an ability.
  have unowned : getDeviceOwner table call.target = none := by
    rw [getDeviceOwner, ownerOf_eq_none]
    intro holder held
    obtain ⟨row, member, _, isDevice, _⟩ := held
    rw [(abilities row member).1] at isDevice
    cases isDevice
  rw [occupyDevice_local call.isLocal, unowned]

/-! ## Runs -/

theorem deviceStep_occupy_table (state : DeviceState) (call : LocalDeviceCall) :
    (deviceStep state (.occupy call)).table = (call.occupyDevice state.table).2 := by
  simp only [deviceStep]
  split <;> simp only [*]

theorem deviceStep_unoccupy_table (state : DeviceState) (call : LocalDeviceCall) :
    (deviceStep state (.unoccupy call)).table = (call.unoccupyDevice state.table).2 := by
  simp only [deviceStep]
  split <;> simp only [*]

theorem AbilityRows.deviceStep {state : DeviceState} (abilities : AbilityRows state.table) (call : DeviceCall) :
    AbilityRows (deviceStep state call).table := by
  cases call with
  | occupy call =>
    rw [deviceStep_occupy_table]
    exact abilities.occupyDevice call
  | unoccupy call =>
    rw [deviceStep_unoccupy_table, abilities.unoccupyDevice call]
    exact abilities

/-! ## The locks -/

theorem deviceLocks_of_nothing {state : DeviceState} (empty : state.table = ∅)
    (ungranted : ∀ device holder mode, ¬ state.granted device holder mode) : DeviceLocks state where
  locks device := ⟨.free, fun holder mode => iff_of_false (ungranted device holder mode) id⟩
  reported device holder mode := by
    refine iff_of_false ?_ (ungranted device holder mode)
    rw [empty]
    exact abilityRows_empty.not_reported device holder mode
  released call granted := absurd granted (ungranted _ _ _)

/-- The first occupation of all is granted, since nothing is in its way. -/
theorem occupyDevice_granted (call : LocalDeviceCall) : call.occupyDevice ∅ =
    (.ok (.ok ()), addOwnership .ability call.mode ∅ call.requester call.target call.position) := by
  rw [abilityRows_empty.occupyDevice_eq call]
  obtain ⟨_, ⟨_, shares⟩, _⟩ | ⟨_, shares, _⟩ | ⟨_, result⟩ :=
    occupyLocal_none ∅ call.requester call.position call.target call.mode
  · exact absurd shares not_held_empty
  · exact absurd shares not_held_empty
  · exact result

def IsUnoccupy (call : DeviceCall) : Prop := ∃ unoccupied, call = .unoccupy unoccupied

/-- The devices are locks in every state a run reaches if and only if the run occupies none. -/
theorem deviceCalls_lock_iff (calls : List DeviceCall) :
    Runs.Always deviceStep DeviceLocks noDevices calls ↔ ∀ call ∈ calls, IsUnoccupy call := by
  rw [← Runs.eachStep_iff_forall deviceStep noDevices]
  apply Runs.always_exact fun state : DeviceState =>
    state.table = ∅ ∧ ∀ device holder mode, ¬ state.granted device holder mode
  · intro state nothing
    exact deviceLocks_of_nothing nothing.1 nothing.2
  · intro state call nothing unoccupies
    obtain ⟨call, rfl⟩ := unoccupies
    constructor
    · rw [deviceStep_unoccupy_table, nothing.1]
      exact abilityRows_empty.unoccupyDevice call
    · intro device holder mode granted
      simp only [deviceStep, unoccupyDevice_local call.isLocal] at granted
      exact nothing.2 device holder mode granted.1
  · intro state call nothing locks
    cases call with
    | unoccupy call => exact ⟨call, rfl⟩
    | occupy call =>
      -- The occupation is granted, and no query ever shows it.
      have granted : (deviceStep state (.occupy call)).granted call.target call.requester call.mode := by
        simp only [deviceStep, nothing.1, occupyDevice_granted]
        exact .inr ⟨trivial, trivial, trivial, nothing.2 _ _ _⟩
      have reported := (locks.reported _ _ _).mpr granted
      have abilities : AbilityRows (deviceStep state (.occupy call)).table := by
        apply AbilityRows.deviceStep
        rw [nothing.1]
        exact abilityRows_empty
      exact absurd reported (abilities.not_reported _ _ _)
  · exact ⟨rfl, fun _ _ _ => id⟩

/-- Abilities 1 and 2 occupy device 7 as unique owners, one after the other. -/
def twoOwners : List DeviceCall :=
  have isLocal : oneNode.LocalDevice 7 := ⟨rfl, ⟨"localhost"⟩, rfl, rfl⟩
  [.occupy ⟨⟨oneNode, 1, "localhost", 7, .unique⟩, isLocal⟩,
    .occupy ⟨⟨oneNode, 2, "localhost", 7, .unique⟩, isLocal⟩]

theorem twoOwners_not_deviceLocks : ¬ DeviceLocks (Runs.run deviceStep noDevices twoOwners) := by
  intro devices
  obtain ⟨lock, holds⟩ := devices.locks 7
  have first : (Runs.run deviceStep noDevices twoOwners).granted 7 1 .unique :=
    .inl (.inr ⟨rfl, rfl, rfl, id⟩)
  have second : (Runs.run deviceStep noDevices twoOwners).granted 7 2 .unique :=
    .inr ⟨rfl, rfl, rfl, by rintro (⟨⟨⟩⟩ | ⟨_, ⟨⟩, _⟩)⟩
  have alone := SharedLock.holds_exclusive ((holds 1 .unique).mp first) ((holds 2 .unique).mp second)
  exact absurd alone.1 (by decide)

end AbilityFramework.ResourceMgr
