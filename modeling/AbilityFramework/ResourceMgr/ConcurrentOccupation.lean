import AbilityFramework.Library.Runs
import AbilityFramework.ResourceMgr.AbilityLock

/-! # Occupation requests side by side

`occupy_ability` takes no lock and opens no transaction: it queries the owner, queries the sharers and
inserts, and between these statements those of other requests may run.  `Request` is a request with
the point it has reached, `requestStep` runs the next statement of any one of them.

Side by side requests keep an ability's owner alone exactly as long as every insert is unopposed
(`requests_exclusive_iff`): nothing makes the code see to that, since the rows it checked may be
others by then. -/

namespace AbilityFramework.ResourceMgr

open Library

/-! ## Requests -/

/-- The next database statement of an `occupy_ability` request. -/
inductive OccupyProgress where
  | locate
  | queryOwner
  | querySharers
  | insert
  | returned (result : Expected)

inductive UnoccupyProgress where
  | locate
  | delete
  | returned (result : Except Exception Bool)

def occupyStatement (call : OccupationCall) (table : OwnershipTable) :
    OccupyProgress → OccupyProgress × OwnershipTable
  | .locate =>
    if !call.catalogue.judgeAbilityExist call.target then
      (.returned (.ok (.error "can't occupy an ability that does not exist")), table)
    else match (call.catalogue.resolveAbilityCrById call.target).bind AbilityCR.spec with
    | none => (.returned (.ok (.error s!"ability cr spec not available for {call.target}")), table)
    | some spec =>
      if !call.catalogue.isLocalCr spec.position then
        (.returned (sendHttpOccupyRequest call.catalogue spec.position call.requester call.position
          call.target call.mode), table)
      else (.queryOwner, table)
  | .queryOwner =>
    match getAbilityOwner table call.target with
    | some owner =>
      if owner.id = call.requester then (.returned (.ok (.ok ())), table)
      else match call.mode with
      | .shared => (.returned (.ok (.error "can't add sharers to unique object")), table)
      | .unique =>
        (.returned (.ok (.error "can't add owner to unique object, it is already occupied")), table)
    | none => (.querySharers, table)
  | .querySharers =>
    let sharers := getAbilitySharers table call.target
    if !sharers.isEmpty && call.mode = .unique then
      (.returned (.ok (.error "can't add owner to shared object")), table)
    else match call.mode with
    | .shared =>
      if sharers.any (fun sharer => sharer.1 = call.requester) then (.returned (.ok (.ok ())), table)
      else (.insert, table)
    | .unique => (.insert, table)
  | .insert =>
    match call.mode with
    | .shared =>
      (.returned (.ok (.ok ())), addAbilitySharers table call.requester call.target call.position)
    | .unique => (.returned (.ok (.ok ())), addAbilityOwner table call.requester call.target call.position)
  | .returned result => (.returned result, table)

def unoccupyStatement (call : OccupationCall) (table : OwnershipTable) :
    UnoccupyProgress → UnoccupyProgress × OwnershipTable
  | .locate =>
    if !call.catalogue.judgeAbilityExist call.target then (.returned (.ok false), table)
    else match (call.catalogue.resolveAbilityCrById call.target).bind AbilityCR.spec with
    | none => (.returned (.ok false), table)
    | some spec =>
      if call.catalogue.isLocalCr spec.position then (.delete, table)
      else match call.catalogue.sendPostRequest spec.position
          (.unoccupyAbility call.requester call.target call.mode) with
      | .failed => (.returned (.ok false), table)
      | .unparsable => (.returned (.error .parseError), table)
      | .result success => (.returned (.ok success), table)
  | .delete =>
    match call.mode with
    | .shared => (.returned (.ok true), removeAbilitySharer table call.requester call.target)
    | .unique => (.returned (.ok true), removeAbilityOwner table call.requester call.target)
  | .returned result => (.returned result, table)

inductive Request where
  | occupy (call : OccupationCall) (progress : OccupyProgress)
  | unoccupy (call : OccupationCall) (progress : UnoccupyProgress)

def Request.advance (table : OwnershipTable) : Request → Request × OwnershipTable
  | .occupy call progress =>
    let (next, after) := occupyStatement call table progress
    (.occupy call next, after)
  | .unoccupy call progress =>
    let (next, after) := unoccupyStatement call table progress
    (.unoccupy call next, after)

structure OccupationState where
  table : OwnershipTable
  requests : List Request

inductive OccupationEvent where
  | occupy (call : OccupationCall)
  | unoccupy (call : OccupationCall)
  /-- The request at this position of the list runs its next statement. -/
  | statement (index : Nat)

def requestStep (state : OccupationState) : OccupationEvent → OccupationState
  | .occupy call => { state with requests := state.requests ++ [.occupy call .locate] }
  | .unoccupy call => { state with requests := state.requests ++ [.unoccupy call .locate] }
  | .statement index =>
    match state.requests[index]? with
    | none => state
    | some request =>
      let (next, after) := request.advance state.table
      { table := after, requests := state.requests.set index next }

def noRequests : OccupationState := ⟨∅, []⟩

/-! ## What one statement does to the table -/

theorem occupyStatement_table (call : OccupationCall) (table : OwnershipTable) (progress : OccupyProgress) :
    progress ≠ .insert ∧ (occupyStatement call table progress).2 = table ∨
      progress = .insert ∧ (occupyStatement call table progress).2 =
        addOwnership .ability call.mode table call.requester call.target call.position := by
  cases progress with
  | insert =>
    refine .inr ⟨rfl, ?_⟩
    simp only [occupyStatement]
    cases call.mode <;> rfl
  | returned result => exact .inl ⟨nofun, rfl⟩
  | locate =>
    refine .inl ⟨nofun, ?_⟩
    simp only [occupyStatement]
    repeat' split
    all_goals rfl
  | queryOwner =>
    refine .inl ⟨nofun, ?_⟩
    simp only [occupyStatement]
    repeat' split
    all_goals rfl
  | querySharers =>
    refine .inl ⟨nofun, ?_⟩
    simp only [occupyStatement]
    repeat' split
    all_goals rfl

theorem unoccupyStatement_table (call : OccupationCall) (table : OwnershipTable)
    (progress : UnoccupyProgress) :
    (unoccupyStatement call table progress).2 = table ∨
      (unoccupyStatement call table progress).2 =
        removeOwnership .ability call.mode table call.requester call.target := by
  cases progress with
  | delete =>
    refine .inr ?_
    simp only [unoccupyStatement]
    cases call.mode <;> rfl
  | returned result => exact .inl rfl
  | locate =>
    refine .inl ?_
    simp only [unoccupyStatement]
    repeat' split
    all_goals rfl

/-! ## Exclusion -/

/-- No ability has two unique owners, nor a unique owner together with a different sharer. -/
def Exclusive (table : OwnershipTable) : Prop :=
  ∀ target owner other mode, Held table .ability .ability target owner .unique →
    Held table .ability .ability target other mode → other = owner

/-- Every other ability that occupies the target shares it, and so does the requester. -/
def Unopposed (table : OwnershipTable) (call : OccupationCall) : Prop :=
  ∀ other held, Held table .ability .ability call.target other held →
    other = call.requester ∨ held = .shared ∧ call.mode = .shared

theorem Represents.exclusive {table : OwnershipTable} {locks : AbilityLocks}
    (represents : Represents table locks) : Exclusive table :=
  fun target owner other mode owns holds => (represents.refines.exclusive target owner other mode owns holds).1

theorem exclusive_empty : Exclusive ∅ := represents_empty.exclusive

theorem exclusive_removeOwnership {table : OwnershipTable} (exclusive : Exclusive table)
    (mode : OwnershipMode) (requester target : Uuid) :
    Exclusive (removeOwnership .ability mode table requester target) := by
  intro resource owner other held owns holds
  rw [held_removeOwnership] at owns holds
  exact exclusive resource owner other held owns.1 holds.1

theorem exclusive_addOwnership_iff {table : OwnershipTable} (exclusive : Exclusive table)
    (call : OccupationCall) :
    Exclusive (addOwnership .ability call.mode table call.requester call.target call.position) ↔
      Unopposed table call := by
  constructor
  · intro after other held holds
    by_cases same : other = call.requester
    · exact .inl same
    · -- The other's row survives the insert, so the two rows stand side by side.
      have kept : Held (addOwnership .ability call.mode table call.requester call.target call.position)
          .ability .ability call.target other held :=
        held_addOwnership.mpr (.inr ⟨holds, fun replaced => same replaced.1⟩)
      have inserted : Held (addOwnership .ability call.mode table call.requester call.target call.position)
          .ability .ability call.target call.requester call.mode :=
        held_addOwnership.mpr (.inl ⟨rfl, rfl, rfl, rfl, rfl⟩)
      cases held with
      | unique => exact .inl (after _ _ _ _ kept inserted).symm
      | shared =>
        cases mode : call.mode with
        | shared => exact .inr ⟨rfl, rfl⟩
        | unique =>
          rw [mode] at after inserted kept
          exact .inl (after _ _ _ _ inserted kept)
  · intro unopposed resource owner other held owns holds
    rw [held_addOwnership] at owns holds
    obtain ⟨sameOwner, _, sameTarget, _, unique⟩ | ⟨owns, ownsOther⟩ := owns
    · obtain ⟨sameHolder, _⟩ | ⟨holds, _⟩ := holds
      · rw [sameHolder, sameOwner]
      · rw [sameTarget] at holds
        obtain same | ⟨_, shared⟩ := unopposed other held holds
        · rw [same, sameOwner]
        · rw [shared] at unique
          cases unique
    · obtain ⟨sameHolder, _, sameTarget, _⟩ | ⟨holds, _⟩ := holds
      · rw [sameTarget] at owns
        obtain same | ⟨shared, _⟩ := unopposed owner .unique owns
        · rw [sameHolder, same]
        · cases shared
      · exact exclusive resource owner other held owns holds

/-! ## Runs -/

/-- The condition on a step: an insert that runs now is unopposed. -/
def UnopposedStep (state : OccupationState) : OccupationEvent → Prop
  | .statement index =>
    ∀ call, state.requests[index]? = some (.occupy call .insert) → Unopposed state.table call
  | _ => True

theorem requestStep_exclusive_iff (state : OccupationState) (event : OccupationEvent)
    (exclusive : Exclusive state.table) :
    Exclusive (requestStep state event).table ↔ UnopposedStep state event := by
  cases event with
  | occupy call => exact iff_of_true exclusive trivial
  | unoccupy call => exact iff_of_true exclusive trivial
  | statement index =>
    simp only [requestStep, UnopposedStep]
    cases found : state.requests[index]? with
    | none => exact iff_of_true exclusive nofun
    | some request =>
      cases request with
      | unoccupy call progress =>
        refine iff_of_true ?_ nofun
        obtain same | deleted := unoccupyStatement_table call state.table progress
        · simpa only [Request.advance, same] using exclusive
        · simpa only [Request.advance, deleted] using
            exclusive_removeOwnership exclusive call.mode call.requester call.target
      | occupy call progress =>
        simp only [Request.advance, Option.some.injEq, Request.occupy.injEq]
        obtain ⟨before, same⟩ | ⟨rfl, inserted⟩ := occupyStatement_table call state.table progress
        · refine iff_of_true (by rwa [same]) ?_
          intro other reached
          exact absurd reached.2 before
        · rw [inserted, exclusive_addOwnership_iff exclusive]
          refine ⟨fun unopposed other same => ?_, fun unopposed => unopposed call ⟨rfl, rfl⟩⟩
          exact same.1 ▸ unopposed

/-- Over any requests and any interleaving of their statements: no reachable table breaks the
exclusion if and only if every insert that runs is unopposed. -/
theorem requests_exclusive_iff (events : List OccupationEvent) :
    Runs.Always requestStep (fun state => Exclusive state.table) noRequests events ↔
      Runs.EachStep requestStep UnopposedStep noRequests events := by
  apply Runs.always_exact (fun state : OccupationState => Exclusive state.table) fun _ exclusive => exclusive
  · intro state event exclusive unopposed
    exact (requestStep_exclusive_iff state event exclusive).mpr unopposed
  · intro state event exclusive after
    exact (requestStep_exclusive_iff state event exclusive).mp after
  · exact exclusive_empty

/-- Abilities 1 and 2 ask for ability 7 as unique owners; both query before either inserts. -/
def racingOwners : List OccupationEvent :=
  [.occupy ⟨oneNode, 1, "localhost", 7, .unique⟩, .occupy ⟨oneNode, 2, "localhost", 7, .unique⟩,
    .statement 0, .statement 1, .statement 0, .statement 1, .statement 0, .statement 1,
    .statement 0, .statement 1]

theorem racingOwners_not_exclusive : ¬ Exclusive (Runs.run requestStep noRequests racingOwners).table := by
  intro exclusive
  -- Both queries have found nothing, so both rows are inserted.
  have rows : (Runs.run requestStep noRequests racingOwners).table.rows =
      [⟨1, .ability, "localhost", 7, .ability, .unique⟩, ⟨2, .ability, "localhost", 7, .ability, .unique⟩] := by
    rfl
  have first : Held (Runs.run requestStep noRequests racingOwners).table .ability .ability 7 1 .unique :=
    ⟨_, by rw [Relation.mem_def, rows]; exact List.mem_cons_self, rfl, rfl, rfl, rfl, rfl⟩
  have second : Held (Runs.run requestStep noRequests racingOwners).table .ability .ability 7 2 .unique :=
    ⟨_, by rw [Relation.mem_def, rows]; exact List.mem_cons_of_mem _ List.mem_cons_self, rfl, rfl, rfl, rfl, rfl⟩
  exact absurd (exclusive 7 1 2 .unique first second) (by decide)

end AbilityFramework.ResourceMgr
