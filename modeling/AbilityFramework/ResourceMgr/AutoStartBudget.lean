import AbilityFramework.Library.Runs
import AbilityFramework.ResourceMgr.AbilityInstance
import AbilityFramework.ResourceMgr.CRTables

/-! # The budget of automatic starts

`auto_start_ability` starts instances of a template for two reasons: the template is to be started once
after the framework has, or it is to be kept alive.  What bounds it is split between the start records, the
column `auto_started`, which `add_ability_cr` leaves as it is in a template that it finds, and the ids of
new templates, which are fresh.  `instanceStep_cases` says once what the manager can do about any of these. -/

namespace AbilityFramework.ResourceMgr

open Library

/-! ## A session -/

/-- A start that `spawn_instance_from_template` decides on, with the reading of the clock it makes for it. -/
structure Spawn where
  templateId : Uuid
  reason : SpawnReason
  time : Nat
  deriving DecidableEq

/-- The manager since the framework has started, with all starts so far. -/
structure Session where
  manager : InstanceState
  /-- The ids that `make_uuid()` has made for templates. -/
  made : Nat := 0
  spawns : List Spawn := []

def Session.start (templates : AbilityCRTable) (instances : AbilityInstanceTable) : Session where
  manager := { InstanceState.start templates with instances }

inductive SessionEvent where
  | manager (event : InstanceEvent)
  | addAbilityCr (cr : AbilityCR)
  | removeAbilityCr (id : Uuid)
  /-- A scan of the CR directory ends, with CRs of these names. -/
  | reconcile (names : List CRName)

/-- The columns name and version are written together with the detail, and are read off it here. -/
def AbilityCRBasic.crName (row : AbilityCRBasic) : Option CRName :=
  row.crDetail.spec.map fun spec => (spec.abilityName, spec.version, row.instanceName)

/-- The columns that both statements of `add_ability_cr` set. -/
def AbilityCRBasic.show (row : AbilityCRBasic) (cr : AbilityCR) (spec : AbilitySpec) : AbilityCRBasic :=
  { row with
    instanceName := cr.metadata.name
    autostart := spec.autoStart.getD false
    keepAlive := spec.keepAlive.getD false
    singleton := spec.singleton.getD true
    crDetail := cr }

@[simp] theorem AbilityCRBasic.show_instanceId (row : AbilityCRBasic) (cr : AbilityCR) (spec : AbilitySpec) :
    (row.show cr spec).instanceId = row.instanceId := rfl

/-- A new row; `auto_started` is 0 by default. -/
def AbilityCRBasic.new (instanceId : Uuid) (cr : AbilityCR) (spec : AbilitySpec) : AbilityCRBasic :=
  AbilityCRBasic.show ⟨instanceId, "", false, false, false, true, cr⟩ cr spec

section Step

variable (makeUuid : Nat → Uuid)

def Session.setTemplates (session : Session) (templates : AbilityCRTable) : Session :=
  { session with manager := { session.manager with templates } }

def Session.addAbilityCr (session : Session) (cr : AbilityCR) : Session :=
  match cr.spec with
  | none => session
  | some spec =>
    let name := (spec.abilityName, spec.version, cr.metadata.name)
    match (session.manager.templates.select fun row => row.crName = some name).head? with
    | some found =>
      session.setTemplates <| session.manager.templates.updateWhere
        (fun row => row.instanceId = found.instanceId) (fun row => row.show cr spec)
        fun row => row.show_instanceId cr spec
    | none =>
      let row := AbilityCRBasic.new (makeUuid session.made) cr spec
      { session.setTemplates (session.manager.templates.replaceInto row) with made := session.made + 1 }

def spawnOf (state : InstanceState) : InstanceEvent → Option Spawn
  | .autoStart now _ =>
    match state.round with
    | .spawning reason templateId _ => (roundCandidate state now).map fun _ => ⟨templateId, reason, now⟩
    | .returned | .loop _ _ | .creating _ _ _ => none
  | _ => none

def sessionStep (session : Session) : SessionEvent → Session
  | .manager event =>
    { session with
      manager := instanceStep session.manager event
      spawns := session.spawns ++ (spawnOf session.manager event).toList }
  | .addAbilityCr cr => session.addAbilityCr makeUuid cr
  | .removeAbilityCr id =>
    session.setTemplates (session.manager.templates.deleteWhere fun row => row.instanceId = id)
  | .reconcile names =>
    session.setTemplates (session.manager.templates.deleteWhere fun row => row.crName ∉ names.map some)

end Step

/-! ## The budget -/

def Session.spawnsOf (session : Session) (id : Uuid) : List Spawn :=
  session.spawns.filter fun spawn => spawn.templateId = id

structure WithinBudget (session : Session) (id : Uuid) : Prop where
  few : (session.spawnsOf id).length ≤ 3
  apart : (session.spawnsOf id).Pairwise fun earlier later => earlier.time + retryInterval ≤ later.time
  autoStartOnce : ((session.spawnsOf id).filter fun spawn => spawn.reason = .autoStart).length ≤ 1

/-- No row says that the template is to be kept alive. -/
def NotKeptAlive (id : Uuid) (session : Session) : Prop :=
  ∀ row ∈ session.manager.templates, row.instanceId = id → row.keepAlive = false

/-! ## What the manager does -/

/-- The templates that are still to be started for this reason in the present round. -/
def AutoStartRound.pending (round : AutoStartRound) (reason : SpawnReason) : List Uuid :=
  match round with
  | .returned => []
  | .loop current ids => if current = reason then ids else []
  | .spawning current id rest => if current = reason then id :: rest else []
  | .creating current _ rest => if current = reason then rest else []

/-- The template that is being started because of its flag, and has been marked before. -/
def AutoStartRound.marked : AutoStartRound → Option Uuid
  | .spawning .autoStart id _ => some id
  | _ => none

def listed (templates : AbilityCRTable) : SpawnReason → List Uuid
  | .autoStart => dbGetAbilityCrNeedAutostart templates
  | .keepAlive => dbGetAbilityCrKeepAlive templates

/-- What an event of the manager can do about templates, start records and the round. -/
inductive ManagerStep (state : InstanceState) : InstanceState → Option Spawn → Prop where
  | other {after : InstanceState} (templates : after.templates = state.templates)
      (records : after.startRecords = state.startRecords)
      (fewer : ∀ reason, (after.round.pending reason).Sublist (state.round.pending reason))
      (marked : ∀ id, after.round.marked = some id → state.round.marked = some id) : ManagerStep state after none
  | lists (reason : SpawnReason) :
      ManagerStep state { state with round := .loop reason (listed state.templates reason) } none
  | marks {id : Uuid} {rest : List Uuid} (atFirst : state.round = .loop .autoStart (id :: rest)) :
      ManagerStep state
        { state with templates := dbMarkAutoStarted state.templates id, round := .spawning .autoStart id rest } none
  | spawns {reason : SpawnReason} {id : Uuid} {rest : List Uuid} {now : Nat} {tmpl : AbilityCR}
      (spawning : state.round = .spawning reason id rest) (candidate : roundCandidate state now = some tmpl) :
      ManagerStep state
        { state with
          round := .creating reason tmpl rest
          startRecords := Function.update state.startRecords id ⟨now, (state.startRecords id).retryCount + 1⟩ }
        (some ⟨id, reason, now⟩)

theorem autoStartAbility_cases (state : InstanceState) (now : Nat) (instanceId : Uuid) :
    ManagerStep state (autoStartAbility state now instanceId) (spawnOf state (.autoStart now instanceId)) := by
  cases round : state.round with
  | returned =>
    simp only [autoStartAbility, spawnOf, round]
    exact .other rfl rfl (fun _ => List.Sublist.refl _) fun _ same => same
  | loop reason ids =>
    simp only [spawnOf, round]
    cases reason with
    | autoStart =>
      cases ids with
      | nil =>
        simp only [autoStartAbility, round]
        exact .lists .keepAlive
      | cons id rest =>
        simp only [autoStartAbility, round]
        exact .marks round
    | keepAlive =>
      cases ids with
      | nil =>
        simp only [autoStartAbility, round]
        exact .other rfl rfl (fun _ => List.nil_sublist _) (by simp [AutoStartRound.marked])
      | cons id rest =>
        simp only [autoStartAbility, round]
        split
        · refine .other rfl rfl (fun reason => ?_) (by simp [AutoStartRound.marked])
          simp [AutoStartRound.pending, round]
        · refine .other rfl rfl (fun reason => ?_) (by simp [AutoStartRound.marked])
          cases reason <;> simp [AutoStartRound.pending, round]
  | spawning reason id rest =>
    simp only [autoStartAbility, spawnOf, round]
    cases candidate : roundCandidate state now with
    | none =>
      refine .other rfl rfl (fun other => ?_) (by simp [AutoStartRound.marked])
      simp only [AutoStartRound.pending, round]
      split <;> simp
    | some tmpl => exact .spawns round candidate
  | creating reason tmpl rest =>
    simp only [autoStartAbility, spawnOf, round]
    split
    · exact .other rfl rfl (fun _ => List.nil_sublist _) (by simp [AutoStartRound.marked])
    · refine .other rfl rfl (fun other => ?_) (by simp [AutoStartRound.marked])
      simp [AutoStartRound.pending, round]

theorem instanceStep_cases (state : InstanceState) (event : InstanceEvent) :
    ManagerStep state (instanceStep state event) (spawnOf state event) := by
  have same {after : InstanceState} (templates : after.templates = state.templates)
      (records : after.startRecords = state.startRecords) (round : after.round = state.round) :
      ManagerStep state after none :=
    .other templates records (fun _ => by rw [round]) fun _ isMarked => by rwa [← round]
  cases event with
  | autoStart now instanceId => exact autoStartAbility_cases state now instanceId
  | post | createInstance =>
    simp only [instanceStep, spawnOf]
    split <;> exact same rfl rfl rfl
  | update =>
    simp only [instanceStep, spawnOf]
    split
    · exact .lists .autoStart
    · exact same rfl rfl rfl
  | roundThrows =>
    exact .other rfl rfl (fun _ => List.nil_sublist _) (by simp [instanceStep, AutoStartRound.marked])
  | taskFailed | heartbeat | delete | instanceExited => exact same rfl rfl rfl

/-! ## Counting starts -/

/-- The record of a template counts its starts, and knows the time of the last. -/
structure Recorded (session : Session) (id : Uuid) : Prop where
  count : (session.spawnsOf id).length = (session.manager.startRecords id).retryCount
  few : (session.spawnsOf id).length ≤ 3
  apart : (session.spawnsOf id).Pairwise fun earlier later => earlier.time + retryInterval ≤ later.time
  last : ∀ spawn ∈ session.spawnsOf id, spawn.time ≤ (session.manager.startRecords id).lastStart

/-- What the records say about a template that a start is decided on for. -/
theorem records_of_candidate {state : InstanceState} {reason : SpawnReason} {id : Uuid} {rest : List Uuid} {now : Nat}
    {tmpl : AbilityCR} (spawning : state.round = .spawning reason id rest)
    (candidate : roundCandidate state now = some tmpl) :
    (state.startRecords id).retryCount < 3 ∧
      (0 < (state.startRecords id).retryCount → (state.startRecords id).lastStart + retryInterval ≤ now) := by
  simp only [roundCandidate, spawning, spawnCandidate] at candidate
  split at candidate
  · cases candidate
  · split at candidate
    · cases candidate
    · split_ifs at candidate with _ tooMany tooSoon
      refine ⟨Nat.not_le.mp tooMany, fun again => ?_⟩
      simp only [gt_iff_lt, again, decide_true, Bool.true_and, decide_eq_true_eq] at tooSoon
      -- A clock that has gone back is too soon as well.
      have positive : 0 < retryInterval := by decide
      omega

theorem spawnsOf_append (session : Session) (spawn : Spawn) (manager : InstanceState) (id : Uuid) :
    Session.spawnsOf { session with manager, spawns := session.spawns ++ [spawn] } id =
      session.spawnsOf id ++ if spawn.templateId = id then [spawn] else [] := by
  simp only [Session.spawnsOf, List.filter_append]
  by_cases same : spawn.templateId = id <;> simp [same]

theorem Recorded.manager {session : Session} {id : Uuid} (recorded : Recorded session id) {after : InstanceState}
    {spawn : Option Spawn} (goes : ManagerStep session.manager after spawn) :
    Recorded { session with manager := after, spawns := session.spawns ++ spawn.toList } id := by
  cases goes with
  | other templates records fewer marked =>
    simp only [Option.toList_none, List.append_nil]
    refine ⟨?_, recorded.few, recorded.apart, ?_⟩
    · simp only [records]
      exact recorded.count
    · simp only [records]
      exact recorded.last
  | lists reason =>
    simp only [Option.toList_none, List.append_nil]
    exact ⟨recorded.count, recorded.few, recorded.apart, recorded.last⟩
  | marks atFirst =>
    simp only [Option.toList_none, List.append_nil]
    exact ⟨recorded.count, recorded.few, recorded.apart, recorded.last⟩
  | @spawns reason started rest now tmpl spawning candidate =>
    obtain ⟨less, later⟩ := records_of_candidate spawning candidate
    have count := recorded.count
    by_cases same : started = id
    · subst same
      have afterAll : ∀ spawn ∈ session.spawnsOf started, spawn.time + retryInterval ≤ now := by
        intro spawn member
        have some : 0 < (session.spawnsOf started).length := List.length_pos_of_mem member
        have isLast := recorded.last spawn member
        have waited := later (by omega)
        omega
      have spawns := spawnsOf_append session ⟨started, reason, now⟩
        { session.manager with
          round := .creating reason tmpl rest
          startRecords := Function.update session.manager.startRecords started
            ⟨now, (session.manager.startRecords started).retryCount + 1⟩ } started
      rw [if_pos rfl] at spawns
      refine ⟨?_, ?_, ?_, ?_⟩
      · simp [spawns, count]
      · simp only [Option.toList_some, spawns, List.length_append, List.length_singleton]
        omega
      · simp only [Option.toList_some, spawns, List.pairwise_append, List.mem_singleton]
        refine ⟨recorded.apart, List.pairwise_singleton _ _, ?_⟩
        rintro earlier member _ rfl
        exact afterAll earlier member
      · simp only [Option.toList_some, spawns, Function.update_self, List.mem_append, List.mem_singleton]
        rintro spawn (member | rfl)
        · exact Nat.le_of_add_right_le (afterAll spawn member)
        · exact Nat.le_refl now
    · have spawns := spawnsOf_append session ⟨started, reason, now⟩
        { session.manager with
          round := .creating reason tmpl rest
          startRecords := Function.update session.manager.startRecords started
            ⟨now, (session.manager.startRecords started).retryCount + 1⟩ } id
      rw [if_neg same, List.append_nil] at spawns
      refine ⟨?_, ?_, ?_, ?_⟩
      · simpa [spawns, Function.update_of_ne (Ne.symm same)] using count
      · simpa [spawns] using recorded.few
      · simpa [spawns] using recorded.apart
      · simpa [spawns, Function.update_of_ne (Ne.symm same)] using recorded.last

/-! ## Starts because of the flag -/

section AutoStartOnce

variable (makeUuid : Nat → Uuid)

/-- Not an id of a template that is still to be made. -/
def NotToCome (made : Nat) (id : Uuid) : Prop := ∀ count, made ≤ count → makeUuid count ≠ id

/-- The rows of the template, if it has any, say that it has been started. -/
def Marked (templates : AbilityCRTable) (id : Uuid) : Prop :=
  ∀ row ∈ templates, row.instanceId = id → row.autoStarted = true

/-- A template that has been started because of its flag is not listed again. -/
structure AutoStartsOnce (session : Session) : Prop where
  unused : ∀ row ∈ session.manager.templates, NotToCome makeUuid session.made row.instanceId
  distinct : (session.manager.round.pending .autoStart).Nodup
  known : ∀ id ∈ session.manager.round.pending .autoStart, NotToCome makeUuid session.made id
  marked : ∀ id, session.manager.round.marked = some id → Marked session.manager.templates id
  spent : ∀ spawn ∈ session.spawns, spawn.reason = .autoStart →
    Marked session.manager.templates spawn.templateId ∧
      spawn.templateId ∉ session.manager.round.pending .autoStart ∧
      NotToCome makeUuid session.made spawn.templateId
  once : ((session.spawns.filter fun spawn => spawn.reason = .autoStart).map Spawn.templateId).Nodup

/-- Templates that come have fresh ids; of those that stay, `auto_started` stays as it is. -/
def TemplatesChange (session after : Session) : Prop :=
  ∀ row ∈ after.manager.templates,
    (∃ old ∈ session.manager.templates, old.instanceId = row.instanceId ∧ old.autoStarted = row.autoStarted) ∨
      ∃ count, session.made ≤ count ∧ count < after.made ∧ makeUuid count = row.instanceId

variable {makeUuid} {session : Session}

theorem mem_dbMarkAutoStarted {templates : AbilityCRTable} {id : Uuid} {row : AbilityCRBasic}
    (member : row ∈ dbMarkAutoStarted templates id) :
    ∃ old ∈ templates, old.instanceId = row.instanceId ∧
      (old.instanceId = id ∧ row.autoStarted = true ∨ old.instanceId ≠ id ∧ row = old) := by
  obtain ⟨old, oldMember, rfl⟩ := (Relation.mem_updateWhere _).mp member
  refine ⟨old, oldMember, ?_⟩
  by_cases same : old.instanceId = id <;> simp [same]

theorem marked_dbMarkAutoStarted {templates : AbilityCRTable} {id other : Uuid}
    (marked : other = id ∨ Marked templates other) : Marked (dbMarkAutoStarted templates id) other := by
  intro row member isOther
  obtain ⟨old, oldMember, sameId, ⟨_, isMarked⟩ | ⟨different, rfl⟩⟩ := mem_dbMarkAutoStarted member
  · exact isMarked
  · obtain rfl | marked := marked
    · exact absurd isOther different
    · exact marked row oldMember isOther

theorem mem_pending_of_marked {round : AutoStartRound} {id : Uuid} (isMarked : round.marked = some id) :
    id ∈ round.pending .autoStart := by
  cases round with
  | spawning reason current rest =>
    cases reason with
    | autoStart =>
      obtain rfl := Option.some.inj isMarked
      simp [AutoStartRound.pending]
    | keepAlive => cases isMarked
  | returned | loop | creating => cases isMarked

/-- What is listed because of the flag has not been marked. -/
theorem not_marked_of_listed {templates : AbilityCRTable} {id : Uuid} (isListed : id ∈ listed templates .autoStart) :
    ¬ Marked templates id := by
  obtain ⟨row, member, rfl⟩ := List.mem_map.mp isListed
  obtain ⟨member, due⟩ := Relation.mem_select.mp member
  intro marked
  simp [marked row member rfl] at due

theorem AutoStartsOnce.manager (sound : AutoStartsOnce makeUuid session) {after : InstanceState} {spawn : Option Spawn}
    (goes : ManagerStep session.manager after spawn) :
    AutoStartsOnce makeUuid { session with manager := after, spawns := session.spawns ++ spawn.toList } := by
  cases goes with
  | other templates records fewer marked =>
    simp only [Option.toList_none, List.append_nil]
    refine ⟨?_, (fewer .autoStart).nodup sound.distinct, fun id pending => sound.known id ((fewer .autoStart).subset pending),
      ?_, ?_, sound.once⟩
    · rw [templates]
      exact sound.unused
    · intro id isMarked
      rw [templates]
      exact sound.marked id (marked id isMarked)
    · intro spawn member isAuto
      obtain ⟨isMarked, notPending, notToCome⟩ := sound.spent spawn member isAuto
      rw [templates]
      exact ⟨isMarked, fun pending => notPending ((fewer .autoStart).subset pending), notToCome⟩
  | lists reason =>
    simp only [Option.toList_none, List.append_nil]
    cases reason with
    | keepAlive =>
      refine ⟨sound.unused, List.nodup_nil, by simp [AutoStartRound.pending], by simp [AutoStartRound.marked], ?_, sound.once⟩
      intro spawn member isAuto
      obtain ⟨isMarked, _, notToCome⟩ := sound.spent spawn member isAuto
      exact ⟨isMarked, List.not_mem_nil, notToCome⟩
    | autoStart =>
      refine ⟨sound.unused, ?_, ?_, by simp [AutoStartRound.marked], ?_, sound.once⟩
      · exact (List.filter_sublist.map AbilityCRBasic.instanceId).nodup session.manager.templates.keyed
      · intro id isListed
        obtain ⟨row, member, rfl⟩ := List.mem_map.mp isListed
        exact sound.unused row (Relation.mem_select.mp member).1
      · intro spawn member isAuto
        obtain ⟨isMarked, _, notToCome⟩ := sound.spent spawn member isAuto
        exact ⟨isMarked, fun isListed => not_marked_of_listed isListed isMarked, notToCome⟩
  | @marks id rest atFirst =>
    simp only [Option.toList_none, List.append_nil]
    have samePending : (AutoStartRound.spawning .autoStart id rest).pending .autoStart =
        session.manager.round.pending .autoStart := by
      rw [atFirst]
      rfl
    have known : ∀ other ∈ (AutoStartRound.spawning .autoStart id rest).pending .autoStart,
        NotToCome makeUuid session.made other := by
      rw [samePending]
      exact sound.known
    refine ⟨?_, (congrArg List.Nodup samePending).mpr sound.distinct, known, ?_, ?_, sound.once⟩
    · intro row member
      obtain ⟨old, oldMember, sameId, _⟩ := mem_dbMarkAutoStarted member
      rw [← sameId]
      exact sound.unused old oldMember
    · intro other isMarked
      obtain rfl := Option.some.inj isMarked
      exact marked_dbMarkAutoStarted (.inl rfl)
    · intro spawn member isAuto
      obtain ⟨isMarked, notPending, notToCome⟩ := sound.spent spawn member isAuto
      rw [← samePending] at notPending
      exact ⟨marked_dbMarkAutoStarted (.inr isMarked), notPending, notToCome⟩
  | @spawns reason id rest now tmpl spawning candidate =>
    cases reason with
    | keepAlive =>
      refine ⟨sound.unused, List.nodup_nil, by simp [AutoStartRound.pending], by simp [AutoStartRound.marked], ?_, ?_⟩
      · intro spawn member isAuto
        simp only [Option.toList_some, List.mem_append, List.mem_singleton] at member
        obtain member | rfl := member
        · obtain ⟨isMarked, _, notToCome⟩ := sound.spent spawn member isAuto
          exact ⟨isMarked, List.not_mem_nil, notToCome⟩
        · cases isAuto
      · simpa using sound.once
    | autoStart =>
      have pending : session.manager.round.pending .autoStart = id :: rest := by
        simp [spawning, AutoStartRound.pending]
      have distinct := sound.distinct
      rw [pending, List.nodup_cons] at distinct
      have isMarked : Marked session.manager.templates id := sound.marked id (by simp [spawning, AutoStartRound.marked])
      have notToCome : NotToCome makeUuid session.made id := sound.known id (by simp [pending])
      refine ⟨sound.unused, distinct.2, ?_, by simp [AutoStartRound.marked], ?_, ?_⟩
      · intro other isRest
        exact sound.known other (pending ▸ List.mem_cons_of_mem id isRest)
      · intro spawn member isAuto
        simp only [Option.toList_some, List.mem_append, List.mem_singleton] at member
        obtain member | rfl := member
        · obtain ⟨marked, notPending, notToCome⟩ := sound.spent spawn member isAuto
          rw [pending] at notPending
          exact ⟨marked, List.not_mem_of_not_mem_cons notPending, notToCome⟩
        · exact ⟨isMarked, distinct.1, notToCome⟩
      · simp only [Option.toList_some, List.filter_append, List.map_append]
        refine List.Nodup.append sound.once (by simp) ?_
        -- A template that had been started would not be pending.
        intro other earlier isId
        obtain ⟨spawn, member, rfl⟩ := List.mem_map.mp earlier
        obtain ⟨member, isAuto⟩ := List.mem_filter.mp member
        have notPending := (sound.spent spawn member (of_decide_eq_true isAuto)).2.1
        simp only [decide_true, List.filter_cons_of_pos, List.filter_nil, List.map_cons, List.map_nil,
          List.mem_singleton] at isId
        exact notPending (by simp [pending, isId])

theorem NotToCome.mono {made later : Nat} {id : Uuid} (notToCome : NotToCome makeUuid made id) (le : made ≤ later) :
    NotToCome makeUuid later id := fun count from_ => notToCome count (le.trans from_)

theorem AutoStartsOnce.templates (injective : Function.Injective makeUuid) (sound : AutoStartsOnce makeUuid session)
    (templates : AbilityCRTable) {made : Nat} (later : session.made ≤ made)
    (change : TemplatesChange makeUuid session { session.setTemplates templates with made }) :
    AutoStartsOnce makeUuid { session.setTemplates templates with made } := by
  have keepsMark {id : Uuid} (marked : Marked session.manager.templates id)
      (notToCome : NotToCome makeUuid session.made id) : Marked templates id := by
    intro row member isId
    obtain ⟨old, oldMember, sameId, sameMark⟩ | ⟨count, isLater, _, isMade⟩ := change row member
    · rw [← sameMark]
      exact marked old oldMember (sameId.trans isId)
    · exact absurd (isMade.trans isId) (notToCome count isLater)
  refine ⟨?_, sound.distinct, fun id pending => (sound.known id pending).mono later, ?_, ?_, sound.once⟩
  · intro row member
    obtain ⟨old, oldMember, sameId, _⟩ | ⟨count, _, earlier, isMade⟩ := change row member
    · rw [← sameId]
      exact (sound.unused old oldMember).mono later
    · intro other isLater same
      have sameCount := injective (same.trans isMade.symm)
      omega
  · intro id isMarked
    exact keepsMark (sound.marked id isMarked) (sound.known id (mem_pending_of_marked isMarked))
  · intro spawn member isAuto
    obtain ⟨isMarked, notPending, notToCome⟩ := sound.spent spawn member isAuto
    exact ⟨keepsMark isMarked notToCome, notPending, notToCome.mono later⟩

theorem AutoStartsOnce.deleteWhere (injective : Function.Injective makeUuid) (sound : AutoStartsOnce makeUuid session)
    (condition : AbilityCRBasic → Bool) :
    AutoStartsOnce makeUuid (session.setTemplates (session.manager.templates.deleteWhere condition)) := by
  refine sound.templates injective _ (Nat.le_refl session.made) fun row member => ?_
  exact .inl ⟨row, (Relation.mem_deleteWhere.mp member).1, rfl, rfl⟩

theorem AutoStartsOnce.addAbilityCr (injective : Function.Injective makeUuid) (sound : AutoStartsOnce makeUuid session)
    (cr : AbilityCR) : AutoStartsOnce makeUuid (session.addAbilityCr makeUuid cr) := by
  simp only [Session.addAbilityCr]
  split
  · exact sound
  · split
    · refine sound.templates injective _ (Nat.le_refl session.made) fun row member => ?_
      obtain ⟨old, oldMember, rfl⟩ := (Relation.mem_updateWhere fun row => row.show_instanceId cr _).mp member
      refine .inl ⟨old, oldMember, ?_⟩
      split <;> exact ⟨rfl, rfl⟩
    · refine sound.templates injective _ (Nat.le_succ session.made) fun row member => ?_
      obtain rfl | ⟨member, _⟩ := Relation.mem_replaceInto.mp member
      · exact .inr ⟨session.made, Nat.le_refl _, Nat.lt_succ_self _, rfl⟩
      · exact .inl ⟨row, member, rfl, rfl⟩

theorem AutoStartsOnce.step (injective : Function.Injective makeUuid) (sound : AutoStartsOnce makeUuid session)
    (event : SessionEvent) : AutoStartsOnce makeUuid (sessionStep makeUuid session event) := by
  cases event with
  | manager event => exact sound.manager (instanceStep_cases session.manager event)
  | addAbilityCr cr => exact sound.addAbilityCr injective cr
  | removeAbilityCr id => exact sound.deleteWhere injective _
  | reconcile names => exact sound.deleteWhere injective _

end AutoStartOnce

theorem Recorded.step {makeUuid : Nat → Uuid} {session : Session} {id : Uuid} (recorded : Recorded session id)
    (event : SessionEvent) : Recorded (sessionStep makeUuid session event) id := by
  cases event with
  | manager event => exact recorded.manager (instanceStep_cases session.manager event)
  | addAbilityCr cr =>
    simp only [sessionStep, Session.addAbilityCr]
    split
    · exact recorded
    · split <;> exact ⟨recorded.count, recorded.few, recorded.apart, recorded.last⟩
  | removeAbilityCr | reconcile => exact ⟨recorded.count, recorded.few, recorded.apart, recorded.last⟩

/-! ## Templates that are not kept alive -/

/-- No start of the template is for keeping it alive, and none is pending. -/
structure NoKeepAlive (id : Uuid) (session : Session) : Prop where
  notPending : id ∉ session.manager.round.pending .keepAlive
  flagged : ∀ spawn ∈ session.spawnsOf id, spawn.reason = .autoStart

theorem NoKeepAlive.manager {id : Uuid} {session : Session} (none : NoKeepAlive id session)
    (notKept : NotKeptAlive id session) {after : InstanceState} {spawn : Option Spawn}
    (goes : ManagerStep session.manager after spawn) :
    NoKeepAlive id { session with manager := after, spawns := session.spawns ++ spawn.toList } := by
  cases goes with
  | other templates records fewer marked =>
    simp only [Option.toList_none, List.append_nil]
    exact ⟨fun pending => none.notPending ((fewer .keepAlive).subset pending), none.flagged⟩
  | lists reason =>
    simp only [Option.toList_none, List.append_nil]
    refine ⟨?_, none.flagged⟩
    cases reason with
    | autoStart => exact List.not_mem_nil
    | keepAlive =>
      intro isListed
      obtain ⟨row, member, isId⟩ := List.mem_map.mp isListed
      obtain ⟨member, kept⟩ := Relation.mem_select.mp member
      rw [notKept row member isId] at kept
      cases kept
  | marks atFirst =>
    simp only [Option.toList_none, List.append_nil]
    exact ⟨List.not_mem_nil, none.flagged⟩
  | @spawns reason started rest now tmpl spawning candidate =>
    have notPending := none.notPending
    rw [spawning] at notPending
    cases reason with
    | autoStart =>
      refine ⟨List.not_mem_nil, ?_⟩
      simp only [Option.toList_some, spawnsOf_append, List.mem_append]
      rintro spawn (earlier | isNew)
      · exact none.flagged spawn earlier
      · split at isNew
        · rw [List.mem_singleton.mp isNew]
        · cases isNew
    | keepAlive =>
      have other : started ≠ id := fun same => notPending (by simp [AutoStartRound.pending, same])
      refine ⟨fun pending => notPending (List.mem_cons_of_mem started pending), ?_⟩
      simp only [Option.toList_some, spawnsOf_append, if_neg other, List.append_nil]
      exact none.flagged

theorem NoKeepAlive.step {makeUuid : Nat → Uuid} {id : Uuid} {session : Session} (none : NoKeepAlive id session)
    (notKept : NotKeptAlive id session) (event : SessionEvent) : NoKeepAlive id (sessionStep makeUuid session event) := by
  cases event with
  | manager event => exact none.manager notKept (instanceStep_cases session.manager event)
  | addAbilityCr cr =>
    simp only [sessionStep, Session.addAbilityCr]
    split
    · exact none
    · split <;> exact ⟨none.notPending, none.flagged⟩
  | removeAbilityCr | reconcile => exact ⟨none.notPending, none.flagged⟩

/-! ## Runs -/

section Runs

variable {makeUuid : Nat → Uuid} {templates : AbilityCRTable} {instances : AbilityInstanceTable}

theorem recorded_start (id : Uuid) : Recorded (.start templates instances) id :=
  ⟨rfl, Nat.zero_le 3, List.Pairwise.nil, by simp [Session.start, Session.spawnsOf]⟩

theorem autoStartsOnce_start (unused : ∀ row ∈ templates, ∀ count, makeUuid count ≠ row.instanceId) :
    AutoStartsOnce makeUuid (.start templates instances) where
  unused row member count _ := unused row member count
  distinct := List.nodup_nil
  known := by simp [Session.start, InstanceState.start, AutoStartRound.pending]
  marked := by simp [Session.start, InstanceState.start, AutoStartRound.marked]
  spent := by simp [Session.start]
  once := List.nodup_nil

/-- Of a template there is at most one start because of its flag. -/
theorem AutoStartsOnce.length_le {session : Session} (sound : AutoStartsOnce makeUuid session) (id : Uuid) :
    ((session.spawnsOf id).filter fun spawn => spawn.reason = .autoStart).length ≤ 1 := by
  have once := (List.nodup_iff_count_le_one.mp sound.once) id
  rw [List.count_eq_countP, List.countP_map, List.countP_filter] at once
  rw [Session.spawnsOf, List.filter_filter, ← List.countP_eq_length_filter]
  refine le_of_eq_of_le ?_ once
  refine List.countP_congr fun spawn _ => ?_
  simp [and_comm]

/-- In every session, automatic starts of a template stay within the budget; one that is not kept alive
is started at most once. -/
theorem autoStart_withinBudget (makeUuid : Nat → Uuid) (injective : Function.Injective makeUuid)
    (templates : AbilityCRTable) (unused : ∀ row ∈ templates, ∀ count, makeUuid count ≠ row.instanceId)
    (instances : AbilityInstanceTable) (events : List SessionEvent) (id : Uuid) :
    WithinBudget (Runs.run (sessionStep makeUuid) (.start templates instances) events) id ∧
      (Runs.Always (sessionStep makeUuid) (NotKeptAlive id) (.start templates instances) events →
        ((Runs.run (sessionStep makeUuid) (.start templates instances) events).spawnsOf id).length ≤ 1) := by
  have recorded : Recorded (Runs.run (sessionStep makeUuid) (.start templates instances) events) id :=
    Runs.run_invariant (Recorded · id) (fun _ event recorded => recorded.step event) _ (recorded_start id) events
  have sound : AutoStartsOnce makeUuid (Runs.run (sessionStep makeUuid) (.start templates instances) events) :=
    Runs.run_invariant (AutoStartsOnce makeUuid) (fun _ event sound => sound.step injective event) _
      (autoStartsOnce_start unused) events
  refine ⟨⟨recorded.few, recorded.apart, sound.length_le id⟩, fun notKept => ?_⟩
  have guarded : Runs.EachStep (sessionStep makeUuid) (fun session _ => NotKeptAlive id session)
      (.start templates instances) events :=
    Runs.eachStep_of_always (fun _ _ holds => holds) _ events notKept
  have none : NoKeepAlive id (Runs.run (sessionStep makeUuid) (.start templates instances) events) :=
    Runs.run_guarded (NoKeepAlive id) (fun _ event none notKept => none.step notKept event) _
      ⟨List.not_mem_nil, by simp [Session.start, Session.spawnsOf]⟩ events guarded
  have once := sound.length_le id
  rwa [List.filter_eq_self.mpr fun spawn member => decide_eq_true (none.flagged spawn member)] at once

/-- A template with the flag, which is loaded, started, and looked at again in a second round. -/
def startedOnce : List SessionEvent :=
  [.addAbilityCr ⟨9, ⟨"cr"⟩, some ⟨"package", "1.0.0", "ability", "localhost", some true, none, none⟩, none⟩,
    .manager .update, .manager (.autoStart 5 100), .manager (.autoStart 7 100), .manager (.autoStart 8 100),
    .manager (.autoStart 9 100), .manager (.autoStart 9 100), .manager .update, .manager (.autoStart 50 100)]

theorem startedOnce_withinBudget :
    (Runs.run (sessionStep fun made => made) (.start ∅ ∅) startedOnce).spawnsOf 0 = [⟨0, .autoStart, 7⟩] ∧
      WithinBudget (Runs.run (sessionStep fun made => made) (.start ∅ ∅) startedOnce) 0 := by
  refine ⟨by decide, ?_⟩
  exact (autoStart_withinBudget (fun made => made) Function.injective_id ∅ (by simp) ∅ startedOnce 0).1

end Runs

end AbilityFramework.ResourceMgr
