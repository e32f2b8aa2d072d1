import Mathlib.Data.List.Perm.Basic
import Mathlib.Data.Fintype.EquivFin
import AbilityFramework.Library.Runs
import AbilityFramework.ResourceMgr.AbilityInstance

/-! # Singleton abilities

Before an instance is made from a singleton template, the ability's active instances are queried.
The query misses instances in state `Inactive`, which is the state they are created in, and it misses
the creations that were admitted and are still to come.  An ability keeps to one instance exactly as
long as nothing is admitted for it while it has an instance or a creation of these kinds
(`singletons_iff_admitsAlone`). -/

namespace AbilityFramework.ResourceMgr

open Library Library.Runs LifecycleMgr

/-! ## The property -/

def AbilityCR.abilityName? (cr : AbilityCR) : Option String := cr.spec.map AbilitySpec.abilityName

/-- All templates of the ability are singleton, which is what the column is by default. -/
def AllSingleton (templates : AbilityCRTable) (abilityName : String) : Prop :=
  ∀ row ∈ templates.rows, row.crDetail.abilityName? = some abilityName → row.singleton = true

instance (templates : AbilityCRTable) (abilityName : String) : Decidable (AllSingleton templates abilityName) :=
  inferInstanceAs (Decidable (∀ row ∈ templates.rows, _))

def SingletonsHold (state : InstanceState) : Prop :=
  ∀ first ∈ state.instances.rows, ∀ second ∈ state.instances.rows, first.abilityName = second.abilityName →
    AllSingleton state.templates first.abilityName → first = second

instance (state : InstanceState) : Decidable (SingletonsHold state) :=
  inferInstanceAs (Decidable (∀ first ∈ state.instances.rows, _))

/-! ## Creations to come -/

def InstanceState.creating (state : InstanceState) : Option AbilityCR :=
  match state.round with
  | .creating _ cr _ => some cr
  | .returned | .loop _ _ | .spawning _ _ _ => none

/-- The templates for which a creation has been admitted and not yet carried out. -/
def InstanceState.admitted (state : InstanceState) : List AbilityCR :=
  state.creating.toList ++ state.tasks.map StartTask.cr

/-- The creation that an event admits. -/
def admission (state : InstanceState) : InstanceEvent → Option AbilityCR
  | .post request =>
    match postInstance state.templates state.instances request with
    | .submitted task => some task.cr
    | .templateNotFound _ | .singletonConstraint _ _ | .noSpec => none
  | .autoStart now _ => roundCandidate state now
  | _ => none

/-- The instances of an ability, present and to come. -/
def instancesToCome (state : InstanceState) (abilityName : String) : Nat :=
  (state.admitted.countP fun cr => cr.abilityName? = some abilityName) +
    (state.instances.select fun row => row.abilityName = abilityName).length

/-- Nothing is admitted for a singleton ability while a creation for it is to come or an instance of it
is `Inactive`. -/
def AdmitsAlone (state : InstanceState) (event : InstanceEvent) : Prop :=
  ∀ cr, admission state event = some cr → ∀ abilityName, cr.abilityName? = some abilityName →
    AllSingleton state.templates abilityName →
      (∀ other ∈ state.admitted, other.abilityName? ≠ some abilityName) ∧
        ∀ row ∈ state.instances, row.abilityName = abilityName → row.state ≠ .inactive

variable {state : InstanceState} {event : InstanceEvent} {abilityName : String}

/-! ## What the statements do -/

theorem createAbilityInstance_some {instances next : AbilityInstanceTable} {instanceId : Uuid}
    {cr : AbilityCR} (created : createAbilityInstance instances instanceId cr = some next) :
    ∃ row : AbilityInstance, row.state = .inactive ∧ cr.abilityName? = some row.abilityName ∧
      instances.insert row = some next := by
  unfold createAbilityInstance at created
  split at created
  · cases created
  · rename_i spec found
    exact ⟨_, rfl, by rw [AbilityCR.abilityName?, found]; rfl, created⟩

theorem createAbilityInstance_fresh {instances : AbilityInstanceTable} {instanceId : Uuid} {cr : AbilityCR}
    (fresh : instanceId ∉ instances.rows.map AbilityInstance.instanceId) (named : cr.abilityName? ≠ none) :
    ∃ next, createAbilityInstance instances instanceId cr = some next := by
  unfold createAbilityInstance
  cases found : cr.spec with
  | none => exact absurd (by rw [AbilityCR.abilityName?, found]; rfl) named
  | some spec => exact Relation.exists_insert fresh

theorem length_select_create (abilityName : String) {instances next : AbilityInstanceTable} {instanceId : Uuid} {cr : AbilityCR}
    (created : createAbilityInstance instances instanceId cr = some next) :
    (next.select fun row => row.abilityName = abilityName).length =
      (instances.select fun row => row.abilityName = abilityName).length +
        if cr.abilityName? = some abilityName then 1 else 0 := by
  obtain ⟨row, _, named, inserted⟩ := createAbilityInstance_some created
  rw [Relation.select_insert inserted, List.length_append, named]
  by_cases same : row.abilityName = abilityName <;> simp [same]

theorem length_select_delete (abilityName : String) (instances : AbilityInstanceTable) (instanceId : Uuid) :
    ((deleteAbilityInstance instances instanceId).select fun row => row.abilityName = abilityName).length ≤
      (instances.select fun row => row.abilityName = abilityName).length :=
  Relation.length_select_deleteWhere ..

theorem length_select_heartbeat (abilityName : String) (instances : AbilityInstanceTable) (hb : Heartbeat) :
    ((onEventHeartbeat instances hb).2.select fun row => row.abilityName = abilityName).length ≤
      (instances.select fun row => row.abilityName = abilityName).length := by
  unfold onEventHeartbeat
  split
  · exact length_select_delete abilityName instances hb.id
  · apply le_of_eq
    apply Relation.length_select_updateWhere
    · intro row
      rfl
    · intro row
      rfl

theorem length_select_deleteInstance (abilityName : String) (instances : AbilityInstanceTable) (id : Uuid) :
    ((deleteInstance instances id).2.select fun row => row.abilityName = abilityName).length ≤
      (instances.select fun row => row.abilityName = abilityName).length := by
  unfold deleteInstance
  split
  · exact le_rfl
  · exact length_select_delete abilityName instances id

theorem allSingleton_dbMarkAutoStarted (templates : AbilityCRTable) (id : Uuid) :
    AllSingleton (dbMarkAutoStarted templates id) abilityName ↔ AllSingleton templates abilityName := by
  simp only [AllSingleton, dbMarkAutoStarted, Relation.updateWhere, List.forall_mem_map]
  refine forall₂_congr fun row member => ?_
  split <;> rfl

/-! ## What a step does -/

section Counting

variable (cr : AbilityCR) (tasks : List StartTask) (abilityName : String)

def counts : Nat := if cr.abilityName? = some abilityName then 1 else 0

def tasksToCome : Nat := tasks.countP fun task => task.cr.abilityName? = some abilityName

theorem instancesToCome_eq (state : InstanceState) : instancesToCome state abilityName =
    (state.creating.elim 0 fun cr => counts cr abilityName) + tasksToCome state.tasks abilityName +
      (state.instances.select fun row => row.abilityName = abilityName).length := by
  unfold instancesToCome InstanceState.admitted
  rw [List.countP_append, List.countP_map]
  cases state.creating with
  | none => rfl
  | some cr => simp [counts, tasksToCome, List.countP_singleton, Function.comp_def]

theorem tasksToCome_submit (task : StartTask) :
    tasksToCome (tasks ++ [task]) abilityName = tasksToCome tasks abilityName + counts task.cr abilityName := by
  simp [tasksToCome, counts, List.countP_append, List.countP_singleton]

theorem tasksToCome_eraseIdx {task : StartTask} {index : Nat} (found : tasks[index]? = some task) :
    tasksToCome tasks abilityName =
      counts task.cr abilityName + tasksToCome (tasks.eraseIdx index) abilityName := by
  obtain ⟨inside, rfl⟩ := List.getElem?_eq_some_iff.mp found
  -- The task and the others are all tasks, in another order.
  have sameTasks := List.getElem_cons_eraseIdx_perm inside
  rw [tasksToCome, ← sameTasks.countP_eq, List.countP_cons, Nat.add_comm]
  simp [counts, tasksToCome]

theorem tasksToCome_eraseIdx_le (index : Nat) :
    tasksToCome (tasks.eraseIdx index) abilityName ≤ tasksToCome tasks abilityName :=
  (List.eraseIdx_sublist tasks index).countP_le

end Counting

theorem templates_autoStart (now : Nat) (instanceId : Uuid) :
    AllSingleton (autoStartAbility state now instanceId).templates abilityName ↔
      AllSingleton state.templates abilityName := by
  unfold autoStartAbility
  split
  · rfl
  · rfl
  · exact allSingleton_dbMarkAutoStarted _ _
  · rfl
  · split <;> rfl
  · split <;> rfl
  · split <;> rfl

theorem templates_step : AllSingleton (instanceStep state event).templates abilityName ↔
    AllSingleton state.templates abilityName := by
  cases event with
  | autoStart now instanceId => exact templates_autoStart now instanceId
  | post | createInstance | update =>
    simp only [instanceStep]
    split <;> rfl
  | taskFailed | roundThrows | heartbeat | delete | instanceExited => rfl

theorem toCome_autoStart_le (now : Nat) (instanceId : Uuid) :
    instancesToCome (autoStartAbility state now instanceId) abilityName ≤ instancesToCome state abilityName +
      (roundCandidate state now).elim 0 fun cr => counts cr abilityName := by
  simp only [instancesToCome_eq]
  cases round : state.round with
  | returned => simp [autoStartAbility, round]
  | loop reason ids =>
    cases reason with
    | autoStart => cases ids <;> simp [autoStartAbility, round, InstanceState.creating]
    | keepAlive =>
      cases ids with
      | nil => simp [autoStartAbility, round, InstanceState.creating]
      | cons id rest =>
        simp only [autoStartAbility, round]
        split <;> simp [InstanceState.creating, round]
  | spawning reason id rest =>
    simp only [autoStartAbility, round]
    cases candidate : roundCandidate state now with
    | none => simp [InstanceState.creating, round]
    | some cr =>
      simp [InstanceState.creating, round]
      omega
  | creating reason cr rest =>
    simp only [autoStartAbility, round]
    cases created : createAbilityInstance state.instances instanceId cr with
    | none =>
      simp [InstanceState.creating, round]
      omega
    | some next =>
      rw [length_select_create abilityName created]
      simp [InstanceState.creating, round, counts]
      omega

/-- An event adds at most the creation it admits to the instances of an ability, present and to come. -/
theorem toCome_step_le :
    instancesToCome (instanceStep state event) abilityName ≤ instancesToCome state abilityName +
      (admission state event).elim 0 fun cr => counts cr abilityName := by
  cases event with
  | post request =>
    cases posted : postInstance state.templates state.instances request with
    | submitted task =>
      simp only [instanceStep, admission, posted, instancesToCome_eq, InstanceState.creating,
        tasksToCome_submit, Option.elim_some]
      omega
    | templateNotFound | singletonConstraint | noSpec => simp [instanceStep, posted]
  | createInstance index instanceId =>
    simp only [instanceStep]
    cases found : state.tasks[index]? with
    | none => simp
    | some task =>
      have taken := tasksToCome_eraseIdx state.tasks abilityName found
      simp only [instancesToCome_eq, InstanceState.creating]
      cases created : createAbilityInstance state.instances instanceId task.cr with
      | none =>
        simp only [Option.getD_none]
        omega
      | some next =>
        have added := length_select_create abilityName created
        simp only [Option.getD_some, counts] at added taken ⊢
        omega
  | taskFailed index =>
    have fewer := tasksToCome_eraseIdx_le state.tasks abilityName index
    simp only [instanceStep, instancesToCome_eq, InstanceState.creating]
    omega
  | update =>
    simp only [instanceStep]
    split
    · rename_i round
      simp [instancesToCome_eq, InstanceState.creating, round]
    · simp
  | autoStart now instanceId => exact toCome_autoStart_le now instanceId
  | roundThrows =>
    simp [instanceStep, instancesToCome_eq, InstanceState.creating]
    omega
  | heartbeat hb =>
    have fewer := length_select_heartbeat abilityName state.instances hb
    simp only [instanceStep, instancesToCome_eq, InstanceState.creating]
    omega
  | delete id =>
    have fewer := length_select_deleteInstance abilityName state.instances id
    simp only [instanceStep, instancesToCome_eq, InstanceState.creating]
    omega
  | instanceExited id =>
    have fewer := length_select_delete abilityName state.instances id
    simp only [instanceStep, onAbilityInstanceExited, instancesToCome_eq, InstanceState.creating]
    omega

/-- An admitted creation is one more to come. -/
theorem toCome_admission {cr : AbilityCR} (admits : admission state event = some cr) :
    instancesToCome (instanceStep state event) abilityName =
      instancesToCome state abilityName + counts cr abilityName := by
  cases event with
  | post request =>
    simp only [admission] at admits
    cases posted : postInstance state.templates state.instances request with
    | submitted task =>
      simp only [posted, Option.some.injEq] at admits
      simp only [instanceStep, posted, instancesToCome_eq, InstanceState.creating, tasksToCome_submit, ← admits]
      omega
    | templateNotFound | singletonConstraint | noSpec => simp [posted] at admits
  | autoStart now instanceId =>
    have candidate : roundCandidate state now = some cr := admits
    cases round : state.round with
    | spawning reason id rest =>
      simp [instanceStep, autoStartAbility, round, candidate, instancesToCome_eq, InstanceState.creating]
      omega
    | returned | loop | creating => simp [roundCandidate, round] at candidate
  | createInstance | taskFailed | update | roundThrows | heartbeat | delete | instanceExited => cases admits

/-! ## What is checked before a creation is admitted -/

theorem singleton_of_template {row : AbilityCRBasic} (member : row ∈ state.templates)
    (named : (abilityCrFromDbBasic row).abilityName? = some abilityName)
    (singleton : AllSingleton state.templates abilityName) {spec : AbilitySpec}
    (found : (abilityCrFromDbBasic row).spec = some spec) :
    spec.singleton = some true ∧ spec.abilityName = abilityName := by
  cases detail : row.crDetail.spec with
  | none => simp [abilityCrFromDbBasic, detail] at found
  | some stored =>
    simp only [abilityCrFromDbBasic, detail, Option.map_some, Option.some.injEq] at found
    simp only [AbilityCR.abilityName?, abilityCrFromDbBasic, detail, Option.map_some,
      Option.some.injEq] at named
    have isSingleton := singleton row member (by simp [AbilityCR.abilityName?, detail, named])
    subst found
    exact ⟨by rw [isSingleton], named⟩

theorem getAbilityCr_some {templates : AbilityCRTable} {id : Uuid} {cr : AbilityCR}
    (found : getAbilityCr templates id = some cr) : ∃ row ∈ templates, abilityCrFromDbBasic row = cr := by
  obtain ⟨row, present, read⟩ := Option.map_eq_some_iff.mp found
  exact ⟨row, (Relation.lookup_eq_some.mp present).1, read⟩

theorem findTemplate_some {templates : AbilityCRTable} {request : InstanceRequest} {cr : AbilityCR}
    (found : findTemplate templates request = some cr) : ∃ row ∈ templates, abilityCrFromDbBasic row = cr := by
  unfold findTemplate at found
  split at found
  · rename_i named byId
    obtain ⟨id, _, byId⟩ := Option.bind_eq_some_iff.mp byId
    exact Option.some.inj found ▸ getAbilityCr_some byId
  · obtain ⟨row, member, read⟩ := List.mem_map.mp (List.mem_of_find?_eq_some found)
    exact ⟨row, member, read⟩

/-- Nothing is admitted for a singleton ability that has an active instance. -/
theorem noConflict_of_admission {cr : AbilityCR} (admits : admission state event = some cr)
    (named : cr.abilityName? = some abilityName) (singleton : AllSingleton state.templates abilityName) :
    getActiveInstancesByAbilityName state.instances abilityName = [] := by
  -- Both ways in read the template and query the conflicts of its spec.
  have checked : ∃ row ∈ state.templates, abilityCrFromDbBasic row = cr ∧
      ∃ spec, cr.spec = some spec ∧ singletonConflicts state.instances spec = [] := by
    cases event with
    | post request =>
      simp only [admission, postInstance] at admits
      cases found : findTemplate state.templates request with
      | none => simp [found] at admits
      | some tmpl =>
        cases hasSpec : tmpl.spec with
        | none => simp [found, hasSpec] at admits
        | some spec =>
          cases conflicts : singletonConflicts state.instances spec with
          | cons => simp [found, hasSpec, conflicts] at admits
          | nil =>
            simp only [found, hasSpec, conflicts, Option.some.injEq] at admits
            obtain ⟨row, member, read⟩ := findTemplate_some found
            exact ⟨row, member, admits ▸ read, spec, admits ▸ hasSpec, conflicts⟩
    | autoStart now instanceId =>
      have candidate : roundCandidate state now = some cr := admits
      cases round : state.round with
      | returned | loop | creating => simp [roundCandidate, round] at candidate
      | spawning reason id rest =>
        simp only [roundCandidate, round, spawnCandidate] at candidate
        cases found : getAbilityCr state.templates id with
        | none => simp [found] at candidate
        | some tmpl =>
          cases hasSpec : tmpl.spec with
          | none => simp [found, hasSpec] at candidate
          | some spec =>
            simp only [found, hasSpec] at candidate
            split_ifs at candidate with conflicts _ _
            obtain rfl := Option.some.inj candidate
            obtain ⟨row, member, read⟩ := getAbilityCr_some found
            exact ⟨row, member, read, spec, hasSpec, by simpa using conflicts⟩
    | createInstance | taskFailed | update | roundThrows | heartbeat | delete | instanceExited => cases admits
  obtain ⟨row, member, rfl, spec, hasSpec, conflicts⟩ := checked
  obtain ⟨isSingleton, same⟩ := singleton_of_template member named singleton hasSpec
  rwa [singletonConflicts, isSingleton, same] at conflicts

/-! ## The invariant -/

structure SingletonSound (state : InstanceState) : Prop where
  alone : ∀ abilityName, AllSingleton state.templates abilityName → instancesToCome state abilityName ≤ 1
  live : ∀ row ∈ state.instances, row.state ≠ .terminated

theorem singletonSound_start (templates : AbilityCRTable) : SingletonSound (.start templates) where
  alone := by
    intro abilityName _
    exact Nat.zero_le 1
  live := by
    intro row member
    exact absurd member (Relation.not_mem_empty row)

theorem SingletonSound.hold (sound : SingletonSound state) : SingletonsHold state := by
  intro first firstMember second secondMember sameName singleton
  have toCome := sound.alone first.abilityName singleton
  rw [instancesToCome_eq] at toCome
  -- What is present is at most what is present and to come.
  have few : (state.instances.select fun row => row.abilityName = first.abilityName).length ≤ 1 := by omega
  exact Relation.eq_of_length_select few firstMember (decide_eq_true rfl) secondMember
    (decide_eq_true sameName.symm)

theorem live_create {instances : AbilityInstanceTable} (live : ∀ row ∈ instances, row.state ≠ .terminated)
    (instanceId : Uuid) (cr : AbilityCR) :
    ∀ row ∈ (createAbilityInstance instances instanceId cr).getD instances, row.state ≠ .terminated := by
  intro row member
  cases created : createAbilityInstance instances instanceId cr with
  | none =>
    rw [created] at member
    exact live row member
  | some next =>
    rw [created] at member
    obtain ⟨new, inactive, _, inserted⟩ := createAbilityInstance_some created
    obtain old | rfl := (Relation.mem_insert inserted).mp member
    · exact live row old
    · rw [inactive]
      decide

theorem live_heartbeat {instances : AbilityInstanceTable} (live : ∀ row ∈ instances, row.state ≠ .terminated)
    (hb : Heartbeat) : ∀ row ∈ (onEventHeartbeat instances hb).2, row.state ≠ .terminated := by
  intro row member
  unfold onEventHeartbeat at member
  split at member
  · exact live row (Relation.mem_deleteWhere.mp member).1
  · rename_i alive
    have keeps : ∀ old, (AbilityInstance.report hb old).instanceId = old.instanceId := fun _ => rfl
    obtain ⟨old, oldMember, rfl⟩ := (Relation.mem_updateWhere keeps).mp member
    split
    · exact alive
    · exact live old oldMember

theorem live_step (live : ∀ row ∈ state.instances, row.state ≠ .terminated) :
    ∀ row ∈ (instanceStep state event).instances, row.state ≠ .terminated := by
  cases event with
  | post request =>
    simp only [instanceStep]
    split <;> exact live
  | createInstance index instanceId =>
    simp only [instanceStep]
    split
    · exact live
    · exact live_create live instanceId _
  | taskFailed | roundThrows => exact live
  | update =>
    simp only [instanceStep]
    split <;> exact live
  | autoStart now instanceId =>
    simp only [instanceStep, autoStartAbility]
    split
    · exact live
    · exact live
    · exact live
    · exact live
    · split <;> exact live
    · split <;> exact live
    · rename_i reason cr rest round
      have created := live_create live instanceId cr
      split
      · exact live
      · rename_i next found
        rwa [found] at created
  | heartbeat hb => exact live_heartbeat live hb
  | delete id =>
    simp only [instanceStep, deleteInstance]
    split
    · exact live
    · exact fun row member => live row (Relation.mem_deleteWhere.mp member).1
  | instanceExited id => exact fun row member => live row (Relation.mem_deleteWhere.mp member).1

theorem toCome_eq_zero : instancesToCome state abilityName = 0 ↔
    (∀ other ∈ state.admitted, other.abilityName? ≠ some abilityName) ∧
      ∀ row ∈ state.instances, row.abilityName ≠ abilityName := by
  simp [instancesToCome, List.countP_eq_zero, Relation.select_eq_nil, List.length_eq_zero_iff]

/-- Where nothing is terminated, an ability without active instances has only inactive ones. -/
theorem toCome_eq_zero_iff (live : ∀ row ∈ state.instances, row.state ≠ .terminated)
    (noConflict : getActiveInstancesByAbilityName state.instances abilityName = []) :
    instancesToCome state abilityName = 0 ↔
      (∀ other ∈ state.admitted, other.abilityName? ≠ some abilityName) ∧
        ∀ row ∈ state.instances, row.abilityName = abilityName → row.state ≠ .inactive := by
  rw [toCome_eq_zero]
  refine and_congr_right fun _ => forall₂_congr fun row member => ?_
  have inactive := Relation.select_eq_nil.mp noConflict row member
  have alive := live row member
  simp only [Bool.and_eq_true, decide_eq_true_eq, ne_eq, not_and, Decidable.not_not] at inactive
  constructor
  · intro other same
    exact absurd same other
  · intro active same
    exact alive (inactive ⟨same, active same⟩)

/-- A step that admits alone, or admits nothing, keeps the invariant. -/
theorem SingletonSound.step (sound : SingletonSound state) (alone : AdmitsAlone state event) :
    SingletonSound (instanceStep state event) where
  alone := by
    intro abilityName singleton
    have singletonBefore := templates_step.mp singleton
    have before := sound.alone abilityName singletonBefore
    cases admits : admission state event with
    | none =>
      have after : instancesToCome (instanceStep state event) abilityName ≤ _ := toCome_step_le
      simp only [admits, Option.elim_none] at after
      omega
    | some cr =>
      have after : instancesToCome (instanceStep state event) abilityName = _ := toCome_admission admits
      by_cases named : cr.abilityName? = some abilityName
      · have noConflict := noConflict_of_admission admits named singletonBefore
        have none := (toCome_eq_zero_iff sound.live noConflict).mpr (alone cr admits abilityName named singletonBefore)
        simp only [counts, named, if_true] at after
        omega
      · simp only [counts, named, if_false] at after
        omega
  live := live_step sound.live

/-! ## Carrying out what was admitted -/

def AdmitsNothing (state : InstanceState) (event : InstanceEvent) : Prop := admission state event = none

theorem exists_freshId (instances : AbilityInstanceTable) :
    ∃ id, id ∉ instances.rows.map AbilityInstance.instanceId := by
  obtain ⟨id, fresh⟩ := Infinite.exists_notMem_finset (instances.rows.map AbilityInstance.instanceId).toFinset
  exact ⟨id, fun member => fresh (List.mem_toFinset.mpr member)⟩

theorem createRows_fresh {instances : AbilityInstanceTable} {id : Uuid}
    (fresh : id ∉ instances.rows.map AbilityInstance.instanceId) (cr : AbilityCR) (abilityName : String) :
    (((createAbilityInstance instances id cr).getD instances).select
        fun row => row.abilityName = abilityName).length =
      (instances.select fun row => row.abilityName = abilityName).length + counts cr abilityName := by
  cases created : createAbilityInstance instances id cr with
  | some next => exact length_select_create abilityName created
  | none =>
    -- Under a fresh id a creation fails only without a spec, and then counts for no ability.
    have unnamed : cr.abilityName? = none := by
      by_contra named
      obtain ⟨next, some⟩ := createAbilityInstance_fresh fresh named
      rw [created] at some
      cases some
    simp [counts, unnamed]

/-- The round finishes the creation it is at, if it is at one. -/
theorem exists_finishRound (state : InstanceState) :
    ∃ events, EachStep instanceStep AdmitsNothing state events ∧
      (run instanceStep state events).creating = none ∧
        ∀ abilityName, instancesToCome (run instanceStep state events) abilityName =
          instancesToCome state abilityName := by
  cases round : state.round with
  | returned | loop | spawning => exact ⟨[], trivial, by simp [InstanceState.creating, round], fun _ => rfl⟩
  | creating reason cr rest =>
    obtain ⟨id, fresh⟩ := exists_freshId state.instances
    refine ⟨[.autoStart 0 id], ⟨by simp [AdmitsNothing, admission, roundCandidate, round], trivial⟩, ?_, ?_⟩
    · simp only [run_cons, run_nil, instanceStep, autoStartAbility, round]
      split <;> rfl
    · intro abilityName
      have rows := createRows_fresh fresh cr abilityName
      simp only [run_cons, run_nil, instanceStep, autoStartAbility, round, instancesToCome_eq]
      cases created : createAbilityInstance state.instances id cr with
      | none =>
        simp only [created, Option.getD_none] at rows
        simp [InstanceState.creating, round]
        omega
      | some next =>
        simp only [created, Option.getD_some] at rows
        simp [InstanceState.creating, round]
        omega

/-- The submitted tasks create their instances. -/
theorem exists_finishTasks (tasks : List StartTask) : ∀ state : InstanceState, state.tasks = tasks →
    ∃ events, EachStep instanceStep AdmitsNothing state events ∧
      (run instanceStep state events).tasks = [] ∧
      (run instanceStep state events).round = state.round ∧
        ∀ abilityName, instancesToCome (run instanceStep state events) abilityName =
          instancesToCome state abilityName := by
  induction tasks with
  | nil =>
    intro state none
    exact ⟨[], trivial, none, rfl, fun _ => rfl⟩
  | cons task tasks inductionHypothesis =>
    intro state submitted
    obtain ⟨id, fresh⟩ := exists_freshId state.instances
    have first : instanceStep state (.createInstance 0 id) =
        { state with
          tasks := tasks
          instances := (createAbilityInstance state.instances id task.cr).getD state.instances } := by
      simp [instanceStep, submitted]
    obtain ⟨events, admitsNothing, done, sameRound, sameToCome⟩ :=
      inductionHypothesis (instanceStep state (.createInstance 0 id)) (by rw [first])
    refine ⟨.createInstance 0 id :: events, ⟨rfl, admitsNothing⟩, done, ?_, ?_⟩
    · rw [run_cons, sameRound, first]
    · intro abilityName
      have rows := createRows_fresh fresh task.cr abilityName
      have added := tasksToCome_eraseIdx (task :: tasks) abilityName (List.getElem?_cons_zero)
      rw [run_cons, sameToCome, first]
      simp only [instancesToCome_eq, InstanceState.creating, submitted, List.eraseIdx_zero, List.tail_cons]
        at added rows ⊢
      omega

theorem exists_carryOut (state : InstanceState) :
    ∃ events, EachStep instanceStep AdmitsNothing state events ∧
      ∀ abilityName, ((run instanceStep state events).instances.select
        fun row => row.abilityName = abilityName).length = instancesToCome state abilityName := by
  -- First the round's creation, then the tasks', so that nothing is left to come.
  obtain ⟨first, firstAdmits, noneCreating, firstToCome⟩ := exists_finishRound state
  obtain ⟨second, secondAdmits, noTasks, sameRound, secondToCome⟩ :=
    exists_finishTasks _ (run instanceStep state first) rfl
  refine ⟨first ++ second, (eachStep_append state first second).mpr ⟨firstAdmits, secondAdmits⟩, ?_⟩
  intro abilityName
  have toCome := (secondToCome abilityName).trans (firstToCome abilityName)
  have stillNone : (run instanceStep (run instanceStep state first) second).creating = none := by
    rw [← noneCreating, InstanceState.creating, InstanceState.creating, sameRound]
  rw [instancesToCome_eq, stillNone, noTasks] at toCome
  rw [run_append]
  simpa [tasksToCome] using toCome

theorem templates_run (events : List InstanceEvent) :
    AllSingleton (run instanceStep state events).templates abilityName ↔
      AllSingleton state.templates abilityName := by
  refine run_invariant (fun later => AllSingleton later.templates abilityName ↔ _) ?_ state Iff.rfl events
  intro later event same
  exact templates_step.trans same

/-! ## The guarantee -/

/-- Singleton abilities have at most one instance, whatever happens next short of another admission: in
particular when what was admitted is carried out. -/
def SingletonsSettle (state : InstanceState) : Prop :=
  ∀ events, EachStep instanceStep AdmitsNothing state events → SingletonsHold (run instanceStep state events)

theorem SingletonSound.settle (sound : SingletonSound state) : SingletonsSettle state := by
  intro events admitsNothing
  refine SingletonSound.hold (run_guarded SingletonSound ?_ state sound events admitsNothing)
  intro later event soundLater nothing
  refine soundLater.step ?_
  intro cr admits
  rw [nothing] at admits
  cases admits

theorem toCome_of_settle (settles : SingletonsSettle state) (singleton : AllSingleton state.templates abilityName) :
    instancesToCome state abilityName ≤ 1 := by
  by_contra many
  obtain ⟨events, admitsNothing, carriedOut⟩ := exists_carryOut state
  have holds := settles events admitsNothing
  obtain ⟨first, firstMember, second, secondMember, firstName, secondName, different⟩ :=
    Relation.exists_ne_of_length_select (by rw [carriedOut abilityName]; omega)
  have firstName := of_decide_eq_true firstName
  have secondName := of_decide_eq_true secondName
  refine different (holds first firstMember second secondMember (firstName.trans secondName.symm) ?_)
  rw [firstName]
  exact (templates_run events).mpr singleton

theorem settle_iff_admitsAlone (templates : AbilityCRTable) (events : List InstanceEvent) :
    Always instanceStep SingletonsSettle (.start templates) events ↔
      EachStep instanceStep AdmitsAlone (.start templates) events := by
  refine always_exact SingletonSound ?_ ?_ ?_ _ (singletonSound_start templates) events
  · exact fun state sound => sound.settle
  · exact fun state event sound alone => sound.step alone
  · intro state event sound settles cr admits abilityName named singleton
    have toCome := toCome_of_settle settles (templates_step.mpr singleton)
    rw [toCome_admission admits, counts, if_pos named] at toCome
    exact (toCome_eq_zero_iff sound.live (noConflict_of_admission admits named singleton)).mp (by omega)

/-- In a run whose admissions are alone singleton abilities have at most one instance in every state;
and they have so in every state, also once what was admitted is carried out, in no other run. -/
theorem singletons_iff_admitsAlone (templates : AbilityCRTable) (events : List InstanceEvent) :
    (EachStep instanceStep AdmitsAlone (.start templates) events →
      Always instanceStep SingletonsHold (.start templates) events) ∧
    (Always instanceStep SingletonsSettle (.start templates) events ↔
      EachStep instanceStep AdmitsAlone (.start templates) events) := by
  refine ⟨?_, settle_iff_admitsAlone templates events⟩
  intro alone
  refine always_of_guarded SingletonSound ?_ ?_ _ (singletonSound_start templates) events alone
  · exact fun state sound => sound.hold
  · exact fun state event sound aloneNow => sound.step aloneNow

def cameraTemplate : AbilityCRBasic where
  instanceId := 1
  instanceName := "camera"
  autostart := false
  autoStarted := false
  keepAlive := false
  singleton := true
  crDetail :=
    { id := 1
      metadata := ⟨"camera"⟩
      spec := some ⟨"camera.pkg", "1.0.0", "Camera", "localhost", none, none, none⟩
      runInfo := none }

/-- The second request is admitted before the first one's task has created its instance. -/
def twoPosts : List InstanceEvent :=
  let request : InstanceRequest := ⟨"camera", none, true, true⟩
  [.post request, .post request, .createInstance 0 10, .createInstance 0 11]

theorem twoPosts_not_singleton :
    ¬ SingletonsHold (run instanceStep (.start ⟨[cameraTemplate], by decide⟩) twoPosts) := by
  decide

end AbilityFramework.ResourceMgr
