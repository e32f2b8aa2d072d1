import AbilityFramework.LifecycleMgr.ServiceLifecycle

/-! # The restart budget

Between two starts of a service the manager spawns one process for the start and one for each
restart, and `restartCount` counts the restarts; `should_restart` lets it grow only below
`maxRestarts`.  A stopped entry takes no turn but to stay stopped.  Both facts hold for every turn an
entry can take (`Turn`), so they hold over every run. -/

namespace AbilityFramework.LifecycleMgr

open Library

/-- The most restarts a service is allowed between two starts. -/
def ServiceCR.budget (cr : ServiceCR) : Int := max 0 cr.spec.maxRestarts

/-! ## Counting restarts -/

theorem Turn.count_le_budget {old new : ServiceEntry} {spawns : Nat} (turn : Turn old new spawns)
    (within : old.restartCount ≤ old.cr.budget) : new.restartCount ≤ new.cr.budget := by
  cases turn with
  | kept sameCr sameCount _ => rwa [sameCount, sameCr]
  | restarted _ _ budget sameCr counted _ =>
    rw [counted, sameCr]
    simp only [ServiceCR.budget]
    omega

def WithinBudget (state : Services) : Prop :=
  ∀ id entry, state.services id = some entry → entry.restartCount ≤ entry.cr.budget

theorem startService_entry (state : Services) (cr : ServiceCR) (executablePath : String) (spawned : Bool) :
    ∃ entry, (startService state cr executablePath spawned).services cr.id = some entry ∧
      entry.cr = cr ∧ entry.restartCount = 0 := by
  cases spawned with
  | true => exact ⟨_, Services.setEntry_self, rfl, rfl⟩
  | false => exact ⟨_, Services.setEntry_self, rfl, rfl⟩

theorem startService_spawnCount (state : Services) (cr : ServiceCR) (executablePath : String)
    (spawned : Bool) :
    (startService state cr executablePath spawned).spawnCount cr.id ≤ state.spawnCount cr.id + 1 := by
  cases spawned with
  | true => simp [startService]
  | false => simp [startService]

/-- What a start establishes and every turn preserves holds of all entries. -/
theorem serviceStep_entries (holds : ServiceEntry → Prop)
    (fresh : ∀ entry : ServiceEntry, entry.restartCount = 0 → holds entry)
    (turns : ∀ {old new : ServiceEntry} {spawns : Nat}, Turn old new spawns → holds old → holds new)
    (state : Services) (event : ServiceEvent)
    (before : ∀ id entry, state.services id = some entry → holds entry) :
    ∀ id entry, (serviceStep state event).services id = some entry → holds entry := by
  intro id new found
  by_cases starts : event.Starts id
  · cases event with
    | start cr executablePath spawned =>
      have same : cr.id = id := starts
      obtain ⟨entry, foundEntry, _, unrestarted⟩ := startService_entry state cr executablePath spawned
      rw [serviceStep, ← same, foundEntry, Option.some.injEq] at found
      rw [← found]
      exact fresh entry unrestarted
    | stop _ => exact starts.elim
    | die _ => exact starts.elim
    | exit _ _ _ => exact starts.elim
    | health _ _ _ => exact starts.elim
  · obtain ⟨_, gone, _⟩ | ⟨old, next, spawns, foundOld, foundNew, _, turn⟩ :=
      serviceStep_takesTurn state event id starts
    · rw [gone] at found
      cases found
    · rw [foundNew, Option.some.injEq] at found
      rw [← found]
      exact turns turn (before id old foundOld)

theorem serviceStep_withinBudget (state : Services) (event : ServiceEvent) (within : WithinBudget state) :
    WithinBudget (serviceStep state event) := by
  refine serviceStep_entries (fun entry => entry.restartCount ≤ entry.cr.budget) ?_ ?_ state event within
  · intro entry fresh
    rw [fresh]
    exact Int.le_max_left 0 _
  · intro old new spawns turn
    exact turn.count_le_budget

/-! ## Counting processes -/

/-- Since a start at which `base` processes had been spawned, every process but the start's own is
accounted for by a restart. -/
def Accounted (cr : ServiceCR) (base : Nat) (state : Services) : Prop :=
  ∃ entry, state.services cr.id = some entry ∧ entry.cr = cr ∧ entry.restartCount ≤ cr.budget ∧
    (state.spawnCount cr.id : Int) ≤ base + 1 + entry.restartCount

theorem accounted_start (state : Services) (cr : ServiceCR) (executablePath : String) (spawned : Bool) :
    Accounted cr (state.spawnCount cr.id) (startService state cr executablePath spawned) := by
  obtain ⟨entry, found, sameCr, fresh⟩ := startService_entry state cr executablePath spawned
  have spawns := startService_spawnCount state cr executablePath spawned
  refine ⟨entry, found, sameCr, ?_, ?_⟩
  · rw [fresh]
    exact Int.le_max_left 0 _
  · omega

theorem serviceStep_accounted {cr : ServiceCR} {base : Nat} (state : Services) (event : ServiceEvent)
    (accounted : Accounted cr base state) (unstarted : ¬ event.Starts cr.id) :
    Accounted cr base (serviceStep state event) := by
  obtain ⟨entry, found, sameCr, within, spawned⟩ := accounted
  obtain ⟨gone, _⟩ | ⟨old, new, spawns, foundOld, foundNew, count, turn⟩ :=
    serviceStep_takesTurn state event cr.id unstarted
  · rw [gone] at found
    cases found
  · rw [found, Option.some.injEq] at foundOld
    subst foundOld
    have newWithin := turn.count_le_budget (by rwa [sameCr])
    cases turn with
    | kept keptCr keptCount _ =>
      rw [keptCr, sameCr] at newWithin
      exact ⟨new, foundNew, keptCr.trans sameCr, newWithin, by omega⟩
    | restarted _ _ _ keptCr counted atMostOne =>
      rw [keptCr, sameCr] at newWithin
      exact ⟨new, foundNew, keptCr.trans sameCr, newWithin, by omega⟩

/-! ## Stopped services -/

/-- A service that has no entry or a stopped one, with `count` processes spawned for it so far. -/
def AtRest (id : Uuid) (count : Nat) (state : Services) : Prop :=
  (∀ entry, state.services id = some entry → entry.state = .stopped) ∧ state.spawnCount id = count

theorem atRest_stop (state : Services) (id : Uuid) :
    AtRest id (state.spawnCount id) (serviceStep state (.stop id)) := by
  constructor
  · intro entry found
    simp only [serviceStep, killCurrent_services, stopService] at found
    cases before : state.services id with
    | none =>
      simp only [before] at found
      cases found
    | some old =>
      simp only [before, Services.setEntry_self, Option.some.injEq] at found
      rw [← found]
  · simp only [serviceStep, killCurrent_spawnCount, stopService]
    split <;> rfl

theorem serviceStep_atRest {id : Uuid} {count : Nat} (state : Services) (event : ServiceEvent)
    (atRest : AtRest id count state) (unstarted : ¬ event.Starts id) :
    AtRest id count (serviceStep state event) := by
  obtain ⟨stopped, spawned⟩ := atRest
  obtain ⟨_, gone, sameCount⟩ | ⟨old, new, spawns, foundOld, foundNew, count', turn⟩ :=
    serviceStep_takesTurn state event id unstarted
  · refine ⟨fun entry found => ?_, sameCount.trans spawned⟩
    rw [gone] at found
    cases found
  · cases turn with
    | kept _ _ stays =>
      refine ⟨fun entry found => ?_, count'.trans spawned⟩
      rw [foundNew, Option.some.injEq] at found
      rw [← found]
      exact stays (stopped old foundOld)
    | restarted _ unstopped _ _ _ _ => exact absurd (stopped old foundOld) unstopped

/-! ## Runs -/

/-- The restart budget, over every run from the empty manager: the count stays within it, a start
and what follows it spawn at most one process more than it, and a stop is final until the next start. -/
theorem restart_budget :
    (∀ events id entry, (Runs.run serviceStep noServices events).services id = some entry →
      entry.restartCount ≤ entry.cr.budget) ∧
    (∀ before cr executablePath spawned after, (∀ event ∈ after, ¬ ServiceEvent.Starts cr.id event) →
      ((Runs.run serviceStep noServices (before ++ .start cr executablePath spawned :: after)).spawnCount cr.id :
        Int) ≤ (Runs.run serviceStep noServices before).spawnCount cr.id + 1 + cr.budget) ∧
    ∀ before id after, (∀ event ∈ after, ¬ ServiceEvent.Starts id event) →
      (Runs.run serviceStep noServices (before ++ .stop id :: after)).spawnCount id =
        (Runs.run serviceStep noServices before).spawnCount id := by
  refine ⟨?_, ?_, ?_⟩
  · intro events
    refine Runs.run_invariant WithinBudget serviceStep_withinBudget noServices ?_ events
    exact fun id entry found => absurd found (noServices_services id entry)
  · intro before cr executablePath spawned after unstarted
    rw [Runs.run_append, Runs.run_cons]
    generalize Runs.run serviceStep noServices before = state
    -- What follows the start is accounted for from the state the start leaves.
    have accounted : Accounted cr (state.spawnCount cr.id)
        (Runs.run serviceStep (serviceStep state (.start cr executablePath spawned)) after) :=
      Runs.run_guarded _ serviceStep_accounted _ (accounted_start state cr executablePath spawned) after
        ((Runs.eachStep_iff_forall serviceStep _ after).mpr unstarted)
    obtain ⟨entry, _, _, within, spawned⟩ := accounted
    omega
  · intro before id after unstarted
    rw [Runs.run_append, Runs.run_cons]
    generalize Runs.run serviceStep noServices before = state
    have atRest : AtRest id (state.spawnCount id) (Runs.run serviceStep (serviceStep state (.stop id)) after) :=
      Runs.run_guarded _ serviceStep_atRest _ (atRest_stop state id) after
        ((Runs.eachStep_iff_forall serviceStep _ after).mpr unstarted)
    exact atRest.2

/-- A service with one restart whose process exits twice. -/
theorem restart_budget_crashing :
    ((Runs.run serviceStep noServices
      [.start ⟨7, { maxRestarts := 1 }⟩ "svc" true, .die 0, .exit 0 1 true, .die 1, .exit 1 1 true]).spawnCount 7 :
        Int) ≤ 0 + 1 + 1 :=
  restart_budget.2.1 [] ⟨7, { maxRestarts := 1 }⟩ "svc" true [.die 0, .exit 0 1 true, .die 1, .exit 1 1 true]
    (by decide)

end AbilityFramework.LifecycleMgr
