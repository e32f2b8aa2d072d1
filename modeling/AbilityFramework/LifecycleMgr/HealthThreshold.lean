import AbilityFramework.LifecycleMgr.ServiceBudget

/-! # The threshold of failed health checks

The manager keeps for every service how many probes have failed in a row, and resets the number in four
places: at a start, at a restart whose spawn succeeds, at a successful probe, and when the threshold is
reached, before it decides between a restart and a failure.  Here the number is counted a second time,
from what has happened to the service and never from the stored counter, and the two are shown to agree. -/

namespace AbilityFramework.LifecycleMgr

open Library

/-! ## Counting from outside -/

/-- The service's turn in a round raises its restart count or changes its state. -/
def decides (state : Services) (id : Uuid) (response : Option Int) (spawned : Bool) : Bool :=
  match state.services id, (checkHealth state id response spawned).services id with
  | some old, some new => old.restartCount ≠ new.restartCount || old.state ≠ new.state
  | _, _ => false

/-- How many probes in a row have failed after the service's turn in a round, if `streak` have before it. -/
def streakAfterProbe (id : Uuid) (state : Services) (streak : Nat) (response : Option Int) (spawned : Bool) : Nat :=
  if (state.services id).bind ServiceEntry.probed = none then streak
  else if probeSucceeds response || decides state id response spawned then 0
  else streak + 1

def streakAfterTurn (id : Uuid) (state : Services) (streak : Nat) : ServiceEvent → Nat
  | .health checked response spawned =>
    if checked = id then streakAfterProbe id state streak response spawned else streak
  | _ => streak

/-- The same after any step.  A spawn for the service is a start or a restart of it. -/
def streakAfter (id : Uuid) (state : Services) (streak : Nat) (event : ServiceEvent) : Nat :=
  if event.Starts id ∨ (serviceStep state event).spawnCount id ≠ state.spawnCount id then 0
  else streakAfterTurn id state streak event

structure Watched where
  services : Services
  streak : Nat

def watchedStep (id : Uuid) (watched : Watched) (event : ServiceEvent) : Watched :=
  ⟨serviceStep watched.services event, streakAfter id watched.services watched.streak event⟩

/-- The number of failed probes of a service since its last success, start, restart or decision. -/
def failureStreak (id : Uuid) (events : List ServiceEvent) : Nat :=
  (Runs.run (watchedStep id) ⟨noServices, 0⟩ events).streak

theorem run_watched (id : Uuid) (watched : Watched) (events : List ServiceEvent) :
    (Runs.run (watchedStep id) watched events).services = Runs.run serviceStep watched.services events := by
  induction events generalizing watched with
  | nil => rfl
  | cons event events inductionHypothesis => exact inductionHypothesis (watchedStep id watched event)

/-! ## Steps other than a probe -/

section Steps

variable {state : Services} {id : Uuid} {entry new : ServiceEntry} {event : ServiceEvent}

/-- The counter after a step that is no turn of the service in a round. -/
inductive Uncounted (id : Uuid) (state : Services) (event : ServiceEvent) (new : ServiceEntry) : Prop where
  | kept (old : ServiceEntry) (found : state.services id = some old) (sameCr : new.cr = old.cr)
      (sameFailures : new.consecutiveHealthFailures = old.consecutiveHealthFailures)
      (unstarted : ¬ event.Starts id) (unspawned : (serviceStep state event).spawnCount id = state.spawnCount id)
  | reset (fresh : new.consecutiveHealthFailures = 0)
      (begun : event.Starts id ∨ (serviceStep state event).spawnCount id ≠ state.spawnCount id)

theorem uncounted_same (found : (serviceStep state event).services id = some new)
    (same : (serviceStep state event).services id = state.services id) (unstarted : ¬ event.Starts id)
    (unspawned : (serviceStep state event).spawnCount id = state.spawnCount id) : Uncounted id state event new :=
  .kept new (same.symm.trans found) rfl rfl unstarted unspawned

theorem uncounted_start (cr : ServiceCR) (executablePath : String) (spawned : Bool)
    (found : (serviceStep state (.start cr executablePath spawned)).services id = some new) :
    Uncounted id state (.start cr executablePath spawned) new := by
  by_cases same : cr.id = id
  · refine .reset ?_ (.inl same)
    rw [serviceStep, ← same] at found
    cases spawned with
    | true => exact (Option.some.inj (Services.setEntry_self.symm.trans found)) ▸ rfl
    | false => exact (Option.some.inj (Services.setEntry_self.symm.trans found)) ▸ rfl
  · have different : id ≠ cr.id := Ne.symm same
    refine uncounted_same found ?_ same ?_
    · cases spawned with
      | true => exact Services.setEntry_other different
      | false => exact Services.setEntry_other different
    · cases spawned with
      | true => simp [serviceStep, startService, same]
      | false => rfl

theorem uncounted_stop (stopped : Uuid) (found : (serviceStep state (.stop stopped)).services id = some new) :
    Uncounted id state (.stop stopped) new := by
  have unspawned : (serviceStep state (.stop stopped)).spawnCount id = state.spawnCount id := by
    rw [serviceStep, killCurrent_spawnCount, stopService]
    split <;> rfl
  by_cases same : stopped = id
  · subst same
    simp only [serviceStep, killCurrent_services, stopService] at found
    split at found
    · exact .kept new found rfl rfl not_false unspawned
    · rename_i old foundOld
      have isNew := Option.some.inj (Services.setEntry_self.symm.trans found)
      exact .kept old foundOld (isNew ▸ rfl) (isNew ▸ rfl) not_false unspawned
  · refine uncounted_same found ?_ not_false unspawned
    rw [serviceStep, killCurrent_services, stopService]
    split
    · rfl
    · exact Services.setEntry_other (Ne.symm same)

theorem uncounted_exit (process : Nat) (exitCode : Int) (spawned : Bool)
    (found : (serviceStep state (.exit process exitCode spawned)).services id = some new) :
    Uncounted id state (.exit process exitCode spawned) new := by
  obtain same | ⟨service, exited, result⟩ := serviceStep_exit_cases state process exitCode spawned
  · exact uncounted_same found (by rw [same]) not_false (by rw [same])
  by_cases same : service = id
  · subst same
    cases before : state.services service with
    | none =>
      rw [result, onServiceExit, Services.setStatus_services, before] at found
      exact absurd (before.symm.trans found) (Option.some_ne_none new).symm
    | some old =>
      simp only [onServiceExit, Services.setStatus_services, before] at result
      split at result
      · rw [result] at found
        refine .kept new found rfl rfl not_false ?_
        rw [result, Services.setStatus_spawnCount]
      · split at result
        · cases spawned with
          | true =>
            -- The restarted service has one more process.
            refine .reset ?_ (.inr ?_)
            · rw [result] at found
              exact (Option.some.inj (Services.setEntry_self.symm.trans found)) ▸ rfl
            · simp [result, doRestart]
          | false =>
            rw [result] at found
            have isNew := Option.some.inj (Services.setEntry_self.symm.trans found)
            refine .kept old before (isNew ▸ rfl) (isNew ▸ rfl) not_false ?_
            simp [result, doRestart]
        · rw [result] at found
          have isNew := Option.some.inj (Services.setEntry_self.symm.trans found)
          refine .kept old before (isNew ▸ rfl) (isNew ▸ rfl) not_false ?_
          simp [result]
  · have untouched := onServiceExit_touches (state.setStatus process .reaped) service exitCode spawned id
      (Ne.symm same)
    refine uncounted_same found ?_ not_false ?_
    · rw [result, untouched.1, Services.setStatus_services]
    · rw [result, untouched.2, Services.setStatus_spawnCount]

theorem uncounted_health (checked : Uuid) (response : Option Int) (spawned : Bool) (different : checked ≠ id)
    (found : (serviceStep state (.health checked response spawned)).services id = some new) :
    Uncounted id state (.health checked response spawned) new := by
  have untouched := checkHealth_touches state checked response spawned id (Ne.symm different)
  exact uncounted_same found untouched.1 not_false untouched.2

end Steps

/-! ## Probes -/

section Probes

variable {state : Services} {id : Uuid} {entry : ServiceEntry} {probe : Probe}

/-- The stored counter is the streak, and below the threshold if the service has one. -/
def Tracks (id : Uuid) (state : Services) (streak : Nat) : Prop :=
  ∀ entry, state.services id = some entry → entry.consecutiveHealthFailures = streak ∧
    ∀ probe, entry.liveness = some probe → (streak : Int) < max 1 probe.failureThreshold

/-- What a probe does to the service's entry and to the number of its processes. -/
inductive ProbeTurn (entry : ServiceEntry) (probe : Probe) (response : Option Int) : ServiceEntry → Nat → Prop where
  | healthy (succeeds : probeSucceeds response = true) :
      ProbeTurn entry probe response { entry with consecutiveHealthFailures := 0 } 0
  | counted (fails : probeSucceeds response = false)
      (below : entry.consecutiveHealthFailures + 1 < probe.failureThreshold) :
      ProbeTurn entry probe response
        { entry with consecutiveHealthFailures := entry.consecutiveHealthFailures + 1 } 0
  | decided (fails : probeSucceeds response = false)
      (reached : probe.failureThreshold ≤ entry.consecutiveHealthFailures + 1) (new : ServiceEntry) (spawns : Nat)
      (changed : entry.restartCount ≠ new.restartCount ∨ entry.state ≠ new.state) (sameCr : new.cr = entry.cr)
      (fresh : new.consecutiveHealthFailures = 0) : ProbeTurn entry probe response new spawns

theorem checkHealth_probeTurn (found : state.services id = some entry) (probed : entry.probed = some probe)
    (response : Option Int) (spawned : Bool) :
    ∃ new spawns, (checkHealth state id response spawned).services id = some new ∧
      (checkHealth state id response spawned).spawnCount id = state.spawnCount id + spawns ∧
      ProbeTurn entry probe response new spawns := by
  have running := (ServiceEntry.probed_eq_some_iff.mp probed).1
  rw [checkHealth_probed found probed]
  cases succeeds : probeSucceeds response with
  | true => exact ⟨_, 0, Services.setEntry_self, rfl, .healthy succeeds⟩
  | false =>
    rw [if_neg (by decide)]
    by_cases reached : probe.failureThreshold ≤ entry.consecutiveHealthFailures + 1
    · rw [if_pos reached]
      split
      · have more : entry.restartCount ≠ entry.restartCount + 1 := by omega
        cases spawned with
        | true =>
          refine ⟨_, 1, Services.setEntry_self, ?_, .decided succeeds reached _ 1 (.inl more) rfl rfl⟩
          simp [doRestart]
        | false => exact ⟨_, 0, Services.setEntry_self, rfl, .decided succeeds reached _ 0 (.inl more) rfl rfl⟩
      · have failed : entry.state ≠ .failed := by
          rw [running]
          decide
        exact ⟨_, 0, Services.setEntry_self, rfl, .decided succeeds reached _ 0 (.inr failed) rfl rfl⟩
    · rw [if_neg reached]
      exact ⟨_, 0, Services.setEntry_self, rfl, .counted succeeds (Int.not_le.mp reached)⟩

theorem decides_of_found {new : ServiceEntry} {response : Option Int} {spawned : Bool}
    (found : state.services id = some entry)
    (foundNew : (checkHealth state id response spawned).services id = some new) :
    decides state id response spawned = true ↔
      entry.restartCount ≠ new.restartCount ∨ entry.state ≠ new.state := by
  simp only [decides, found, foundNew, Bool.or_eq_true, decide_eq_true_eq]

theorem decides_unprobed (found : state.services id = some entry) (unprobed : entry.probed = none)
    (response : Option Int) (spawned : Bool) : ¬ decides state id response spawned = true := by
  have same : (checkHealth state id response spawned).services id = some entry := by
    rw [checkHealth_unprobed found unprobed, found]
  rw [decides_of_found found same]
  exact not_or.mpr ⟨not_not.mpr rfl, not_not.mpr rfl⟩

theorem decides_probed (found : state.services id = some entry) (probed : entry.probed = some probe)
    (response : Option Int) (spawned : Bool) :
    decides state id response spawned = true ↔
      probeSucceeds response = false ∧ probe.failureThreshold ≤ entry.consecutiveHealthFailures + 1 := by
  obtain ⟨new, spawns, foundNew, _, turn⟩ := checkHealth_probeTurn found probed response spawned
  rw [decides_of_found found foundNew]
  cases turn with
  | healthy succeeds => simp [succeeds]
  | counted fails below =>
    refine iff_of_false (not_or.mpr ⟨not_not.mpr rfl, not_not.mpr rfl⟩) ?_
    exact fun reached => absurd reached.2 (Int.not_le.mpr below)
  | decided fails reached _ _ changed _ _ => exact iff_of_true changed ⟨fails, reached⟩

/-- While the stored counter is below the threshold, one more failure reaches it or stays below. -/
theorem reached_iff {streak : Nat} {failureThreshold : Int} (below : (streak : Int) < max 1 failureThreshold) :
    failureThreshold ≤ (streak : Int) + 1 ↔ (streak : Int) + 1 = max 1 failureThreshold := by
  omega

theorem tracks_of_uncounted {event : ServiceEvent} {streak : Nat} (tracks : Tracks id state streak)
    (otherTurn : ∀ response spawned, event ≠ .health id response spawned)
    (uncounted : ∀ new, (serviceStep state event).services id = some new → Uncounted id state event new) :
    Tracks id (serviceStep state event) (streakAfter id state streak event) := by
  intro new found
  cases uncounted new found with
  | kept old foundOld sameCr sameFailures unstarted unspawned =>
    have streaks : streakAfter id state streak event = streak := by
      rw [streakAfter, if_neg (not_or.mpr ⟨unstarted, not_not.mpr unspawned⟩)]
      cases event with
      | health checked response spawned =>
        rw [streakAfterTurn, if_neg]
        rintro rfl
        exact otherTurn response spawned rfl
      | start _ _ _ => rfl
      | stop _ => rfl
      | die _ => rfl
      | exit _ _ _ => rfl
    obtain ⟨stored, below⟩ := tracks old foundOld
    rw [streaks]
    refine ⟨sameFailures.trans stored, fun probe live => below probe ?_⟩
    rwa [ServiceEntry.liveness, ← sameCr]
  | reset fresh begun =>
    rw [streakAfter, if_pos begun]
    refine ⟨fresh, fun probe _ => ?_⟩
    omega

theorem tracks_health {streak : Nat} (tracks : Tracks id state streak) (response : Option Int) (spawned : Bool) :
    Tracks id (serviceStep state (.health id response spawned))
      (streakAfter id state streak (.health id response spawned)) := by
  intro new foundNew
  rw [streakAfter, streakAfterTurn, if_pos rfl, streakAfterProbe]
  simp only [ServiceEvent.Starts, false_or]
  rw [serviceStep] at foundNew ⊢
  cases found : state.services id with
  | none =>
    rw [checkHealth_absent found, found] at foundNew
    cases foundNew
  | some entry =>
    rw [Option.bind_some]
    cases probed : entry.probed with
    | none =>
      rw [checkHealth_unprobed found probed] at foundNew ⊢
      rw [if_neg (not_not.mpr rfl), if_pos rfl]
      exact tracks new foundNew
    | some probe =>
      obtain ⟨stored, below⟩ := tracks entry found
      have live := (ServiceEntry.probed_eq_some_iff.mp probed).2
      have decision := decides_probed found probed response spawned
      obtain ⟨result, spawns, foundResult, counted, turn⟩ := checkHealth_probeTurn found probed response spawned
      obtain rfl : result = new := Option.some.inj (foundResult.symm.trans foundNew)
      rw [if_neg (Option.some_ne_none probe), counted]
      have belowReset (other : Probe) : ((0 : Nat) : Int) < max 1 other.failureThreshold := by omega
      cases turn with
      | healthy succeeds =>
        rw [Nat.add_zero, if_neg (not_not.mpr rfl), succeeds, Bool.true_or, if_pos rfl]
        exact ⟨rfl, fun other _ => belowReset other⟩
      | counted fails belowThreshold =>
        have undecided : decides state id response spawned = false :=
          Bool.eq_false_iff.mpr fun decided => absurd (decision.mp decided).2 (Int.not_le.mpr belowThreshold)
        rw [Nat.add_zero, if_neg (not_not.mpr rfl), fails, undecided, Bool.or_self, if_neg (by decide)]
        refine ⟨congrArg (· + 1) stored, fun other otherLive => ?_⟩
        have same : other = probe := Option.some.inj (otherLive.symm.trans live)
        rw [same]
        omega
      | decided fails reached _ _ changed sameCr fresh =>
        have decided := decision.mpr ⟨fails, reached⟩
        rw [decided, Bool.or_true, if_pos rfl, ite_self]
        exact ⟨fresh, fun other _ => belowReset other⟩

end Probes

/-! ## Runs -/

theorem watchedStep_tracks (id : Uuid) (watched : Watched) (event : ServiceEvent)
    (tracks : Tracks id watched.services watched.streak) :
    Tracks id (watchedStep id watched event).services (watchedStep id watched event).streak := by
  cases event with
  | health checked response spawned =>
    by_cases same : checked = id
    · subst same
      exact tracks_health tracks response spawned
    · refine tracks_of_uncounted tracks ?_ fun new => uncounted_health checked response spawned same
      rintro _ _ ⟨⟩
      exact same rfl
  | start cr executablePath spawned =>
    exact tracks_of_uncounted tracks (by simp) fun new => uncounted_start cr executablePath spawned
  | stop stopped => exact tracks_of_uncounted tracks (by simp) fun new => uncounted_stop stopped
  | die process =>
    refine tracks_of_uncounted tracks (by simp) fun new found => ?_
    refine uncounted_same found ?_ not_false ?_
    · rw [serviceStep, dieProcess_services]
    · rw [serviceStep, dieProcess_spawnCount]
  | exit process exitCode spawned =>
    exact tracks_of_uncounted tracks (by simp) fun new => uncounted_exit process exitCode spawned

theorem run_tracks (id : Uuid) (events : List ServiceEvent) :
    Tracks id (Runs.run serviceStep noServices events) (failureStreak id events) := by
  have tracked : Tracks id (Runs.run (watchedStep id) ⟨noServices, 0⟩ events).services (failureStreak id events) :=
    Runs.run_invariant (fun watched : Watched => Tracks id watched.services watched.streak) (watchedStep_tracks id)
      ⟨noServices, 0⟩ (fun entry found => absurd found (noServices_services id entry)) events
  rwa [run_watched] at tracked

/-- Over every run and for every service: the stored counter is below the threshold, and the service's next
turn in a round decides on it exactly when it is a failed probe that makes the streak as long as the threshold. -/
theorem health_threshold (events : List ServiceEvent) (id : Uuid) (entry : ServiceEntry)
    (found : (Runs.run serviceStep noServices events).services id = some entry) :
    (∀ probe, entry.liveness = some probe → entry.consecutiveHealthFailures < max 1 probe.failureThreshold) ∧
    ∀ response spawned, decides (Runs.run serviceStep noServices events) id response spawned = true ↔
      ∃ probe, entry.probed = some probe ∧ probeSucceeds response = false ∧
        (failureStreak id events : Int) + 1 = max 1 probe.failureThreshold := by
  obtain ⟨stored, below⟩ := run_tracks id events entry found
  refine ⟨fun probe live => ?_, fun response spawned => ?_⟩
  · rw [stored]
    exact below probe live
  · cases probed : entry.probed with
    | none =>
      refine iff_of_false (decides_unprobed found probed response spawned) ?_
      rintro ⟨_, impossible, _⟩
      cases impossible
    | some probe =>
      have live := (ServiceEntry.probed_eq_some_iff.mp probed).2
      rw [decides_probed found probed, stored, reached_iff (below probe live)]
      constructor
      · rintro ⟨fails, reached⟩
        exact ⟨probe, rfl, fails, reached⟩
      · rintro ⟨other, same, fails, reached⟩
        rw [Option.some.inj same]
        exact ⟨fails, reached⟩

/-- A service is started whose liveness probe has a threshold of zero. -/
def startAtZero : ServiceEvent :=
  .start ⟨7, { healthCheck := some ⟨some { type := "http", path := "/", port := 80, failureThreshold := 0 }⟩ }⟩
    "svc" true

theorem first_failure_decides :
    decides (Runs.run serviceStep noServices [startAtZero]) 7 none true = true ∧
      failureStreak 7 [startAtZero] = 0 := by
  refine ⟨?_, rfl⟩
  exact ((health_threshold [startAtZero] 7 _ rfl).2 none true).mpr ⟨_, rfl, rfl, rfl⟩

end AbilityFramework.LifecycleMgr
