import AbilityFramework.Library.MachineInt
import AbilityFramework.LifecycleMgr.ServiceBudget

/-! # The delay before a restart

`do_restart` computes the delay before restart `n` of a service in `int`, as
`min(backoff * (1 << (n - 1)), 300)`: the clamp comes after the shift and the product.  The configuration
bounds neither the number of restarts nor the base. -/

namespace AbilityFramework.LifecycleMgr

open Library

/-- The delay `do_restart` computes, for the entry it is called on; `none` where the shift or the product
is undefined. -/
def restartDelay (entry : ServiceEntry) : Option Int :=
  let restartCount := entry.restartCount + 1
  let backoff := entry.cr.spec.restartBackoffSeconds
  (MachineInt.shiftLeft 1 (restartCount - 1)).bind fun factor =>
    (MachineInt.multiply backoff factor).map fun product => min product 300

/-- The delay the comment in `do_restart` gives for the restart that follows `restartCount` others. -/
def documentedDelay (backoff : Int) (restartCount : Nat) : Int :=
  min (backoff * (Nat.pow 2 restartCount : Nat)) 300

/-! ## The arithmetic -/

/-- The delay is what the comment says, and no step of its computation leaves the range of `int`. -/
structure DelayExact (entry : ServiceEntry) : Prop where
  documented : restartDelay entry =
    some (documentedDelay entry.cr.spec.restartBackoffSeconds entry.restartCount.toNat)
  clamped : ∀ delay, restartDelay entry = some delay → 0 ≤ delay ∧ delay ≤ 300
  shifted : MachineInt.shiftLeft 1 entry.restartCount = some ((Nat.pow 2 entry.restartCount.toNat : Nat) : Int)
  multiplied : MachineInt.Fits (entry.cr.spec.restartBackoffSeconds * (Nat.pow 2 entry.restartCount.toNat : Nat))

def DelayFits (entry : ServiceEntry) : Prop :=
  entry.restartCount < 31 ∧
    entry.cr.spec.restartBackoffSeconds * (Nat.pow 2 entry.restartCount.toNat : Nat) < 2147483648

section Arithmetic

variable {entry : ServiceEntry}

theorem documentedDelay_bounds {backoff : Int} (nonnegative : 0 ≤ backoff) (restartCount : Nat) :
    0 ≤ documentedDelay backoff restartCount ∧ documentedDelay backoff restartCount ≤ 300 := by
  have product : 0 ≤ backoff * (Nat.pow 2 restartCount : Nat) := Int.mul_nonneg nonnegative (Int.natCast_nonneg _)
  simp only [documentedDelay]
  omega

theorem delayExact_iff (counted : 0 ≤ entry.restartCount) (nonnegative : 0 ≤ entry.cr.spec.restartBackoffSeconds) :
    DelayExact entry ↔ DelayFits entry := by
  obtain ⟨restarts, isCount⟩ := Int.eq_ofNat_of_zero_le counted
  have product : 0 ≤ entry.cr.spec.restartBackoffSeconds * (Nat.pow 2 restarts : Nat) :=
    Int.mul_nonneg nonnegative (Int.natCast_nonneg _)
  constructor
  · rintro ⟨_, _, shifted, multiplied⟩
    rw [isCount] at shifted multiplied
    have few := (MachineInt.shiftLeft_one_iff restarts).mp shifted
    refine ⟨by omega, ?_⟩
    rw [isCount]
    exact multiplied.2
  · rintro ⟨few, below⟩
    rw [isCount, Int.toNat_natCast] at below
    have shifted := (MachineInt.shiftLeft_one_iff restarts).mpr (by omega)
    have fits : MachineInt.Fits (entry.cr.spec.restartBackoffSeconds * (Nat.pow 2 restarts : Nat)) :=
      ⟨by omega, below⟩
    have documented : restartDelay entry =
        some (documentedDelay entry.cr.spec.restartBackoffSeconds entry.restartCount.toNat) := by
      simp only [restartDelay, isCount, Int.add_sub_cancel, Int.toNat_natCast]
      rw [shifted, Option.bind_some, MachineInt.multiply_eq_some_iff.mpr ⟨fits, rfl⟩, Option.map_some,
        documentedDelay]
    refine ⟨documented, ?_, ?_, ?_⟩
    · intro delay computed
      rw [documented, Option.some.injEq] at computed
      rw [← computed]
      exact documentedDelay_bounds nonnegative _
    · rw [isCount]
      exact shifted
    · rw [isCount]
      exact fits

end Arithmetic

/-! ## Restarts -/

/-- The steps that call `do_restart` for a service, and the entry they call it on. -/
inductive Restarting (state : Services) (id : Uuid) (old : ServiceEntry) : ServiceEvent → Prop where
  | exit (process : Nat) (exitCode : Int) (spawned : Bool)
      (exited : state.processes[process]? = some ⟨id, .exited⟩) (found : state.services id = some old)
      (unstopped : old.state ≠ .stopped) (restarts : shouldRestart old exitCode = true) :
      Restarting state id old (.exit process exitCode spawned)
  | health (response : Option Int) (spawned : Bool) (probe : Probe)
      (found : state.services id = some old) (probed : old.probed = some probe)
      (failing : probeSucceeds response = false)
      (reached : probe.failureThreshold ≤ old.consecutiveHealthFailures + 1)
      (restarts : shouldRestart old 1 = true) : Restarting state id old (.health id response spawned)

/-- The step counts one more restart of a service, whose entry was `old`. -/
def CountsRestart (state : Services) (event : ServiceEvent) (id : Uuid) (old : ServiceEntry) : Prop :=
  state.services id = some old ∧
    ∃ new, (serviceStep state event).services id = some new ∧ new.restartCount = old.restartCount + 1

section Restarts

variable {state : Services} {id : Uuid} {old : ServiceEntry} {event : ServiceEvent}

theorem doRestart_backoff_counts (state : Services) (id : Uuid) (entry : ServiceEntry) (spawned : Bool) :
    ∃ new, (doRestart state id entry spawned).services id = some new ∧
      new.restartCount = entry.restartCount + 1 := by
  cases spawned with
  | true => exact ⟨_, Services.setEntry_self, rfl⟩
  | false => exact ⟨_, Services.setEntry_self, rfl⟩

theorem Restarting.counts (restarting : Restarting state id old event) : CountsRestart state event id old := by
  cases restarting with
  | exit process exitCode spawned exited found unstopped restarts =>
    refine ⟨found, ?_⟩
    simp only [serviceStep, exited, onServiceExit, Services.setStatus_services, found, if_neg unstopped,
      if_pos restarts]
    exact doRestart_backoff_counts _ id old spawned
  | health response spawned probe found probed failing reached restarts =>
    refine ⟨found, ?_⟩
    rw [serviceStep, checkHealth_probed found probed, failing, if_neg (by decide), if_pos reached, if_pos restarts]
    exact doRestart_backoff_counts state id _ spawned

/-- An entry that keeps its count has not been restarted. -/
theorem not_counts_of_kept {after : Services} {new entry : ServiceEntry} (found : after.services id = some new)
    (kept : new.restartCount = old.restartCount) :
    ¬ (after.services id = some entry ∧ entry.restartCount = old.restartCount + 1) := by
  rintro ⟨foundEntry, counted⟩
  have same : new = entry := Option.some.inj (found.symm.trans foundEntry)
  rw [← same] at counted
  omega

theorem CountsRestart.restarting (counts : CountsRestart state event id old) (counted : 0 ≤ old.restartCount) :
    Restarting state id old event := by
  obtain ⟨found, new, foundNew, more⟩ := counts
  -- Whatever leaves the entry alone leaves the count alone.
  have changed : (serviceStep state event).services id ≠ state.services id := by
    intro same
    exact not_counts_of_kept (same.trans found) rfl ⟨foundNew, more⟩
  cases event with
  | start cr executablePath spawned =>
    by_cases same : cr.id = id
    · obtain ⟨entry, foundEntry, _, fresh⟩ := startService_entry state cr executablePath spawned
      rw [same] at foundEntry
      have isNew : entry = new := Option.some.inj (foundEntry.symm.trans foundNew)
      rw [← isNew, fresh] at more
      omega
    · refine absurd ?_ changed
      cases spawned with
      | true => exact Services.setEntry_other (Ne.symm same)
      | false => exact Services.setEntry_other (Ne.symm same)
  | stop stopped =>
    by_cases same : stopped = id
    · subst same
      simp only [serviceStep, killCurrent_services, stopService, found] at foundNew
      exact absurd ⟨foundNew, more⟩ (not_counts_of_kept Services.setEntry_self rfl)
    · refine absurd ?_ changed
      simp only [serviceStep, killCurrent_services, stopService]
      split
      · rfl
      · exact Services.setEntry_other (Ne.symm same)
  | die process => exact absurd (by rw [serviceStep, dieProcess_services]) changed
  | exit process exitCode spawned =>
    obtain same | ⟨service, exited, result⟩ := serviceStep_exit_cases state process exitCode spawned
    · exact absurd (by rw [same]) changed
    · rw [result] at foundNew changed
      by_cases same : service = id
      · subst same
        simp only [onServiceExit, Services.setStatus_services, found] at foundNew changed
        split at foundNew
        · rename_i stopped
          exact absurd (by rw [if_pos stopped, Services.setStatus_services, found]) changed
        · rename_i unstopped
          split at foundNew
          · rename_i restarts
            exact .exit process exitCode spawned exited found unstopped restarts
          · exact absurd ⟨foundNew, more⟩ (not_counts_of_kept Services.setEntry_self rfl)
      · have untouched := (onServiceExit_touches (state.setStatus process .reaped) service exitCode spawned id
          (Ne.symm same)).1
        exact absurd untouched changed
  | health checked response spawned =>
    by_cases same : checked = id
    · subst same
      cases probed : old.probed with
      | none => exact absurd (by rw [serviceStep, checkHealth_unprobed found probed]) changed
      | some probe =>
        rw [serviceStep, checkHealth_probed found probed] at foundNew
        split at foundNew
        · exact absurd ⟨foundNew, more⟩ (not_counts_of_kept Services.setEntry_self rfl)
        · rename_i failing
          split at foundNew
          · rename_i reached
            split at foundNew
            · rename_i restarts
              exact .health response spawned probe found probed (Bool.eq_false_iff.mpr failing) reached restarts
            · exact absurd ⟨foundNew, more⟩ (not_counts_of_kept Services.setEntry_self rfl)
          · exact absurd ⟨foundNew, more⟩ (not_counts_of_kept Services.setEntry_self rfl)
    · have untouched := (checkHealth_touches state checked response spawned id (Ne.symm same)).1
      exact absurd untouched changed

end Restarts

/-! ## Runs -/

def Counted (state : Services) : Prop :=
  ∀ id entry, state.services id = some entry → 0 ≤ entry.restartCount

theorem serviceStep_counted (state : Services) (event : ServiceEvent) (counted : Counted state) :
    Counted (serviceStep state event) := by
  refine serviceStep_entries (fun entry => 0 ≤ entry.restartCount) ?_ ?_ state event counted
  · intro entry fresh
    rw [fresh]
  · intro old new spawns turn before
    cases turn with
    | kept _ sameCount _ => rwa [sameCount]
    | restarted _ _ _ _ more _ => omega

/-- Whatever restart the step counts, its delay has been computed as documented. -/
def BackoffExact (state : Services) (event : ServiceEvent) : Prop :=
  ∀ id old, CountsRestart state event id old → 0 ≤ old.cr.spec.restartBackoffSeconds → DelayExact old

/-- Whatever service the step restarts, fewer than 31 restarts precede this one, and the base times two to
their number is an `int`. -/
def BackoffFits (state : Services) (event : ServiceEvent) : Prop :=
  ∀ id old, Restarting state id old event → 0 ≤ old.cr.spec.restartBackoffSeconds → DelayFits old

theorem backoffExact_iff (state : Services) (event : ServiceEvent) (counted : Counted state) :
    BackoffExact state event ↔ BackoffFits state event := by
  constructor
  · intro exact id old restarting nonnegative
    have counts := restarting.counts
    exact (delayExact_iff (counted id old counts.1) nonnegative).mp (exact id old counts nonnegative)
  · intro fits id old counts nonnegative
    have nonnegativeCount := counted id old counts.1
    exact (delayExact_iff nonnegativeCount nonnegative).mpr
      (fits id old (counts.restarting nonnegativeCount) nonnegative)

/-- Over every run: every restart's delay is computed as documented if and only if every restart meets the bounds. -/
theorem backoff_exact_iff (events : List ServiceEvent) :
    Runs.EachStep serviceStep BackoffExact noServices events ↔
      Runs.EachStep serviceStep BackoffFits noServices events :=
  Runs.eachStep_exact Counted (fun state event counted _ => serviceStep_counted state event counted)
    backoffExact_iff noServices (fun id entry found => absurd found (noServices_services id entry)) events

/-- Two restarts of a service whose base is two thousand million seconds: the second doubles it. -/
theorem second_restart_overflows :
    ¬ Runs.EachStep serviceStep BackoffExact noServices
      [.start ⟨7, { restartBackoffSeconds := 2000000000 }⟩ "svc" true, .die 0, .exit 0 1 true, .die 1,
        .exit 1 1 true] := by
  rintro ⟨_, _, _, _, exact, _⟩
  have delay := (exact 7 _ ⟨rfl, _, rfl, rfl⟩ (by decide)).multiplied
  exact absurd delay (by decide)

end AbilityFramework.LifecycleMgr
