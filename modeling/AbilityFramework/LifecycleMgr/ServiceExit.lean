import AbilityFramework.LifecycleMgr.ServiceLifecycle

/-! # What becomes of a service whose process exits

The documentation of the restart policy has a decision tree: a policy of `never`, and an exit with code
0 under `on-failure`, end with the service marked Stopped.  `on_service_exit` has one branch for whatever
is not to be restarted, and marks the service Failed there. -/

namespace AbilityFramework.LifecycleMgr

open Library

inductive Decision where
  | unchanged
  | stop
  | restart
  | fail
  deriving DecidableEq, Repr

/-- The restart policy as documented. -/
def documentedDecision (entry : ServiceEntry) (exitCode : Int) : Decision :=
  if entry.state = .stopped then .unchanged
  else if entry.cr.spec.restartPolicy = "never" then .stop
  else if entry.cr.spec.restartPolicy = "on-failure" ∧ exitCode = 0 then .stop
  else if entry.restartCount < entry.cr.spec.maxRestarts then .restart
  else .fail

/-- The branches of `on_service_exit`. -/
def exitDecision (entry : ServiceEntry) (exitCode : Int) : Decision :=
  if entry.state = .stopped then .unchanged
  else if shouldRestart entry exitCode then .restart
  else .fail

/-- `after` is `before` with the decision carried out for `id`, whose entry was `entry`. -/
def Decision.Made (before : Services) (id : Uuid) (entry : ServiceEntry) (spawned : Bool) (after : Services) :
    Decision → Prop
  | .unchanged => after.services id = some entry ∧ after.processes = before.processes
  | .stop => after.services id = some { entry with state := .stopped } ∧ after.processes = before.processes
  | .restart => ∃ new, after.services id = some new ∧ new.cr = entry.cr ∧
      new.restartCount = entry.restartCount + 1 ∧
      if spawned then new.state = .running ∧ new.processHandleId = some before.processes.length ∧
        after.processes = before.processes ++ [⟨id, .live⟩]
      else new.state = .failed ∧ after.processes = before.processes
  | .fail => after.services id = some { entry with state := .failed } ∧ after.processes = before.processes

section Decisions

variable {before : Services} {id : Uuid} {entry : ServiceEntry}

theorem doRestart_made (before : Services) (id : Uuid) (entry : ServiceEntry) (spawned : Bool) :
    Decision.Made before id entry spawned (doRestart before id entry spawned) .restart := by
  cases spawned with
  | true => exact ⟨_, Services.setEntry_self, rfl, rfl, rfl, rfl, rfl⟩
  | false => exact ⟨_, Services.setEntry_self, rfl, rfl, rfl, rfl⟩

theorem onServiceExit_made (found : before.services id = some entry) (exitCode : Int) (spawned : Bool) :
    (exitDecision entry exitCode).Made before id entry spawned (onServiceExit before id exitCode spawned) := by
  simp only [onServiceExit, found, exitDecision]
  split
  · exact ⟨found, rfl⟩
  · split
    · exact doRestart_made before id entry spawned
    · exact ⟨Services.setEntry_self, rfl⟩

/-- A service that has been restarted, or has failed, is not stopped. -/
theorem made_stop_only {after : Services} {spawned : Bool} {decision : Decision}
    (unstopped : entry.state ≠ .stopped) (made : decision.Made before id entry spawned after)
    (stopped : Decision.stop.Made before id entry spawned after) : decision = .stop := by
  obtain ⟨foundStopped, _⟩ := stopped
  cases decision with
  | stop => rfl
  | unchanged =>
    have same := Option.some.inj (made.1.symm.trans foundStopped)
    rw [same] at unstopped
    exact absurd rfl unstopped
  | fail =>
    have same := congrArg ServiceEntry.state (Option.some.inj (made.1.symm.trans foundStopped))
    cases same
  | restart =>
    obtain ⟨new, foundNew, _, counted, _⟩ := made
    have same := congrArg ServiceEntry.restartCount (Option.some.inj (foundNew.symm.trans foundStopped))
    rw [counted] at same
    simp only at same
    omega

/-- The exits for which the code's branches and the documentation's agree. -/
def Undisputed (entry : ServiceEntry) (exitCode : Int) : Prop :=
  entry.state = .stopped ∨
    entry.cr.spec.restartPolicy ≠ "never" ∧ ¬ (entry.cr.spec.restartPolicy = "on-failure" ∧ exitCode = 0)

theorem exitDecision_of_undisputed {exitCode : Int} (undisputed : Undisputed entry exitCode) :
    exitDecision entry exitCode = documentedDecision entry exitCode := by
  unfold exitDecision documentedDecision
  split
  · rfl
  · rename_i unstopped
    obtain ⟨unasked, failing⟩ := undisputed.resolve_left unstopped
    simp only [if_neg unasked, if_neg failing, shouldRestart, Bool.and_eq_true, decide_eq_true_eq]

theorem documentedDecision_of_disputed {exitCode : Int} (disputed : ¬ Undisputed entry exitCode) :
    entry.state ≠ .stopped ∧ documentedDecision entry exitCode = .stop ∧ exitDecision entry exitCode = .fail := by
  obtain ⟨unstopped, named⟩ := not_or.mp disputed
  refine ⟨unstopped, ?_, ?_⟩
  · rw [documentedDecision, if_neg unstopped]
    split
    · rfl
    · rename_i unasked
      rw [if_pos]
      by_contra failing
      exact named ⟨unasked, failing⟩
  · rw [exitDecision, if_neg unstopped, if_neg]
    intro restarts
    unfold shouldRestart at restarts
    split at restarts
    · cases restarts
    · rename_i unasked
      split at restarts
      · cases restarts
      · rename_i failing
        apply named
        refine ⟨unasked, fun onFailure => failing ?_⟩
        simp only [onFailure, decide_true, Bool.and_self]

theorem onServiceExit_documented_iff (found : before.services id = some entry) (exitCode : Int) (spawned : Bool) :
    (documentedDecision entry exitCode).Made before id entry spawned (onServiceExit before id exitCode spawned) ↔
      Undisputed entry exitCode := by
  have made := onServiceExit_made found exitCode spawned
  constructor
  · intro documented
    by_contra disputed
    obtain ⟨unstopped, documentedStop, codeFails⟩ := documentedDecision_of_disputed disputed
    rw [documentedStop] at documented
    rw [codeFails] at made
    exact absurd (made_stop_only unstopped made documented) (by decide)
  · intro undisputed
    rwa [← exitDecision_of_undisputed undisputed]

end Decisions

/-! ## Runs -/

/-- An exit has the outcome the documentation gives it; the process's callback has then run. -/
def ExitDocumented (state : Services) (event : ServiceEvent) : Prop :=
  ∀ process exitCode spawned id entry, event = .exit process exitCode spawned →
    state.processes[process]? = some ⟨id, .exited⟩ → state.services id = some entry →
    (documentedDecision entry exitCode).Made (state.setStatus process .reaped) id entry spawned
      (serviceStep state event)

def ExitUndisputed (state : Services) (event : ServiceEvent) : Prop :=
  ∀ process exitCode spawned id entry, event = .exit process exitCode spawned →
    state.processes[process]? = some ⟨id, .exited⟩ → state.services id = some entry → Undisputed entry exitCode

theorem exitDocumented_iff (state : Services) (event : ServiceEvent) :
    ExitDocumented state event ↔ ExitUndisputed state event := by
  refine forall_congr' fun process => forall_congr' fun exitCode => forall_congr' fun spawned =>
    forall_congr' fun id => forall_congr' fun entry => forall_congr' fun isExit => forall_congr' fun exited =>
    forall_congr' fun found => ?_
  have delivered : serviceStep state event = onServiceExit (state.setStatus process .reaped) id exitCode spawned := by
    rw [isExit, serviceStep, exited]
  have reaped : (state.setStatus process .reaped).services id = some entry := found
  rw [delivered]
  exact onServiceExit_documented_iff reaped exitCode spawned

/-- Over every run: every exit has the documented outcome if and only if every exit is of a service that
has been stopped, or that is neither never to be restarted nor has exited with 0 under `on-failure`. -/
theorem exits_documented_iff (events : List ServiceEvent) :
    Runs.EachStep serviceStep ExitDocumented noServices events ↔
      Runs.EachStep serviceStep ExitUndisputed noServices events :=
  Runs.eachStep_exact (fun _ => True) (fun _ _ _ _ => trivial) (fun state event _ => exitDocumented_iff state event)
    noServices trivial events

/-- A service that is never to be restarted exits. -/
theorem never_restarted_fails :
    ¬ Runs.EachStep serviceStep ExitDocumented noServices
      [.start ⟨7, { restartPolicy := "never" }⟩ "svc" true, .die 0, .exit 0 0 true] := by
  rintro ⟨_, _, documented, _⟩
  obtain ⟨marked, _⟩ := documented 0 0 true 7 _ rfl rfl rfl
  exact absurd (congrArg (Option.map ServiceEntry.state) marked) (by decide)

end AbilityFramework.LifecycleMgr
