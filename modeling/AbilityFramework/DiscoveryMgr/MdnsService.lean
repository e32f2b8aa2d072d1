import AbilityFramework.DiscoveryMgr.MdnsListen
import AbilityFramework.Library.Runs

/-! # The mDNS service of a leader

A timer of the event loop starts the mDNS thread when the node leads and stops it when it does not.  The thread waits for
packets without a time limit, and the event loop waits for the end of the thread.

`service_stop`: from when the lead is lost the event loop stands still until packets come, which the thread still answers.
`service_endless`: a packet that is never done with silences the service, and the event loop too once the lead is lost.
`service_ended`: a thread that broke off is not started again before the lead was lost. -/

namespace AbilityFramework.DiscoveryMgr.Mdns

open Library.Runs

inductive Thread where
  | absent
  | opening
  /-- `running_` is looked at next. -/
  | atLoop
  /-- In `select`. -/
  | waiting
  /-- In an extraction that runs for ever. -/
  | stuck
  /-- The function has returned, and nobody joined the thread yet. -/
  | ended
  deriving DecidableEq

structure Service where
  running : Bool := false
  thread : Thread := .absent
  /-- The event loop is in `join`. -/
  joining : Bool := false
  sent : List Reply := []
  /-- The program has ended, or may do anything. -/
  crashed : Bool := false

inductive ServiceEvent where
  /-- The timer. -/
  | tick (isLeader : Bool)
  | opened (someSocket : Bool)
  | loopHead
  /-- `select` returns, and a packet is read from each socket that has one. -/
  | received (packets : List Received)
  | selectFails
  | joined

/-- The packets of one round, with what is sent before one breaks the thread. -/
def hear (record : ServiceRecord) : List Received → List Reply × Option Broken
  | [] => ([], none)
  | packet :: packets =>
    match packet.listen record with
    | (replies, .error broken) => (replies, some broken)
    | (replies, .ok _) => (replies ++ (hear record packets).1, (hear record packets).2)

namespace Service

variable (record : ServiceRecord) (service : Service)

/-- `stopService`: without a thread that runs the join returns at once. -/
def stopService : Service :=
  match service.thread with
  | .absent => { service with running := false }
  | .ended => { service with running := false, thread := .absent }
  | _ => { service with running := false, joining := true }

def startService : Service := { service with running := true, thread := .opening }

/-- `guard_mdns_is_on` and `guard_mdns_is_off`. -/
def updateState (isLeader : Bool) : Service :=
  if isLeader then if service.running then service else service.startService
  else if service.running then service.stopService else service

def wake (packets : List Received) : Service :=
  match hear record packets with
  | (replies, none) => { service with sent := service.sent ++ replies, thread := .atLoop }
  | (replies, some .endless) => { service with sent := service.sent ++ replies, thread := .stuck }
  | (replies, some _) => { service with sent := service.sent ++ replies, crashed := true }

def step : ServiceEvent → Service
  | .tick isLeader => if service.crashed || service.joining then service else service.updateState isLeader
  | .opened someSocket =>
    if service.crashed || service.thread ≠ .opening then service
    -- The error is not caught.
    else if someSocket then { service with thread := .atLoop } else { service with crashed := true }
  | .loopHead =>
    if service.crashed || service.thread ≠ .atLoop then service
    else if service.running then { service with thread := .waiting } else { service with thread := .ended }
  | .received packets => if service.crashed || service.thread ≠ .waiting then service else service.wake record packets
  | .selectFails => if service.crashed || service.thread ≠ .waiting then service else { service with thread := .ended }
  | .joined =>
    if service.crashed || !service.joining || service.thread ≠ .ended then service
    else { service with thread := .absent, joining := false }

/-! ## What every run keeps -/

/-- A thread is there while the service runs or is waited for. -/
structure Kept (service : Service) : Prop where
  runs : service.running = true → service.thread ≠ .absent ∧ service.joining = false
  joins : service.joining = true → service.thread ≠ .absent
  rests : service.running = false → service.joining = false → service.thread = .absent

theorem kept_initial : Kept {} := ⟨by simp, by simp, by simp⟩

/-- A thread that goes on with the same flags. -/
theorem Kept.withThread {service : Service} (kept : service.Kept) (some : service.thread ≠ .absent) {later : Service}
    (sameRunning : later.running = service.running) (sameJoining : later.joining = service.joining)
    (isThread : later.thread ≠ .absent) : later.Kept where
  runs isRunning := ⟨isThread, by rw [sameJoining]; exact (kept.runs (by rw [← sameRunning]; exact isRunning)).2⟩
  joins _ := isThread
  rests notRunning notJoining :=
    absurd (kept.rests (by rw [← sameRunning]; exact notRunning) (by rw [← sameJoining]; exact notJoining)) some

theorem kept_updateState {service : Service} (kept : service.Kept) (notJoining : service.joining = false) (isLeader : Bool) :
    (service.updateState isLeader).Kept := by
  rw [updateState]
  split
  · split
    · exact kept
    · exact ⟨fun _ => ⟨by simp [startService], notJoining⟩, fun _ => by simp [startService], by simp [startService]⟩
  · split
    · next isRunning =>
      rw [stopService]
      split
      · next isAbsent => exact absurd isAbsent (kept.runs isRunning).1
      · exact ⟨by simp, by simp [notJoining], by simp⟩
      · next isThread _ => exact ⟨by simp, fun _ => by simpa using isThread, by simp⟩
    · exact kept

variable {record : ServiceRecord} {service : Service}

theorem kept_step (kept : service.Kept) (event : ServiceEvent) : (service.step record event).Kept := by
  cases event with
  | tick isLeader =>
    rw [step]
    split
    · exact kept
    · next free =>
      simp only [Bool.or_eq_true, not_or, Bool.not_eq_true] at free
      exact kept_updateState kept free.2 isLeader
  | opened someSocket =>
    rw [step]
    split
    · exact kept
    · next isOpening =>
      simp only [Bool.or_eq_true, decide_eq_true_eq, not_or, not_not] at isOpening
      have some : service.thread ≠ .absent := by simp [isOpening.2]
      split
      · exact kept.withThread some rfl rfl (by simp)
      · exact kept.withThread some rfl rfl some
  | loopHead =>
    rw [step]
    split
    · exact kept
    · next isAtLoop =>
      simp only [Bool.or_eq_true, decide_eq_true_eq, not_or, not_not] at isAtLoop
      have some : service.thread ≠ .absent := by simp [isAtLoop.2]
      split <;> exact kept.withThread some rfl rfl (by simp)
  | received packets =>
    rw [step]
    split
    · exact kept
    · next isWaiting =>
      simp only [Bool.or_eq_true, decide_eq_true_eq, not_or, not_not] at isWaiting
      have some : service.thread ≠ .absent := by simp [isWaiting.2]
      rw [wake]
      split
      · exact kept.withThread some rfl rfl (by simp)
      · exact kept.withThread some rfl rfl (by simp)
      · exact kept.withThread some rfl rfl some
  | selectFails =>
    rw [step]
    split
    · exact kept
    · next isWaiting =>
      simp only [Bool.or_eq_true, decide_eq_true_eq, not_or, not_not] at isWaiting
      have some : service.thread ≠ .absent := by simp [isWaiting.2]
      exact kept.withThread some rfl rfl (by simp)
  | joined =>
    rw [step]
    split
    · exact kept
    · next isJoined =>
      simp only [Bool.or_eq_true, Bool.not_eq_true', decide_eq_true_eq, not_or, not_not, Bool.not_eq_false] at isJoined
      have notRunning : service.running ≠ true := by
        intro isRunning
        rw [(kept.runs isRunning).2] at isJoined
        exact absurd isJoined.1.2 (by simp)
      exact ⟨fun isRunning => absurd isRunning notRunning, by simp, by simp⟩

theorem kept_run (record : ServiceRecord) (events : List ServiceEvent) : (run (step record) {} events).Kept :=
  run_invariant Kept (fun _ event kept => kept_step kept event) {} kept_initial events

/-! ## A thread that is waited for -/

/-- Nothing is sent any more. -/
def Done (service : Service) : Prop :=
  service.crashed = true ∨ (service.running = false ∧ (service.thread = .atLoop ∨ service.thread = .ended)) ∨
    service.thread = .stuck

@[simp] theorem step_of_crashed (crashed : service.crashed = true) (event : ServiceEvent) :
    service.step record event = service := by
  cases event <;> simp [step, crashed]

theorem step_of_done (done : service.Done) (joining : service.joining = true) (event : ServiceEvent)
    (still : (service.step record event).joining = true) :
    (service.step record event).Done ∧ (service.step record event).sent = service.sent := by
  by_cases crashed : service.crashed = true
  · rw [step_of_crashed crashed]
    exact ⟨done, rfl⟩
  · rw [Bool.not_eq_true] at crashed
    obtain wrong | ⟨notRunning, atLoop | ended⟩ | stuck := done
    · exact absurd wrong (by simp [crashed])
    · cases event <;> simp [step, crashed, joining, notRunning, atLoop, Done]
    · cases event with
      | joined => simp [step, crashed, joining, ended] at still
      | _ => simp [step, crashed, joining, notRunning, ended, Done]
    · cases event <;> simp [step, crashed, joining, stuck, Done]

/-- Until the thread is joined it answers one round of packets. -/
def AtMostOnce (record : ServiceRecord) (service later : Service) (events : List ServiceEvent) : Prop :=
  later.sent = service.sent ∨ ∃ packets, .received packets ∈ events ∧ later.sent = service.sent ++ (hear record packets).1

theorem run_of_done (done : service.Done) {events : List ServiceEvent}
    (always : Always (step record) (·.joining = true) service events) :
    (run (step record) service events).sent = service.sent := by
  induction events generalizing service with
  | nil => rfl
  | cons event events inductionHypothesis =>
    obtain ⟨joining, always⟩ := always
    have still : (service.step record event).joining = true := by
      cases events with
      | nil => exact always
      | cons _ _ => exact always.1
    obtain ⟨later, same⟩ := step_of_done done joining event still
    rw [run_cons, inductionHypothesis later always, same]

/-- What a thread that still has to be done can do. -/
theorem step_of_joining (joining : service.joining = true) (notRunning : service.running = false) (event : ServiceEvent)
    (still : (service.step record event).joining = true) :
    (service.step record event).running = false ∧
      ((service.step record event).sent = service.sent ∨
        (service.step record event).Done ∧ ∃ packets, event = .received packets ∧
          (service.step record event).sent = service.sent ++ (hear record packets).1) := by
  by_cases crashed : service.crashed = true
  · rw [step_of_crashed crashed]
    exact ⟨notRunning, .inl rfl⟩
  · rw [Bool.not_eq_true] at crashed
    cases event with
    | received packets =>
      by_cases isWaiting : service.thread = .waiting
      · have isWake : service.step record (.received packets) = service.wake record packets := by
          simp [step, crashed, isWaiting]
        rw [isWake, wake]
        split
        · next isHeard => exact ⟨notRunning, .inr ⟨.inr (.inl ⟨notRunning, .inl rfl⟩), packets, rfl, by rw [isHeard]⟩⟩
        · next isHeard => exact ⟨notRunning, .inr ⟨.inr (.inr rfl), packets, rfl, by rw [isHeard]⟩⟩
        · next isHeard => exact ⟨notRunning, .inr ⟨.inl rfl, packets, rfl, by rw [isHeard]⟩⟩
      · have isSame : service.step record (.received packets) = service := by simp [step, isWaiting]
        rw [isSame]
        exact ⟨notRunning, .inl rfl⟩
    | tick isLeader => simp [step, joining, notRunning]
    | opened someSocket =>
      rw [step]
      split
      · exact ⟨notRunning, .inl rfl⟩
      · split <;> exact ⟨notRunning, .inl rfl⟩
    | loopHead =>
      rw [step]
      split
      · exact ⟨notRunning, .inl rfl⟩
      · split <;> exact ⟨notRunning, .inl rfl⟩
    | selectFails =>
      rw [step]
      split <;> exact ⟨notRunning, .inl rfl⟩
    | joined =>
      rw [step]
      split <;> exact ⟨notRunning, .inl rfl⟩

theorem run_of_joining (notRunning : service.running = false) {events : List ServiceEvent}
    (always : Always (step record) (·.joining = true) service events) :
    AtMostOnce record service (run (step record) service events) events := by
  induction events generalizing service with
  | nil => exact .inl rfl
  | cons event events inductionHypothesis =>
    obtain ⟨joining, always⟩ := always
    have still : (service.step record event).joining = true := by
      cases events with
      | nil => exact always
      | cons _ _ => exact always.1
    rw [run_cons]
    obtain ⟨later, same | ⟨done, packets, rfl, isSent⟩⟩ := step_of_joining joining notRunning event still
    · obtain none | ⟨packets, isReceived, isSent⟩ := inductionHypothesis later always
      · exact .inl (none.trans same)
      · exact .inr ⟨packets, List.mem_cons_of_mem _ isReceived, by rw [isSent, same]⟩
    · exact .inr ⟨packets, List.mem_cons_self .., by rw [run_of_done done always, isSent]⟩

/-- The events that a thread in `select` wakes from. -/
def ServiceEvent.wakes : ServiceEvent → Bool
  | .received _ | .selectFails => true
  | _ => false

theorem step_of_waiting (isWaiting : service.thread = .waiting) (joining : service.joining = true) {event : ServiceEvent}
    (quiet : ServiceEvent.wakes event = false) : service.step record event = service := by
  cases event with
  | received packets => cases quiet
  | selectFails => cases quiet
  | _ => simp [step, isWaiting, joining]

/-- While the event loop waits for the thread: as long as no packet comes nothing of the program goes on, and until the
thread is joined one round of packets is answered at most. -/
theorem service_stop (record : ServiceRecord) (before after : List ServiceEvent)
    (joining : (run (step record) {} before).joining = true) :
    ((run (step record) {} before).thread = .waiting → (∀ event ∈ after, ServiceEvent.wakes event = false) →
        run (step record) {} (before ++ after) = run (step record) {} before) ∧
      (Always (step record) (·.joining = true) (run (step record) {} before) after →
        AtMostOnce record (run (step record) {} before) (run (step record) {} (before ++ after)) after) := by
  have notRunning : (run (step record) {} before).running = false := by
    by_contra isRunning
    rw [Bool.not_eq_false] at isRunning
    rw [((kept_run record before).runs isRunning).2] at joining
    cases joining
  rw [run_append]
  refine ⟨fun isWaiting quiet => run_eq_self fun event isEvent => ?_, run_of_joining notRunning⟩
  exact step_of_waiting isWaiting joining (quiet event isEvent)

theorem service_stop_waiting : run (step plainRecord) {}
      ([.tick true, .opened true, .loopHead, .tick false] ++ [.tick true, .tick false]) =
    run (step plainRecord) {} [.tick true, .opened true, .loopHead, .tick false] :=
  (service_stop plainRecord [.tick true, .opened true, .loopHead, .tick false] [.tick true, .tick false] rfl).1 rfl (by decide)

/-! ## A thread that does not come back -/

structure Silenced (service : Service) : Prop where
  kept : service.Kept
  stuck : service.thread = .stuck
  uncrashed : service.crashed = false

theorem step_of_silenced (record : ServiceRecord) (silenced : service.Silenced) (event : ServiceEvent) :
    (service.step record event).Silenced ∧ (service.step record event).sent = service.sent ∧
      (service.joining = true → service.step record event = service) ∧
      (event = .tick false → (service.step record event).joining = true) := by
  obtain ⟨kept, stuck, uncrashed⟩ := silenced
  have others : event ≠ .tick false → service.step record event = service := by
    intro other
    cases event with
    | tick isLeader =>
      cases isLeader with
      | false => exact absurd rfl other
      | true =>
        rw [step]
        split
        · rfl
        · next free =>
          -- A thread that nobody waits for belongs to a service that runs.
          simp only [Bool.or_eq_true, not_or, Bool.not_eq_true] at free
          have isRunning : service.running = true := by
            by_contra notRunning
            have isAbsent := kept.rests (Bool.eq_false_of_not_eq_true notRunning) free.2
            rw [stuck] at isAbsent
            cases isAbsent
          rw [updateState, if_pos rfl, if_pos isRunning]
    | _ => simp [step, stuck]
  cases joining : service.joining with
  | true =>
    have isSame : service.step record event = service := by
      by_cases isTick : event = .tick false
      · rw [isTick, step, joining, Bool.or_true, if_pos rfl]
      · exact others isTick
    rw [isSame]
    exact ⟨⟨kept, stuck, uncrashed⟩, rfl, fun _ => rfl, fun _ => joining⟩
  | false =>
    by_cases isTick : event = .tick false
    · have isRunning : service.running = true := by
        by_contra notRunning
        have isAbsent := kept.rests (Bool.eq_false_of_not_eq_true notRunning) joining
        rw [stuck] at isAbsent
        cases isAbsent
      have isStop : service.step record event = { service with running := false, joining := true } := by
        simp [isTick, step, uncrashed, joining, updateState, isRunning, stopService, stuck]
      rw [isStop]
      exact ⟨⟨isStop ▸ kept_step kept event, stuck, uncrashed⟩, rfl, fun wrong => absurd wrong (by simp), fun _ => rfl⟩
    · rw [others isTick]
      exact ⟨⟨kept, stuck, uncrashed⟩, rfl, fun _ => rfl, fun isTick' => absurd isTick' isTick⟩

theorem run_of_silenced (record : ServiceRecord) (silenced : service.Silenced) (events : List ServiceEvent) :
    (run (step record) service events).Silenced ∧ (run (step record) service events).sent = service.sent ∧
      (service.joining = true → run (step record) service events = service) ∧
      (.tick false ∈ events → (run (step record) service events).joining = true) := by
  induction events generalizing service with
  | nil => exact ⟨silenced, rfl, fun _ => rfl, by simp⟩
  | cons event events inductionHypothesis =>
    obtain ⟨later, same, waits, stops⟩ := step_of_silenced record silenced event
    obtain ⟨last, stillSame, stillWaits, stillStops⟩ := inductionHypothesis later
    rw [run_cons]
    refine ⟨last, stillSame.trans same, fun joining => ?_, fun isMember => ?_⟩
    · rw [waits joining] at stillWaits ⊢
      exact stillWaits joining
    · obtain rfl | isMember := List.mem_cons.mp isMember
      · rw [stillWaits (stops rfl)]
        exact stops rfl
      · exact stillStops isMember

/-- After packets of which one is never done with nothing is sent any more, and from when the lead is lost the event loop
does not go on. -/
theorem service_endless (record : ServiceRecord) (before after : List ServiceEvent) (packets : List Received)
    (isWaiting : (run (step record) {} before).thread = .waiting) (uncrashed : (run (step record) {} before).crashed = false)
    (endless : (hear record packets).2 = some .endless) :
    (run (step record) {} (before ++ [.received packets] ++ after)).sent =
        (run (step record) {} before).sent ++ (hear record packets).1 ∧
      (.tick false ∈ after → (run (step record) {} (before ++ [.received packets] ++ after)).joining = true) ∧
      ((run (step record) {} (before ++ [.received packets] ++ after)).joining = true → ∀ more,
        run (step record) {} (before ++ [.received packets] ++ after ++ more) =
          run (step record) {} (before ++ [.received packets] ++ after)) := by
  have isWake : run (step record) {} (before ++ [.received packets]) = { run (step record) {} before with
      sent := (run (step record) {} before).sent ++ (hear record packets).1, thread := .stuck } := by
    rw [run_concat, step, uncrashed, isWaiting, if_neg (by decide), wake]
    split
    · next isHeard => rw [isHeard] at endless; cases endless
    · next isHeard => rw [isHeard]
    · next wrong isHeard => rw [isHeard] at endless; exact absurd (Option.some.inj endless) (by simpa using wrong)
  have silenced : (run (step record) {} (before ++ [.received packets])).Silenced :=
    ⟨kept_run record _, by rw [isWake], by rw [isWake]; exact uncrashed⟩
  obtain ⟨last, same, _, stops⟩ := run_of_silenced record silenced after
  have isRun : run (step record) {} (before ++ [.received packets] ++ after) =
      run (step record) (run (step record) {} (before ++ [.received packets])) after := run_append _ _ _
  refine ⟨by rw [isRun, same, isWake], fun isMember => by rw [isRun]; exact stops isMember, fun joining more => ?_⟩
  rw [isRun] at joining
  have isMore : run (step record) {} (before ++ [.received packets] ++ after ++ more) =
      run (step record) (run (step record) {} (before ++ [.received packets] ++ after)) more := run_append _ _ _
  rw [isMore, isRun]
  exact (run_of_silenced record last more).2.2.1 joining

theorem service_endless_label : ∃ packets, (run (step plainRecord) {}
    ([.tick true, .opened true, .loopHead] ++ [.received packets] ++ [.tick false])).joining = true :=
  ⟨[⟨[0, 0, 0, 0, 0, 1, 0, 0, 0, 0, 0, 0, 1, 97, 0xC0, 12, 0, 12, 0, 1], 20, by decide⟩],
    (service_endless plainRecord [.tick true, .opened true, .loopHead] [.tick false] _ rfl rfl (by decide +kernel)).2.1
      (by simp)⟩

theorem step_of_ended (isRunning : service.running = true) (isEnded : service.thread = .ended)
    (free : service.joining = false) {event : ServiceEvent} (leads : event ≠ .tick false) :
    service.step record event = service := by
  cases event with
  | tick isLeader =>
    cases isLeader with
    | false => exact absurd rfl leads
    | true => simp [step, free, updateState, isRunning]
  | _ => simp [step, isEnded, free]

theorem step_of_selectFails (isWaiting : service.thread = .waiting) (uncrashed : service.crashed = false) :
    service.step record .selectFails = { service with thread := .ended } := by
  simp [step, isWaiting, uncrashed]

/-- A thread that broke off is not started again as long as the node leads, but when the lead was lost and is won again. -/
theorem service_ended (record : ServiceRecord) (before after : List ServiceEvent)
    (isRunning : (run (step record) {} before).running = true) (isWaiting : (run (step record) {} before).thread = .waiting)
    (uncrashed : (run (step record) {} before).crashed = false) (leads : .tick false ∉ after) :
    run (step record) {} (before ++ .selectFails :: after) = { run (step record) {} before with thread := .ended } ∧
      (run (step record) {} (before ++ .selectFails :: after ++ [.tick false, .tick true])).thread = .opening := by
  have free := ((kept_run record before).runs isRunning).2
  have isSame : run (step record) {} (before ++ .selectFails :: after) =
      { run (step record) {} before with thread := .ended } := by
    rw [run_append, run_cons, step_of_selectFails isWaiting uncrashed]
    refine run_eq_self fun event isEvent => ?_
    have notLost : event ≠ .tick false := by
      rintro rfl
      exact leads isEvent
    exact @step_of_ended record { run (step record) {} before with thread := .ended } isRunning rfl free event notLost
  refine ⟨isSame, ?_⟩
  have isMore : run (step record) {} (before ++ .selectFails :: after ++ [.tick false, .tick true]) =
      run (step record) (run (step record) {} (before ++ .selectFails :: after)) [.tick false, .tick true] := run_append _ _ _
  rw [isMore, isSame]
  simp [step, uncrashed, free, updateState, isRunning, stopService, startService]

theorem service_ended_leading : (run (step plainRecord) {} ([.tick true, .opened true, .loopHead] ++ .selectFails ::
    [.tick true, .tick true] ++ [.tick false, .tick true])).thread = .opening :=
  (service_ended plainRecord [.tick true, .opened true, .loopHead] [.tick true, .tick true] rfl rfl rfl (by simp)).2

end Service

end AbilityFramework.DiscoveryMgr.Mdns
