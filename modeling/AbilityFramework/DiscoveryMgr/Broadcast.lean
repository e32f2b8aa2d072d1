import AbilityFramework.DiscoveryMgr.Bully

/-! # Election broadcasts

`DiscoveryMgrElectionInterface`: `broadcast` leaves a message in `msg_buf` and notifies the work routine,
which waits, takes the message out of the buffer and sends it to one peer after the other.  The routine
holds the mutex while it sends; a call stores under the mutex and notifies after it.  The wait has no
predicate, so a wake-up says nothing about the buffer, and a notification that nobody waits for is lost.

`delivers_iff`: every message reaches every peer exactly if stores and takes alternate and the routine
never goes to wait on a message whose notification is over. -/

namespace AbilityFramework.DiscoveryMgr

open Library

/-- Where the work routine stands. -/
inductive Routine where
  /-- Before the mutex is taken. -/
  | unlocked
  | waiting
  /-- Woken, and without the mutex still. -/
  | woken
  | sending (msg : ElectionMsg) (remaining : List PeerInfo)

structure Broadcaster where
  msgBuf : ElectionMsg := { sourceId := 0, type := "" }
  /-- The buffer holds a message that has been stored and not been taken. -/
  untaken : Bool := false
  /-- The calls that have stored and not notified. -/
  notifying : Nat := 0
  routine : Routine := .unlocked
  passed : List ElectionMsg := []
  sent : List (Uuid × ElectionMsg) := []

inductive BroadcastEvent where
  /-- A call of `broadcast` stores its message. -/
  | store (msg : ElectionMsg)
  | notify
  | wait
  | spuriousWakeUp
  | take
  | send
  | finish

/-- The peers of `multi_map`, as `make_pinfo` gives them, by id. -/
abbrev BroadcastPeers := Relation PeerInfo.id

/-- What a message is once it has been moved from; the standard library does not say. -/
abbrev MovedFrom := ElectionMsg → ElectionMsg

def broadcastStep (movedFrom : MovedFrom) (peers : BroadcastPeers) (state : Broadcaster) :
    BroadcastEvent → Broadcaster
  | .store msg =>
    match state.routine with
    | .sending _ _ => state
    | _ => { state with
        msgBuf := msg, untaken := true, notifying := state.notifying + 1, passed := state.passed ++ [msg] }
  | .notify =>
    match state.notifying, state.routine with
    | 0, _ => state
    | notifying + 1, .waiting => { state with notifying, routine := .woken }
    | notifying + 1, _ => { state with notifying }
  | .wait =>
    match state.routine with
    | .unlocked => { state with routine := .waiting }
    | _ => state
  | .spuriousWakeUp =>
    match state.routine with
    | .waiting => { state with routine := .woken }
    | _ => state
  | .take =>
    match state.routine with
    | .woken => { state with
        routine := .sending state.msgBuf peers.rows, msgBuf := movedFrom state.msgBuf, untaken := false }
    | _ => state
  | .send =>
    match state.routine with
    | .sending msg (peer :: remaining) =>
      { state with routine := .sending msg remaining, sent := state.sent ++ [(peer.id, msg)] }
    | _ => state
  | .finish =>
    match state.routine with
    | .sending _ [] => { state with routine := .unlocked }
    | _ => state

/-! ## Delivery -/

namespace Broadcaster

def sentTo (state : Broadcaster) (id : Uuid) : List ElectionMsg :=
  (state.sent.filter fun sent => sent.1 = id).map Prod.snd

def beingSentTo (state : Broadcaster) (id : Uuid) : List ElectionMsg :=
  match state.routine with
  | .sending msg remaining => if id ∈ remaining.map PeerInfo.id then [msg] else []
  | _ => []

def inBuffer (state : Broadcaster) : List ElectionMsg := if state.untaken then [state.msgBuf] else []

/-- Every call has returned and the routine waits. -/
def AtRest (state : Broadcaster) : Prop := state.routine = .waiting ∧ state.notifying = 0

end Broadcaster

/-- The messages that were passed, in order, are those that the peer has been sent, is being sent and that the
buffer holds; at rest the peer has been sent them all. -/
structure Delivers (peers : BroadcastPeers) (state : Broadcaster) : Prop where
  accounted : ∀ peer ∈ peers,
    state.sentTo peer.id ++ state.beingSentTo peer.id ++ state.inBuffer = state.passed
  complete : state.AtRest → ∀ peer ∈ peers, state.sentTo peer.id = state.passed

/-- A call stores when the message before it has been taken; the routine takes what has been stored, and does
not go to wait on a stored message unless a call is about to notify. -/
def HandsOver (state : Broadcaster) : BroadcastEvent → Prop
  | .store _ => (∀ msg remaining, state.routine ≠ .sending msg remaining) → state.untaken = false
  | .wait => state.routine = .unlocked → state.untaken = true → state.notifying ≠ 0
  | .take => state.routine = .woken → state.untaken = true
  | _ => True

variable {movedFrom : MovedFrom} {peers : BroadcastPeers} {state : Broadcaster}

namespace Broadcaster

theorem inBuffer_taken (taken : state.untaken = false) : state.inBuffer = [] := by
  rw [inBuffer, taken]
  rfl

theorem inBuffer_untaken (untaken : state.untaken = true) : state.inBuffer = [state.msgBuf] := by
  rw [inBuffer, untaken]
  rfl

theorem beingSentTo_idle {id : Uuid} (idle : ∀ msg remaining, state.routine ≠ .sending msg remaining) :
    state.beingSentTo id = [] := by
  unfold beingSentTo
  split
  · rename_i msg remaining sending
    exact absurd sending (idle msg remaining)
  · rfl

theorem beingSentTo_sending {id : Uuid} {msg : ElectionMsg} {remaining : List PeerInfo}
    (sending : state.routine = .sending msg remaining) :
    state.beingSentTo id = if id ∈ remaining.map PeerInfo.id then [msg] else [] := by
  rw [beingSentTo, sending]

/-- A send turns what was being sent to the receiver into what was sent, and changes nothing for the others. -/
theorem sentTo_send {msg : ElectionMsg} {receiver : PeerInfo} {remaining : List PeerInfo}
    (sending : state.routine = .sending msg (receiver :: remaining))
    (served : receiver.id ∉ remaining.map PeerInfo.id) (id : Uuid) {next : Broadcaster}
    (isNext : next = { state with routine := .sending msg remaining, sent := state.sent ++ [(receiver.id, msg)] }) :
    next.sentTo id ++ next.beingSentTo id = state.sentTo id ++ state.beingSentTo id := by
  rw [isNext, beingSentTo_sending sending, beingSentTo_sending rfl]
  simp only [sentTo, List.filter_append, List.map_append, List.append_assoc, List.map_cons, List.mem_cons]
  by_cases same : id = receiver.id
  · rw [same, if_neg served]
    simp
  · simp [same, Ne.symm same]

end Broadcaster

/-- Nothing is in the buffer at rest. -/
theorem delivers_of_accounted
    (accounted : ∀ peer ∈ peers,
      state.sentTo peer.id ++ state.beingSentTo peer.id ++ state.inBuffer = state.passed)
    (atRest : state.AtRest → state.untaken = false) : Delivers peers state := by
  refine ⟨accounted, ?_⟩
  intro rest peer member
  have total := accounted peer member
  have idle : ∀ msg remaining, state.routine ≠ .sending msg remaining := by simp [rest.1]
  rwa [Broadcaster.beingSentTo_idle idle, Broadcaster.inBuffer_taken (atRest rest), List.append_nil,
    List.append_nil] at total

/-- While nothing is being sent, what was passed is what was sent and what the buffer holds. -/
theorem Delivers.whileIdle {peer : PeerInfo} (delivers : Delivers peers state) (member : peer ∈ peers)
    (idle : ∀ msg remaining, state.routine ≠ .sending msg remaining) :
    state.sentTo peer.id ++ state.inBuffer = state.passed := by
  have total := delivers.accounted peer member
  rwa [Broadcaster.beingSentTo_idle idle, List.append_nil] at total

theorem atRest_taken {peer : PeerInfo} (member : peer ∈ peers) (delivers : Delivers peers state)
    (rest : state.AtRest) : state.untaken = false := by
  by_contra untaken
  rw [Bool.not_eq_false] at untaken
  have total := delivers.whileIdle member (by simp [rest.1])
  rw [Broadcaster.inBuffer_untaken untaken, delivers.complete rest peer member] at total
  simp at total

/-- The invariant: what is delivered, and that no peer is served twice. -/
structure Delivering (peers : BroadcastPeers) (state : Broadcaster) : Prop where
  delivers : Delivers peers state
  distinct : ∀ msg remaining, state.routine = .sending msg remaining → (remaining.map PeerInfo.id).Nodup

/-- A step of the calls or of the routine that leaves both logs and the buffer alone keeps the account. -/
theorem Delivering.move (delivering : Delivering peers state) {notifying : Nat} {routine : Routine}
    (idle : ∀ msg remaining, state.routine ≠ .sending msg remaining)
    (idleNow : ∀ msg remaining, routine ≠ .sending msg remaining)
    (atRest : routine = .waiting → notifying = 0 → state.untaken = false) :
    Delivering peers { state with notifying, routine } := by
  refine ⟨delivers_of_accounted ?_ fun rest => atRest rest.1 rest.2, ?_⟩
  · intro peer member
    have total := delivering.delivers.whileIdle member idle
    rw [Broadcaster.beingSentTo_idle idleNow, List.append_nil]
    exact total
  · intro msg remaining sending
    exact absurd sending (idleNow msg remaining)

theorem store_idle (msg : ElectionMsg) (idle : ∀ msg remaining, state.routine ≠ .sending msg remaining) :
    broadcastStep movedFrom peers state (.store msg) = { state with
      msgBuf := msg, untaken := true, notifying := state.notifying + 1, passed := state.passed ++ [msg] } := by
  simp only [broadcastStep]

theorem store_delivering {msg : ElectionMsg} (delivering : Delivering peers state)
    (condition : HandsOver state (.store msg)) :
    Delivering peers (broadcastStep movedFrom peers state (.store msg)) := by
  simp only [broadcastStep]
  split
  · exact delivering
  · rename_i idle
    have taken : state.untaken = false := condition idle
    refine ⟨delivers_of_accounted ?_ ?_, delivering.distinct⟩
    · intro peer member
      have total := delivering.delivers.accounted peer member
      rw [Broadcaster.inBuffer_taken taken, List.append_nil] at total
      exact congrArg (· ++ [msg]) total
    · intro rest
      exact absurd rest.2 (Nat.succ_ne_zero state.notifying)

theorem notify_delivering (delivering : Delivering peers state) :
    Delivering peers (broadcastStep movedFrom peers state .notify) := by
  simp only [broadcastStep]
  split
  · exact delivering
  · rename_i waiting
    exact delivering.move (by simp [waiting]) nofun nofun
  · rename_i notWaiting
    refine ⟨delivers_of_accounted delivering.delivers.accounted ?_, delivering.distinct⟩
    intro rest
    exact absurd rest.1 notWaiting

theorem wait_delivering (delivering : Delivering peers state) (condition : HandsOver state .wait) :
    Delivering peers (broadcastStep movedFrom peers state .wait) := by
  simp only [broadcastStep]
  split
  · rename_i unlocked
    refine delivering.move (by simp [unlocked]) nofun ?_
    intro _ noCall
    exact Bool.eq_false_iff.mpr fun untaken => condition unlocked untaken noCall
  · exact delivering

theorem spuriousWakeUp_delivering (delivering : Delivering peers state) :
    Delivering peers (broadcastStep movedFrom peers state .spuriousWakeUp) := by
  simp only [broadcastStep]
  split
  · rename_i waiting
    exact delivering.move (by simp [waiting]) nofun nofun
  · exact delivering

theorem take_delivering (delivering : Delivering peers state) (condition : HandsOver state .take) :
    Delivering peers (broadcastStep movedFrom peers state .take) := by
  simp only [broadcastStep]
  split
  · rename_i woken
    refine ⟨delivers_of_accounted ?_ fun _ => rfl, ?_⟩
    · intro peer member
      have total := delivering.delivers.whileIdle member (by simp [woken])
      -- What the buffer held is now on its way to every peer.
      rw [Broadcaster.inBuffer_untaken (condition woken)] at total
      rw [Broadcaster.inBuffer_taken rfl, List.append_nil, Broadcaster.beingSentTo_sending rfl,
        if_pos (List.mem_map_of_mem member)]
      exact total
    · intro msg remaining sending
      rw [Routine.sending.injEq] at sending
      rw [← sending.2]
      exact peers.keyed
  · exact delivering

theorem send_delivering (delivering : Delivering peers state) :
    Delivering peers (broadcastStep movedFrom peers state .send) := by
  simp only [broadcastStep]
  split
  · rename_i msg receiver remaining sending
    have distinct := delivering.distinct msg (receiver :: remaining) sending
    rw [List.map_cons, List.nodup_cons] at distinct
    refine ⟨delivers_of_accounted ?_ nofun, ?_⟩
    · intro peer member
      have total := delivering.delivers.accounted peer member
      rw [← Broadcaster.sentTo_send sending distinct.1 peer.id rfl] at total
      exact total
    · intro msg' remaining' sending'
      rw [Routine.sending.injEq] at sending'
      rw [← sending'.2]
      exact distinct.2
  · exact delivering

theorem finish_delivering (delivering : Delivering peers state) :
    Delivering peers (broadcastStep movedFrom peers state .finish) := by
  simp only [broadcastStep]
  split
  · rename_i msg sending
    refine ⟨delivers_of_accounted ?_ nofun, nofun⟩
    intro peer member
    have total := delivering.delivers.accounted peer member
    rw [Broadcaster.beingSentTo_sending sending] at total
    exact total
  · exact delivering

theorem broadcastStep_delivering (state : Broadcaster) (event : BroadcastEvent) (delivering : Delivering peers state)
    (condition : HandsOver state event) : Delivering peers (broadcastStep movedFrom peers state event) := by
  cases event with
  | store msg => exact store_delivering delivering condition
  | notify => exact notify_delivering delivering
  | wait => exact wait_delivering delivering condition
  | spuriousWakeUp => exact spuriousWakeUp_delivering delivering
  | take => exact take_delivering delivering condition
  | send => exact send_delivering delivering
  | finish => exact finish_delivering delivering

/-- A step that does not hand over shows at once, in the account or at rest. -/
theorem handsOver_of_delivers {peer : PeerInfo} (member : peer ∈ peers) {event : BroadcastEvent}
    (before : Delivers peers state) (after : Delivers peers (broadcastStep movedFrom peers state event)) :
    HandsOver state event := by
  cases event with
  | store msg =>
    intro idle
    by_contra untaken
    rw [Bool.not_eq_false] at untaken
    have total := before.accounted peer member
    rw [store_idle msg idle] at after
    -- One message more has been passed, and the buffer holds one as before.
    have totalAfter : state.sentTo peer.id ++ state.beingSentTo peer.id ++ [msg] = state.passed ++ [msg] :=
      after.accounted peer member
    rw [Broadcaster.inBuffer_untaken untaken, ← List.append_cancel_right totalAfter] at total
    simp at total
  | wait =>
    intro unlocked untaken noCall
    simp only [broadcastStep, unlocked] at after
    have taken := atRest_taken member after ⟨rfl, noCall⟩
    rw [untaken] at taken
    cases taken
  | take =>
    intro woken
    by_contra taken
    rw [Bool.not_eq_true] at taken
    have passed := before.whileIdle member (by simp [woken])
    simp only [broadcastStep, woken] at after
    -- A message is being sent, and none has left the buffer.
    have totalAfter := after.accounted peer member
    rw [Broadcaster.inBuffer_taken rfl, List.append_nil, Broadcaster.beingSentTo_sending rfl,
      if_pos (List.mem_map_of_mem member)] at totalAfter
    rw [Broadcaster.inBuffer_taken taken, List.append_nil] at passed
    have longer : state.sentTo peer.id ++ [state.msgBuf] = state.passed := totalAfter
    rw [← passed] at longer
    simp at longer
  | _ => trivial

/-- Every message reaches every peer once, in order and as it was passed, if and only if each message is
handed over before the next: where there are peers at all. -/
theorem delivers_iff (movedFrom : MovedFrom) (peers : BroadcastPeers) (events : List BroadcastEvent) :
    Runs.Always (broadcastStep movedFrom peers) (Delivers peers) {} events ↔
      peers.rows = [] ∨ Runs.EachStep (broadcastStep movedFrom peers) HandsOver {} events := by
  cases rows : peers.rows with
  | nil =>
    refine iff_of_true ?_ (.inl rfl)
    have nobody : ∀ state, Delivers peers state := by
      intro state
      constructor <;> simp [Relation.mem_def, rows]
    exact (Runs.always_iff_prefixes {} events).mpr fun before _ _ => nobody _
  | cons peer rest =>
    have member : peer ∈ peers := by rw [Relation.mem_def, rows]; exact List.mem_cons_self
    have initially : Delivering peers {} := by
      refine ⟨delivers_of_accounted (fun _ _ => rfl) fun _ => rfl, nofun⟩
    simp only [reduceCtorEq, false_or]
    exact Runs.always_exact (Delivering peers) (fun _ delivering => delivering.delivers) broadcastStep_delivering
      (fun _ _ delivering after => handsOver_of_delivers member delivering.delivers after) {} initially events

/-! ## Two calls in a row -/

/-- A round that has lost its leader broadcasts its ping twice. -/
def pingTwice : List ElectionMsg :=
  (Bully.workWorking (fun _ _ _ => .timeout)
    { key := ⟨1, 5⟩, currentLeader := some ⟨⟨2, []⟩, 9⟩, running := true }).2

/-- The second call stores before the routine, woken by the first, has the mutex again. -/
def storedTwice : List BroadcastEvent :=
  [.wait] ++ pingTwice.flatMap (fun msg => [.store msg, .notify]) ++ [.take, .send, .finish, .wait]

theorem storedTwice_loses :
    ¬ Runs.Always (broadcastStep id ⟨[⟨3, []⟩], by decide⟩) (Delivers ⟨[⟨3, []⟩], by decide⟩) {} storedTwice := by
  intro always
  have delivers := (Runs.always_iff_prefixes _ storedTwice).mp always storedTwice [] (by rw [List.append_nil])
  have complete := delivers.complete ⟨rfl, rfl⟩ ⟨3, []⟩ (by decide)
  exact absurd (congrArg List.length complete) (by decide)

end AbilityFramework.DiscoveryMgr
