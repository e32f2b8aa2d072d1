import AbilityFramework.DiscoveryMgr.Bully

/-! # The sends of a bully node's round

A round posts its messages one after the other, each to an address of a peer and only while no address of
that peer has answered.  `roundSends` lists them, so that the round can be run send by send. -/

namespace AbilityFramework.DiscoveryMgr

open Library

/-- The addresses that are tried, one after the other until one of them answers. -/
def triedAddresses (answers : MultiAddr → Bool) : List MultiAddr → List MultiAddr
  | [] => []
  | address :: rest => if answers address then [address] else address :: triedAddresses answers rest

/-- What a round passes to `out->send`, with the peer it is meant for. -/
def Bully.roundSends (send : Bully.Send) (bully : Bully) : List (Uuid × MultiAddr × ElectionMsg) :=
  let sends (peer : PeerInfo) (msg : ElectionMsg) :=
    (triedAddresses (fun address => !(send peer.id address msg).isTimeout) peer.addresses).map
      fun address => (peer.id, address, msg)
  if !bully.running then []
  else if bully.selfIsLeader then bully.peers.rows.flatMap fun peer => sends peer.pinfo bully.makeMsgVictory
  else match bully.currentLeader with
  | some leader => sends leader.pinfo bully.makeMsgPing
  | none => []

theorem mem_triedAddresses {answers : MultiAddr → Bool} {addresses : List MultiAddr} {address : MultiAddr}
    (tried : address ∈ triedAddresses answers addresses) : address ∈ addresses := by
  induction addresses with
  | nil => exact tried
  | cons first rest inductionHypothesis =>
    rw [triedAddresses] at tried
    split at tried
    · rw [List.mem_singleton.mp tried]
      exact List.mem_cons_self
    · obtain rfl | later := List.mem_cons.mp tried
      · exact List.mem_cons_self
      · exact List.mem_cons_of_mem first (inductionHypothesis later)

/-- A round sends to entries of the peer table and to the leader only. -/
theorem mem_roundSends {send : Bully.Send} {bully : Bully} {id : Uuid} {address : MultiAddr} {msg : ElectionMsg}
    (sent : (id, address, msg) ∈ bully.roundSends send) :
    ∃ entry : ExtPeerInfo, (entry ∈ bully.peers ∨ bully.currentLeader = some entry) ∧ entry.id = id ∧
      address ∈ entry.pinfo.addresses := by
  unfold Bully.roundSends at sent
  dsimp only at sent
  split at sent
  · cases sent
  · split at sent
    · obtain ⟨entry, member, sent⟩ := List.mem_flatMap.mp sent
      obtain ⟨tried, isTried, same⟩ := List.mem_map.mp sent
      obtain ⟨rfl, rfl, rfl⟩ := same
      exact ⟨entry, .inl member, rfl, mem_triedAddresses isTried⟩
    · split at sent
      · rename_i leader isLeader
        obtain ⟨tried, isTried, same⟩ := List.mem_map.mp sent
        obtain ⟨rfl, rfl, rfl⟩ := same
        exact ⟨leader, .inr isLeader, rfl, mem_triedAddresses isTried⟩
      · cases sent

/-! ## Who is sent to -/

variable {bully : Bully}

theorem firstTried (answers : MultiAddr → Bool) (first : MultiAddr) (rest : List MultiAddr) :
    first ∈ triedAddresses answers (first :: rest) := by
  rw [triedAddresses]
  split
  · exact List.mem_cons_self
  · exact List.mem_cons_self

theorem leader_sends {send : Bully.Send} {id : Uuid} {weight : Int} {first : MultiAddr} {rest : List MultiAddr}
    (running : bully.running = true) (leads : bully.selfIsLeader = true)
    (member : ⟨⟨id, first :: rest⟩, weight⟩ ∈ bully.peers) :
    (id, first, bully.makeMsgVictory) ∈ bully.roundSends send := by
  simp only [Bully.roundSends, running, leads, Bool.not_true, Bool.false_eq_true, if_false, if_true]
  exact List.mem_flatMap.mpr ⟨_, member, List.mem_map.mpr ⟨first, firstTried _ first rest, rfl⟩⟩

theorem follower_sends {send : Bully.Send} {id : Uuid} {weight : Int} {first : MultiAddr} {rest : List MultiAddr}
    (running : bully.running = true) (follows : bully.selfIsLeader = false)
    (isLeader : bully.currentLeader = some ⟨⟨id, first :: rest⟩, weight⟩) :
    (id, first, bully.makeMsgPing) ∈ bully.roundSends send := by
  simp only [Bully.roundSends, running, follows, isLeader, Bool.not_true, Bool.false_eq_true, if_false]
  exact List.mem_map.mpr ⟨first, firstTried _ first rest, rfl⟩

end AbilityFramework.DiscoveryMgr
