import AbilityFramework.DiscoveryMgr.Bully

/-! # The leader of a bully node

A node orders the keys it hears of by weight and then by id.  Its leader is assigned in the three
handlers and in the worker; `message_leader` and `work_leader` say once what each of them can make of
it.  From these follow the two properties a leader should have, and exactly when it has them:

* it is never below the node itself — while the worker, after losing a leader, takes the peer with the
  largest *id* for the next one (`leader_above_self_iff`);
* its key never goes down while it answers — while a victory replaces the leader whatever the leader's
  key (`leader_monotone_iff`). -/

namespace AbilityFramework.DiscoveryMgr

open Library

variable {bully : Bully} {msg : ElectionMsg} {otherKey : Key}

/-! ## Messages -/

theorem touchPeer_id : (bully.touchPeer msg).id = msg.sourceId := by
  simp only [Bully.touchPeer, ExtPeerInfo.id, PeerInfo.insertAddress]
  split <;> rfl

theorem addPeers_keeps (bully : Bully) (msg : ElectionMsg) :
    (bully.addPeers msg).2.key = bully.key ∧ (bully.addPeers msg).2.currentLeader = bully.currentLeader := by
  simp only [Bully.addPeers]
  split
  · exact ⟨rfl, rfl⟩
  · exact ⟨rfl, rfl⟩

/-- Adding the sender reads what `Key::from_msg` reads, so it throws when that does. -/
theorem addPeers_result (bully : Bully) (msg : ElectionMsg) :
    (bully.addPeers msg).1 = (Key.fromMsg msg).map fun _ => () := by
  simp only [Bully.addPeers, Key.fromMsg]
  cases msg.detail.value "weight" Json.getInt32 0 with
  | error error => rfl
  | ok weight => rfl

/-- Once the sender has been added, its entry carries the key of the message. -/
theorem addPeers_peerOf {added : Bully} (ok : bully.addPeers msg = (.ok (), added))
    (fromMsg : Key.fromMsg msg = .ok otherKey) : (added.peerOf msg.sourceId).key = otherKey := by
  simp only [Key.fromMsg] at fromMsg
  simp only [Bully.addPeers] at ok
  cases read : msg.detail.value "weight" Json.getInt32 0 with
  | error error =>
    rw [read] at fromMsg
    cases fromMsg
  | ok weight =>
    rw [read] at ok fromMsg
    simp only [Prod.mk.injEq, true_and] at ok
    have sender : { bully.touchPeer msg with weight }.id = msg.sourceId := touchPeer_id
    have found := Relation.lookup_replaceInto_self bully.peers { bully.touchPeer msg with weight }
    rw [sender] at found
    rw [← ok, Bully.peerOf, found, ← Except.ok.inj fromMsg]
    exact congrArg (Key.mk · weight) sender

/-- What a handler may make of the leader: nothing, or the sender, whose key is not below the node's and,
but for a victory, above the leader's. -/
def Handled (bully : Bully) (msg : ElectionMsg) (after : Bully) : Prop :=
  after.key = bully.key ∧ (after.currentLeader = bully.currentLeader ∨
    ∃ leader, after.currentLeader = some leader ∧ Key.fromMsg msg = .ok leader.key ∧ bully.key ≤ leader.key ∧
      (msg.type = "bully.victory" ∨ ∀ old, bully.currentLeader = some old → old.key < leader.key))

theorem bid_handled (sender : (bully.peerOf msg.sourceId).key = otherKey)
    (fromMsg : Key.fromMsg msg = .ok otherKey) : Handled bully msg (bully.onMsgBid msg otherKey).2 := by
  unfold Bully.onMsgBid
  split
  · exact ⟨rfl, .inl rfl⟩
  · rename_i notBelow
    split
    · exact ⟨rfl, .inl rfl⟩
    · rename_i above
      -- Neither check has kept the sender out.
      have notBelow : bully.key ≤ otherKey := not_lt.mp (mt Key.less_iff.mpr notBelow)
      refine ⟨rfl, .inr ⟨_, rfl, by rw [sender, fromMsg], by rwa [sender], .inr ?_⟩⟩
      intro old isLeader
      rw [isLeader, Option.any_some, Bool.not_eq_true', Bool.not_eq_false, ExtPeerInfo.less_iff] at above
      rwa [sender]

theorem victory_leader (bully : Bully) (msg : ElectionMsg) (notBelow : bully.key ≤ otherKey) :
    bully.onMsgVictory msg otherKey =
      (.empty, { bully with currentLeader := some (bully.peerOf msg.sourceId) }) := by
  rw [Bully.onMsgVictory, if_neg]
  exact mt Key.less_iff.mp (not_lt.mpr notBelow)

theorem victory_handled (sender : (bully.peerOf msg.sourceId).key = otherKey)
    (fromMsg : Key.fromMsg msg = .ok otherKey) (victory : msg.type = "bully.victory") :
    Handled bully msg (bully.onMsgVictory msg otherKey).2 := by
  by_cases notBelow : bully.key ≤ otherKey
  · rw [victory_leader bully msg notBelow]
    exact ⟨rfl, .inr ⟨_, rfl, by rw [sender, fromMsg], by rwa [sender], .inl victory⟩⟩
  · rw [Bully.onMsgVictory, if_pos (Key.less_iff.mpr (not_le.mp notBelow))]
    exact ⟨rfl, .inl rfl⟩

/-- A message that is handled at all is handled with its sender added and its key read. -/
theorem message_cases (bully : Bully) (msg : ElectionMsg) :
    ((bully.onElectionMessage msg).2.key = bully.key ∧
        (bully.onElectionMessage msg).2.currentLeader = bully.currentLeader) ∧
      (bully.running = true → ∀ otherKey, Key.fromMsg msg = .ok otherKey → msg.type ≠ "bully.victory") ∨
    ∃ (added : Bully) (otherKey : Key), bully.running = true ∧ Key.fromMsg msg = .ok otherKey ∧
      added.key = bully.key ∧ added.currentLeader = bully.currentLeader ∧
      (added.peerOf msg.sourceId).key = otherKey ∧
      (msg.type = "bully.victory" ∧
          (bully.onElectionMessage msg).2 = (added.onMsgVictory msg otherKey).2 ∨
        msg.type ≠ "bully.victory" ∧ (bully.onElectionMessage msg).2 = (added.onMsgBid msg otherKey).2) := by
  unfold Bully.onElectionMessage
  cases running : bully.running with
  | false => exact .inl ⟨⟨rfl, rfl⟩, nofun⟩
  | true =>
    have keeps := addPeers_keeps bully msg
    simp only [Bool.not_true, Bool.false_eq_true, if_false]
    cases read : bully.addPeers msg with
    | mk result added =>
      rw [read] at keeps
      cases result with
      | error error =>
        refine .inl ⟨keeps, fun _ otherKey fromMsg => ?_⟩
        have thrown := addPeers_result bully msg
        rw [read, fromMsg] at thrown
        cases thrown
      | ok _ =>
        simp only
        cases fromMsg : Key.fromMsg msg with
        | error error => exact .inl ⟨keeps, nofun⟩
        | ok otherKey =>
          have sender := addPeers_peerOf read fromMsg
          simp only
          split
          · rename_i victory
            exact .inr ⟨added, otherKey, trivial, rfl, keeps.1, keeps.2, sender, .inl ⟨victory, rfl⟩⟩
          · rename_i notVictory
            split
            · exact .inr ⟨added, otherKey, trivial, rfl, keeps.1, keeps.2, sender, .inr ⟨notVictory, rfl⟩⟩
            · split
              · exact .inr ⟨added, otherKey, trivial, rfl, keeps.1, keeps.2, sender, .inr ⟨notVictory, rfl⟩⟩
              · exact .inl ⟨keeps, fun _ _ _ => notVictory⟩

theorem message_leader (bully : Bully) (msg : ElectionMsg) :
    Handled bully msg (bully.onElectionMessage msg).2 := by
  obtain ⟨keeps, _⟩ | ⟨added, otherKey, _, fromMsg, key, leader, sender, ⟨victory, result⟩ | ⟨_, result⟩⟩ :=
    message_cases bully msg
  · exact ⟨keeps.1, .inl keeps.2⟩
  · rw [result, Handled, ← key, ← leader]
    exact victory_handled sender fromMsg victory
  · rw [result, Handled, ← key, ← leader]
    exact bid_handled sender fromMsg

/-! ## The worker -/

theorem maxIdTurn_spec (found : Uuid × ExtPeerInfo) (row : ExtPeerInfo) (consistent : found.1 = found.2.id) :
    (Bully.maxIdTurn found row).1 = (Bully.maxIdTurn found row).2.id ∧
      ((Bully.maxIdTurn found row).2 = found.2 ∨ (Bully.maxIdTurn found row).2 = row) ∧
      found.1 ≤ (Bully.maxIdTurn found row).1 ∧ row.id ≤ (Bully.maxIdTurn found row).1 := by
  unfold Bully.maxIdTurn
  split
  · rename_i unset
    exact ⟨rfl, .inr rfl, Nat.le_trans (Nat.le_of_eq unset) (Nat.zero_le row.id), Nat.le_refl row.id⟩
  · split
    · rename_i smaller
      exact ⟨consistent, .inl rfl, Nat.le_refl found.1, Nat.le_of_lt smaller⟩
    · rename_i notSmaller
      exact ⟨rfl, .inr rfl, Nat.not_lt.mp notSmaller, Nat.le_refl row.id⟩

theorem maxIdTurn_fold (rows : List ExtPeerInfo) (found : Uuid × ExtPeerInfo) (consistent : found.1 = found.2.id) :
    (rows.foldl Bully.maxIdTurn found).1 = (rows.foldl Bully.maxIdTurn found).2.id ∧
      ((rows.foldl Bully.maxIdTurn found).2 = found.2 ∨ (rows.foldl Bully.maxIdTurn found).2 ∈ rows) ∧
      found.1 ≤ (rows.foldl Bully.maxIdTurn found).1 ∧
      ∀ row ∈ rows, row.id ≤ (rows.foldl Bully.maxIdTurn found).1 := by
  induction rows generalizing found with
  | nil => exact ⟨consistent, .inl rfl, Nat.le_refl found.1, nofun⟩
  | cons row rows inductionHypothesis =>
    obtain ⟨turnConsistent, turnFound, above, covers⟩ := maxIdTurn_spec found row consistent
    obtain ⟨endConsistent, endFound, endAbove, endCovers⟩ := inductionHypothesis (Bully.maxIdTurn found row) turnConsistent
    rw [List.foldl_cons]
    refine ⟨endConsistent, ?_, Nat.le_trans above endAbove, ?_⟩
    · obtain same | member := endFound
      · obtain kept | taken := turnFound
        · exact .inl (same.trans kept)
        · rw [same, taken]
          exact .inr List.mem_cons_self
      · exact .inr (List.mem_cons_of_mem row member)
    · intro other member
      obtain rfl | member := List.mem_cons.mp member
      · exact Nat.le_trans covers endAbove
      · exact endCovers other member

theorem maxIdInPeers_spec (bully : Bully) (nonempty : bully.peers.rows ≠ []) :
    ∃ largest, bully.maxIdInPeers = some largest ∧ largest ∈ bully.peers ∧
      ∀ peer ∈ bully.peers, peer.id ≤ largest.id := by
  simp only [Bully.maxIdInPeers, Relation.mem_def]
  cases rows : bully.peers.rows with
  | nil => exact absurd rows nonempty
  | cons first rest =>
    -- The first turn takes the first peer, whatever its id.
    have taken : (first :: rest).foldl Bully.maxIdTurn (0, {}) = rest.foldl Bully.maxIdTurn (first.id, first) := rfl
    obtain ⟨consistent, member, above, covers⟩ := maxIdTurn_fold rest (first.id, first) rfl
    rw [taken]
    refine ⟨_, rfl, ?_, ?_⟩
    · obtain same | member := member
      · rw [same]
        exact List.mem_cons_self
      · exact List.mem_cons_of_mem first member
    · intro peer member
      rw [← consistent]
      obtain rfl | member := List.mem_cons.mp member
      · exact above
      · exact covers peer member

/-- The peers that stay when the leader is dropped. -/
def Remains (bully : Bully) (leader peer : ExtPeerInfo) : Prop := peer ∈ bully.peers ∧ peer.id ≠ leader.id

/-- The round finds its leader, another node, not answering. -/
def LosesLeader (bully : Bully) (send : Bully.Send) (leader : ExtPeerInfo) : Prop :=
  bully.running = true ∧ bully.currentLeader = some leader ∧ leader.id ≠ bully.key.id ∧
    (bully.sendPing send leader.pinfo).isOk = false

/-- What a round may make of the leader: nothing; the node itself when it has none; and when it loses
one, the node itself if every remaining peer is below it, or else the remaining peer with the largest id. -/
def Rounded (bully : Bully) (send : Bully.Send) (after : Bully) : Prop :=
  after.key = bully.key ∧
    ((∀ leader, ¬ LosesLeader bully send leader) ∧ after.currentLeader = bully.currentLeader ∨
    bully.currentLeader = none ∧ after.currentLeader = some bully.self ∨
    ∃ leader, LosesLeader bully send leader ∧
      ((∀ peer, Remains bully leader peer → peer.key < bully.key) ∧ after.currentLeader = some bully.self ∨
      ∃ largest, Remains bully leader largest ∧ (∀ peer, Remains bully leader peer → peer.id ≤ largest.id) ∧
        (∃ peer, Remains bully leader peer ∧ bully.key ≤ peer.key) ∧ after.currentLeader = some largest))

theorem isBiggestInPeers_iff :
    bully.isBiggestInPeers = true ↔ ∀ peer ∈ bully.peers, peer.key < bully.key := by
  simp only [Bully.isBiggestInPeers, List.all_eq_true, ExtPeerInfo.less_iff, Relation.mem_def]

theorem work_leader (send : Bully.Send) (bully : Bully) : Rounded bully send (bully.workWorking send).1 := by
  unfold Bully.workWorking
  cases running : bully.running with
  | false =>
    refine ⟨rfl, .inl ⟨fun leader loses => ?_, rfl⟩⟩
    rw [loses.1] at running
    cases running
  | true =>
    simp only [Bool.not_true, Bool.false_eq_true, if_false]
    cases isLeader : bully.currentLeader with
    | none =>
      simp only [Bully.selfIsLeader, isLeader, Option.any_none, Bool.false_eq_true, if_false]
      exact ⟨rfl, .inr (.inl ⟨isLeader, rfl⟩)⟩
    | some leader =>
      simp only [Bully.selfIsLeader, isLeader, Option.any_some, decide_eq_true_eq]
      split
      · rename_i isSelf
        refine ⟨rfl, .inl ⟨fun other loses => ?_, isLeader.symm⟩⟩
        obtain ⟨_, isLeader', different, _⟩ := loses
        rw [isLeader, Option.some.injEq] at isLeader'
        exact different (isLeader' ▸ isSelf)
      · rename_i different
        split
        · rename_i answers
          refine ⟨rfl, .inl ⟨fun other loses => ?_, rfl⟩⟩
          obtain ⟨_, isLeader', _, silent⟩ := loses
          rw [isLeader, Option.some.injEq] at isLeader'
          rw [← isLeader', answers] at silent
          cases silent
        · rename_i silent
          have loses : LosesLeader bully send leader :=
            ⟨running, isLeader, different, Bool.eq_false_iff.mpr silent⟩
          have remains : ∀ peer, peer ∈ bully.peers.deleteWhere (fun peer => peer.id = leader.id) ↔
              Remains bully leader peer := by
            intro peer
            rw [Relation.mem_deleteWhere, decide_eq_true_eq]
            rfl
          split
          · rename_i biggest
            refine ⟨rfl, .inr (.inr ⟨leader, loses, .inl ⟨fun peer stays => ?_, rfl⟩⟩)⟩
            exact isBiggestInPeers_iff.mp biggest peer ((remains peer).mpr stays)
          · rename_i notBiggest
            rw [isBiggestInPeers_iff] at notBiggest
            push Not at notBiggest
            obtain ⟨peer, member, notBelow⟩ := notBiggest
            have nonempty : (bully.peers.deleteWhere fun peer => peer.id = leader.id).rows ≠ [] :=
              List.ne_nil_of_mem member
            rw [if_pos (by rw [Bool.not_eq_true', List.isEmpty_eq_false_iff]; exact nonempty)]
            obtain ⟨largest, isMax, largestMember, covers⟩ := maxIdInPeers_spec
              { bully with peers := bully.peers.deleteWhere fun peer => peer.id = leader.id } nonempty
            refine ⟨rfl, .inr (.inr ⟨leader, loses, .inr ⟨largest, (remains largest).mp largestMember, ?_, ?_, isMax⟩⟩)⟩
            · intro other stays
              exact covers other ((remains other).mpr stays)
            · exact ⟨peer, (remains peer).mp member, notBelow⟩

/-! ## Its peers -/

theorem message_peers (bully : Bully) (msg : ElectionMsg) :
    (bully.onElectionMessage msg).2.peers = bully.peers ∨
      (bully.onElectionMessage msg).2.peers = (bully.addPeers msg).2.peers := by
  unfold Bully.onElectionMessage
  split
  · exact .inl rfl
  · refine .inr ?_
    cases bully.addPeers msg with
    | mk result added =>
      cases result with
      | error error => rfl
      | ok _ =>
        simp only
        cases Key.fromMsg msg with
        | error error => rfl
        | ok otherKey =>
          simp only [Bully.onMsgVictory, Bully.onMsgPing, Bully.onMsgChallange, Bully.onMsgBid]
          repeat' split
          all_goals rfl

theorem work_peers (send : Bully.Send) (bully : Bully) {peer : ExtPeerInfo}
    (member : peer ∈ (bully.workWorking send).1.peers) : peer ∈ bully.peers := by
  unfold Bully.workWorking at member
  dsimp only at member
  repeat' split at member
  all_goals first
    | exact member
    | exact (Relation.mem_deleteWhere.mp member).1

/-! ## Never below the node -/

def LeaderAboveSelf (bully : Bully) : Prop :=
  ∀ leader, bully.currentLeader = some leader → bully.key ≤ leader.key

/-- A round that loses its leader to a node that is not the biggest finds, under the largest id among the
remaining peers, a key that is not below the node's. -/
def LargestIdNotBelow (bully : Bully) : BullyEvent → Prop
  | .work send => ∀ leader, LosesLeader bully send leader →
      (∃ peer, Remains bully leader peer ∧ bully.key ≤ peer.key) →
      ∀ largest, Remains bully leader largest → (∀ peer, Remains bully leader peer → peer.id ≤ largest.id) →
        bully.key ≤ largest.key
  | _ => True

theorem leaderAboveSelf_message (above : LeaderAboveSelf bully) (msg : ElectionMsg) :
    LeaderAboveSelf (bully.onElectionMessage msg).2 := by
  obtain ⟨key, same | ⟨leader, isLeader, _, notBelow, _⟩⟩ := message_leader bully msg
  · rwa [LeaderAboveSelf, key, same]
  · intro other isOther
    rw [isLeader, Option.some.injEq] at isOther
    rwa [key, ← isOther]

theorem largestIdNotBelow_of_above {send : Bully.Send} (above : LeaderAboveSelf (bully.workWorking send).1) :
    LargestIdNotBelow bully (.work send) := by
  intro leader loses notBiggest largest stays covers
  obtain ⟨key, ⟨keeps, _⟩ | ⟨none, _⟩ | ⟨other, otherLoses, ⟨biggest, _⟩ | ⟨found, foundStays, foundCovers, _, isFound⟩⟩⟩ :=
    work_leader send bully
  · exact absurd loses (keeps leader)
  · have isLeader := loses.2.1
    rw [none] at isLeader
    cases isLeader
  · have sameLeader : other = leader := Option.some.inj (otherLoses.2.1.symm.trans loses.2.1)
    obtain ⟨peer, peerStays, notBelow⟩ := notBiggest
    exact absurd (biggest peer (sameLeader ▸ peerStays)) (not_lt.mpr notBelow)
  · have sameLeader : other = leader := Option.some.inj (otherLoses.2.1.symm.trans loses.2.1)
    rw [sameLeader] at foundStays foundCovers
    -- Two peers with the largest id are one peer.
    have sameId : found.id = largest.id := Nat.le_antisymm (covers found foundStays) (foundCovers largest stays)
    have same : found = largest := Relation.eq_of_key foundStays.1 stays.1 sameId
    rw [← key, ← same]
    exact above found isFound

theorem leaderAboveSelf_work {send : Bully.Send} (above : LeaderAboveSelf bully)
    (condition : LargestIdNotBelow bully (.work send)) : LeaderAboveSelf (bully.workWorking send).1 := by
  obtain ⟨key, ⟨_, same⟩ | ⟨_, isSelf⟩ |
    ⟨leader, loses, ⟨_, isSelf⟩ | ⟨found, stays, covers, notBiggest, isFound⟩⟩⟩ := work_leader send bully
  · rwa [LeaderAboveSelf, key, same]
  · intro other isOther
    rw [isSelf, Option.some.injEq] at isOther
    rw [key, ← isOther]
    exact le_refl bully.key
  · intro other isOther
    rw [isSelf, Option.some.injEq] at isOther
    rw [key, ← isOther]
    exact le_refl bully.key
  · intro other isOther
    rw [isFound, Option.some.injEq] at isOther
    rw [key, ← isOther]
    exact condition leader loses notBiggest found stays covers

/-- In every state of a run the leader is not below the node, if and only if every round that replaces a
lost leader by a peer finds a peer that is not below the node under the largest id. -/
theorem leader_above_self_iff (key : Key) (events : List BullyEvent) :
    Runs.Always bullyStep LeaderAboveSelf { key } events ↔
      Runs.EachStep bullyStep LargestIdNotBelow { key } events := by
  apply Runs.always_exact LeaderAboveSelf fun _ above => above
  · intro bully event above condition
    cases event with
    | start => exact above
    | finish => exact nofun
    | message msg => exact leaderAboveSelf_message above msg
    | work send => exact leaderAboveSelf_work above condition
  · intro bully event _ above
    cases event with
    | start => trivial
    | finish => trivial
    | message msg => trivial
    | work send => exact largestIdNotBelow_of_above above
  · exact nofun

def message (type : String) (id : Uuid) (weight : Int) : BullyEvent :=
  .message { sourceId := id, type, detail := .object [("weight", .integer weight)] }

/-- Node 1, of weight 5, has heard of nodes 2, 3 and 4, of weights 9, 7 and 1, and loses node 2. -/
def losesBiggest : List BullyEvent :=
  [.start, message "bully.ping" 2 9, message "bully.ping" 3 7, message "bully.ping" 4 1,
    .work fun _ _ _ => .timeout]

theorem losesBiggest_leader_below : ¬ LeaderAboveSelf (Runs.run bullyStep { key := ⟨1, 5⟩ } losesBiggest) := by
  intro above
  have notBelow := above ⟨⟨4, [""]⟩, 1⟩ rfl
  exact absurd (Key.lt_iff.mpr (.inl (by decide))) (not_lt.mpr notBelow)

/-! ## Never down -/

/-- The leader's key does not go down in the step, unless the round has failed to ping that leader. -/
def LeaderKept (bully : Bully) (event : BullyEvent) : Prop :=
  ∀ old new, bully.currentLeader = some old → (bullyStep bully event).currentLeader = some new →
    old.key ≤ new.key ∨ ∃ send, event = .work send ∧ LosesLeader bully send old

/-- A victory that the node believes comes from a node not below its leader. -/
def VictoryNotBelowLeader (bully : Bully) : BullyEvent → Prop
  | .message msg => bully.running = true → msg.type = "bully.victory" → ∀ otherKey, Key.fromMsg msg = .ok otherKey →
      bully.key ≤ otherKey → ∀ leader, bully.currentLeader = some leader → leader.key ≤ otherKey
  | _ => True

theorem leaderKept_of_same {event : BullyEvent} (same : (bullyStep bully event).currentLeader = bully.currentLeader) :
    LeaderKept bully event := by
  intro old new isOld isNew
  rw [same, isOld, Option.some.injEq] at isNew
  exact .inl (le_of_eq (congrArg ExtPeerInfo.key isNew))

theorem leaderKept_work (bully : Bully) (send : Bully.Send) : LeaderKept bully (.work send) := by
  obtain ⟨_, ⟨_, same⟩ | ⟨none, _⟩ | ⟨leader, loses, _⟩⟩ := work_leader send bully
  · exact leaderKept_of_same same
  · intro old new isOld _
    rw [none] at isOld
    cases isOld
  · intro old new isOld _
    have sameLeader : leader = old := Option.some.inj (loses.2.1.symm.trans isOld)
    exact .inr ⟨send, rfl, sameLeader ▸ loses⟩

theorem leaderKept_message_iff (bully : Bully) (msg : ElectionMsg) :
    LeaderKept bully (.message msg) ↔ VictoryNotBelowLeader bully (.message msg) := by
  constructor
  · intro kept running victory otherKey fromMsg notBelow leader isLeader
    obtain ⟨_, never⟩ | ⟨added, key, _, fromMsg', sameKey, _, sender, ⟨_, result⟩ | ⟨notVictory, _⟩⟩ :=
      message_cases bully msg
    · exact absurd victory (never running otherKey fromMsg)
    · rw [fromMsg, Except.ok.injEq] at fromMsg'
      subst fromMsg'
      rw [victory_leader added msg (sameKey ▸ notBelow)] at result
      have isNew : (bullyStep bully (.message msg)).currentLeader = some (added.peerOf msg.sourceId) := by
        rw [bullyStep, result]
      obtain up | ⟨_, ⟨⟩, _⟩ := kept leader _ isLeader isNew
      rwa [sender] at up
    · exact absurd victory notVictory
  · intro condition old new isOld isNew
    refine .inl ?_
    obtain ⟨_, same | ⟨leader, isLeader, fromMsg, notBelow, victory | up⟩⟩ := message_leader bully msg
    · rw [bullyStep, same, isOld, Option.some.injEq] at isNew
      rw [isNew]
    · rw [bullyStep, isLeader, Option.some.injEq] at isNew
      obtain ⟨unchanged, _⟩ | ⟨_, _, running, _⟩ := message_cases bully msg
      · rw [unchanged.2, isOld, Option.some.injEq] at isLeader
        rw [isLeader, isNew]
      · rw [← isNew]
        exact condition running victory leader.key fromMsg notBelow old isOld
    · rw [bullyStep, isLeader, Option.some.injEq] at isNew
      rw [← isNew]
      exact le_of_lt (up old isOld)

theorem leaderKept_iff (bully : Bully) (event : BullyEvent) :
    LeaderKept bully event ↔ VictoryNotBelowLeader bully event := by
  cases event with
  | start => exact iff_of_true (leaderKept_of_same rfl) trivial
  | finish =>
    refine iff_of_true (fun old new _ isNew => ?_) trivial
    cases isNew
  | message msg => exact leaderKept_message_iff bully msg
  | work send => exact iff_of_true (leaderKept_work bully send) trivial

/-- In every step of a run the leader's key does not go down unless the leader has failed a ping, if and
only if every victory the node believes comes from a node not below its leader. -/
theorem leader_monotone_iff (key : Key) (events : List BullyEvent) :
    Runs.EachStep bullyStep LeaderKept { key } events ↔
      Runs.EachStep bullyStep VictoryNotBelowLeader { key } events := by
  apply Runs.eachStep_exact fun _ => True
  · intro _ _ _ _
    trivial
  · intro bully event _
    exact leaderKept_iff bully event
  · trivial

/-- Node 2, of weight 9, leads; then node 3, of weight 7, announces its victory. -/
def lateVictory : List BullyEvent :=
  [.start, message "bully.victory" 2 9, message "bully.victory" 3 7]

theorem lateVictory_leader_down : ¬ Runs.EachStep bullyStep LeaderKept { key := ⟨1, 5⟩ } lateVictory := by
  intro kept
  obtain up | ⟨_, ⟨⟩, _⟩ := kept.2.2.1 ⟨⟨2, [""]⟩, 9⟩ ⟨⟨3, [""]⟩, 7⟩ rfl rfl
  exact absurd (Key.lt_iff.mpr (.inl (by decide))) (not_lt.mpr up)

end AbilityFramework.DiscoveryMgr
