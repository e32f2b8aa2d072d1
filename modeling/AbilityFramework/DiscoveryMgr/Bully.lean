import Mathlib.Data.List.Sort
import Mathlib.Data.Prod.Lex
import Mathlib.Data.String.Basic
import AbilityFramework.Library.Json
import AbilityFramework.Library.Relation
import AbilityFramework.Library.Runs
import AbilityFramework.Uuid

/-! # A bully node

`discoverymgr/election_methods/bully.cpp`: the three message handlers and one round of the worker loop.
A round holds the node's mutex from beginning to end, so a round and a message are each one step.
What the sends of a round return is given by its event, for each peer and address; what the node sends
itself is part of a step's result. -/

namespace AbilityFramework.DiscoveryMgr

open Library

abbrev MultiAddr := String

structure ElectionMsg where
  sourceId : Uuid
  sourceAddr : MultiAddr := ""
  type : String
  detail : Json := .null

inductive ElectionMsgRes where
  | empty
  | msg (msg : ElectionMsg)
  | error (message : String)
  | timeout

def ElectionMsgRes.isTimeout : ElectionMsgRes → Bool
  | .timeout => true
  | _ => false

def ElectionMsgRes.isOk : ElectionMsgRes → Bool
  | .msg _ => true
  | .empty => true
  | _ => false

/-! ## Keys -/

structure Key where
  id : Uuid
  weight : Int := 0
  deriving DecidableEq, Repr

/-- `Key::operator<`. -/
def Key.less (key other : Key) : Bool :=
  if key.weight < other.weight then true
  else if key.weight = other.weight then key.id < other.id
  else false

/-- The order of the bully algorithm, by weight and then by id, as a lexicographic order. -/
def Key.rank (key : Key) : Int ×ₗ Nat := toLex (key.weight, key.id)

theorem Key.rank_injective : Function.Injective Key.rank := by
  intro first second same
  obtain ⟨id, weight⟩ := first
  obtain ⟨otherId, otherWeight⟩ := second
  simp only [rank, EmbeddingLike.apply_eq_iff_eq, Prod.mk.injEq] at same
  rw [same.1, same.2]

instance : LinearOrder Key := LinearOrder.lift' Key.rank Key.rank_injective

theorem Key.lt_iff {key other : Key} :
    key < other ↔ key.weight < other.weight ∨ key.weight = other.weight ∧ key.id < other.id :=
  Prod.Lex.toLex_lt_toLex

@[simp] theorem Key.less_iff {key other : Key} : key.less other = true ↔ key < other := by
  rw [Key.lt_iff, less]
  split
  · rename_i lighter
    exact iff_of_true rfl (.inl lighter)
  · rename_i notLighter
    split
    · rename_i same
      rw [decide_eq_true_eq]
      exact ⟨fun less => .inr ⟨same, less⟩, fun lt => (lt.resolve_left notLighter).2⟩
    · rename_i different
      refine iff_of_false (by decide) ?_
      rintro (lighter | ⟨same, _⟩)
      · exact notLighter lighter
      · exact different same

/-- `Key::from_msg`; throws when the detail is no object or its weight is no number. -/
def Key.fromMsg (msg : ElectionMsg) : Except Json.Error Key :=
  (msg.detail.value "weight" Json.getInt32 0).map fun weight => ⟨msg.sourceId, weight⟩

/-! ## The node -/

structure PeerInfo where
  id : Uuid := 0
  addresses : List MultiAddr := []
  deriving DecidableEq, Repr

/-- `std::set::insert`. -/
def PeerInfo.insertAddress (peer : PeerInfo) (address : MultiAddr) : PeerInfo :=
  if address ∈ peer.addresses then peer
  else { peer with addresses := peer.addresses.orderedInsert (· ≤ ·) address }

structure ExtPeerInfo where
  pinfo : PeerInfo := {}
  weight : Int := 0
  deriving DecidableEq, Repr

namespace ExtPeerInfo

def id (peer : ExtPeerInfo) : Uuid := peer.pinfo.id

def key (peer : ExtPeerInfo) : Key := ⟨peer.pinfo.id, peer.weight⟩

/-- `ExtPeerInfo::operator<`. -/
def less (peer : ExtPeerInfo) (key : Key) : Bool :=
  if peer.weight < key.weight then true
  else if peer.weight = key.weight then peer.pinfo.id < key.id
  else false

@[simp] theorem less_iff {peer : ExtPeerInfo} {key : Key} : peer.less key = true ↔ peer.key < key :=
  @Key.less_iff peer.key key

end ExtPeerInfo

/-- The map `peers`; `add_peers` gives every entry the id it is stored under. -/
abbrev Peers := Relation ExtPeerInfo.id

structure Bully where
  key : Key
  peers : Peers := ∅
  currentLeader : Option ExtPeerInfo := none
  running : Bool := false

namespace Bully

/-- The entry of the sender, made if there is none, gets the sender's address. -/
def touchPeer (bully : Bully) (msg : ElectionMsg) : ExtPeerInfo :=
  let peer := (bully.peers.lookup msg.sourceId).getD {}
  { peer with pinfo := { peer.pinfo with id := msg.sourceId }.insertAddress msg.sourceAddr }

/-- When reading the weight throws, the entry stays, with the weight it had. -/
def addPeers (bully : Bully) (msg : ElectionMsg) : Except Json.Error Unit × Bully :=
  let peer := bully.touchPeer msg
  match msg.detail.value "weight" Json.getInt32 0 with
  | .error error => (.error error, { bully with peers := bully.peers.replaceInto peer })
  | .ok weight => (.ok (), { bully with peers := bully.peers.replaceInto { peer with weight } })

/-- `peers[id]`; every caller has just added the peer. -/
def peerOf (bully : Bully) (id : Uuid) : ExtPeerInfo := (bully.peers.lookup id).getD {}

def pong (bully : Bully) : ElectionMsgRes := .msg { sourceId := bully.key.id, type := "bully.pong" }

def onMsgVictory (bully : Bully) (msg : ElectionMsg) (otherKey : Key) : ElectionMsgRes × Bully :=
  if otherKey.less bully.key then (.empty, bully)
  else (.empty, { bully with currentLeader := some (bully.peerOf msg.sourceId) })

/-- The body of `on_msg_ping` and of `on_msg_challange`, which differ in what they log only. -/
def onMsgBid (bully : Bully) (msg : ElectionMsg) (otherKey : Key) : ElectionMsgRes × Bully :=
  if otherKey.less bully.key then (.empty, bully)
  else if bully.currentLeader.any fun leader => !leader.less otherKey then (bully.pong, bully)
  else (bully.pong, { bully with currentLeader := some (bully.peerOf msg.sourceId) })

def onMsgPing : Bully → ElectionMsg → Key → ElectionMsgRes × Bully := onMsgBid

def onMsgChallange : Bully → ElectionMsg → Key → ElectionMsgRes × Bully := onMsgBid

def onElectionMessage (bully : Bully) (msg : ElectionMsg) : Except Json.Error ElectionMsgRes × Bully :=
  if !bully.running then (.ok .timeout, bully)
  else match bully.addPeers msg with
  | (.error error, bully) => (.error error, bully)
  | (.ok (), bully) =>
    match Key.fromMsg msg with
    | .error error => (.error error, bully)
    | .ok otherKey =>
      if msg.type = "bully.victory" then (bully.onMsgVictory msg otherKey).map .ok id
      else if msg.type = "bully.ping" then (bully.onMsgPing msg otherKey).map .ok id
      else if msg.type = "bully.challange" then (bully.onMsgChallange msg otherKey).map .ok id
      else (.ok (.error ("invalid msg type " ++ msg.type)), bully)

/-! ## The worker -/

def selfIsLeader (bully : Bully) : Bool := bully.currentLeader.any fun leader => leader.id = bully.key.id

def detail (bully : Bully) : Json := .object [("weight", .integer bully.key.weight)]

def makeMsgPing (bully : Bully) : ElectionMsg :=
  { sourceId := bully.key.id, type := "bully.ping", detail := bully.detail }

def makeMsgVictory (bully : Bully) : ElectionMsg :=
  { sourceId := bully.key.id, type := "bully.victory", detail := bully.detail }

/-- What `out->send` returns in a round, by peer, address and message. -/
abbrev Send := Uuid → MultiAddr → ElectionMsg → ElectionMsgRes

def sendVictory (send : Send) (bully : Bully) (peer : PeerInfo) : Bool :=
  peer.addresses.any fun address => !(send peer.id address bully.makeMsgVictory).isTimeout

def sendPing (send : Send) (bully : Bully) (peer : PeerInfo) : ElectionMsgRes :=
  let answer address :=
    let res := send peer.id address bully.makeMsgPing
    if res.isTimeout then none else some res
  (peer.addresses.findSome? answer).getD .timeout

def isBiggestInPeers (bully : Bully) : Bool := bully.peers.rows.all fun peer => peer.less bully.key

/-- One turn of the loop in `max_id_in_peers`, with the variables `res_id` and `res`. -/
def maxIdTurn (found : Uuid × ExtPeerInfo) (peer : ExtPeerInfo) : Uuid × ExtPeerInfo :=
  if found.1 = 0 then (peer.id, peer)
  else if peer.id < found.1 then found
  else (peer.id, peer)

def maxIdInPeers (bully : Bully) : Option ExtPeerInfo :=
  if bully.peers.rows.isEmpty then none else some (bully.peers.rows.foldl maxIdTurn (0, {})).2

def self (bully : Bully) : ExtPeerInfo := { pinfo := { id := bully.key.id }, weight := bully.key.weight }

/-- One round of `work_working`, with the messages it broadcasts. -/
def workWorking (send : Send) (bully : Bully) : Bully × List ElectionMsg :=
  if !bully.running then (bully, [])
  else if bully.selfIsLeader then
    ({ bully with peers := bully.peers.deleteWhere fun peer => !bully.sendVictory send peer.pinfo },
      [bully.makeMsgPing])
  else match bully.currentLeader with
  | some leader =>
    if (bully.sendPing send leader.pinfo).isOk then (bully, [bully.makeMsgPing])
    else
      -- The leader has not answered, so it is no peer any more.
      let remaining := { bully with peers := bully.peers.deleteWhere fun peer => peer.id = leader.id }
      if remaining.isBiggestInPeers then
        ({ remaining with currentLeader := some bully.self }, [bully.makeMsgPing, bully.makeMsgPing])
      else if !remaining.peers.rows.isEmpty then
        ({ remaining with currentLeader := remaining.maxIdInPeers }, [bully.makeMsgPing])
      else (remaining, [bully.makeMsgPing])
  | none => ({ bully with currentLeader := some bully.self }, [bully.makeMsgPing])

def start (bully : Bully) : Bully := { bully with running := true }

def finish (bully : Bully) : Bully := { bully with running := false, currentLeader := none, peers := ∅ }

end Bully

inductive BullyEvent where
  | start
  | finish
  | message (msg : ElectionMsg)
  | work (send : Bully.Send)

def bullyStep (bully : Bully) : BullyEvent → Bully
  | .start => bully.start
  | .finish => bully.finish
  | .message msg => (bully.onElectionMessage msg).2
  | .work send => (bully.workWorking send).1

end AbilityFramework.DiscoveryMgr
