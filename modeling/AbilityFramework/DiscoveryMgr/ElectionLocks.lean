import Mathlib.Tactic.SplitIfs
import AbilityFramework.DiscoveryMgr.BullyLeader
import AbilityFramework.DiscoveryMgr.BullyRound
import AbilityFramework.Library.WaitGraph

/-! # Bully nodes that wait for each other

Several nodes and a network that loses nothing.  The worker of a node has the node's mutex for a whole
round and posts the round's messages one after the other; the handler that answers a message takes the
mutex of its own node.  So a message to a node in the middle of a round is answered after that round, if
the client's timeout does not end the wait before.

`noRing_iff`: the workers never wait for each other in a ring exactly if none of them posts to a node from
which a chain of waits leads back to it. -/

namespace AbilityFramework.DiscoveryMgr

open Library

variable {Node : Type}

/-- A round of the worker, while it has the mutex. -/
structure Round (Node : Type) where
  /-- What the sends so far have returned, by peer and address. -/
  answers : List ((Uuid × MultiAddr) × ElectionMsgRes) := []
  /-- The message on its way, and the node it has been posted to. -/
  awaiting : Option (Node × Uuid × MultiAddr × ElectionMsg) := none

structure BullyNode (Node : Type) where
  bully : Bully
  /-- The mutex is the worker's for as long as there is a round. -/
  round : Option (Round Node) := none

abbrev Network (Node : Type) := Node → BullyNode Node

structure Deployment (Node : Type) where
  key : Node → Key
  /-- The address that the handler gives the messages of the node. -/
  address : Node → MultiAddr
  /-- The node that a message to this address is posted to. -/
  listens : MultiAddr → Option Node

def Deployment.initial (deployment : Deployment Node) : Network Node :=
  fun node => { bully := { key := deployment.key node, running := true } }

/-! ## Rounds, send by send -/

namespace Round

/-- The answers so far; a send that has not been made counts as one without answer. -/
def send (round : Round Node) : Bully.Send :=
  fun id address _ => (round.answers.lookup (id, address)).getD .timeout

/-- The next send, or nothing when the round is over. -/
def next (round : Round Node) (bully : Bully) : Option (Uuid × MultiAddr × ElectionMsg) :=
  (bully.roundSends round.send).find? fun sent => (round.answers.lookup (sent.1, sent.2.1)).isNone

def answered (round : Round Node) (id : Uuid) (address : MultiAddr) (res : ElectionMsgRes) : Round Node :=
  { answers := ((id, address), res) :: round.answers }

end Round

/-! ## Steps -/

/-- What reaches the sender of the handler's result: an exception and an invalid reply are no answer. -/
def answerOf : Except Json.Error ElectionMsgRes → ElectionMsgRes
  | .ok (.msg msg) => .msg msg
  | .ok .empty => .empty
  | _ => .timeout

inductive NetworkEvent (Node : Type) where
  /-- The worker begins a round. -/
  | lock (node : Node)
  /-- The worker posts the next message of its round. -/
  | post (node : Node)
  /-- The handler of the receiver takes the mutex and answers the worker. -/
  | handle (node : Node)
  /-- The timeout of the client ends the wait of the worker. -/
  | giveUp (node : Node)
  /-- The worker ends its round. -/
  | unlock (node : Node)
  /-- A message that no worker waits for is handled: a broadcast, or a message whose sender has given up. -/
  | arrive (node : Node) (msg : ElectionMsg)

variable [DecidableEq Node]

namespace Network

def setRound (network : Network Node) (node : Node) (round : Option (Round Node)) : Network Node :=
  Function.update network node { network node with round }

def setBully (network : Network Node) (node : Node) (bully : Bully) : Network Node :=
  Function.update network node { network node with bully }

end Network

def networkStep (deployment : Deployment Node) (network : Network Node) : NetworkEvent Node → Network Node
  | .lock node =>
    match (network node).round with
    | none => network.setRound node (some {})
    | some _ => network
  | .post node =>
    match (network node).round with
    | some ⟨answers, none⟩ =>
      match (⟨answers, none⟩ : Round Node).next (network node).bully with
      | none => network
      | some (id, address, msg) =>
        match deployment.listens address with
        | none => network.setRound node (some (Round.answered ⟨answers, none⟩ id address .timeout))
        | some receiver => network.setRound node (some ⟨answers, some (receiver, id, address, msg)⟩)
    | _ => network
  | .handle node =>
    match (network node).round with
    | some ⟨answers, some (receiver, id, address, msg)⟩ =>
      if (network receiver).round.isSome then network
      else
        let (res, bully) :=
          (network receiver).bully.onElectionMessage { msg with sourceAddr := deployment.address node }
        (network.setBully receiver bully).setRound node
          (some (Round.answered ⟨answers, none⟩ id address (answerOf res)))
    | _ => network
  | .giveUp node =>
    match (network node).round with
    | some ⟨answers, some (_, id, address, _)⟩ =>
      network.setRound node (some (Round.answered ⟨answers, none⟩ id address .timeout))
    | _ => network
  | .unlock node =>
    match (network node).round with
    | some ⟨answers, none⟩ =>
      match (⟨answers, none⟩ : Round Node).next (network node).bully with
      | none => Function.update network node
          { bully := ((network node).bully.workWorking (⟨answers, none⟩ : Round Node).send).1 }
      | some _ => network
    | _ => network
  | .arrive node msg =>
    if (network node).round.isSome then network
    else network.setBully node ((network node).bully.onElectionMessage msg).2

/-! ## Waits -/

/-- The worker of a node, holding its mutex, waits for an answer that the handler of the other node gives. -/
def Network.waits (network : Network Node) : Waits Node :=
  fun node => (network node).round.bind fun round => round.awaiting.map Prod.fst

def NoRing (network : Network Node) : Prop := ¬ network.waits.HasRing

/-- The next message of the worker's round goes to the other node. -/
def PostsNext (deployment : Deployment Node) (network : Network Node) (node receiver : Node) : Prop :=
  ∃ answers sent, (network node).round = some ⟨answers, none⟩ ∧
    (⟨answers, none⟩ : Round Node).next (network node).bully = some sent ∧
    deployment.listens sent.2.1 = some receiver

variable {deployment : Deployment Node} {network : Network Node}

theorem waits_setRound (network : Network Node) (node : Node) (round : Option (Round Node)) :
    (network.setRound node round).waits =
      Function.update network.waits node (round.bind fun round => round.awaiting.map Prod.fst) := by
  funext other
  by_cases same : other = node
  · subst same
    simp [Network.waits, Network.setRound]
  · simp [Network.waits, Network.setRound, same]

theorem waits_setBully (network : Network Node) (node : Node) (bully : Bully) :
    (network.setBully node bully).waits = network.waits := by
  funext other
  by_cases same : other = node
  · subst same
    simp [Network.waits, Network.setBully]
  · simp [Network.waits, Network.setBully, same]

omit [DecidableEq Node] in
theorem waits_between {node : Node} {answers : List ((Uuid × MultiAddr) × ElectionMsgRes)}
    (between : (network node).round = some ⟨answers, none⟩) : network.waits node = none := by
  rw [Network.waits, between]
  rfl

/-- The worker that posts waits from then on. -/
theorem post_waits {node receiver : Node} (posts : PostsNext deployment network node receiver) :
    network.waits node = none ∧
      (networkStep deployment network (.post node)).waits = Function.update network.waits node (some receiver) := by
  obtain ⟨answers, ⟨id, address, msg⟩, between, isNext, listens⟩ := posts
  refine ⟨waits_between between, ?_⟩
  simp only [networkStep, between, isNext, listens, waits_setRound]
  rfl

/-- What a step does to the waits: nothing, or it ends one, or the worker that posts begins one. -/
theorem step_waits (deployment : Deployment Node) (network : Network Node) (event : NetworkEvent Node) :
    (networkStep deployment network event).waits = network.waits ∨
      (∃ node, (event = .handle node ∨ event = .giveUp node) ∧
        (networkStep deployment network event).waits = Function.update network.waits node none) ∨
      ∃ node receiver, event = .post node ∧ PostsNext deployment network node receiver ∧
        network.waits node = none ∧
        (networkStep deployment network event).waits = Function.update network.waits node (some receiver) := by
  cases event with
  | lock node =>
    refine .inl ?_
    simp only [networkStep]
    split
    · rename_i free
      have idle : network.waits node = none := by rw [Network.waits, free]; rfl
      rw [waits_setRound, Function.update_eq_self_iff, idle]
      rfl
    · rfl
  | post node =>
    simp only [networkStep]
    split
    · rename_i answers between
      have idle := waits_between between
      split
      · exact .inl rfl
      · rename_i id address msg isNext
        split
        · refine .inl ?_
          rw [waits_setRound, Function.update_eq_self_iff, idle]
          rfl
        · rename_i receiver listens
          refine .inr (.inr ⟨node, receiver, rfl, ⟨answers, _, between, isNext, listens⟩, idle, ?_⟩)
          rw [waits_setRound]
          rfl
    · exact .inl rfl
  | handle node =>
    simp only [networkStep]
    split
    · split
      · exact .inl rfl
      · refine .inr (.inl ⟨node, .inl rfl, ?_⟩)
        rw [waits_setRound, waits_setBully]
        rfl
    · exact .inl rfl
  | giveUp node =>
    simp only [networkStep]
    split
    · refine .inr (.inl ⟨node, .inr rfl, ?_⟩)
      rw [waits_setRound]
      rfl
    · exact .inl rfl
  | unlock node =>
    refine .inl ?_
    simp only [networkStep]
    split
    · rename_i answers between
      split
      · funext other
        by_cases same : other = node
        · subst same
          rw [waits_between between]
          simp [Network.waits]
        · simp [Network.waits, same]
      · rfl
    · rfl
  | arrive node msg =>
    refine .inl ?_
    simp only [networkStep]
    split
    · rfl
    · rw [waits_setBully]

/-! ## Rings -/

/-- No chain of waits leads from the node that a worker posts to back to the worker's own. -/
def ClosesNoRing (deployment : Deployment Node) (network : Network Node) : NetworkEvent Node → Prop
  | .post node => ∀ receiver, PostsNext deployment network node receiver → ¬ network.waits.Leads receiver node
  | _ => True

theorem noRing_step_iff (event : NetworkEvent Node) (noRing : NoRing network) :
    NoRing (networkStep deployment network event) ↔ ClosesNoRing deployment network event := by
  by_cases posts : ∃ node receiver, event = .post node ∧ PostsNext deployment network node receiver
  · obtain ⟨node, receiver, rfl, posts⟩ := posts
    obtain ⟨idle, begun⟩ := post_waits posts
    rw [NoRing, begun, Waits.ring_begin_iff idle, not_or]
    constructor
    · rintro ⟨_, noChain⟩ other postsOther
      -- The next message goes to one node only.
      have same : some other = some receiver := by
        rw [← Function.update_self node (some other) network.waits, ← (post_waits postsOther).2, begun,
          Function.update_self]
      rwa [Option.some.inj same]
    · intro condition
      exact ⟨noRing, condition receiver posts⟩
  · refine iff_of_true ?_ ?_
    · obtain same | ⟨node, _, ended⟩ | ⟨node, receiver, isPost, postsNext, _⟩ :=
        step_waits deployment network event
      · rwa [NoRing, same]
      · rw [NoRing, ended]
        exact mt Waits.hasRing_of_end noRing
      · exact absurd ⟨node, receiver, isPost, postsNext⟩ posts
    · cases event with
      | post node => exact fun receiver postsNext => absurd ⟨node, receiver, rfl, postsNext⟩ posts
      | _ => trivial

/-- A wait that ends in a timeout while the node is in a ring. -/
def LockedOut (network : Network Node) (event : NetworkEvent Node) : Prop :=
  ∃ node, event = .giveUp node ∧ network.waits.InRing node

/-- In no state of a run do workers wait in a ring, and no wait fails for it, if and only if no worker ever
posts to a node from which a chain of waits leads back. -/
theorem noRing_iff (deployment : Deployment Node) (events : List (NetworkEvent Node)) :
    Runs.Always (networkStep deployment) NoRing deployment.initial events ∧
        Runs.EachStep (networkStep deployment) (fun network event => ¬ LockedOut network event)
          deployment.initial events ↔
      Runs.EachStep (networkStep deployment) (ClosesNoRing deployment) deployment.initial events := by
  have exact : Runs.Always (networkStep deployment) NoRing deployment.initial events ↔
      Runs.EachStep (networkStep deployment) (ClosesNoRing deployment) deployment.initial events := by
    apply Runs.always_exact NoRing fun _ noRing => noRing
    · intro network event noRing condition
      exact (noRing_step_iff event noRing).mpr condition
    · intro network event noRing after
      exact (noRing_step_iff event noRing).mp after
    · rintro ⟨node, ring⟩
      obtain ⟨other, waiting, _⟩ := ring.next
      cases waiting
  rw [← exact]
  refine ⟨And.left, fun always => ⟨always, ?_⟩⟩
  refine Runs.eachStep_of_always ?_ deployment.initial events always
  rintro network event noRing ⟨node, _, ring⟩
  exact noRing ⟨node, ring⟩

/-! ## A leader and its follower -/

inductive Pair where
  | leader
  | follower
  deriving DecidableEq

def twoNodes : Deployment Pair where
  key
    | .leader => ⟨1, 9⟩
    | .follower => ⟨2, 5⟩
  address
    | .leader => "/ip4/192.168.1.10"
    | .follower => "/ip4/192.168.1.20"
  listens address :=
    if address = "/ip4/192.168.1.10" then some .leader
    else if address = "/ip4/192.168.1.20" then some .follower
    else none

def ping (sourceId : Uuid) (sourceAddr : MultiAddr) (weight : Int) : ElectionMsg :=
  { sourceId, sourceAddr, type := "bully.ping", detail := .object [("weight", .integer weight)] }

/-- The nodes hear of each other, and the leader finds out that it leads. -/
def meet : List (NetworkEvent Pair) :=
  [.arrive .leader (ping 2 "/ip4/192.168.1.20" 5), .arrive .follower (ping 1 "/ip4/192.168.1.10" 9),
    .lock .leader, .unlock .leader]

/-- The leader announces its victory to the follower, which is just pinging it. -/
def meetAndSend : List (NetworkEvent Pair) :=
  meet ++ [.lock .leader, .lock .follower, .post .leader, .post .follower]

theorem meetAndSend_rings :
    ¬ (Runs.Always (networkStep twoNodes) NoRing twoNodes.initial meetAndSend ∧
      Runs.EachStep (networkStep twoNodes) (fun network event => ¬ LockedOut network event)
        twoNodes.initial meetAndSend) := by
  rintro ⟨always, _⟩
  have noRing := (Runs.always_iff_prefixes _ meetAndSend).mp always meetAndSend [] (by rw [List.append_nil])
  have leaderWaits : (Runs.run (networkStep twoNodes) twoNodes.initial meetAndSend).waits .leader = some .follower := by
    decide
  have followerWaits : (Runs.run (networkStep twoNodes) twoNodes.initial meetAndSend).waits .follower = some .leader := by
    decide
  exact noRing ⟨.leader, Relation.TransGen.tail (.single leaderWaits) followerWaits⟩

/-- The ping times out, and the follower makes itself the leader. -/
example : ((Runs.run (networkStep twoNodes) twoNodes.initial
    (meetAndSend ++ [.giveUp .follower, .unlock .follower])) .follower).bully.currentLeader =
      some ⟨⟨2, []⟩, 5⟩ := by decide

end AbilityFramework.DiscoveryMgr
