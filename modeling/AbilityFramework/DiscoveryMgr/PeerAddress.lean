import AbilityFramework.DiscoveryMgr.BullyLeader
import AbilityFramework.DiscoveryMgr.BullyRound
import AbilityFramework.DiscoveryMgr.ElectionWire
import AbilityFramework.Library.Regex

/-! # The addresses of peers

The handler of `POST /api/team/election-msg` gives a message the address it came from, without a port;
`add_peers` stores the address, and a round of the worker sends to it through the multi-address parser,
which takes port 8080 where none is given.  A node is reached at its own port exactly if that is 8080
(`sendsReach_iff`). -/

namespace AbilityFramework.DiscoveryMgr

open Library Library.Runs

/-! ## Address texts -/

def digit : Regex := .oneOf "0123456789"

def hex : Regex := .oneOf "0123456789abcdefABCDEF"

/-- `1[0-9][0-9]`, `2[0-4][0-9]`, `25[0-5]`, `[1-9][0-9]` and `[0-9]` -/
def octets : List Regex :=
  [.char '1' * digit * digit, .char '2' * .oneOf "01234" * digit, .literal "25" * .oneOf "012345",
    .oneOf "123456789" * digit, digit]

def regexIpv4 : Regex := .anyOf (octets.map (· * .char '.')) ^ 3 * .anyOf octets

/-- `25[0-5]|(2[0-4]|1{0,1}[0-9]){0,1}[0-9]`, with which an IPv6 address may end. -/
def embeddedOctet : Regex :=
  .anyOf [.literal "25" * .oneOf "012345",
    .between (.anyOf [.char '2' * .oneOf "01234", .between (.char '1') 0 1 * digit]) 0 1 * digit]

def embeddedIpv4 : Regex := (embeddedOctet * .char '.') ^ 3 * embeddedOctet

def regexIpv6 : Regex :=
  let group : Regex := .between hex 1 4
  let before : Regex := group * .char ':'
  let after : Regex := .char ':' * group
  .anyOf
    [before ^ 7 * group,
      .between before 1 7 * .char ':',
      .between before 1 6 * .char ':' * group,
      .between before 1 5 * .between after 1 2,
      .between before 1 4 * .between after 1 3,
      .between before 1 3 * .between after 1 4,
      .between before 1 2 * .between after 1 5,
      group * .char ':' * .between after 1 6,
      .char ':' * .anyOf [.between after 1 7, .char ':'],
      .literal "fe80:" * .between (.char ':' * .between hex 0 4) 0 4 * .char '%' *
        .oneOrMore (.oneOf "0123456789abcdefghijklmnopqrstuvwxyzABCDEFGHIJKLMNOPQRSTUVWXYZ"),
      .literal "::" * .between (.literal "ffff" * .between (.char ':' * .between (.char '0') 1 4) 0 1 * .char ':') 0 1 *
        embeddedIpv4,
      .between before 1 4 * .char ':' * embeddedIpv4]

/-- The two functions of this name have the same expression. -/
def isValidIpv4 (ip : String) : Bool := Regex.regexMatch regexIpv4 ip

def isValidIpv6 (ip : String) : Bool := Regex.regexMatch regexIpv6 ip

def toMultiaddr (address : String) : MultiAddr :=
  if isValidIpv4 address then "/ip4/" ++ address
  else if isValidIpv6 address then "/ip6/" ++ address
  else address

/-! ## Multi-addresses -/

/-- The pieces between slashes, without the empty ones; `current` is the piece that has been begun. -/
def splitSegments (current : List Char) : List Char → List (List Char)
  | [] => if current = [] then [] else [current]
  | character :: rest =>
    if character = '/' then (if current = [] then [] else [current]) ++ splitSegments [] rest
    else splitSegments (current ++ [character]) rest

def multiaddrSegments (addr : MultiAddr) : List String :=
  match addr.toList with
  | '/' :: rest => (splitSegments [] rest).map String.ofList
  | _ => []

/-- `std::from_chars` to an `int`: the digits in front, with a minus sign or without.  There is no result
where there are none or the value is out of range. -/
def fromChars (text : String) : Option Int :=
  let digits (characters : List Char) : Option Int :=
    match characters.takeWhile Char.isDigit with
    | [] => none
    | digits => some (digits.foldl (fun value digit => 10 * value + (digit.toNat - '0'.toNat)) 0)
  let value :=
    match text.toList with
    | '-' :: rest => (digits rest).map Neg.neg
    | characters => digits characters
  value.filter fun value => -2147483648 ≤ value && value ≤ 2147483647

structure HttpOverIpv4 where
  addr : String
  port : Int
  deriving DecidableEq, Repr

def defaultPort : Int := 8080

def HttpOverIpv4.fromSegments : List String → Option HttpOverIpv4
  | [family, ip] => if family = "ip4" && isValidIpv4 ip then some ⟨ip, defaultPort⟩ else none
  | [family, ip, protocol, port] =>
    if family = "ip4" && isValidIpv4 ip then
      if protocol = "http" then (fromChars port).map (HttpOverIpv4.mk ip)
      else some ⟨ip, defaultPort⟩
    else none
  | _ => none

/-- Where `impl_send` posts a message for this address. -/
def target (addr : MultiAddr) : Option HttpOverIpv4 := HttpOverIpv4.fromSegments (multiaddrSegments addr)

/-- What a post of the payload to a server is answered with. -/
abbrev Post := HttpOverIpv4 → Json → Option HttpReply

/-- `impl_send` -/
def implSend (text : UuidText) (post : Post) (addr : MultiAddr) (msg : ElectionMsg) : ElectionMsgRes :=
  match target addr with
  | none => .timeout
  | some http => readReply text (post http (requestBody text msg))

/-! ## Addresses of peers -/

structure Ipv4 where
  first : Fin 256
  second : Fin 256
  third : Fin 256
  fourth : Fin 256

/-- The usual text, which is also how a request's remote address is given. -/
def Ipv4.characters (ip : Ipv4) : List Char :=
  Nat.toDigits 10 ip.first ++ ['.'] ++ (Nat.toDigits 10 ip.second ++ ['.']) ++
    (Nat.toDigits 10 ip.third ++ ['.']) ++ Nat.toDigits 10 ip.fourth

def Ipv4.text (ip : Ipv4) : String := .ofList ip.characters

theorem rmatch_octets : ∀ value : Fin 256, (Regex.anyOf octets).rmatch (Nat.toDigits 10 value) = true := by
  decide +kernel

theorem rmatch_octetDot (value : Fin 256) :
    (Regex.anyOf (octets.map (· * .char '.'))).rmatch (Nat.toDigits 10 value ++ ['.']) = true := by
  obtain ⟨octet, member, isOctet⟩ := Regex.rmatch_anyOf.mp (rmatch_octets value)
  refine Regex.rmatch_anyOf.mpr ⟨octet * .char '.', List.mem_map.mpr ⟨octet, member, rfl⟩, ?_⟩
  exact Regex.rmatch_mul isOctet (by decide)

theorem isValidIpv4_text (ip : Ipv4) : isValidIpv4 ip.text = true := by
  rw [isValidIpv4, Regex.regexMatch, Ipv4.text, String.toList_ofList]
  exact Regex.rmatch_mul (Regex.rmatch_pow_three (rmatch_octetDot ip.first) (rmatch_octetDot ip.second)
    (rmatch_octetDot ip.third)) (rmatch_octets ip.fourth)

theorem digits_noSlash (value : Fin 256) : '/' ∉ Nat.toDigits 10 value :=
  fun isMember => absurd (Nat.isDigit_of_mem_toDigits (by decide) (Nat.le_refl 10) isMember) (by decide)

theorem splitSegments_noSlash {current characters : List Char} (noSlash : '/' ∉ characters)
    (nonempty : current ++ characters ≠ []) : splitSegments current characters = [current ++ characters] := by
  induction characters generalizing current with
  | nil =>
    rw [List.append_nil] at nonempty
    simp [splitSegments, nonempty]
  | cons character rest inductionHypothesis =>
    rw [List.mem_cons, not_or] at noSlash
    rw [splitSegments, if_neg (Ne.symm noSlash.1), inductionHypothesis noSlash.2 (by simp)]
    simp

/-- The address that the handler gives a message stands for the default port of the remote host. -/
theorem target_toMultiaddr (ip : Ipv4) : target (toMultiaddr ip.text) = some ⟨ip.text, defaultPort⟩ := by
  have noSlash : '/' ∉ ip.characters := by
    simp [Ipv4.characters, digits_noSlash]
  have segments : multiaddrSegments (toMultiaddr ip.text) = ["ip4", ip.text] := by
    rw [toMultiaddr, if_pos (isValidIpv4_text ip), multiaddrSegments, String.toList_append]
    have family : "/ip4/".toList = ['/', 'i', 'p', '4', '/'] := by decide
    rw [family, Ipv4.text, String.toList_ofList]
    simp only [List.cons_append, List.nil_append, splitSegments]
    rw [splitSegments_noSlash noSlash (by simp [Ipv4.characters])]
    rfl
  rw [target, segments, HttpOverIpv4.fromSegments, isValidIpv4_text]
  rfl

/-! ## The address of a peer -/

/-- Another node, with the addresses it sends from and the port it listens on. -/
structure PeerNode where
  id : Uuid
  ips : List Ipv4
  listed : ips ≠ []
  port : Int

inductive DiscoveryEvent where
  | start
  | finish
  /-- The handler has read a message of a request from this address. -/
  | request (msg : ElectionMsg) (remoteAddr : String)
  | work (post : Post)

variable (text : UuidText)

def postSend (post : Post) : Bully.Send := fun _ address msg => implSend text post address msg

def discoveryStep (bully : Bully) : DiscoveryEvent → Bully
  | .start => bully.start
  | .finish => bully.finish
  | .request msg remoteAddr => (bully.onElectionMessage { msg with sourceAddr := toMultiaddr remoteAddr }).2
  | .work post => (bully.workWorking (postSend text post)).1

/-- The peer's messages come from its own addresses. -/
def SentBy (peer : PeerNode) : DiscoveryEvent → Prop
  | .request msg remoteAddr => msg.sourceId = peer.id → ∃ ip ∈ peer.ips, remoteAddr = ip.text
  | _ => True

/-- Every message that the step sends to the peer is posted to one of its addresses, at this port. -/
def PostsTo (peer : PeerNode) (port : Int) (bully : Bully) : DiscoveryEvent → Prop
  | .work post => ∀ address msg, (peer.id, address, msg) ∈ bully.roundSends (postSend text post) →
      ∃ ip ∈ peer.ips, target address = some ⟨ip.text, port⟩
  | _ => True

def StoredFrom (peer : PeerNode) (entry : ExtPeerInfo) : Prop :=
  entry.id = peer.id → ∀ address ∈ entry.pinfo.addresses, ∃ ip ∈ peer.ips, address = toMultiaddr ip.text

/-- What the node has stored for the peer is what the handler made of the peer's addresses. -/
structure PeerStored (peer : PeerNode) (bully : Bully) : Prop where
  peers : ∀ entry ∈ bully.peers, StoredFrom peer entry
  leader : ∀ leader, bully.currentLeader = some leader → StoredFrom peer leader

variable {peer : PeerNode} {bully : Bully} {msg : ElectionMsg}

theorem storedFrom_empty {entry : ExtPeerInfo} (empty : entry.pinfo.addresses = []) : StoredFrom peer entry := by
  intro _ address member
  rw [empty] at member
  cases member

/-- An id that is not in the table has no addresses. -/
theorem mem_peerOf {id : Uuid} {address : MultiAddr} (member : address ∈ (bully.peerOf id).pinfo.addresses) :
    bully.peerOf id ∈ bully.peers ∧ (bully.peerOf id).id = id := by
  rw [Bully.peerOf] at member ⊢
  cases found : bully.peers.lookup id with
  | none =>
    rw [found] at member
    cases member
  | some entry => exact Relation.lookup_eq_some.mp found

theorem peerOf_stored (stored : ∀ entry ∈ bully.peers, StoredFrom peer entry) (id : Uuid) :
    StoredFrom peer (bully.peerOf id) := by
  intro isPeer address member
  exact stored _ (mem_peerOf member).1 isPeer address member

theorem touchPeer_stored (stored : PeerStored peer bully)
    (sent : msg.sourceId = peer.id → ∃ ip ∈ peer.ips, msg.sourceAddr = toMultiaddr ip.text) :
    StoredFrom peer (bully.touchPeer msg) := by
  intro isPeer address member
  rw [touchPeer_id] at isPeer
  have known : address = msg.sourceAddr ∨ address ∈ (bully.peerOf msg.sourceId).pinfo.addresses := by
    simp only [Bully.touchPeer, PeerInfo.insertAddress] at member
    split at member
    · exact .inr member
    · exact (List.mem_orderedInsert _).mp member
  obtain rfl | member := known
  · exact sent isPeer
  · exact peerOf_stored stored.peers msg.sourceId ((mem_peerOf member).2.trans isPeer) address member

theorem addPeers_stored (stored : PeerStored peer bully)
    (sent : msg.sourceId = peer.id → ∃ ip ∈ peer.ips, msg.sourceAddr = toMultiaddr ip.text) :
    ∀ entry ∈ (bully.addPeers msg).2.peers, StoredFrom peer entry := by
  have touched := touchPeer_stored stored sent
  simp only [Bully.addPeers]
  split
  · intro entry member
    obtain rfl | ⟨member, _⟩ := Relation.mem_replaceInto.mp member
    · exact touched
    · exact stored.peers entry member
  · intro entry member
    obtain rfl | ⟨member, _⟩ := Relation.mem_replaceInto.mp member
    -- The weight has no part in where the entry is from.
    · exact touched
    · exact stored.peers entry member

/-- A handler takes its new leader, if any, from the peer table. -/
theorem message_newLeader (bully : Bully) (msg : ElectionMsg) :
    (bully.onElectionMessage msg).2.currentLeader = bully.currentLeader ∨
      ∃ id, (bully.onElectionMessage msg).2.currentLeader = some ((bully.addPeers msg).2.peerOf id) := by
  have keeps := (addPeers_keeps bully msg).2
  unfold Bully.onElectionMessage
  split
  · exact .inl rfl
  · cases added : bully.addPeers msg with
    | mk result added =>
      rw [added] at keeps
      cases result with
      | error error => exact .inl keeps
      | ok _ =>
        simp only
        cases Key.fromMsg msg with
        | error error => exact .inl keeps
        | ok otherKey =>
          simp only [Bully.onMsgVictory, Bully.onMsgPing, Bully.onMsgChallange, Bully.onMsgBid]
          repeat' split
          all_goals first
            | exact .inl keeps
            | exact .inr ⟨msg.sourceId, rfl⟩

theorem message_stored (stored : PeerStored peer bully)
    (sent : msg.sourceId = peer.id → ∃ ip ∈ peer.ips, msg.sourceAddr = toMultiaddr ip.text) :
    PeerStored peer (bully.onElectionMessage msg).2 := by
  have added := addPeers_stored stored sent
  refine ⟨?_, ?_⟩
  · obtain same | same := message_peers bully msg
    · rw [same]
      exact stored.peers
    · rw [same]
      exact added
  · intro leader isLeader
    obtain same | ⟨id, same⟩ := message_newLeader bully msg
    · exact stored.leader leader (same ▸ isLeader)
    · rw [same, Option.some.injEq] at isLeader
      rw [← isLeader]
      exact peerOf_stored added id

theorem work_stored (stored : PeerStored peer bully) (send : Bully.Send) :
    PeerStored peer (bully.workWorking send).1 := by
  refine ⟨fun entry member => stored.peers entry (work_peers send bully member), ?_⟩
  intro leader isLeader
  obtain ⟨_, ⟨_, same⟩ | ⟨_, isSelf⟩ | ⟨_, _, ⟨_, isSelf⟩ | ⟨found, stays, _, _, isFound⟩⟩⟩ := work_leader send bully
  · exact stored.leader leader (same ▸ isLeader)
  · rw [isSelf, Option.some.injEq] at isLeader
    rw [← isLeader]
    exact storedFrom_empty rfl
  · rw [isSelf, Option.some.injEq] at isLeader
    rw [← isLeader]
    exact storedFrom_empty rfl
  · rw [isFound, Option.some.injEq] at isLeader
    rw [← isLeader]
    exact stored.peers found stays.1

theorem discoveryStep_stored (bully : Bully) (event : DiscoveryEvent) (stored : PeerStored peer bully)
    (sent : SentBy peer event) : PeerStored peer (discoveryStep text bully event) := by
  cases event with
  | start => exact ⟨stored.peers, stored.leader⟩
  | finish => exact ⟨fun entry member => absurd member (Relation.not_mem_empty entry), nofun⟩
  | request msg remoteAddr =>
    apply message_stored stored
    intro isPeer
    obtain ⟨ip, member, isText⟩ := sent isPeer
    exact ⟨ip, member, congrArg toMultiaddr isText⟩
  | work post => exact work_stored stored (postSend text post)

/-- The port that the peer has never enters what is sent to it. -/
theorem stored_postsDefault (event : DiscoveryEvent) (stored : PeerStored peer bully) :
    PostsTo text peer defaultPort bully event := by
  cases event with
  | start => trivial
  | finish => trivial
  | request msg remoteAddr => trivial
  | work post =>
    intro address msg sent
    obtain ⟨entry, known, isPeer, member⟩ := mem_roundSends sent
    have storedFrom : StoredFrom peer entry := by
      obtain entryMember | isLeader := known
      · exact stored.peers entry entryMember
      · exact stored.leader entry isLeader
    obtain ⟨ip, listed, isAddress⟩ := storedFrom isPeer address member
    exact ⟨ip, listed, isAddress ▸ target_toMultiaddr ip⟩

/-- In every run the messages for the peer are posted to its addresses, at the default port. -/
theorem sends_default (key : Key) (events : List DiscoveryEvent) (sent : ∀ event ∈ events, SentBy peer event) :
    Runs.EachStep (discoveryStep text) (PostsTo text peer defaultPort) { key } events := by
  apply Runs.eachStep_of_guarded (PeerStored peer) (fun _ event stored _ => stored_postsDefault text event stored)
    (discoveryStep_stored text)
  · exact ⟨fun entry member => absurd member (Relation.not_mem_empty entry), nofun⟩
  · exact (Runs.eachStep_iff_forall (discoveryStep text) { key } events).mpr sent

/-- A first ping, of weight 0. -/
def pingFrom (id : Uuid) : ElectionMsg := { sourceId := id, type := "bully.ping", detail := .object [] }

/-- It puts its sender on record, and makes it the leader unless its key is below the node's. -/
theorem firstPing (key : Key) (id : Uuid) (address : MultiAddr) :
    (Bully.onElectionMessage { key, running := true } { pingFrom id with sourceAddr := address }).2 =
      { key, running := true, peers := (∅ : Peers).replaceInto ⟨⟨id, [address]⟩, 0⟩,
        currentLeader := if (Key.mk id 0).less key then none else some ⟨⟨id, [address]⟩, 0⟩ } := by
  have found := Relation.lookup_replaceInto_self (∅ : Peers) ⟨⟨id, [address]⟩, 0⟩
  have added : Bully.addPeers { key, running := true } { pingFrom id with sourceAddr := address } =
      (.ok (), { key, running := true, peers := (∅ : Peers).replaceInto ⟨⟨id, [address]⟩, 0⟩ }) := rfl
  have fromMsg : Key.fromMsg { pingFrom id with sourceAddr := address } = .ok ⟨id, 0⟩ := rfl
  simp only [Bully.onElectionMessage, added, fromMsg]
  by_cases below : (Key.mk id 0).less key = true
  · simp [pingFrom, Bully.onMsgPing, Bully.onMsgBid, below]
  · rw [if_neg below]
    simp only [pingFrom, Bully.onMsgPing, Bully.onMsgBid, if_neg below, Bully.peerOf]
    exact congrArg (fun found => Bully.mk key _ (some (found.getD {})) true) found

/-- A node that has heard from a peer first sends to it in one of its first two rounds. -/
theorem rounds_send (key : Key) (id : Uuid) (address : MultiAddr) (send : Bully.Send) {heard : Bully}
    (isHeard : (Bully.onElectionMessage { key, running := true } { pingFrom id with sourceAddr := address }).2 = heard) :
    ∃ msg, (id, address, msg) ∈ heard.roundSends send ∨
      (id, address, msg) ∈ (heard.workWorking send).1.roundSends send := by
  rw [firstPing] at isHeard
  have known : (⟨⟨id, [address]⟩, 0⟩ : ExtPeerInfo) ∈ (∅ : Peers).replaceInto ⟨⟨id, [address]⟩, 0⟩ :=
    Relation.mem_replaceInto.mpr (.inl rfl)
  subst isHeard
  split
  · -- Without a leader, the first round makes the node the leader.
    refine ⟨_, .inr (leader_sends rfl ?_ known)⟩
    simp [Bully.workWorking, Bully.selfIsLeader, Bully.self, ExtPeerInfo.id]
  · by_cases same : id = key.id
    · refine ⟨_, .inl (leader_sends rfl ?_ known)⟩
      exact decide_eq_true same
    · refine ⟨_, .inl (follower_sends rfl ?_ rfl)⟩
      exact decide_eq_false same

/-- Whatever the node does, its messages reach the peer at the port the peer listens on, if and only if that
is the default port. -/
theorem sendsReach_iff (key : Key) (peer : PeerNode) :
    (∀ events : List DiscoveryEvent, (∀ event ∈ events, SentBy peer event) →
      Runs.EachStep (discoveryStep text) (PostsTo text peer peer.port) { key } events) ↔ peer.port = defaultPort := by
  constructor
  · intro reaches
    obtain ⟨ip, listed⟩ := List.exists_mem_of_ne_nil peer.ips peer.listed
    have posts := reaches [.start, .request (pingFrom peer.id) ip.text, .work fun _ _ => none, .work fun _ _ => none]
      (by simpa [SentBy] using fun _ => ⟨ip, listed, rfl⟩)
    obtain ⟨_, _, firstRound, secondRound, _⟩ := posts
    obtain ⟨msg, sent⟩ := rounds_send key peer.id (toMultiaddr ip.text) (postSend text fun _ _ => none) rfl
    have posted : ∃ own ∈ peer.ips, target (toMultiaddr ip.text) = some ⟨own.text, peer.port⟩ := by
      obtain sent | sent := sent
      · exact firstRound _ msg sent
      · exact secondRound _ msg sent
    obtain ⟨_, _, isPosted⟩ := posted
    rw [target_toMultiaddr, Option.some.injEq, HttpOverIpv4.mk.injEq] at isPosted
    exact isPosted.2.symm
  · rintro isDefault events sent
    rw [isDefault]
    exact sends_default text key events sent

/-- Node 2, at 192.168.1.20, listens on port 9090. -/
def onPort9090 : PeerNode := ⟨2, [⟨192, 168, 1, 20⟩], by decide, 9090⟩

/-- It pings node 1, which takes it for the leader and pings it back. -/
def pingedFrom9090 : List DiscoveryEvent :=
  [.start, .request { sourceId := 2, type := "bully.ping", detail := .object [("weight", .integer 9)] } "192.168.1.20",
    .work fun _ _ => none]

theorem pingedFrom9090_misses : ¬ ((∀ event ∈ pingedFrom9090, SentBy onPort9090 event) →
    Runs.EachStep (discoveryStep ⟨fun _ => "", fun _ => none⟩) (PostsTo ⟨fun _ => "", fun _ => none⟩ onPort9090 onPort9090.port)
      { key := ⟨1, 5⟩ } pingedFrom9090) := by
  intro reaches
  obtain ⟨_, _, round, _⟩ := reaches (by simp [pingedFrom9090, SentBy, onPort9090]; decide)
  obtain ⟨_, _, posted⟩ := round (toMultiaddr "192.168.1.20") _ (follower_sends rfl rfl rfl)
  have isText : "192.168.1.20" = Ipv4.text ⟨192, 168, 1, 20⟩ := by decide
  rw [isText, target_toMultiaddr, Option.some.injEq, HttpOverIpv4.mk.injEq] at posted
  exact absurd posted.2 (by decide)

end AbilityFramework.DiscoveryMgr
