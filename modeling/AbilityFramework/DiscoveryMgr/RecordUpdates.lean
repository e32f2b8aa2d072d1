import AbilityFramework.DiscoveryMgr.MasterAddress
import AbilityFramework.DiscoveryMgr.TeamHeartbeat

/-! # Records that are updated

The first message of a framework creates its record as a member, a peer or a master, and each further one updates the
record field by field.  `update_member_info` has no line for the team that the member is master of, so after any
messages the records are as the last ones would have them created exactly if that team is the one of the first
heartbeat, should the last one name any (`recordsAgree_iff`). -/

namespace AbilityFramework.DiscoveryMgr

open Library

/-! ## Complete messages -/

/-- A heartbeat of a member with all its fields, and with a token of the team that this framework is master of. -/
structure MemberHeartbeat (text : UuidText) (jwt : JwtLibrary) (masterToken : TeamToken) (id : String) where
  data : Json
  now : Int
  name : String
  port : Int
  ipv4 : List String
  ipv6 : List String
  team : Json
  furtherTeams : List Json
  token : String
  masterTeam : MultiMap.MasterTeam
  isId : text? data "id" = some id
  isName : text? data "name" = some name
  isPort : integer? data "port" = some port
  isIpv4 : strings? data "ipv4" = some ipv4
  isIpv6 : strings? data "ipv6" = some ipv6
  isTeam : array? data "team" = some (team :: furtherTeams)
  isTeamId : team.find "teamID" = some (.string (text.toString masterToken.teamID))
  isToken : team.find "jwt" = some (.string token)
  isValid : isValidJwtToken jwt token masterToken.secret now = true
  notExpired : isExpiredJwtToken jwt token now = false
  /-- The last of the teams that the member is master of, if it is master of any. -/
  isMasterTeam : memberMasterTeam text {} ((array? data "master").getD []) = .ok masterTeam

/-- A broadcast of a peer with all its fields, in one of the teams of this framework. -/
structure PeerBroadcast (text : UuidText) (teams : List Uuid) (id : String) where
  data : Json
  name : String
  port : Int
  ipv4 : List String
  ipv6 : List String
  teamText : String
  teamID : Uuid
  teamName : String
  isId : data.find "id" = some (.string id)
  isName : text? data "name" = some name
  isPort : integer? data "port" = some port
  isIpv4 : strings? data "ipv4" = some ipv4
  isIpv6 : strings? data "ipv6" = some ipv6
  isTeamId : text? data "teamID" = some teamText
  isTeam : text.fromString teamText = some teamID
  isTeamName : text? data "teamName" = some teamName
  ofTeam : teamID ∈ teams
  noMaster : array? data "master" = none

variable {text : UuidText} {jwt : JwtLibrary} {masterToken : TeamToken} {teams : List Uuid} {id : String}

/-- What is put on record for a member that is new. -/
def MemberHeartbeat.record (heartbeat : MemberHeartbeat text jwt masterToken id) : MultiMap.Member where
  name := heartbeat.name
  port := some heartbeat.port
  jwt := heartbeat.token
  expiry := checkTokenExpiration jwt heartbeat.token heartbeat.now
  lastUpdated := heartbeat.now.fdiv 1000000000
  ipv4 := heartbeat.ipv4
  ipv6 := heartbeat.ipv6
  masterTeam := heartbeat.masterTeam

def PeerBroadcast.record (broadcast : PeerBroadcast text teams id) : MultiMap.Peer where
  name := broadcast.name
  port := some broadcast.port
  ipv4 := broadcast.ipv4
  ipv6 := broadcast.ipv6
  teamName := broadcast.teamName
  teamID := broadcast.teamID

section Functions

variable (heartbeat : MemberHeartbeat text jwt masterToken id) (broadcast : PeerBroadcast text teams id)

theorem subscript_of_find {data found : Json} {key : String} (present : data.find key = some found) :
    subscript data key = .ok found := by
  cases data with
  | object members =>
    have listed : members.lookup key = some found := present
    rw [subscript, listed, Option.elim_some]
  | null | boolean | integer | float | string | array => cases present

theorem teamJwt_complete : teamJwt heartbeat.data = .ok heartbeat.token := by
  have isArray : heartbeat.data.find "team" = some (.array (heartbeat.team :: heartbeat.furtherTeams)) := by
    have listed := heartbeat.isTeam
    unfold array? at listed
    split at listed
    · rename_i items found
      rw [found, Option.some.inj listed]
    · cases listed
  have team : (subscript heartbeat.data "team" >>= firstItem) = .ok heartbeat.team :=
    (subscript_ok isArray).mpr ⟨_, isArray, rfl⟩
  have token : (subscript heartbeat.team "jwt" >>= asText) = .ok heartbeat.token :=
    (subscript_ok heartbeat.isToken).mpr ⟨_, heartbeat.isToken, rfl⟩
  exact except_bind_eq_ok.mpr ⟨heartbeat.team, team, token⟩

theorem createMemberInfo_complete :
    createMemberInfo text jwt heartbeat.now heartbeat.data = .ok heartbeat.record := by
  rw [createMemberInfo, heartbeat.isMasterTeam, teamJwt_complete, heartbeat.isName, heartbeat.isPort, heartbeat.isIpv4,
    heartbeat.isIpv6]
  rfl

/-- The team that the member is master of stays as it was. -/
theorem updateMemberInfo_complete (existing : MultiMap.Member) :
    updateMemberInfo jwt heartbeat.now existing heartbeat.data =
      (.ok (), { heartbeat.record with masterTeam := existing.masterTeam }) := by
  rw [updateMemberInfo, teamJwt_complete, heartbeat.isName, heartbeat.isPort, heartbeat.isIpv4, heartbeat.isIpv6]
  rfl

theorem updatePeerInfo_complete (existing : MultiMap.Peer) :
    updatePeerInfo text existing broadcast.data = (.ok (), broadcast.record) := by
  have teamID : peerTeamId text broadcast.data = .ok (some broadcast.teamID) := by
    simp only [peerTeamId, broadcast.isTeamId, broadcast.isTeam, Option.elim_some]
  rw [updatePeerInfo, teamID, broadcast.isName, broadcast.isPort, broadcast.isIpv4, broadcast.isIpv6,
    broadcast.isTeamName]
  rfl

theorem createPeerInfo_complete : createPeerInfo text broadcast.data = (.ok (), broadcast.record) :=
  updatePeerInfo_complete broadcast {}

end Functions

/-! ## Receiving messages -/

/-- A message of the framework with the id. -/
inductive FrameworkMessage (text : UuidText) (jwt : JwtLibrary) (masterToken : TeamToken) (teams : List Uuid)
    (id : String)
  | heartbeat (heartbeat : MemberHeartbeat text jwt masterToken id)
  | peer (broadcast : PeerBroadcast text teams id)
  | master (broadcast : MasterBroadcast text fun _ => id)

def receive (manager : DiscoveryManager) : FrameworkMessage text jwt masterToken teams id → DiscoveryManager
  | .heartbeat heartbeat => (manager.teamHeartbeat text jwt heartbeat.now (.ok heartbeat.data)).2
  | .peer broadcast => (manager.receiveBroadcast text broadcast.data).2
  | .master broadcast => (manager.receiveBroadcast text broadcast.data).2

/-- The messages are meant for this framework, and come from another one. -/
structure Addressed (text : UuidText) (masterToken : TeamToken) (teams : List Uuid) (id : String)
    (manager : DiscoveryManager) : Prop where
  isMasterToken : manager.masterToken = masterToken
  isTeams : manager.teamTokens.map TeamToken.teamID = teams
  isOther : id ≠ text.toString manager.frameworkId

/-- The record of an id is created, or updated if it is there. -/
def RecordsById.put {Record : Type} (records : RecordsById Record) (id : String) (created : Record)
    (updated : Record → Record) : RecordsById Record :=
  match records.lookup id with
  | none => records.replaceInto (id, created)
  | some (_, existing) => records.assign id (updated existing)

theorem RecordsById.lookup_put {Record : Type} (records : RecordsById Record) (id : String) (created : Record)
    (updated : Record → Record) : ((records.put id created updated).lookup id).map Prod.snd =
      some (((records.lookup id).map Prod.snd).elim created updated) := by
  rw [RecordsById.put]
  cases found : records.lookup id with
  | none =>
    have isNew : (records.replaceInto (id, created)).lookup id = some (id, created) :=
      Relation.lookup_replaceInto_self records (id, created)
    rw [isNew]
    rfl
  | some row =>
    obtain ⟨member, isId⟩ := Relation.lookup_eq_some.mp found
    have keeps (other : String × Record) : ((fun other => (other.1, updated row.2)) other).1 = other.1 := rfl
    have isChanged : (records.assign id (updated row.2)).lookup id = some (row.1, updated row.2) :=
      Relation.lookup_eq_some.mpr ⟨(Relation.mem_updateWhere_key keeps member isId).mpr (.inl rfl), isId⟩
    rw [isChanged]
    rfl

section Steps

variable {manager : DiscoveryManager} (addressed : Addressed text masterToken teams id manager)

include addressed

theorem receive_heartbeat (heartbeat : MemberHeartbeat text jwt masterToken id) :
    receive manager (.heartbeat heartbeat : FrameworkMessage text jwt masterToken teams id) =
      { manager with teamMember := manager.teamMember.put id heartbeat.record fun existing =>
          { heartbeat.record with masterTeam := existing.masterTeam } } := by
  have teamId : subscript heartbeat.team "teamID" = .ok (.string (text.toString masterToken.teamID)) :=
    subscript_of_find heartbeat.isTeamId
  have token : (subscript heartbeat.team "jwt" >>= asText) = .ok heartbeat.token :=
    (subscript_ok heartbeat.isToken).mpr ⟨_, heartbeat.isToken, rfl⟩
  simp only [receive, DiscoveryManager.teamHeartbeat, heartbeat.isId, heartbeat.isTeam, List.head?_cons,
    Option.getD_some, teamId, addressed.isMasterToken, ne_eq, not_true_eq_false, if_false, token, heartbeat.isValid,
    heartbeat.notExpired, Bool.not_true, Bool.or_self, Bool.false_eq_true, createMemberInfo_complete,
    updateMemberInfo_complete, RecordsById.put]
  cases manager.teamMember.lookup id <;> rfl

theorem receive_peer (broadcast : PeerBroadcast text teams id) :
    receive manager (.peer broadcast : FrameworkMessage text jwt masterToken teams id) =
      { manager with peers := manager.peers.put id broadcast.record fun _ => broadcast.record } := by
  have isId : asText (.string id) = .ok id := rfl
  have inTeam : manager.teamTokens.any (fun token => token.teamID = broadcast.teamID) = true := by
    have ofTeam : broadcast.teamID ∈ manager.teamTokens.map TeamToken.teamID := addressed.isTeams ▸ broadcast.ofTeam
    obtain ⟨token, isToken, same⟩ := List.mem_map.mp ofTeam
    exact List.any_eq_true.mpr ⟨token, isToken, decide_eq_true same⟩
  simp only [receive, DiscoveryManager.receiveBroadcast, broadcast.isId, isId, if_neg addressed.isOther,
    broadcast.noMaster, DiscoveryManager.receivePeer, broadcast.isTeamId, broadcast.isTeam, inTeam, Bool.not_true,
    Bool.false_eq_true, if_false, createPeerInfo_complete, updatePeerInfo_complete, RecordsById.put]
  cases manager.peers.lookup id <;> rfl

/-- The tokens may get another address. -/
theorem receive_master (broadcast : MasterBroadcast text fun _ => id) :
    ∃ tokens, tokens.map TeamToken.teamID = teams ∧
      receive manager (.master broadcast : FrameworkMessage text jwt masterToken teams id) =
        { manager with
          teamMaster := manager.teamMaster.put id broadcast.record fun _ => broadcast.record
          teamTokens := tokens } := by
  have sender : broadcast.id = id := broadcast.ofTeam.symm
  have sameTeams : (addressTokens manager.teamTokens broadcast.teamID broadcast.ipv4 (some broadcast.port)).map
      TeamToken.teamID = teams := by
    rw [← addressed.isTeams, addressTokens, List.map_map]
    refine List.map_congr_left fun token _ => ?_
    rw [Function.comp_apply]
    split <;> rfl
  rw [receive, DiscoveryManager.receiveBroadcast_complete, sender, if_neg addressed.isOther,
    DiscoveryManager.learnMaster, sender, RecordsById.put]
  cases manager.teamMaster.lookup id with
  | none => exact ⟨_, sameTeams, rfl⟩
  | some existing =>
    refine ⟨_, ?_, rfl⟩
    split
    · exact sameTeams
    · exact addressed.isTeams

end Steps

/-! ## Records after messages -/

section Records

variable (messages : List (FrameworkMessage text jwt masterToken teams id))

def heartbeatsOf : List (MemberHeartbeat text jwt masterToken id) :=
  messages.filterMap fun
    | .heartbeat heartbeat => some heartbeat
    | .peer _ | .master _ => none

def peersOf : List (PeerBroadcast text teams id) :=
  messages.filterMap fun
    | .peer broadcast => some broadcast
    | .heartbeat _ | .master _ => none

def mastersOf : List (MasterBroadcast text fun _ => id) :=
  messages.filterMap fun
    | .master broadcast => some broadcast
    | .heartbeat _ | .peer _ => none

/-- The team that the member is on record as master of, once the first heartbeat is there. -/
def teamOnRecord (manager : DiscoveryManager) (first : MemberHeartbeat text jwt masterToken id) : MultiMap.MasterTeam :=
  ((manager.teamMember.lookup id).map fun row => row.2.masterTeam).getD first.masterTeam

/-- The record of a member: the last heartbeat, with the team on record. -/
def memberAfter (initial : DiscoveryManager) (heartbeats : List (MemberHeartbeat text jwt masterToken id)) :
    Option MultiMap.Member :=
  match heartbeats.getLast? with
  | none => (initial.teamMember.lookup id).map Prod.snd
  | some last => some { last.record with masterTeam := teamOnRecord initial (heartbeats.head?.getD last) }

/-- Peers and masters are replaced by the last broadcast. -/
structure Recorded (initial : DiscoveryManager) (messages : List (FrameworkMessage text jwt masterToken teams id))
    (manager : DiscoveryManager) : Prop where
  addressed : Addressed text masterToken teams id manager
  member : (manager.teamMember.lookup id).map Prod.snd = memberAfter initial (heartbeatsOf messages)
  peer : ∀ last ∈ (peersOf messages).getLast?, (manager.peers.lookup id).map Prod.snd = some last.record
  master : ∀ last ∈ (mastersOf messages).getLast?, (manager.teamMaster.lookup id).map Prod.snd = some last.record

variable {messages} {initial manager : DiscoveryManager}

theorem memberAfter_concat (heartbeats : List (MemberHeartbeat text jwt masterToken id))
    (heartbeat : MemberHeartbeat text jwt masterToken id) : memberAfter initial (heartbeats ++ [heartbeat]) =
      some ((memberAfter initial heartbeats).elim heartbeat.record fun existing =>
        { heartbeat.record with masterTeam := existing.masterTeam }) := by
  cases heartbeats with
  | nil =>
    -- The first heartbeat creates the record, unless there has been one before.
    simp only [memberAfter, teamOnRecord, List.nil_append, List.getLast?_singleton, List.head?_cons, Option.getD_some,
      List.getLast?_nil]
    cases initial.teamMember.lookup id <;> rfl
  | cons first later =>
    have isLast : (first :: later).getLast? = some ((first :: later).getLast (List.cons_ne_nil first later)) :=
      List.getLast?_eq_some_getLast _
    rw [memberAfter, memberAfter, List.getLast?_concat, isLast]
    rfl

theorem receive_recorded (message : FrameworkMessage text jwt masterToken teams id)
    (recorded : Recorded initial messages manager) :
    Recorded initial (messages ++ [message]) (receive manager message) := by
  obtain ⟨addressed, member, peer, master⟩ := recorded
  cases message with
  | heartbeat heartbeat =>
    have heartbeats : heartbeatsOf (messages ++ [.heartbeat heartbeat]) = heartbeatsOf messages ++ [heartbeat] := by
      simp [heartbeatsOf]
    rw [receive_heartbeat addressed]
    refine ⟨⟨addressed.isMasterToken, addressed.isTeams, addressed.isOther⟩, ?_, ?_, ?_⟩
    · -- The record is put, and the broadcasts are as they were.
      rw [RecordsById.lookup_put, member, heartbeats]
      exact (memberAfter_concat _ heartbeat).symm
    · simpa [peersOf] using peer
    · simpa [mastersOf] using master
  | peer broadcast =>
    have peers : peersOf (messages ++ [.peer broadcast]) = peersOf messages ++ [broadcast] := by simp [peersOf]
    rw [receive_peer addressed]
    refine ⟨⟨addressed.isMasterToken, addressed.isTeams, addressed.isOther⟩, ?_, ?_, ?_⟩
    · simpa [heartbeatsOf] using member
    · rintro last isLast
      rw [peers, List.getLast?_concat, Option.mem_some_iff] at isLast
      subst isLast
      rw [RecordsById.lookup_put]
      cases (manager.peers.lookup id).map Prod.snd <;> rfl
    · simpa [mastersOf] using master
  | master broadcast =>
    have masters : mastersOf (messages ++ [.master broadcast]) = mastersOf messages ++ [broadcast] := by
      simp [mastersOf]
    obtain ⟨tokens, sameTeams, received⟩ := @receive_master _ jwt _ _ _ _ addressed broadcast
    rw [received]
    refine ⟨⟨addressed.isMasterToken, sameTeams, addressed.isOther⟩, ?_, ?_, ?_⟩
    · simpa [heartbeatsOf] using member
    · simpa [peersOf] using peer
    · rintro last isLast
      rw [masters, List.getLast?_concat, Option.mem_some_iff] at isLast
      subst isLast
      rw [RecordsById.lookup_put]
      cases (manager.teamMaster.lookup id).map Prod.snd <;> rfl

theorem run_recorded (addressed : Addressed text masterToken teams id initial)
    (messages : List (FrameworkMessage text jwt masterToken teams id)) :
    Recorded initial messages (Runs.run receive initial messages) :=
  Runs.run_history (fun manager messages => Recorded initial messages manager)
    (fun _ _ message => receive_recorded message) ⟨addressed, rfl, by simp [peersOf], by simp [mastersOf]⟩ messages

end Records

section Agreement

/-- The records are as the last message of each kind would have them created.  A heartbeat need not carry the teams that
the member is master of. -/
structure RecordsAgree (messages : List (FrameworkMessage text jwt masterToken teams id)) (manager : DiscoveryManager) :
    Prop where
  member : ∀ last ∈ (heartbeatsOf messages).getLast?, ∃ stored created,
    (manager.teamMember.lookup id).map Prod.snd = some stored ∧
    createMemberInfo text jwt last.now last.data = .ok created ∧
    stored = { created with
      masterTeam := if array? last.data "master" = none then stored.masterTeam else created.masterTeam }
  peer : ∀ last ∈ (peersOf messages).getLast?, ∃ stored,
    (manager.peers.lookup id).map Prod.snd = some stored ∧ createPeerInfo text last.data = (.ok (), stored)
  master : ∀ last ∈ (mastersOf messages).getLast?, ∃ stored,
    (manager.teamMaster.lookup id).map Prod.snd = some stored ∧
    ∀ tokens, ∃ followed, createMasterInfo text tokens last.data = .ok (stored, followed)

/-- The last heartbeat names the team on record, if it carries the teams that the member is master of. -/
def TeamKept (manager : DiscoveryManager) (messages : List (FrameworkMessage text jwt masterToken teams id)) : Prop :=
  ∀ first ∈ (heartbeatsOf messages).head?, ∀ last ∈ (heartbeatsOf messages).getLast?,
    array? last.data "master" ≠ none → teamOnRecord manager first = last.masterTeam

/-- `update_member_info` forgets the team that the member is master of. -/
theorem recordsAgree_iff (manager : DiscoveryManager) (addressed : Addressed text masterToken teams id manager)
    (messages : List (FrameworkMessage text jwt masterToken teams id)) :
    RecordsAgree messages (Runs.run receive manager messages) ↔ TeamKept manager messages := by
  have recorded := run_recorded addressed messages
  constructor
  · intro agree first isFirst last isLast carried
    obtain ⟨stored, created, isStored, made, same⟩ := agree.member last isLast
    rw [recorded.member, memberAfter, Option.mem_def.mp isLast, Option.mem_def.mp isFirst,
      Option.some.injEq] at isStored
    rw [createMemberInfo_complete, Except.ok.injEq] at made
    have team : stored.masterTeam = created.masterTeam := by
      rw [same, if_neg carried]
    rw [← isStored, ← made] at team
    exact team
  · intro kept
    refine ⟨fun last isLast => ?_, fun last isLast => ?_, fun last isLast => ?_⟩
    · obtain ⟨first, isFirst⟩ : ∃ first, (heartbeatsOf messages).head? = some first := by
        cases heartbeats : heartbeatsOf messages with
        | nil => rw [heartbeats] at isLast; cases isLast
        | cons first later => exact ⟨first, rfl⟩
      have onRecord := recorded.member
      rw [memberAfter, Option.mem_def.mp isLast] at onRecord
      refine ⟨_, _, onRecord, createMemberInfo_complete last, ?_⟩
      -- Without an array of teams the heartbeat says nothing about the one on record.
      split
      · rfl
      · rename_i carried
        rw [isFirst, Option.getD_some, kept first isFirst last isLast carried]
        rfl
    · exact ⟨_, recorded.peer last isLast, createPeerInfo_complete last⟩
    · exact ⟨_, recorded.master last isLast, fun tokens => ⟨_, DiscoveryManager.createMasterInfo_complete last tokens⟩⟩

end Agreement

/-! ## A member that becomes a master -/

def redToken : TeamToken := { teamName := "red", teamID := 7, secret := "secret" }

/-- A heartbeat of the member of team red on a host, which lists the teams that it is master of. -/
def redHeartbeat (masters : List Json) (masterTeam : MultiMap.MasterTeam)
    (isMasterTeam : memberMasterTeam teamTexts {} masters = .ok masterTeam) :
    MemberHeartbeat teamTexts unaryJwt redToken "00000000-0000-0000-0000-000000000002" where
  data := .object [
    ("id", .string "00000000-0000-0000-0000-000000000002"), ("name", .string "kitchen"), ("port", .integer 8080),
    ("ipv4", .array [.string "10.0.0.2"]), ("ipv6", .array []),
    ("team", .array [.object [
      ("teamID", .string "00000000-0000-0000-0000-000000000007"),
      ("jwt", .string (generateJwtToken unaryJwt "secret" "kitchen"))]]),
    ("master", .array masters)]
  now := 0
  name := "kitchen"
  port := 8080
  ipv4 := ["10.0.0.2"]
  ipv6 := []
  team := .object [
    ("teamID", .string "00000000-0000-0000-0000-000000000007"),
    ("jwt", .string (generateJwtToken unaryJwt "secret" "kitchen"))]
  furtherTeams := []
  token := generateJwtToken unaryJwt "secret" "kitchen"
  masterTeam := masterTeam
  isId := rfl
  isName := rfl
  isPort := rfl
  isIpv4 := rfl
  isIpv6 := rfl
  isTeam := rfl
  isTeamId := rfl
  isToken := rfl
  isValid := (generated_valid unaryJwt_lawful "secret" "kitchen" 0).1
  notExpired := (generated_valid unaryJwt_lawful "secret" "kitchen" 0).2
  isMasterTeam := isMasterTeam

/-- A member that is master of no team. -/
def plainHeartbeat : MemberHeartbeat teamTexts unaryJwt redToken "00000000-0000-0000-0000-000000000002" :=
  redHeartbeat [] {} rfl

/-- The member is the master of team 7. -/
def masterHeartbeat : MemberHeartbeat teamTexts unaryJwt redToken "00000000-0000-0000-0000-000000000002" :=
  redHeartbeat
    [.object [("teamID", .string "00000000-0000-0000-0000-000000000007"), ("teamName", .string "red")]]
    { teamName := "red", teamID := 7 } rfl

def redMaster : DiscoveryManager :=
  { frameworkId := 1, master := true, masterToken := redToken, teamTokens := [redToken] }

theorem redMaster_addressed :
    Addressed teamTexts redToken [7] "00000000-0000-0000-0000-000000000002" redMaster :=
  ⟨rfl, rfl, by decide⟩

/-- The messages of the member to the master of team 7. -/
abbrev RedMessages := List (FrameworkMessage teamTexts unaryJwt redToken [7] "00000000-0000-0000-0000-000000000002")

def stillMaster : RedMessages := [.heartbeat masterHeartbeat, .heartbeat masterHeartbeat]

def newMaster : RedMessages := [.heartbeat plainHeartbeat, .heartbeat masterHeartbeat]

theorem stillMaster_agrees : RecordsAgree stillMaster (Runs.run receive redMaster stillMaster) := by
  refine (recordsAgree_iff redMaster redMaster_addressed _).mpr fun first isFirst last isLast _ => ?_
  cases isFirst
  cases isLast
  rfl

/-- A member that has become master of a team is still on record as master of none. -/
theorem newMaster_forgotten : ¬ RecordsAgree newMaster (Runs.run receive redMaster newMaster) := by
  intro agree
  have recorded := run_recorded redMaster_addressed newMaster
  obtain ⟨stored, created, isStored, made, same⟩ := agree.member masterHeartbeat rfl
  have isRecord : some { masterHeartbeat.record with masterTeam := {} } = some stored :=
    recorded.member.symm.trans isStored
  have isCreated : (Except.ok masterHeartbeat.record : Except Fault MultiMap.Member) = .ok created :=
    (createMemberInfo_complete masterHeartbeat).symm.trans made
  cases isRecord
  cases isCreated
  exact absurd (congrArg MultiMap.Member.masterTeam same) (by decide)

end AbilityFramework.DiscoveryMgr
