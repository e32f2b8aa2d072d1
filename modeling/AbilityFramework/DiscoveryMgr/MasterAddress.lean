import AbilityFramework.DiscoveryMgr.BroadcastPackets
import AbilityFramework.Library.Runs

/-! # The address of the master of a team

A token has a copy of the address of its team's master, which `try_send_team_heartbeat` contacts.  The copy is
made when the framework joins the team and renewed by the broadcasts of the master; a broadcast of a known master
renews it only when the list of IPv4 addresses has changed.

`tokensFollow_iff`: the tokens have the address that is on record after every step exactly if no broadcast with
the list on record brings a port or a team that a token of that team has not. -/

namespace AbilityFramework.DiscoveryMgr

open Library

/-- A master's broadcast with all its fields, from the one master of its team. -/
structure MasterBroadcast (text : UuidText) (masterOf : Uuid → String) where
  data : Json
  id : String
  name : String
  portNumber : Int
  team : Json
  furtherTeams : List Json
  teamText : String
  teamID : Uuid
  teamName : String
  ipv4 : List String
  ipv6 : List String
  isId : data.find "id" = some (.string id)
  isName : data.find "name" = some (.string name)
  isPort : data.find "port" = some (.integer portNumber)
  isMaster : array? data "master" = some (team :: furtherTeams)
  isTeamId : team.find "teamID" = some (.string teamText)
  isTeam : text.fromString teamText = some teamID
  isTeamName : team.find "teamName" = some (.string teamName)
  isIpv4 : strings? data "ipv4" = some ipv4
  isIpv6 : strings? data "ipv6" = some ipv6
  ofTeam : masterOf teamID = id

variable {text : UuidText} {masterOf : Uuid → String}

namespace MasterBroadcast

/-- The port as an `int`. -/
def port (broadcast : MasterBroadcast text masterOf) : Int := broadcast.portNumber.bmod 4294967296

/-- What is put on record for the master. -/
def record (broadcast : MasterBroadcast text masterOf) : MultiMap.Master where
  name := broadcast.name
  port := some broadcast.port
  teamName := broadcast.teamName
  teamID := broadcast.teamID
  ipv4 := broadcast.ipv4
  ipv6 := broadcast.ipv6

end MasterBroadcast

namespace DiscoveryManager

/-- What a complete broadcast of another framework does. -/
def learnMaster (manager : DiscoveryManager) (broadcast : MasterBroadcast text masterOf) : DiscoveryManager :=
  let addressed := addressTokens manager.teamTokens broadcast.teamID broadcast.ipv4 (some broadcast.port)
  match manager.teamMaster.lookup broadcast.id with
  | none => { manager with
      teamMaster := manager.teamMaster.replaceInto (broadcast.id, broadcast.record), teamTokens := addressed }
  | some (_, existing) => { manager with
      teamMaster := manager.teamMaster.assign broadcast.id broadcast.record
      teamTokens := if existing.ipv4 ≠ broadcast.ipv4 then addressed else manager.teamTokens }

variable (manager : DiscoveryManager) (broadcast : MasterBroadcast text masterOf)

theorem masterTeam_complete : masterTeam text broadcast.data = .ok (some broadcast.teamID, broadcast.teamName) := by
  rw [← broadcast.isTeam]
  exact masterTeam_of_find text broadcast.isMaster broadcast.isTeamId broadcast.isTeamName

theorem createMasterInfo_complete (tokens : List TeamToken) :
    createMasterInfo text tokens broadcast.data =
      .ok (broadcast.record, addressTokens tokens broadcast.teamID broadcast.ipv4 (some broadcast.port)) := by
  have name : text? broadcast.data "name" = some broadcast.name := by rw [text?, broadcast.isName]
  have port : integer? broadcast.data "port" = some broadcast.port := by
    rw [integer?, broadcast.isPort]
    rfl
  simp only [createMasterInfo, masterTeam_complete, name, port, broadcast.isIpv4, broadcast.isIpv6, Option.getD_some]
  rfl

theorem updateMasterInfo_complete (existing : MultiMap.Master) (tokens : List TeamToken) :
    updateMasterInfo text existing tokens broadcast.data = (.ok (), broadcast.record,
      if existing.ipv4 ≠ broadcast.ipv4 then
        addressTokens tokens broadcast.teamID broadcast.ipv4 (some broadcast.port)
      else tokens) := by
  have name : (subscript broadcast.data "name" >>= asText) = .ok broadcast.name :=
    (subscript_ok broadcast.isId).mpr ⟨_, broadcast.isName, rfl⟩
  have port : (subscript broadcast.data "port" >>= asInt) = .ok broadcast.port :=
    (subscript_ok broadcast.isId).mpr ⟨_, broadcast.isPort, rfl⟩
  simp only [updateMasterInfo, masterTeam_complete, name, port, broadcast.isIpv4, broadcast.isIpv6, Option.getD_some]
  rfl

theorem receiveBroadcast_complete : manager.receiveBroadcast text broadcast.data =
    if broadcast.id = text.toString manager.frameworkId then (.ok .discarded, manager)
    else (.ok .saved, manager.learnMaster broadcast) := by
  have id : asText (.string broadcast.id) = .ok broadcast.id := rfl
  have teamId : asText (.string broadcast.teamText) = .ok broadcast.teamText := rfl
  have teamName : asText (.string broadcast.teamName) = .ok broadcast.teamName := rfl
  simp only [receiveBroadcast, broadcast.isId, id, broadcast.isMaster, List.head?_cons, Option.getD_some]
  split
  · rfl
  · simp only [receiveMaster, broadcast.isTeamId, broadcast.isTeamName, teamId, teamName, broadcast.isTeam,
      createMasterInfo_complete, updateMasterInfo_complete, learnMaster]
    cases manager.teamMaster.lookup broadcast.id <;> rfl

end DiscoveryManager

/-! ## Tokens and records -/

inductive TeamEvent (text : UuidText) (masterOf : Uuid → String) where
  | broadcast (broadcast : MasterBroadcast text masterOf)
  | join (teamID : Uuid) (jwt : String)

def teamStep (manager : DiscoveryManager) : TeamEvent text masterOf → DiscoveryManager
  | .broadcast broadcast => (manager.receiveBroadcast text broadcast.data).2
  | .join teamID jwt => (manager.joinTeam teamID jwt).2

/-- A token of the team of this master has the master's address. -/
def TokenFollows (token : TeamToken) (master : MultiMap.Master) : Prop :=
  master.teamID = token.teamID → token.masterIP = master.ipv4 ∧ token.masterPort = master.port

/-- Each token has the address that is on record for the master of its team. -/
def TokensFollow (manager : DiscoveryManager) : Prop :=
  ∀ token ∈ manager.teamTokens, ∀ row ∈ manager.teamMaster, TokenFollows token row.2

/-- A broadcast of another framework with the addresses that are on record for it finds its port, besides these
addresses, in the tokens of its team. -/
def Renewed (manager : DiscoveryManager) : TeamEvent text masterOf → Prop
  | .broadcast broadcast => broadcast.id ≠ text.toString manager.frameworkId →
      ∀ existing, manager.teamMaster.lookup broadcast.id = some existing → existing.2.ipv4 = broadcast.ipv4 →
        ∀ token ∈ manager.teamTokens, token.teamID = broadcast.teamID →
          token.masterIP = broadcast.ipv4 ∧ token.masterPort = some broadcast.port
  | .join _ _ => True

/-- Every record is that of the one master of its team. -/
def OneMaster (masterOf : Uuid → String) (manager : DiscoveryManager) : Prop :=
  ∀ row ∈ manager.teamMaster, masterOf row.2.teamID = row.1

variable {manager : DiscoveryManager} {broadcast : MasterBroadcast text masterOf}

/-- The tokens of the team have the new address, and the others stay. -/
theorem mem_addressTokens {tokens : List TeamToken} {teamID : Uuid} {masterIP : List String} {masterPort : Option Int}
    {token : TeamToken} (member : token ∈ addressTokens tokens teamID masterIP masterPort) :
    token.teamID = teamID ∧ token.masterIP = masterIP ∧ token.masterPort = masterPort ∨
      token.teamID ≠ teamID ∧ token ∈ tokens := by
  obtain ⟨old, oldMember, rfl⟩ := List.mem_map.mp member
  by_cases same : old.teamID = teamID
  · rw [if_pos same]
    exact .inl ⟨same, rfl, rfl⟩
  · rw [if_neg same]
    exact .inr ⟨same, oldMember⟩

theorem mem_learnMaster {row : String × MultiMap.Master} :
    row ∈ (manager.learnMaster broadcast).teamMaster ↔
      row = (broadcast.id, broadcast.record) ∨ row ∈ manager.teamMaster ∧ row.1 ≠ broadcast.id := by
  unfold DiscoveryManager.learnMaster
  cases found : manager.teamMaster.lookup broadcast.id with
  | none => exact Relation.mem_replaceInto
  | some existing =>
    obtain ⟨member, isId⟩ := Relation.lookup_eq_some.mp found
    have isChanged : row = (existing.1, broadcast.record) ↔ row = (broadcast.id, broadcast.record) := by rw [isId]
    rw [← isChanged]
    have keeps (row : String × MultiMap.Master) : ((fun row => (row.1, broadcast.record)) row).1 = row.1 := rfl
    exact Relation.mem_updateWhere_key keeps member isId

theorem learnMaster_oneMaster (one : OneMaster masterOf manager) :
    OneMaster masterOf (manager.learnMaster broadcast) := by
  intro row member
  obtain rfl | ⟨old, _⟩ := mem_learnMaster.mp member
  · exact broadcast.ofTeam
  · exact one row old

/-- A record of the team of a broadcast is the record of its sender. -/
theorem OneMaster.sender (one : OneMaster masterOf manager) {row : String × MultiMap.Master}
    (member : row ∈ manager.teamMaster)
    (sameTeam : row.2.teamID = broadcast.teamID) : row.1 = broadcast.id := by
  rw [← one row member, sameTeam]
  exact broadcast.ofTeam

/-- The tokens of the teams of other masters stay. -/
theorem learnMaster_tokens {token : TeamToken} (member : token ∈ (manager.learnMaster broadcast).teamTokens)
    (other : token.teamID ≠ broadcast.teamID) : token ∈ manager.teamTokens := by
  unfold DiscoveryManager.learnMaster at member
  have kept : token ∈ addressTokens manager.teamTokens broadcast.teamID broadcast.ipv4 (some broadcast.port) →
      token ∈ manager.teamTokens := by
    intro addressed
    obtain ⟨same, _⟩ | ⟨_, old⟩ := mem_addressTokens addressed
    · exact absurd same other
    · exact old
  cases found : manager.teamMaster.lookup broadcast.id with
  | none =>
    rw [found] at member
    exact kept member
  | some existing =>
    rw [found] at member
    simp only at member
    split at member
    · exact kept member
    · exact member

/-- What a broadcast makes of a token of its team. -/
theorem learnMaster_ownTokens :
    (∀ token ∈ (manager.learnMaster broadcast).teamTokens, TokenFollows token broadcast.record) ↔
      ∀ existing, manager.teamMaster.lookup broadcast.id = some existing → existing.2.ipv4 = broadcast.ipv4 →
        ∀ token ∈ manager.teamTokens, token.teamID = broadcast.teamID →
          token.masterIP = broadcast.ipv4 ∧ token.masterPort = some broadcast.port := by
  have addressed : ∀ token ∈ addressTokens manager.teamTokens broadcast.teamID broadcast.ipv4 (some broadcast.port),
      TokenFollows token broadcast.record := by
    intro token member sameTeam
    obtain ⟨_, ip, port⟩ | ⟨other, _⟩ := mem_addressTokens member
    · exact ⟨ip, port⟩
    · exact absurd sameTeam.symm other
  unfold DiscoveryManager.learnMaster
  cases found : manager.teamMaster.lookup broadcast.id with
  | none => exact iff_of_true addressed nofun
  | some existing =>
    simp only [Option.some.injEq, forall_eq']
    -- Other addresses renew the tokens; with the same ones they stay as they are.
    by_cases same : existing.2.ipv4 = broadcast.ipv4
    · simp only [same, ne_eq, not_true_eq_false, if_false, forall_const]
      exact ⟨fun follow token member sameTeam => follow token member sameTeam.symm,
        fun renewed token member sameTeam => renewed token member sameTeam.symm⟩
    · simp only [same, ne_eq, not_false_eq_true, if_true]
      exact iff_of_true addressed fun impossible => absurd impossible id

/-- After a broadcast the tokens follow exactly if those of its team do. -/
theorem learnMaster_follow (one : OneMaster masterOf manager) (follow : TokensFollow manager) :
    TokensFollow (manager.learnMaster broadcast) ↔
      ∀ token ∈ (manager.learnMaster broadcast).teamTokens, TokenFollows token broadcast.record := by
  constructor
  · intro after token member
    exact after token member _ (mem_learnMaster.mpr (.inl rfl))
  · intro own token member row rowMember
    obtain rfl | ⟨old, notSender⟩ := mem_learnMaster.mp rowMember
    · exact own token member
    · intro sameTeam
      -- The records of other senders are of other teams, whose tokens are not touched.
      have other : token.teamID ≠ broadcast.teamID :=
        fun ofTeam => notSender (one.sender old (sameTeam.trans ofTeam))
      exact follow token (learnMaster_tokens member other) row old sameTeam

theorem joinTeam_follow (one : OneMaster masterOf manager) (follow : TokensFollow manager) (teamID : Uuid)
    (jwt : String) :
    TokensFollow (manager.joinTeam teamID jwt).2 := by
  unfold DiscoveryManager.joinTeam
  split
  · exact follow
  · split
    · rename_i id master found
      have isTeam : master.teamID = teamID := of_decide_eq_true <|
        List.find?_some (p := fun row : String × MultiMap.Master => decide (row.2.teamID = teamID)) found
      have member : (id, master) ∈ manager.teamMaster := List.mem_of_find?_eq_some found
      intro token tokenMember row rowMember sameTeam
      rw [List.mem_append, List.mem_singleton] at tokenMember
      obtain old | rfl := tokenMember
      · exact follow token old row rowMember sameTeam
      · -- The one master of the team is the one that was found.
        have sameRow : row = (id, master) := by
          apply Relation.eq_of_key rowMember member
          rw [← one row rowMember, ← one _ member, isTeam]
          exact congrArg masterOf sameTeam
        rw [sameRow]
        exact ⟨rfl, rfl⟩
    · exact follow

theorem joinTeam_teamMaster (teamID : Uuid) (jwt : String) :
    (manager.joinTeam teamID jwt).2.teamMaster = manager.teamMaster := by
  unfold DiscoveryManager.joinTeam
  split
  · rfl
  · split <;> rfl

theorem teamStep_oneMaster (event : TeamEvent text masterOf) (one : OneMaster masterOf manager) :
    OneMaster masterOf (teamStep manager event) := by
  cases event with
  | broadcast broadcast =>
    rw [teamStep, DiscoveryManager.receiveBroadcast_complete]
    split
    · exact one
    · exact learnMaster_oneMaster one
  | join teamID jwt =>
    rw [teamStep, OneMaster, joinTeam_teamMaster]
    exact one

theorem teamStep_follow (event : TeamEvent text masterOf) (one : OneMaster masterOf manager)
    (follow : TokensFollow manager) : TokensFollow (teamStep manager event) ↔ Renewed manager event := by
  cases event with
  | broadcast broadcast =>
    rw [teamStep, DiscoveryManager.receiveBroadcast_complete, Renewed]
    by_cases isOwn : broadcast.id = text.toString manager.frameworkId
    · rw [if_pos isOwn]
      exact iff_of_true follow fun isOther => absurd isOwn isOther
    · rw [if_neg isOwn, learnMaster_follow one follow, learnMaster_ownTokens]
      exact ⟨fun renewed _ => renewed, fun renewed => renewed isOwn⟩
  | join teamID jwt => exact iff_of_true (joinTeam_follow one follow teamID jwt) trivial

/-- From any tokens, and with no master on record, the tokens follow through a run exactly if each broadcast
that keeps its sender's addresses is one that the tokens are renewed for already. -/
theorem tokensFollow_iff (frameworkId : Uuid) (master : Bool) (masterToken : TeamToken) (teamTokens : List TeamToken)
    (events : List (TeamEvent text masterOf)) :
    Runs.Always teamStep TokensFollow { frameworkId, master, masterToken, teamTokens } events ↔
      Runs.EachStep teamStep Renewed { frameworkId, master, masterToken, teamTokens } events := by
  apply Runs.always_exact (fun manager => OneMaster masterOf manager ∧ TokensFollow manager)
  · exact fun _ invariant => invariant.2
  · intro manager event invariant renewed
    exact ⟨teamStep_oneMaster event invariant.1, (teamStep_follow event invariant.1 invariant.2).mpr renewed⟩
  · intro manager event invariant follow
    exact (teamStep_follow event invariant.1 invariant.2).mp follow
  · exact ⟨fun row member => absurd member (Relation.not_mem_empty row),
      fun _ _ row member => absurd member (Relation.not_mem_empty row)⟩

/-- The text of the id 7. -/
def textOfSeven : UuidText := ⟨fun _ => "", fun written => if written = "7" then some 7 else none⟩

/-- The master of team 7, at 10.0.0.1. -/
def masterAtPort (port : Int) : MasterBroadcast textOfSeven fun _ => "master" where
  data := .object [("id", .string "master"), ("name", .string "robot"), ("port", .integer port),
    ("ipv4", .array [.string "10.0.0.1"]), ("ipv6", .array []),
    ("master", .array [.object [("teamID", .string "7"), ("teamName", .string "red")]])]
  id := "master"
  name := "robot"
  portNumber := port
  team := .object [("teamID", .string "7"), ("teamName", .string "red")]
  furtherTeams := []
  teamText := "7"
  teamID := 7
  teamName := "red"
  ipv4 := ["10.0.0.1"]
  ipv6 := []
  isId := rfl
  isName := rfl
  isPort := rfl
  isMaster := rfl
  isTeamId := rfl
  isTeam := rfl
  isTeamName := rfl
  isIpv4 := rfl
  isIpv6 := rfl
  ofTeam := rfl

/-- The framework joins the team, and its master moves to another port of the same host. -/
theorem token_keepsOldPort : ¬ Runs.Always teamStep TokensFollow { frameworkId := 1 }
    [.broadcast (masterAtPort 8080), .join 7 "token", .broadcast (masterAtPort 9090)] := by
  intro always
  obtain ⟨_, _, _, follow⟩ := always
  -- The token was made at the join, with the port of the first broadcast.
  have port := (follow { teamName := "red", teamID := 7, jwt := "token", masterIP := ["10.0.0.1"], masterPort := some 8080 }
    List.mem_cons_self ("master", (masterAtPort 9090).record) List.mem_cons_self rfl).2
  exact absurd port (by decide)

end AbilityFramework.DiscoveryMgr
