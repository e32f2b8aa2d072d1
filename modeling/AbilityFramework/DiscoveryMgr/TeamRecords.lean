import AbilityFramework.DiscoveryMgr.ElectionWire
import AbilityFramework.DiscoveryMgr.Jwt
import AbilityFramework.Library.Relation

/-! # What a framework knows of teams

The records of `multi_map.hpp`, the tokens of the teams a framework belongs to, and the functions of
`discovery_mgr.cpp` that fill records from JSON documents.  A function that fails part of the way keeps the
assignments it has made, so it returns what it leaves besides what comes of it. -/

namespace AbilityFramework.DiscoveryMgr

open Library

/-- What ends a handler early. -/
inductive Fault where
  | json (error : Json.Error)
  /-- `operator[]` with a key on a constant value that is not an object. -/
  | typeError305 (actual : String)
  /-- `operator[]` on a constant value that lacks the key or the index: the behaviour is undefined. -/
  | undefined
  | badOptionalAccess
  | invalidArgument (message : String)
  | runtimeError (message : String)
  deriving DecidableEq, Repr

/-! ## Reading documents -/

def subscript (json : Json) (key : String) : Except Fault Json :=
  match json with
  | .object members => (members.lookup key).elim (.error .undefined) .ok
  | other => .error (.typeError305 other.typeName)

/-- `[0]` -/
def firstItem (json : Json) : Except Fault Json :=
  match json with
  | .array items => items.head?.elim (.error .undefined) .ok
  | other => .error (.typeError305 other.typeName)

def asText (json : Json) : Except Fault String := json.getString.mapError .json

def asInt (json : Json) : Except Fault Int := json.getInt32.mapError .json

/-- `contains(key) && is_string()`, and then the text. -/
def text? (data : Json) (key : String) : Option String :=
  match data.find key with
  | some (.string value) => some value
  | _ => none

def integer? (data : Json) (key : String) : Option Int :=
  match data.find key with
  | some (.integer value) => some (value.bmod 4294967296)
  | _ => none

def array? (data : Json) (key : String) : Option (List Json) :=
  match data.find key with
  | some (.array items) => some items
  | _ => none

def stringItem : Json → Option String
  | .string value => some value
  | _ => none

/-- The strings of an array; items of another type are passed over. -/
def strings? (data : Json) (key : String) : Option (List String) :=
  (array? data key).map fun items => items.filterMap stringItem

/-! ## Records -/

namespace MultiMap

/-- A port is none as long as nothing has been assigned to it. -/
structure Master where
  name : String := ""
  port : Option Int := none
  teamName : String := ""
  teamID : Uuid := 0
  ipv4 : List String := []
  ipv6 : List String := []
  deriving DecidableEq

structure MasterTeam where
  teamName : String := ""
  teamID : Uuid := 0
  deriving DecidableEq

structure Member where
  name : String := ""
  port : Option Int := none
  jwt : String := ""
  expiry : Int := 0
  lastUpdated : Int := 0
  ipv4 : List String := []
  ipv6 : List String := []
  masterTeam : MasterTeam := {}
  deriving DecidableEq

structure Peer where
  name : String := ""
  port : Option Int := none
  ipv4 : List String := []
  ipv6 : List String := []
  teamName : String := ""
  teamID : Uuid := 0
  deriving DecidableEq

end MultiMap

structure TeamToken where
  teamName : String := ""
  teamID : Uuid := 0
  secret : String := ""
  jwt : String := ""
  masterPort : Option Int := none
  masterIP : List String := []
  deriving DecidableEq

abbrev RecordsById (Record : Type) := Relation (Prod.fst : String × Record → String)

/-- The record of an id that is there changes in its place. -/
def RecordsById.assign {Record : Type} (records : RecordsById Record) (id : String) (record : Record) :
    RecordsById Record :=
  records.updateWhere (fun row => row.1 = id) (fun row => (row.1, record)) fun _ => rfl

/-- `DiscoveryManager`, as far as teams go. -/
structure DiscoveryManager where
  frameworkId : Uuid
  master : Bool := false
  masterToken : TeamToken := {}
  teamTokens : List TeamToken := []
  teamMaster : RecordsById MultiMap.Master := ∅
  teamMember : RecordsById MultiMap.Member := ∅
  peers : RecordsById MultiMap.Peer := ∅

/-! ## Masters -/

variable (text : UuidText)

/-- `data["master"][0]["teamID"]` with the id it is the text of, and `data["master"][0]["teamName"]` -/
def masterTeam (data : Json) : Except Fault (Option Uuid × String) := do
  let team ← subscript data "master" >>= firstItem
  let teamId ← subscript team "teamID" >>= asText
  let teamName ← subscript team "teamName" >>= asText
  return (text.fromString teamId, teamName)

/-- The tokens of a team get the address of its master. -/
def addressTokens (tokens : List TeamToken) (teamID : Uuid) (masterIP : List String) (masterPort : Option Int) :
    List TeamToken :=
  tokens.map fun token => if token.teamID = teamID then { token with masterIP, masterPort } else token

def createMasterInfo (tokens : List TeamToken) (data : Json) : Except Fault (MultiMap.Master × List TeamToken) :=
  match masterTeam text data with
  | .error fault => .error fault
  | .ok (none, _) => .error .badOptionalAccess
  | .ok (some teamID, teamName) =>
    let name := (text? data "name").getD ""
    let port := integer? data "port"
    let ipv6 := (strings? data "ipv6").getD []
    match strings? data "ipv4" with
    | some ipv4 => .ok ({ name, port, teamName, teamID, ipv4, ipv6 }, addressTokens tokens teamID ipv4 port)
    -- Without a list of addresses the tokens stay as they are.
    | none => .ok ({ name, port, teamName, teamID, ipv6 }, tokens)

/-- A member that is assigned only where it differs is assigned. -/
def updateMasterInfo (existingMaster : MultiMap.Master) (tokens : List TeamToken) (data : Json) :
    Except Fault Unit × MultiMap.Master × List TeamToken :=
  match masterTeam text data with
  | .error fault => (.error fault, existingMaster, tokens)
  | .ok (teamId, teamName) =>
    match subscript data "name" >>= asText with
    | .error fault => (.error fault, existingMaster, tokens)
    | .ok name =>
      match subscript data "port" >>= asInt with
      | .error fault => (.error fault, { existingMaster with name }, tokens)
      | .ok port =>
        match teamId with
        | none => (.error .badOptionalAccess, { existingMaster with name, port := some port, teamName }, tokens)
        | some teamID =>
          let ipv4 := (strings? data "ipv4").getD existingMaster.ipv4
          let ipv6 := (strings? data "ipv6").getD existingMaster.ipv6
          -- The tokens follow when the addresses have changed.
          let followed := if existingMaster.ipv4 ≠ ipv4 then addressTokens tokens teamID ipv4 (some port) else tokens
          (.ok (), { name, port := some port, teamName, teamID, ipv4, ipv6 }, followed)

/-- A framework joins a team once, at the address of the first master that is found for it. -/
def DiscoveryManager.joinTeam (manager : DiscoveryManager) (teamID : Uuid) (jwt : String) :
    Except String Bool × DiscoveryManager :=
  if manager.teamTokens.any (fun token => token.teamID = teamID) then (.ok true, manager)
  else match manager.teamMaster.rows.find? (fun master => master.2.teamID = teamID) with
    | some (_, master) =>
      let token : TeamToken :=
        { teamName := master.teamName, teamID, jwt, masterIP := master.ipv4, masterPort := master.port }
      (.ok true, { manager with teamTokens := manager.teamTokens ++ [token] })
    | none => (.error "Team Master not found", manager)

/-! ## Members and peers -/

/-- The team that a member is master of: the last one in its list. -/
def memberMasterTeam (start : MultiMap.MasterTeam) : List Json → Except Fault MultiMap.MasterTeam
  | [] => .ok start
  | team :: teams =>
    match team.find "teamID", team.find "teamName" with
    | some teamId, some teamName => do
      let teamId ← asText teamId
      let teamName ← asText teamName
      match text.fromString teamId with
      | none => .error .badOptionalAccess
      | some teamID => memberMasterTeam { teamName, teamID } teams
    | _, _ => memberMasterTeam start teams

/-- `data["team"][0]["jwt"]` -/
def teamJwt (data : Json) : Except Fault String := do
  let team ← subscript data "team" >>= firstItem
  subscript team "jwt" >>= asText

def createMemberInfo (jwt : JwtLibrary) (now : Int) (data : Json) : Except Fault MultiMap.Member := do
  let masterTeam ← memberMasterTeam text {} ((array? data "master").getD [])
  let token ← teamJwt data
  return {
    name := (text? data "name").getD ""
    port := integer? data "port"
    ipv4 := (strings? data "ipv4").getD []
    ipv6 := (strings? data "ipv6").getD []
    masterTeam
    jwt := token
    expiry := checkTokenExpiration jwt token now
    lastUpdated := now.fdiv 1000000000 }

def updateMemberInfo (jwt : JwtLibrary) (now : Int) (existingMember : MultiMap.Member) (data : Json) :
    Except Fault Unit × MultiMap.Member :=
  let updated := { existingMember with
    name := (text? data "name").getD existingMember.name
    port := (integer? data "port").or existingMember.port
    ipv4 := (strings? data "ipv4").getD existingMember.ipv4
    ipv6 := (strings? data "ipv6").getD existingMember.ipv6 }
  match teamJwt data with
  | .error fault => (.error fault, updated)
  | .ok token => (.ok (), { updated with
      jwt := token, expiry := checkTokenExpiration jwt token now, lastUpdated := now.fdiv 1000000000 })

/-- The id of the team of a peer, where it names one; a text that is no id throws. -/
def peerTeamId (data : Json) : Except Fault (Option Uuid) :=
  match text? data "teamID" with
  | none => .ok none
  | some teamId => (text.fromString teamId).elim (.error .badOptionalAccess) fun teamID => .ok (some teamID)

/-- What a peer document says is taken over, and the rest stays. -/
def updatePeerInfo (existingPeer : MultiMap.Peer) (data : Json) : Except Fault Unit × MultiMap.Peer :=
  let updated := { existingPeer with
    name := (text? data "name").getD existingPeer.name
    port := (integer? data "port").or existingPeer.port
    ipv4 := (strings? data "ipv4").getD existingPeer.ipv4
    ipv6 := (strings? data "ipv6").getD existingPeer.ipv6
    teamName := (text? data "teamName").getD existingPeer.teamName }
  match peerTeamId text data with
  | .error fault => (.error fault, updated)
  | .ok teamID => (.ok (), { updated with teamID := teamID.getD existingPeer.teamID })

/-- A new peer starts from an empty record. -/
def createPeerInfo (data : Json) : Except Fault Unit × MultiMap.Peer := updatePeerInfo text {} data

/-- The members that have not been heard of for too long go. -/
def DiscoveryManager.cleanupInactiveMember (manager : DiscoveryManager) (timeoutSeconds now : Int) : DiscoveryManager :=
  { manager with teamMember :=
      manager.teamMember.deleteWhere fun member => now.fdiv 1000000000 - member.2.lastUpdated > timeoutSeconds }

end AbilityFramework.DiscoveryMgr
