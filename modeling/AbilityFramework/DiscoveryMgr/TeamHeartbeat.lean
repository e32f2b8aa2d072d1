import AbilityFramework.DiscoveryMgr.BroadcastPackets
import AbilityFramework.Library.Runs
import Mathlib.Logic.Equiv.List

/-! # Heartbeats of team members

The handler of `POST /api/team-heartbeat`, and the configuration from which a framework takes its teams.  The
handler compares the request with the token of the team that this framework is master of, and does not look
whether it is master of one: without a team that token has the nil id and an empty secret.

`heartbeats_authenticated_iff`: only authenticated heartbeats change the team exactly if the configuration makes
the framework a master. -/

namespace AbilityFramework.DiscoveryMgr

open Library

/-! ## Configuration -/

inductive YamlNode where
  | null
  | scalar (text : String)
  | collection

/-- `as<std::string>()`; nothing stands for a `TypedBadConversion`. -/
def YamlNode.asString : YamlNode → Option String
  | .null => some "null"
  | .scalar text => some text
  | .collection => none

/-- Lower case, upper case, or a capital and lower case. -/
def isFlexibleCase (text : List Char) : Bool :=
  match text with
  | [] => true
  | first :: rest =>
    if first.isLower then rest.all Char.isLower
    else first.isUpper && (rest.all Char.isLower || rest.all Char.isUpper)

/-- `as<bool>()` -/
def YamlNode.asBool : YamlNode → Option Bool
  | .scalar text =>
    let lowered := text.toList.map Char.toLower
    if !isFlexibleCase text.toList then none
    else if lowered ∈ ["y", "yes", "true", "on"].map String.toList then some true
    else if lowered ∈ ["n", "no", "false", "off"].map String.toList then some false
    else none
  | _ => none

/-- An entry of `discovery_mgr/teams`. -/
inductive TeamEntry where
  /-- A subscript of a scalar throws. -/
  | scalar
  /-- Neither a scalar nor a map: it has no members. -/
  | noMap
  | map (teamName teamID secret master : Option YamlNode)

/-- The entries, or nothing where the file cannot be read or has no teams. -/
abbrev TeamConfig := Option (List TeamEntry)

variable (text : UuidText) (jwt : JwtLibrary)

/-- What an entry with the three members makes of the manager; nothing where loading stops.  An entry with a
member that is no text, or an id that is no uuid, is passed over. -/
def loadTeam (manager : DiscoveryManager) (teamName teamID secret : YamlNode) (master : Option YamlNode) :
    Option DiscoveryManager :=
  match teamName.asString, teamID.asString with
  | some teamName, some teamID =>
    match text.fromString teamID, secret.asString with
    | some teamID, some secret =>
      let token : TeamToken := { teamName, teamID, secret }
      let member : DiscoveryManager := { manager with teamTokens := manager.teamTokens ++
        [{ token with jwt := generateJwtToken jwt secret (text.toString manager.frameworkId) }] }
      match master with
      | none => some member
      | some master =>
        match master.asBool with
        | none => none
        | some true => some { manager with master := true, masterToken := token }
        | some false => some member
    | _, _ => some manager
  | _, _ => some manager

def loadTeams (manager : DiscoveryManager) : List TeamEntry → DiscoveryManager
  | [] => manager
  | .scalar :: _ => manager
  | .map (some teamName) (some teamID) (some secret) master :: entries =>
    match loadTeam text jwt manager teamName teamID secret master with
    | none => manager
    | some manager => loadTeams manager entries
  | _ :: entries => loadTeams manager entries

def loadTeamConfig (frameworkId : Uuid) (config : TeamConfig) : DiscoveryManager :=
  loadTeams text jwt { frameworkId } (config.getD [])

/-! ## The handler -/

def refuse (message : String) : Except Escaping Unit := .error (.fault (.invalidArgument message))

def DiscoveryManager.teamHeartbeat (manager : DiscoveryManager) (now : Int) (body : Except ParseFailure Json) :
    Except Escaping Unit × DiscoveryManager :=
  match body with
  | .error .parseError => (refuse "Invalid JSON format", manager)
  | .error .outOfRange406 => (.error .outOfRange406, manager)
  | .ok data =>
    match text? data "id", array? data "team" with
    | none, _ => (refuse "Missing or invalid id field", manager)
    | _, none => (refuse "No team data in the received data", manager)
    | some id, some teams =>
      -- The index fills up an empty array, whose first item is null then.
      let team := teams.head?.getD .null
      match subscript team "teamID" with
      | .error fault => (.error (.fault fault), manager)
      | .ok teamId =>
        -- Whether this framework is master of a team is not asked.
        if teamId ≠ .string (text.toString manager.masterToken.teamID) then (refuse "Team ID mismatch", manager)
        else match subscript team "jwt" >>= asText with
          | .error fault => (.error (.fault fault), manager)
          | .ok token =>
            if !isValidJwtToken jwt token manager.masterToken.secret now || isExpiredJwtToken jwt token now then
              (refuse "Invalid or expired JWT", manager)
            else match manager.teamMember.lookup id with
              | none =>
                match createMemberInfo text jwt now data with
                | .error fault => (.error (.fault fault), manager)
                | .ok memberInfo => (.ok (), { manager with teamMember := manager.teamMember.replaceInto (id, memberInfo) })
              | some (_, existingMember) =>
                let (outcome, memberInfo) := updateMemberInfo jwt now existingMember data
                (outcome.mapError .fault, { manager with teamMember := manager.teamMember.assign id memberInfo })

/-- `POST /api/team/leave`: the tokens of the team go. -/
def DiscoveryManager.leaveTeam (manager : DiscoveryManager) (teamID : Uuid) : DiscoveryManager :=
  { manager with teamTokens := manager.teamTokens.filter fun token => token.teamID ≠ teamID }

inductive ManagerEvent where
  | heartbeat (now : Int) (body : Except ParseFailure Json)
  | packet (packet : Packet)
  | join (teamID : Uuid) (jwt : String)
  | leave (teamID : Uuid)
  | cleanup (timeoutSeconds now : Int)

def managerStep (parse : JsonParser Packet) (manager : DiscoveryManager) : ManagerEvent → DiscoveryManager
  | .heartbeat now body => (manager.teamHeartbeat text jwt now body).2
  | .packet packet => (manager.parseIpv4Broadcast text parse packet).2
  | .join teamID token => (manager.joinTeam teamID token).2
  | .leave teamID => manager.leaveTeam teamID
  | .cleanup timeoutSeconds now => manager.cleanupInactiveMember timeoutSeconds now

/-! ## Authenticated heartbeats -/

/-- The token is signed with the secret and has not expired. -/
def TokenHolds (secret token : String) (now : Int) : Prop :=
  jwt.verifySignature secret token = true ∧ ∃ payload, jwt.decode token = some payload ∧
    ∀ claim, payload.expiresAt = some claim → ∃ expiry, claim = some expiry ∧ now ≤ nanoseconds expiry

/-- The request is for the team that this framework is master of, and shows a token of that team. -/
def Authenticated (manager : DiscoveryManager) (now : Int) (body : Except ParseFailure Json) : Prop :=
  manager.master = true ∧ ∃ data team furtherTeams token, body = .ok data ∧
    array? data "team" = some (team :: furtherTeams) ∧
    team.find "teamID" = some (.string (text.toString manager.masterToken.teamID)) ∧
    team.find "jwt" = some (.string token) ∧ TokenHolds jwt manager.masterToken.secret token now

/-- A heartbeat adds or changes a member record only if it is authenticated. -/
def OnlyAuthenticated (manager : DiscoveryManager) : ManagerEvent → Prop
  | .heartbeat now body =>
    (∃ row ∈ (manager.teamHeartbeat text jwt now body).2.teamMember, row ∉ manager.teamMember) →
      Authenticated text jwt manager now body
  | _ => True

variable {text jwt} {manager : DiscoveryManager} {now : Int} {body : Except ParseFailure Json}

theorem valid_holds {secret token : String} (valid : isValidJwtToken jwt token secret now = true) :
    TokenHolds jwt secret token now := by
  unfold isValidJwtToken at valid
  cases decoded : jwt.decode token with
  | none =>
    rw [decoded] at valid
    cases valid
  | some payload =>
    rw [decoded] at valid
    simp only [Bool.and_eq_true] at valid
    refine ⟨valid.1, payload, decoded, ?_⟩
    intro claim isClaim
    have timely := valid.2
    simp only [JwtPayload.timely, isClaim, Option.all_some, Bool.and_eq_true, Option.any_eq_true, decide_eq_true_eq]
      at timely
    exact timely.1.1

theorem find_of_subscript {json found : Json} {key : String} (read : subscript json key = .ok found) :
    json.find key = some found := by
  cases json with
  | object members =>
    have listed : (members.lookup key).elim (.error .undefined) .ok = (.ok found : Except Fault Json) := read
    show members.lookup key = some found
    cases same : members.lookup key with
    | none =>
      rw [same] at listed
      cases listed
    | some value =>
      rw [same] at listed
      rw [Except.ok.inj listed]
  | null | boolean | integer | float | string | array => cases read

/-- A heartbeat changes member records only, and has passed the checks if it changes any. -/
theorem teamHeartbeat_cases (text : UuidText) (jwt : JwtLibrary) (manager : DiscoveryManager) (now : Int)
    (body : Except ParseFailure Json) :
    (manager.teamHeartbeat text jwt now body).2 = manager ∨
      (∃ teamMember, (manager.teamHeartbeat text jwt now body).2 = { manager with teamMember }) ∧
      ∃ data team furtherTeams token, body = .ok data ∧ array? data "team" = some (team :: furtherTeams) ∧
        team.find "teamID" = some (.string (text.toString manager.masterToken.teamID)) ∧
        team.find "jwt" = some (.string token) ∧ TokenHolds jwt manager.masterToken.secret token now := by
  unfold DiscoveryManager.teamHeartbeat
  cases body with
  | error failure => cases failure <;> exact .inl rfl
  | ok data =>
    cases idFound : text? data "id" with
    | none => exact .inl (by simp only [idFound])
    | some id =>
      cases listed : array? data "team" with
      | none => exact .inl (by simp only [idFound, listed])
      | some teams =>
        simp only [idFound, listed]
        split
        · exact .inl rfl
        · rename_i teamId idRead
          split
          · exact .inl rfl
          · rename_i isTeam
            rw [ne_eq, not_not] at isTeam
            split
            · exact .inl rfl
            · rename_i token tokenRead
              split
              · exact .inl rfl
              · rename_i accepted
                simp only [Bool.or_eq_true, Bool.not_eq_true', not_or, Bool.not_eq_false] at accepted
                -- A team that has an id is there.
                cases teams with
                | nil => cases idRead
                | cons team furtherTeams =>
                  have idMember := find_of_subscript idRead
                  obtain ⟨tokenJson, tokenMember, isToken⟩ := (subscript_ok idMember).mp tokenRead
                  rw [asText_ok.mp isToken] at tokenMember
                  rw [isTeam] at idMember
                  refine .inr ⟨?_, data, team, furtherTeams, token, rfl, listed, idMember, tokenMember,
                    valid_holds accepted.1⟩
                  cases manager.teamMember.lookup id with
                  | none =>
                    cases createMemberInfo text jwt now data with
                    | error fault => exact ⟨manager.teamMember, rfl⟩
                    | ok memberInfo => exact ⟨_, rfl⟩
                  | some existing => exact ⟨_, rfl⟩

theorem receiveBroadcast_master (manager : DiscoveryManager) (data : Json) :
    (manager.receiveBroadcast text data).2.master = manager.master := by
  unfold DiscoveryManager.receiveBroadcast DiscoveryManager.receiveMaster DiscoveryManager.receivePeer
  repeat' split
  all_goals rfl

/-- Nothing makes a framework the master of a team, or takes that away. -/
theorem managerStep_master (parse : JsonParser Packet) (manager : DiscoveryManager) (event : ManagerEvent) :
    (managerStep text jwt parse manager event).master = manager.master := by
  cases event with
  | heartbeat now body =>
    obtain same | ⟨⟨_, same⟩, _⟩ := teamHeartbeat_cases text jwt manager now body
    · rw [managerStep, same]
    · rw [managerStep, same]
  | packet packet =>
    simp only [managerStep, DiscoveryManager.parseIpv4Broadcast]
    split
    · rfl
    · rfl
    · exact receiveBroadcast_master manager _
  | join teamID token =>
    simp only [managerStep, DiscoveryManager.joinTeam]
    repeat' split
    all_goals rfl
  | leave teamID => rfl
  | cleanup timeoutSeconds now => rfl

/-- A master authenticates every heartbeat. -/
theorem master_onlyAuthenticated (isMaster : manager.master = true) (event : ManagerEvent) :
    OnlyAuthenticated text jwt manager event := by
  cases event with
  | heartbeat now body =>
    rintro ⟨row, after, before⟩
    obtain same | ⟨_, checked⟩ := teamHeartbeat_cases text jwt manager now body
    · rw [same] at after
      exact absurd after before
    · exact ⟨isMaster, checked⟩
  | packet | join | leave | cleanup => trivial

/-! ## A framework that is no master -/

/-- A framework that is no master has the empty token for its team, and no framework has members before it
hears of them. -/
structure Unvisited (manager : DiscoveryManager) : Prop where
  noTeam : manager.master = false → manager.masterToken = {}
  noMember : manager.teamMember = ∅

theorem loadTeam_unvisited {teamName teamID secret : YamlNode} {master : Option YamlNode} {loaded : DiscoveryManager}
    (before : Unvisited manager) (isLoaded : loadTeam text jwt manager teamName teamID secret master = some loaded) :
    Unvisited loaded := by
  unfold loadTeam at isLoaded
  repeat' split at isLoaded
  all_goals cases isLoaded
  all_goals first
    | exact ⟨before.noTeam, before.noMember⟩
    -- The entry makes the framework a master.
    | exact ⟨nofun, before.noMember⟩

theorem loadTeams_unvisited (entries : List TeamEntry) (before : Unvisited manager) :
    Unvisited (loadTeams text jwt manager entries) := by
  fun_induction loadTeams text jwt manager entries with
  | case1 => exact before
  | case2 => exact before
  | case3 => exact before
  | case4 manager teamName teamID secret master entries loaded isLoaded inductionHypothesis =>
    exact inductionHypothesis (loadTeam_unvisited before isLoaded)
  | case5 manager entry entries _ _ inductionHypothesis => exact inductionHypothesis before

/-- A heartbeat from nobody's team, with a token. -/
def heartbeatWith (teamID token : String) : Json :=
  .object [("id", .string "stranger"), ("team", .array [.object [("teamID", .string teamID), ("jwt", .string token)]])]

theorem createMemberInfo_heartbeatWith (text : UuidText) (jwt : JwtLibrary) (now : Int) (teamID token : String) :
    ∃ memberInfo, createMemberInfo text jwt now (heartbeatWith teamID token) = .ok memberInfo := ⟨_, rfl⟩

/-- The handler, for such a heartbeat with a valid token, while it has no record of the sender. -/
theorem teamHeartbeat_heartbeatWith (text : UuidText) (jwt : JwtLibrary) (teamID : String) {token : String}
    (isTeam : teamID = text.toString manager.masterToken.teamID)
    (valid : isValidJwtToken jwt token manager.masterToken.secret now = true)
    (unexpired : isExpiredJwtToken jwt token now = false) (unknown : manager.teamMember = ∅) :
    ∃ row ∈ (manager.teamHeartbeat text jwt now (.ok (heartbeatWith teamID token))).2.teamMember,
      row ∉ manager.teamMember := by
  subst isTeam
  obtain ⟨memberInfo, created⟩ := createMemberInfo_heartbeatWith text jwt now
    (text.toString manager.masterToken.teamID) token
  have noRow : manager.teamMember.lookup "stranger" = none := by
    rw [unknown]
    rfl
  refine ⟨("stranger", memberInfo), ?_, unknown ▸ Relation.not_mem_empty _⟩
  have added :
      (manager.teamHeartbeat text jwt now (.ok (heartbeatWith (text.toString manager.masterToken.teamID) token))).2 =
        { manager with teamMember := manager.teamMember.replaceInto ("stranger", memberInfo) } := by
    have team : array? (heartbeatWith (text.toString manager.masterToken.teamID) token) "team" =
        some [.object [("teamID", .string (text.toString manager.masterToken.teamID)), ("jwt", .string token)]] := rfl
    have teamRead : subscript (.object [("teamID", .string (text.toString manager.masterToken.teamID)),
        ("jwt", .string token)]) "teamID" = .ok (.string (text.toString manager.masterToken.teamID)) := rfl
    have tokenRead : (subscript (.object [("teamID", .string (text.toString manager.masterToken.teamID)),
        ("jwt", .string token)]) "jwt" >>= asText) = .ok token := rfl
    have idRead : text? (heartbeatWith (text.toString manager.masterToken.teamID) token) "id" = some "stranger" := rfl
    simp only [DiscoveryManager.teamHeartbeat, idRead, team, List.head?_cons, Option.getD_some, teamRead, ne_eq,
      not_true_eq_false, if_false, tokenRead, valid, unexpired, Bool.not_true, Bool.or_self, Bool.false_eq_true,
      noRow, created]
  rw [added]
  exact Relation.mem_replaceInto.mpr (.inl rfl)

/-- Only authenticated heartbeats change the team, in every run, exactly if the configuration makes the
framework the master of a team. -/
theorem heartbeats_authenticated_iff (text : UuidText) (jwt : JwtLibrary) (lawful : jwt.Lawful)
    (parse : JsonParser Packet) (frameworkId : Uuid) (config : TeamConfig) :
    (∀ events, Runs.EachStep (managerStep text jwt parse) (OnlyAuthenticated text jwt)
      (loadTeamConfig text jwt frameworkId config) events) ↔
        (loadTeamConfig text jwt frameworkId config).master = true := by
  constructor
  · intro authenticated
    by_contra notMaster
    rw [Bool.not_eq_true] at notMaster
    have loaded : Unvisited (loadTeamConfig text jwt frameworkId config) :=
      loadTeams_unvisited (config.getD []) ⟨fun _ => rfl, rfl⟩
    have token := loaded.noTeam notMaster
    -- A stranger signs a token for the nil team with the empty secret.
    have generated := generated_valid lawful "" "stranger" 0
    obtain ⟨stranger, _⟩ := authenticated
      [.heartbeat 0 (.ok (heartbeatWith (text.toString 0) (generateJwtToken jwt "" "stranger")))]
    have accepted := teamHeartbeat_heartbeatWith text jwt (text.toString 0) (by rw [token])
      (by rw [token]; exact generated.1) generated.2 loaded.noMember
    rw [(stranger accepted).1] at notMaster
    cases notMaster
  · intro isMaster events
    -- The flag stays as the configuration has set it, and a master checks every heartbeat.
    have alwaysMaster : Runs.Always (managerStep text jwt parse) (fun manager => manager.master = true)
        (loadTeamConfig text jwt frameworkId config) events := by
      rw [Runs.always_iff_prefixes]
      intro before _ _
      apply Runs.run_invariant (fun manager : DiscoveryManager => manager.master = true) _ _ isMaster
      intro manager event isMaster
      rw [managerStep_master]
      exact isMaster
    exact Runs.eachStep_of_always (fun manager event isMaster => master_onlyAuthenticated isMaster event) _ events
      alwaysMaster

/-! ## Tokens in unary -/

instance encodableString : Encodable String :=
  .ofLeftInverse (fun text => text.toList.map Char.toNat) (fun codes => String.ofList (codes.map Char.ofNat))
    fun text => by simp [Function.comp_def]

instance encodableJwtPayload : Encodable JwtPayload :=
  .ofLeftInverse
    (fun payload => (payload.issuer, payload.expiresAt, payload.issuedAt, payload.notBefore, payload.permanent))
    (fun fields => ⟨fields.1, fields.2.1, fields.2.2.1, fields.2.2.2.1, fields.2.2.2.2⟩) fun _ => rfl

/-- The length of a token is the number of its secret and payload. -/
def unaryJwt : JwtLibrary where
  sign secret payload := String.ofList (List.replicate (Encodable.encode (secret, payload)) '1')
  decode token := (Encodable.decode (α := String × JwtPayload) token.length).map Prod.snd
  verifySignature secret token := (Encodable.decode (α := String × JwtPayload) token.length).map Prod.fst = some secret

theorem unaryJwt_lawful : unaryJwt.Lawful where
  decode_sign secret payload := by simp [unaryJwt]
  accepts_sign secret payload := by simp [unaryJwt]

/-- The text of the nil id, and of the id 7. -/
def teamTexts : UuidText :=
  ⟨fun id => if id = 7 then "00000000-0000-0000-0000-000000000007" else "00000000-0000-0000-0000-000000000000",
    fun written => if written = "00000000-0000-0000-0000-000000000007" then some 7 else none⟩

/-- The configuration of the master of team 7. -/
def masterOfSeven : TeamConfig := some [.map (some (.scalar "red"))
  (some (.scalar "00000000-0000-0000-0000-000000000007")) (some (.scalar "secret")) (some (.scalar "true"))]

/-- The master of team 7 takes authenticated heartbeats only. -/
theorem masterOfSeven_authenticates : (loadTeamConfig teamTexts unaryJwt 1 masterOfSeven).master = true ∧
    ∀ events, Runs.EachStep (managerStep teamTexts unaryJwt fun _ => .error .parseError)
      (OnlyAuthenticated teamTexts unaryJwt) (loadTeamConfig teamTexts unaryJwt 1 masterOfSeven) events := by
  have isTrue : (YamlNode.scalar "true").asBool = some true := by decide
  have isMaster : (loadTeamConfig teamTexts unaryJwt 1 masterOfSeven).master = true := by
    simp [loadTeamConfig, masterOfSeven, loadTeams, loadTeam, YamlNode.asString, teamTexts, isTrue]
  exact ⟨isMaster, (heartbeats_authenticated_iff teamTexts unaryJwt unaryJwt_lawful _ 1 masterOfSeven).mpr isMaster⟩

/-- A framework without teams takes a heartbeat for the nil team with a token that is signed with the empty
secret. -/
theorem teamless_acceptsStranger :
    ¬ Runs.EachStep (managerStep teamTexts unaryJwt fun _ => .error .parseError) (OnlyAuthenticated teamTexts unaryJwt)
      (loadTeamConfig teamTexts unaryJwt 1 none)
      [.heartbeat 0 (.ok (heartbeatWith "00000000-0000-0000-0000-000000000000"
        (generateJwtToken unaryJwt "" "stranger")))] := by
  have fresh : loadTeamConfig teamTexts unaryJwt 1 none = { frameworkId := 1 } := rfl
  rw [fresh]
  intro authenticated
  have generated := generated_valid unaryJwt_lawful "" "stranger" 0
  have accepted := authenticated.1 <|
    teamHeartbeat_heartbeatWith teamTexts unaryJwt "00000000-0000-0000-0000-000000000000" rfl generated.1 generated.2 rfl
  exact Bool.false_ne_true accepted.1

end AbilityFramework.DiscoveryMgr
