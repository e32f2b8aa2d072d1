import AbilityFramework.DiscoveryMgr.TeamRecords

/-! # Packets of the discovery broadcast

`DiscoveryManager::parse_ipv4_broadcast`, which the UDP listener calls with every packet.  It catches parse
errors and no other exception, so what it does not check before it reads ends the listener.

`handledAtomically_iff`: a packet is handled, and a rejected one leaves no trace, exactly if its number texts
are in range and the fields that are read without a check have their types. -/

namespace AbilityFramework.DiscoveryMgr

open Library

/-- The bytes of a packet. -/
abbrev Packet := List UInt8

/-- What `json::parse` throws. -/
inductive ParseFailure where
  | parseError
  /-- A floating-point number that is too large for its type. -/
  | outOfRange406
  deriving DecidableEq

abbrev JsonParser (Text : Type) := Text → Except ParseFailure Json

/-- How a packet is dealt with. -/
inductive PacketVerdict where
  | saved
  /-- One's own packet. -/
  | discarded
  | rejected
  deriving DecidableEq

/-- What leaves `parse_ipv4_broadcast`. -/
inductive Escaping where
  | fault (fault : Fault)
  | outOfRange406

variable (text : UuidText)

namespace DiscoveryManager

/-- The packet of a master, with the first of the teams it names. -/
def receiveMaster (manager : DiscoveryManager) (id : String) (team data : Json) :
    Except Fault PacketVerdict × DiscoveryManager :=
  match team.find "teamID", team.find "teamName" with
  | some teamId, some teamName =>
    match asText teamId, asText teamName with
    | .error fault, _ => (.error fault, manager)
    | _, .error fault => (.error fault, manager)
    | .ok teamId, .ok _ =>
      match text.fromString teamId with
      | none => (.ok .rejected, manager)
      | some _ =>
        match manager.teamMaster.lookup id with
        | none =>
          match createMasterInfo text manager.teamTokens data with
          | .error fault => (.error fault, manager)
          | .ok (masterInfo, teamTokens) =>
            (.ok .saved, { manager with teamMaster := manager.teamMaster.replaceInto (id, masterInfo), teamTokens })
        | some (_, existingMaster) =>
          -- What has been assigned before a fault stays in the record.
          let (outcome, masterInfo, teamTokens) := updateMasterInfo text existingMaster manager.teamTokens data
          (outcome.map fun _ => .saved,
            { manager with teamMaster := RecordsById.assign manager.teamMaster id masterInfo, teamTokens })
  | _, _ => (.ok .rejected, manager)

/-- The packet of another framework, which counts if it is in one of the teams. -/
def receivePeer (manager : DiscoveryManager) (id : String) (data : Json) :
    Except Fault PacketVerdict × DiscoveryManager :=
  match text? data "teamID" with
  | none => (.ok .rejected, manager)
  | some teamId =>
    match text.fromString teamId with
    | none => (.ok .rejected, manager)
    | some teamID =>
      if !manager.teamTokens.any (fun token => token.teamID = teamID) then (.ok .rejected, manager)
      else match manager.peers.lookup id with
      | none =>
        match createPeerInfo text data with
        | (.error fault, _) => (.error fault, manager)
        | (.ok _, peerInfo) => (.ok .saved, { manager with peers := manager.peers.replaceInto (id, peerInfo) })
      | some (_, existingPeer) =>
        let (outcome, peerInfo) := updatePeerInfo text existingPeer data
        (outcome.map fun _ => .saved, { manager with peers := RecordsById.assign manager.peers id peerInfo })

def receiveBroadcast (manager : DiscoveryManager) (data : Json) : Except Fault PacketVerdict × DiscoveryManager :=
  match data.find "id" with
  | none => (.ok .rejected, manager)
  | some id =>
    match asText id with
    | .error fault => (.error fault, manager)
    | .ok id =>
      if id = text.toString manager.frameworkId then (.ok .discarded, manager)
      else match array? data "master" with
      -- The index fills up an empty array, whose first item is null then.
      | some teams => manager.receiveMaster text id (teams.head?.getD .null) data
      | none => manager.receivePeer text id data

def parseIpv4Broadcast (parse : JsonParser Packet) (manager : DiscoveryManager) (packet : Packet) :
    Except Escaping PacketVerdict × DiscoveryManager :=
  match parse packet with
  | .error .parseError => (.ok .rejected, manager)
  | .error .outOfRange406 => (.error .outOfRange406, manager)
  | .ok data =>
    let (outcome, manager) := manager.receiveBroadcast text data
    (outcome.mapError .fault, manager)

end DiscoveryManager

/-! ## What is read without a fault -/

section Reading

variable {text} {data : Json} {key : String}

theorem asText_ok {json : Json} {written : String} : asText json = .ok written ↔ json = .string written := by
  cases json <;> simp [asText, Json.getString, Except.mapError]

/-- The values that convert to an `int`. -/
def IsNumeric : Json → Prop
  | .boolean _ | .integer _ | .float _ => True
  | _ => False

theorem asInt_ok {json : Json} : (∃ value, asInt json = .ok value) ↔ IsNumeric json := by
  cases json <;> simp [asInt, Json.getInt32, Except.mapError, IsNumeric]

/-- A member that is read unchecked has to be there and to have the type. -/
theorem subscript_ok {α : Type} {get : Json → Except Fault α} {value : α} {other : Json} {otherKey : String}
    (isObject : data.find otherKey = some other) :
    subscript data key >>= get = .ok value ↔ ∃ found, data.find key = some found ∧ get found = .ok value := by
  cases data with
  | object members =>
    show ((members.lookup key).elim (.error .undefined) .ok >>= get) = _ ↔ ∃ found, members.lookup key = some found ∧ _
    cases members.lookup key with
    | none => simp [bind, Except.bind]
    | some found => simp [bind, Except.bind]
  | null | boolean | integer | float | string | array => cases isObject

/-- The first team of a master's packet is what the record functions read again. -/
theorem masterTeam_of_find (text : UuidText) {teams : List Json} {teamId teamName : String}
    (listed : array? data "master" = some teams)
    (idFound : (teams.head?.getD .null).find "teamID" = some (.string teamId))
    (nameFound : (teams.head?.getD .null).find "teamName" = some (.string teamName)) :
    masterTeam text data = .ok (text.fromString teamId, teamName) := by
  have isArray : data.find "master" = some (.array teams) := by
    unfold array? at listed
    split at listed
    · rename_i items found
      rw [found, Option.some.inj listed]
    · cases listed
  cases teams with
  | nil => cases idFound
  | cons team teams =>
    have found : (subscript data "master" >>= firstItem) = .ok team :=
      (subscript_ok isArray).mpr ⟨_, isArray, rfl⟩
    have idRead : (subscript team "teamID" >>= asText) = .ok teamId :=
      (subscript_ok idFound).mpr ⟨_, idFound, rfl⟩
    have nameRead : (subscript team "teamName" >>= asText) = .ok teamName :=
      (subscript_ok idFound).mpr ⟨_, nameFound, rfl⟩
    exact except_bind_eq_ok.mpr ⟨team, found,
      except_bind_eq_ok.mpr ⟨teamId, idRead, except_bind_eq_ok.mpr ⟨teamName, nameRead, rfl⟩⟩⟩

/-- The name and the port of a packet that updates a master. -/
def NamesAndPort (data : Json) : Prop :=
  (∃ name, data.find "name" = some (.string name)) ∧ ∃ port, data.find "port" = some port ∧ IsNumeric port

theorem updateMasterInfo_ok (master : MultiMap.Master) (tokens : List TeamToken) {teamID : Uuid} {teamName : String}
    (isObject : data.contains "master" = true) (team : masterTeam text data = .ok (some teamID, teamName)) :
    (updateMasterInfo text master tokens data).1 = .ok () ↔ NamesAndPort data := by
  obtain ⟨other, found⟩ := Option.isSome_iff_exists.mp isObject
  have nameRead (name : String) :
      (subscript data "name" >>= asText) = .ok name ↔ data.find "name" = some (.string name) := by
    rw [subscript_ok found]
    simp only [asText_ok, exists_eq_right]
  have portRead : (∃ port, (subscript data "port" >>= asInt) = .ok port) ↔
      ∃ port, data.find "port" = some port ∧ IsNumeric port := by
    simp only [subscript_ok found, ← asInt_ok]
    exact ⟨fun ⟨value, port, isPort, read⟩ => ⟨port, isPort, value, read⟩,
      fun ⟨port, isPort, value, read⟩ => ⟨value, port, isPort, read⟩⟩
  rw [NamesAndPort, ← portRead]
  simp only [← nameRead, updateMasterInfo, team]
  cases subscript data "name" >>= asText with
  | error fault => simp
  | ok name =>
    cases subscript data "port" >>= asInt with
    | error fault => simp
    | ok port => simp

end Reading

/-! ## Packets that are handled atomically -/

variable {text} {manager : DiscoveryManager} {data : Json} {id : String}

/-- The teams of a master's packet that are read without a fault: the packet of a master that is on record has
a name and a port. -/
def TeamReadable (text : UuidText) (manager : DiscoveryManager) (id : String) (team data : Json) : Prop :=
  ∀ teamId teamName, team.find "teamID" = some teamId → team.find "teamName" = some teamName →
    ∃ teamText nameText, teamId = .string teamText ∧ teamName = .string nameText ∧
      ((text.fromString teamText).isSome → (manager.teamMaster.lookup id).isSome → NamesAndPort data)

/-- The documents that are read without a fault. -/
def Readable (text : UuidText) (manager : DiscoveryManager) (data : Json) : Prop :=
  ∀ idJson, data.find "id" = some idJson → ∃ id, idJson = .string id ∧
    (id ≠ text.toString manager.frameworkId → ∀ teams, array? data "master" = some teams →
      TeamReadable text manager id (teams.head?.getD .null) data)

/-- No exception leaves the handler, and a packet that is not saved changes nothing. -/
structure Atomic {Exception : Type} (manager : DiscoveryManager)
    (handled : Except Exception PacketVerdict × DiscoveryManager) : Prop where
  returns : ∃ verdict, handled.1 = .ok verdict
  unchanged : handled.1 ≠ .ok .saved → handled.2 = manager

theorem Atomic.same {Exception : Type} (verdict : PacketVerdict) :
    Atomic manager ((.ok verdict : Except Exception PacketVerdict), manager) :=
  ⟨⟨verdict, rfl⟩, fun _ => rfl⟩

theorem Atomic.saved {Exception : Type} {handled : Except Exception PacketVerdict × DiscoveryManager}
    (isSaved : handled.1 = .ok .saved) : Atomic manager handled :=
  ⟨⟨.saved, isSaved⟩, fun impossible => absurd isSaved impossible⟩

theorem not_atomic {Exception : Type} {exception : Exception}
    {handled : Except Exception PacketVerdict × DiscoveryManager}
    (escapes : handled.1 = .error exception) : ¬ Atomic manager handled := by
  intro atomic
  obtain ⟨verdict, returns⟩ := atomic.returns
  rw [escapes] at returns
  cases returns

theorem updatePeerInfo_ok (peer : MultiMap.Peer) {teamText : String} (isText : text? data "teamID" = some teamText)
    (isTeam : (text.fromString teamText).isSome) : (updatePeerInfo text peer data).1 = .ok () := by
  obtain ⟨teamID, isTeamID⟩ := Option.isSome_iff_exists.mp isTeam
  have read : peerTeamId text data = .ok (some teamID) := by
    rw [peerTeamId, isText]
    simp only [isTeamID, Option.elim_some]
  simp only [updatePeerInfo, read]

/-- The packet of a peer raises no fault, whatever it holds. -/
theorem receivePeer_atomic (id : String) : Atomic manager (manager.receivePeer text id data) := by
  unfold DiscoveryManager.receivePeer
  cases isText : text? data "teamID" with
  | none => exact .same .rejected
  | some teamText =>
    cases isTeam : text.fromString teamText with
    | none =>
      simp only [isTeam]
      exact .same .rejected
    | some teamID =>
      have read (peer : MultiMap.Peer) := updatePeerInfo_ok peer isText (Option.isSome_of_eq_some isTeam)
      simp only [isTeam]
      split
      · exact .same .rejected
      · cases manager.peers.lookup id with
        | none =>
          apply Atomic.saved
          have created : (createPeerInfo text data).1 = .ok () := read {}
          cases made : createPeerInfo text data with
          | mk outcome peerInfo =>
            rw [made] at created
            simp only at created
            simp only [created]
        | some existing =>
          apply Atomic.saved
          simp only [read existing.2, Except.map]

theorem createMasterInfo_ok {teamID : Uuid} {teamName : String} (tokens : List TeamToken)
    (team : masterTeam text data = .ok (some teamID, teamName)) :
    ∃ created, createMasterInfo text tokens data = .ok created := by
  unfold createMasterInfo
  simp only [team]
  cases strings? data "ipv4" with
  | none => exact ⟨_, rfl⟩
  | some ipv4 => exact ⟨_, rfl⟩

theorem teamReadable_of_missing {team : Json} (missing : team.find "teamID" = none ∨ team.find "teamName" = none) :
    TeamReadable text manager id team data := by
  intro teamId teamName idFound nameFound
  rcases missing with missing | missing
  · rw [missing] at idFound
    cases idFound
  · rw [missing] at nameFound
    cases nameFound

theorem teamReadable_of_find {team teamId teamName : Json} (idFound : team.find "teamID" = some teamId)
    (nameFound : team.find "teamName" = some teamName) :
    TeamReadable text manager id team data ↔
      ∃ teamText, asText teamId = .ok teamText ∧ (∃ nameText, asText teamName = .ok nameText) ∧
        ((text.fromString teamText).isSome → (manager.teamMaster.lookup id).isSome → NamesAndPort data) := by
  simp only [TeamReadable, idFound, nameFound, Option.some.injEq, asText_ok]
  constructor
  · intro readable
    obtain ⟨teamText, nameText, isId, isName, known⟩ := readable teamId teamName rfl rfl
    exact ⟨teamText, isId, ⟨nameText, isName⟩, known⟩
  · rintro ⟨teamText, isId, ⟨nameText, isName⟩, known⟩ _ _ rfl rfl
    exact ⟨teamText, nameText, isId, isName, known⟩

/-- The packet of a master is handled exactly if its team is readable. -/
theorem receiveMaster_atomic {teams : List Json} (listed : array? data "master" = some teams) :
    Atomic manager (manager.receiveMaster text id (teams.head?.getD .null) data) ↔
      TeamReadable text manager id (teams.head?.getD .null) data := by
  have isObject : data.contains "master" = true := by
    unfold array? at listed
    split at listed
    · rename_i items found
      rw [Json.contains, found]
      rfl
    · cases listed
  unfold DiscoveryManager.receiveMaster
  cases idFound : (teams.head?.getD .null).find "teamID" with
  | none => exact iff_of_true (Atomic.same .rejected) (teamReadable_of_missing (.inl idFound))
  | some teamId =>
    cases nameFound : (teams.head?.getD .null).find "teamName" with
    | none => exact iff_of_true (Atomic.same .rejected) (teamReadable_of_missing (.inr nameFound))
    | some teamName =>
      rw [teamReadable_of_find idFound nameFound]
      dsimp only
      cases idRead : asText teamId with
      | error fault => exact iff_of_false (not_atomic rfl) (by simp)
      | ok teamText =>
        cases nameRead : asText teamName with
        | error fault => exact iff_of_false (not_atomic rfl) (by simp)
        | ok nameText =>
          simp only [Except.ok.injEq, exists_eq_left', exists_eq', true_and]
          rw [asText_ok.mp idRead] at idFound
          rw [asText_ok.mp nameRead] at nameFound
          have team := masterTeam_of_find text listed idFound nameFound
          cases isTeam : text.fromString teamText with
          | none => exact iff_of_true (Atomic.same .rejected) nofun
          | some teamID =>
            rw [isTeam] at team
            -- A record that is there is updated, which reads the name and the port without a check.
            cases known : manager.teamMaster.lookup id with
            | none =>
              obtain ⟨created, made⟩ := createMasterInfo_ok manager.teamTokens team
              simp only [made]
              exact iff_of_true (Atomic.saved rfl) (fun _ => nofun)
            | some existing =>
              have updated := updateMasterInfo_ok existing.2 manager.teamTokens isObject team
              simp only [Option.isSome_some, forall_const, ← updated]
              cases outcome : (updateMasterInfo text existing.2 manager.teamTokens data).1 with
              | error fault => exact iff_of_false (not_atomic rfl) (fun same => by cases same)
              | ok value => exact iff_of_true (Atomic.saved rfl) rfl

theorem receiveBroadcast_atomic : Atomic manager (manager.receiveBroadcast text data) ↔ Readable text manager data := by
  unfold DiscoveryManager.receiveBroadcast Readable
  cases idFound : data.find "id" with
  | none => simpa using Atomic.same .rejected
  | some idJson =>
    simp only [Option.some.injEq, forall_eq']
    cases idRead : asText idJson with
    | error fault =>
      refine iff_of_false (not_atomic rfl) ?_
      rintro ⟨id, rfl, _⟩
      cases idRead
    | ok id =>
      obtain rfl := asText_ok.mp idRead
      simp only [Json.string.injEq, exists_eq_left']
      split
      · rename_i isOwn
        exact iff_of_true (Atomic.same .discarded) fun isOther => absurd isOwn isOther
      · rename_i isOther
        cases listed : array? data "master" with
        | none => simpa using receivePeer_atomic id
        | some teams => simpa [isOther] using receiveMaster_atomic listed

/-- The exceptions of the handler leave it under another name. -/
theorem atomic_mapError {handled : Except Fault PacketVerdict × DiscoveryManager} :
    Atomic manager (handled.1.mapError Escaping.fault, handled.2) ↔ Atomic manager handled := by
  obtain ⟨outcome, after⟩ := handled
  cases outcome with
  | error fault => exact iff_of_false (not_atomic rfl) (not_atomic rfl)
  | ok verdict =>
    refine ⟨fun atomic => ⟨⟨verdict, rfl⟩, fun unsaved => atomic.unchanged ?_⟩,
      fun atomic => ⟨⟨verdict, rfl⟩, fun unsaved => atomic.unchanged ?_⟩⟩
    · exact fun saved => unsaved (congrArg Except.ok (Except.ok.inj saved))
    · exact fun saved => unsaved (congrArg Except.ok (Except.ok.inj saved))

/-- Every packet is handled, and a rejected one leaves no trace, exactly if its numbers are in range and what is
read unchecked has its type. -/
theorem handledAtomically_iff (text : UuidText) (parse : JsonParser Packet) (manager : DiscoveryManager)
    (packet : Packet) :
    Atomic manager (manager.parseIpv4Broadcast text parse packet) ↔
      parse packet ≠ .error .outOfRange406 ∧ ∀ data, parse packet = .ok data → Readable text manager data := by
  unfold DiscoveryManager.parseIpv4Broadcast
  cases parse packet with
  | error failure =>
    cases failure with
    | parseError => simpa using Atomic.same .rejected
    | outOfRange406 => simpa using not_atomic rfl
  | ok data =>
    rw [atomic_mapError, receiveBroadcast_atomic]
    simp

/-- The bytes of an object whose one member, `id`, is the number 5. -/
def numberForId : Packet := [0x7b, 0x22, 0x69, 0x64, 0x22, 0x3a, 0x35, 0x7d]

/-- What the parser makes of these bytes. -/
def parseNumberForId : JsonParser Packet := fun packet =>
  if packet = numberForId then .ok (.object [("id", .integer 5)]) else .error .parseError

/-- The packet is JSON and has an id, and reading that id as a text throws out of the listener. -/
theorem numberForId_escapes :
    ¬ Atomic { frameworkId := 1 }
      (DiscoveryManager.parseIpv4Broadcast ⟨fun _ => "", fun _ => none⟩ parseNumberForId { frameworkId := 1 } numberForId) := by
  have typeError : (DiscoveryManager.parseIpv4Broadcast ⟨fun _ => "", fun _ => none⟩ parseNumberForId { frameworkId := 1 }
      numberForId).1 = .error (.fault (.json (.typeError302 "string" "number"))) := rfl
  exact not_atomic typeError

end AbilityFramework.DiscoveryMgr
