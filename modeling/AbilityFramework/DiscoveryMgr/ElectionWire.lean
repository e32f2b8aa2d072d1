import AbilityFramework.DiscoveryMgr.Bully

/-! # Election messages on the wire

`election_mgr.cpp` and the handler of `POST /api/team/election-msg`.  A message goes out as the body of
`HttpOverIpv4::send` and the reply comes back as the body of the response; both are read by `from_json`.
A body that is JSON is given by its value, as dumping and parsing are inverse to each other.

The request is built by brace initialisation and is an array with the message as its one element, which
`from_json` rejects, so no message arrives (`request_rejected`).  The reply is the message itself, but
`to_json` writes the address under a name that `from_json` does not read. -/

namespace AbilityFramework.DiscoveryMgr

open Library

/-- The text form of ids. -/
structure UuidText where
  toString : Uuid → String
  fromString : String → Option Uuid

inductive WireError where
  | json (error : Json.Error)
  /-- json is not valid uuid string, or not a valid uuid -/
  | invalidUuid
  deriving DecidableEq

variable (text : UuidText)

/-! ## Conversions -/

def getUuid (json : Json) : Except WireError Uuid :=
  match json with
  | .string written => (text.fromString written).elim (.error .invalidUuid) .ok
  | _ => .error .invalidUuid

/-- `read_required` -/
def readRequired {α : Type} (json : Json) (name : String) (get : Json → Except WireError α) :
    Except WireError α :=
  match json.getAt name with
  | .error error => .error (.json error)
  | .ok found => get found

/-- `read_optional`; a member that is empty counts as missing. -/
def readOptional {α : Type} (json : Json) (name : String) (get : Json → Except WireError α) (default : α) :
    Except WireError α :=
  match json.find name with
  | none => .ok default
  | some found => if found.isEmpty then .ok default else get found

def getText (json : Json) : Except WireError String := json.getString.mapError .json

def ElectionMsg.fromJson (json : Json) : Except WireError ElectionMsg := do
  let sourceId ← readRequired json "sourceId" (getUuid text)
  let sourceAddr ← readOptional json "sourceAddr" getText ""
  let type ← readRequired json "type" getText
  let detail ← readOptional json "detail" .ok .null
  return { sourceId, sourceAddr, type, detail }

/-- The members stand in the order of their names. -/
def ElectionMsg.toJson (msg : ElectionMsg) : Json :=
  .object ((if msg.detail.isEmpty then [] else [("detail", msg.detail)]) ++
    [("sourceId", .string (text.toString msg.sourceId))] ++
    (if msg.sourceAddr = "" then [] else [("sourceIddr", .string msg.sourceAddr)]) ++
    [("type", .string msg.type)])

/-! ## Requests and replies -/

inductive Body where
  | empty
  | json (value : Json)
  /-- Text that is not JSON. -/
  | other

structure HttpReply where
  status : Nat
  body : Body

/-- The payload that `HttpOverIpv4::send` posts. -/
def requestBody (msg : ElectionMsg) : Json := .ofInitializerList [msg.toJson text]

/-- What `HttpOverIpv4::send` makes of the response, if there is one. -/
def readReply : Option HttpReply → ElectionMsgRes
  | none => .timeout
  | some reply =>
    if reply.status ≠ 200 then .timeout
    else match reply.body with
    | .empty => .empty
    | .other => .timeout
    | .json value =>
      match ElectionMsg.fromJson text value with
      | .ok msg => .msg msg
      | .error _ => .timeout

/-- The exceptions of the handler. -/
inductive HandlerError where
  /-- election mgr is not initialized -/
  | notInitialized
  | parse
  | wire (error : WireError)
  | message (error : Json.Error)
  /-- election mgr didn't return valid reply -/
  | invalidReply
  | reply (message : String)

/-- The step of the handler that parses the body. -/
def readElectionMsg : Body → Except HandlerError ElectionMsg
  | .empty | .other => .error .parse
  | .json value => (ElectionMsg.fromJson text value).mapError .wire

/-- The response body for what `on_election_message` returns. -/
def replyBody : ElectionMsgRes → Except HandlerError Body
  | .empty => .ok .empty
  | .msg msg => .ok (.json (msg.toJson text))
  | .error message => .error (.reply message)
  | .timeout => .error .invalidReply

/-! ## Round trips -/

structure WireRoundTrip (msg : ElectionMsg) : Prop where
  request : readElectionMsg text (.json (requestBody text msg)) = .ok msg
  reply : (replyBody text (.msg msg)).map (fun body => readReply text (some ⟨200, body⟩)) = .ok (.msg msg)

/-- Brace initialisation makes an array of the message. -/
theorem requestBody_eq (msg : ElectionMsg) : requestBody text msg = .array [msg.toJson text] := by
  rfl

theorem request_rejected (msg : ElectionMsg) :
    readElectionMsg text (.json (requestBody text msg)) = .error (.wire (.json (.typeError304 "array"))) := by
  rw [requestBody_eq]
  rfl

/-- No message makes the round trip, since no request is accepted. -/
theorem no_wireRoundTrip (msg : ElectionMsg) : ¬ WireRoundTrip text msg := by
  intro roundTrip
  have accepted := roundTrip.request
  rw [request_rejected] at accepted
  cases accepted

/-- The ping of node 1, with its id in the usual form. -/
theorem ping_rejected :
    ¬ WireRoundTrip ⟨fun _ => "00000000-0000-0000-0000-000000000001", fun _ => some 1⟩
      { sourceId := 1, type := "bully.ping", detail := .object [("weight", .integer 5)] } := by
  intro roundTrip
  cases roundTrip.request

end AbilityFramework.DiscoveryMgr
