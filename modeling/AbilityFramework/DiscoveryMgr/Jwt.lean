import Mathlib.Init

/-! # Tokens of team members

`jwt.cpp`, over the JWT library.  Times are nanoseconds since the epoch; the time claims of a token are whole
seconds. -/

namespace AbilityFramework.DiscoveryMgr

def nanoseconds (seconds : Int) : Int := seconds * 1000000000

/-- What a time claim says, unless it is of another type, so that reading it throws. -/
abbrev TimeClaim := Option Int

/-- The payload of a token, as far as it is read. -/
structure JwtPayload where
  issuer : Option String := none
  expiresAt : Option TimeClaim := none
  issuedAt : Option TimeClaim := none
  notBefore : Option TimeClaim := none
  /-- The claim `Permanent`, if any, and its text if it is a string. -/
  permanent : Option (Option String) := none

/-- `decode` gives nothing where the library throws. -/
structure JwtLibrary where
  sign : (secret : String) → JwtPayload → String
  decode : (token : String) → Option JwtPayload
  verifySignature : (secret token : String) → Bool

/-- A token that was signed with a secret is accepted under it, and decodes to what was signed. -/
structure JwtLibrary.Lawful (jwt : JwtLibrary) : Prop where
  decode_sign : ∀ secret payload, jwt.decode (jwt.sign secret payload) = some payload
  accepts_sign : ∀ secret payload, jwt.verifySignature secret (jwt.sign secret payload) = true

/-- The time claims that `verify` checks, each if it is there; it throws on one of another type. -/
def JwtPayload.timely (payload : JwtPayload) (now : Int) : Bool :=
  payload.expiresAt.all (fun claim => claim.any fun expiry => now ≤ nanoseconds expiry) &&
    payload.issuedAt.all (fun claim => claim.any fun issued => nanoseconds issued ≤ now) &&
    payload.notBefore.all (fun claim => claim.any fun start => nanoseconds start ≤ now)

variable (jwt : JwtLibrary)

def generateJwtToken (secret hostId : String) : String :=
  jwt.sign secret { issuer := some hostId, permanent := some (some "true") }

def isValidJwtToken (token secret : String) (now : Int) : Bool :=
  match jwt.decode token with
  | none => false
  | some payload => jwt.verifySignature secret token && payload.timely now

/-- A token that cannot be decoded or has no expiry that can be read counts as not expired. -/
def isExpiredJwtToken (token : String) (now : Int) : Bool :=
  match jwt.decode token with
  | none => false
  | some payload =>
    match payload.expiresAt with
    | none | some none => false
    | some (some expiry) => nanoseconds expiry < now

/-- The seconds that a token has left, -1 for a permanent one and 0 for an expired one and after an error. -/
def checkTokenExpiration (token : String) (now : Int) : Int :=
  match jwt.decode token with
  | none => 0
  | some payload =>
    match payload.permanent with
    -- A claim that is no string throws when it is read as one.
    | some none => 0
    | some (some "true") => -1
    | _ =>
      match payload.expiresAt with
      | none | some none => 0
      | some (some expiry) => (max 0 ((nanoseconds expiry - now).tdiv 1000000000)).bmod 4294967296

variable {jwt}

/-- A token that a framework makes for itself is valid under the secret it was made with, at any time. -/
theorem generated_valid (lawful : jwt.Lawful) (secret hostId : String) (now : Int) :
    isValidJwtToken jwt (generateJwtToken jwt secret hostId) secret now = true ∧
      isExpiredJwtToken jwt (generateJwtToken jwt secret hostId) now = false := by
  have decoded := lawful.decode_sign secret { issuer := some hostId, permanent := some (some "true") }
  have accepted := lawful.accepts_sign secret { issuer := some hostId, permanent := some (some "true") }
  simp [isValidJwtToken, isExpiredJwtToken, generateJwtToken, decoded, accepted, JwtPayload.timely]

end AbilityFramework.DiscoveryMgr
