import AbilityFramework.DiscoveryMgr.MdnsMake

/-! # The answers of the mDNS service

`mdns_query_answer` and `mdns_discovery_answer` write an answer piece by piece into the send buffer.  What is still free
is asked for before most pieces, but behind the check for the ten bytes in front of an SRV record sixteen are written,
and the reference behind a host name is written even where `mdns_string_make` had no room and gave a null pointer.

`queryAnswer_overrun_iff`: for which lengths a byte outside the buffer is written. -/

namespace AbilityFramework.DiscoveryMgr.Mdns

/-- Why no answer is sent. -/
inductive Refusal where
  /-- The result is -1. -/
  | failed
  /-- A byte outside the send buffer is written. -/
  | overrun
  deriving DecidableEq

/-- `htons`, of what fits into 16 bits. -/
def be16 (value : Nat) : List UInt8 := [UInt8.ofNat (value / 256), UInt8.ofNat value]

def be32 (value : Nat) : List UInt8 := be16 (value / 65536) ++ be16 value

def refBytes (target : Nat) : List UInt8 := be16 (0xC000 ||| target % 65536)

def stringMakeRef (capacity target : Nat) : Option (List UInt8) := if capacity < 2 then none else some (refBytes target)

/-- The reference takes the place of the zero byte. -/
def stringMakeWithRef (capacity : Nat) (name : List UInt8) (target : Nat) : Except Refusal (List UInt8) :=
  match stringMake capacity name with
  -- The place in front of the null pointer is written.
  | none => throw .overrun
  | some written => if written.length = capacity then throw .failed else pure (written.dropLast ++ refBytes target)

structure ServiceRecord where
  service : List UInt8
  hostname : List UInt8
  /-- The bytes of the address as they are in memory; zero is none. -/
  addressIpv4 : List UInt8
  addressIpv6 : Option (List UInt8)
  port : UInt16
  isIpv4 : addressIpv4.length = 4
  isIpv6 : ∀ address ∈ addressIpv6, address.length = 16

namespace ServiceRecord

variable (record : ServiceRecord)

def useIpv4 : Bool := record.addressIpv4 ≠ [0, 0, 0, 0]

def useIpv6 : Bool := record.addressIpv6.isSome

end ServiceRecord

def useTxt (txt : List UInt8) : Bool := txt ≠ [] && txt.length ≤ 255

/-! ## The pieces of an answer -/

/-- Class IN, with the bit for a unicast answer. -/
def answerClass (unicast : Bool) : Nat := if unicast then 0x8001 else 1

def answerTtl (unicast : Bool) : Nat := if unicast then 10 else 60

/-- Type, class and time to live of a record, and the length of what comes behind. -/
def recordHead (unicast : Bool) (rtype length : Nat) : List UInt8 :=
  be16 rtype ++ be16 (answerClass unicast) ++ be32 (answerTtl unicast) ++ be16 length

def answerHeader (unicast : Bool) (queryId : UInt16) (additional : Nat) : List UInt8 :=
  be16 (if unicast then queryId.toNat else 0) ++ be16 0x8400 ++ be16 (if unicast then 1 else 0) ++ be16 1 ++ be16 0 ++
    be16 additional

/-- The header and the name of the first record, with the place of the last seven bytes of the service name. -/
def answerStart (capacity : Nat) (unicast : Bool) (header service : List UInt8) : Except Refusal (List UInt8 × Nat) :=
  match stringMake (capacity - 12) service with
  | none => throw .failed
  | some name =>
    let draft := header ++ name
    let localOffset := 12 + name.length - 7
    if unicast then
      if capacity - draft.length ≤ 4 then throw .failed
      else
        let draft := draft ++ be16 12 ++ be16 (answerClass unicast)
        match stringMakeRef (capacity - draft.length) 12 with
        | none => throw .failed
        | some ref => pure (draft ++ ref, localOffset)
    else pure (draft, localOffset)

/-- The PTR record behind its name, with the place of its data. -/
def answerPtr (capacity : Nat) (unicast : Bool) (hostname draft : List UInt8) : Except Refusal (List UInt8 × Nat) :=
  if capacity - draft.length ≤ 10 then throw .failed
  else do
    let fullOffset := draft.length + 10
    let host ← stringMakeWithRef (capacity - fullOffset) hostname 12
    pure (draft ++ recordHead unicast 12 host.length ++ host, fullOffset)

/-- The SRV record, with the place of the name of the host. -/
def answerSrv (capacity : Nat) (unicast : Bool) (record : ServiceRecord) (fullOffset localOffset : Nat)
    (draft : List UInt8) : Except Refusal (List UInt8 × Nat) :=
  if capacity - draft.length ≤ 10 then throw .failed
  else match stringMakeRef (capacity - draft.length) fullOffset with
    | none => throw .failed
    | some ref =>
      if capacity - (draft ++ ref).length ≤ 10 then throw .failed
      -- Priority, weight and port were not asked for.
      else if capacity < (draft ++ ref).length + 16 then throw .overrun
      else do
        let hostOffset := (draft ++ ref).length + 16
        let host ← stringMakeWithRef (capacity - hostOffset) record.hostname localOffset
        let draft := draft ++ ref ++ recordHead unicast 33 (6 + host.length) ++ (be16 0 ++ be16 0 ++ be16 record.port.toNat) ++ host
        if capacity - draft.length ≤ 10 then throw .failed else pure (draft, hostOffset)

/-- A record whose name is a reference, if it is wanted. -/
def answerRecord (capacity : Nat) (unicast wanted : Bool) (rtype target : Nat) (content draft : List UInt8) :
    Except Refusal (List UInt8) :=
  if wanted then
    match stringMakeRef (capacity - draft.length) target with
    | none => throw .failed
    | some ref =>
      if capacity - (draft ++ ref).length ≤ 10 + content.length then throw .failed
      else pure (draft ++ ref ++ recordHead unicast rtype content.length ++ content)
  else pure draft

def queryAnswer (capacity : Nat) (unicast : Bool) (queryId : UInt16) (record : ServiceRecord) (txt : List UInt8) :
    Except Refusal (List UInt8) :=
  if capacity < 12 + 32 + record.service.length + record.hostname.length then throw .failed
  else do
    let additional := 1 + record.useIpv4.toNat + record.useIpv6.toNat + (useTxt txt).toNat
    let (draft, localOffset) ← answerStart capacity unicast (answerHeader unicast queryId additional) record.service
    let (draft, fullOffset) ← answerPtr capacity unicast record.hostname draft
    let (draft, hostOffset) ← answerSrv capacity unicast record fullOffset localOffset draft
    let draft ← answerRecord capacity unicast record.useIpv4 1 hostOffset record.addressIpv4 draft
    let draft ← answerRecord capacity unicast record.useIpv6 28 hostOffset (record.addressIpv6.getD []) draft
    answerRecord capacity unicast (useTxt txt) 16 fullOffset (UInt8.ofNat txt.length :: txt) draft

/-- `mdns_services_query`: a question for `_services._dns-sd._udp.local.`, of type PTR. -/
def servicesQuery : List UInt8 :=
  [0, 0, 0, 0, 0, 1, 0, 0, 0, 0, 0, 0,
    9, 95, 115, 101, 114, 118, 105, 99, 101, 115, 7, 95, 100, 110, 115, 45, 115, 100, 4, 95, 117, 100, 112,
    5, 108, 111, 99, 97, 108, 0, 0, 12, 0x80, 1]

def discoveryAnswer (capacity : Nat) (service : List UInt8) : Except Refusal (List UInt8) :=
  if capacity < servicesQuery.length + 32 + service.length then throw .failed
  -- Two bytes less are taken off than were written.
  else match stringMake (capacity - (servicesQuery.length + 10)) service with
    | none => throw .overrun
    | some name =>
      let draft := be16 0 ++ be16 0x8400 ++ be16 1 ++ be16 1 ++ servicesQuery.drop 8 ++ refBytes 12 ++ be16 12 ++ be16 1 ++
        be32 10 ++ be16 name.length ++ name ++ [0]
      if capacity < draft.length then throw .overrun else pure draft

/-! ## Lengths -/

section Lengths

@[simp] theorem length_be16 (value : Nat) : (be16 value).length = 2 := rfl

@[simp] theorem length_be32 (value : Nat) : (be32 value).length = 4 := rfl

@[simp] theorem length_refBytes (target : Nat) : (refBytes target).length = 2 := rfl

@[simp] theorem length_recordHead (unicast : Bool) (rtype length : Nat) : (recordHead unicast rtype length).length = 10 := rfl

@[simp] theorem length_answerHeader (unicast : Bool) (queryId : UInt16) (additional : Nat) :
    (answerHeader unicast queryId additional).length = 12 := rfl

/-- The bytes of a name that goes on with a reference. -/
def refName (name : List UInt8) (target : Nat) : List UInt8 := labelsBytes (nameLabels name) ++ refBytes target

/-- The bytes of a whole name. -/
def wholeName (name : List UInt8) : List UInt8 := labelsBytes (nameLabels name) ++ [0]

@[simp] theorem length_wholeName (name : List UInt8) : (wholeName name).length = encodedLength name := by
  rw [wholeName, List.length_append, length_labelsBytes, dotted_nameLabels]
  rfl

@[simp] theorem length_refName (name : List UInt8) (target : Nat) : (refName name target).length = encodedLength name + 1 := by
  rw [refName, List.length_append, length_labelsBytes, dotted_nameLabels]
  rfl

theorem encodedLength_le (name : List UInt8) : 1 ≤ encodedLength name ∧ encodedLength name ≤ name.length + 2 := by
  rw [encodedLength, withDot]
  split
  · omega
  · rw [List.length_append, List.length_singleton]
    omega

variable {capacity : Nat} {name : List UInt8}

theorem stringMake_fits (fits : encodedLength name ≤ capacity) : stringMake capacity name = some (wholeName name) :=
  stringMake_eq_some_iff.mpr ⟨fits, rfl⟩

theorem stringMake_short (short : capacity < encodedLength name) : stringMake capacity name = none := by
  cases made : stringMake capacity name with
  | none => rfl
  | some written => exact absurd (stringMake_eq_some_iff.mp made).1 (by omega)

theorem stringMakeWithRef_eq (capacity : Nat) (name : List UInt8) (target : Nat) : stringMakeWithRef capacity name target =
    if capacity < encodedLength name then throw .overrun
    else if encodedLength name = capacity then throw .failed
    else pure (refName name target) := by
  by_cases short : capacity < encodedLength name
  · rw [stringMakeWithRef, stringMake_short short, if_pos short]
  · rw [stringMakeWithRef, stringMake_fits (Nat.not_lt.mp short), if_neg short]
    simp only [length_wholeName]
    rw [wholeName, List.dropLast_concat, refName]

end Lengths

/-! ## The stages -/

section Stages

variable {capacity : Nat} {unicast : Bool}

/-- The answer in front of the data of the PTR record. -/
def answerFront (unicast : Bool) (header service : List UInt8) : List UInt8 :=
  header ++ wholeName service ++ if unicast then be16 12 ++ be16 (answerClass unicast) ++ refBytes 12 else []

theorem length_answerFront {header : List UInt8} (isHeader : header.length = 12) (service : List UInt8) :
    (answerFront unicast header service).length = (if unicast then 18 else 12) + encodedLength service := by
  cases unicast with
  | false => simp [answerFront, isHeader]
  | true => simp [answerFront, isHeader]; omega

theorem stringMakeRef_of_le {room : Nat} (two : 2 ≤ room) (target : Nat) : stringMakeRef room target = some (refBytes target) :=
  if_neg (Nat.not_lt.mpr two)

theorem answerStart_eq {header service : List UInt8} (isHeader : header.length = 12)
    (room : 18 + encodedLength service ≤ capacity) :
    answerStart capacity unicast header service = .ok (answerFront unicast header service, 5 + encodedLength service) := by
  have place : 12 + encodedLength service - 7 = 5 + encodedLength service := by omega
  have fits : encodedLength service ≤ capacity - 12 := by omega
  rw [answerStart, stringMake_fits fits]
  cases unicast with
  | false => simp [answerFront, place, pure, Except.pure]
  | true =>
    have enough : ¬ capacity - (12 + encodedLength service) ≤ 4 := by omega
    have two : 2 ≤ capacity - (12 + (encodedLength service + 4)) := by omega
    simp [answerFront, place, isHeader, enough, stringMakeRef_of_le two, pure, Except.pure]

theorem answerPtr_eq {hostname draft : List UInt8} (room : draft.length + 10 + encodedLength hostname < capacity) :
    answerPtr capacity unicast hostname draft = .ok
      (draft ++ recordHead unicast 12 (encodedLength hostname + 1) ++ refName hostname 12, draft.length + 10) := by
  have enough : ¬ capacity - draft.length ≤ 10 := by
    have := (encodedLength_le hostname).1
    omega
  rw [answerPtr, if_neg enough]
  simp only [stringMakeWithRef_eq]
  rw [if_neg (by omega), if_neg (by omega)]
  simp [pure, Except.pure, bind, Except.bind]

/-- The SRV record of an answer, behind the draft. -/
def srvRecord (unicast : Bool) (record : ServiceRecord) (fullOffset localOffset : Nat) : List UInt8 :=
  refBytes fullOffset ++ recordHead unicast 33 (7 + encodedLength record.hostname) ++
    (be16 0 ++ be16 0 ++ be16 record.port.toNat) ++ refName record.hostname localOffset

theorem length_srvRecord (record : ServiceRecord) (fullOffset localOffset : Nat) :
    (srvRecord unicast record fullOffset localOffset).length = 19 + encodedLength record.hostname := by
  simp [srvRecord]
  omega

theorem answerSrv_eq (record : ServiceRecord) (fullOffset localOffset : Nat) (draft : List UInt8) :
    answerSrv capacity unicast record fullOffset localOffset draft =
      if capacity ≤ draft.length + 12 then .error .failed
      else if capacity < draft.length + 18 + encodedLength record.hostname then .error .overrun
      else if capacity ≤ draft.length + 29 + encodedLength record.hostname then .error .failed
      else .ok (draft ++ srvRecord unicast record fullOffset localOffset, draft.length + 18) := by
  have some := (encodedLength_le record.hostname).1
  rw [answerSrv]
  by_cases noRoom : capacity ≤ draft.length + 12
  · rw [if_pos noRoom]
    split
    · rfl
    · rw [stringMakeRef_of_le (by omega)]
      have noMore : capacity - (draft ++ refBytes fullOffset).length ≤ 10 := by
        rw [List.length_append, length_refBytes]
        omega
      exact if_pos noMore
  · rw [if_neg noRoom, if_neg (by omega), stringMakeRef_of_le (by omega)]
    simp only [List.length_append, length_refBytes]
    rw [if_neg (by omega)]
    by_cases noPort : capacity < draft.length + 2 + 16
    · rw [if_pos noPort, if_pos (by omega)]
      rfl
    · rw [if_neg noPort, stringMakeWithRef_eq]
      by_cases noName : capacity < draft.length + 18 + encodedLength record.hostname
      · rw [if_pos (by omega), if_pos noName]
        rfl
      · rw [if_neg (by omega), if_neg noName]
        by_cases full : encodedLength record.hostname = capacity - (draft.length + 2 + 16)
        · rw [if_pos full, if_pos (by omega)]
          rfl
        · rw [if_neg full]
          simp only [bind, Except.bind, pure, Except.pure, throw, throwThe, MonadExceptOf.throw, length_refName,
            length_recordHead, length_be16]
          by_cases last : capacity ≤ draft.length + 29 + encodedLength record.hostname
          · rw [if_pos (by omega), if_pos last]
          · rw [if_neg (by omega), if_neg last]
            have behind : 6 + (encodedLength record.hostname + 1) = 7 + encodedLength record.hostname := by omega
            simp [srvRecord, behind, Nat.add_assoc]

theorem answerRecord_ne_overrun (wanted : Bool) (rtype target : Nat) (content draft : List UInt8) :
    answerRecord capacity unicast wanted rtype target content draft ≠ .error .overrun := by
  intro overrun
  rw [answerRecord] at overrun
  split at overrun
  · split at overrun
    · cases overrun
    · split at overrun <;> cases overrun
  · cases overrun

end Stages

/-! ## Which answers write outside the buffer -/

section Overrun

variable {capacity : Nat} {unicast : Bool} {record : ServiceRecord}

/-- The additional records behind the SRV record. -/
def answerRest (capacity : Nat) (unicast : Bool) (record : ServiceRecord) (txt : List UInt8) (fullOffset hostOffset : Nat)
    (draft : List UInt8) : Except Refusal (List UInt8) := do
  let draft ← answerRecord capacity unicast record.useIpv4 1 hostOffset record.addressIpv4 draft
  let draft ← answerRecord capacity unicast record.useIpv6 28 hostOffset (record.addressIpv6.getD []) draft
  answerRecord capacity unicast (useTxt txt) 16 fullOffset (UInt8.ofNat txt.length :: txt) draft

theorem answerRest_ne_overrun (txt : List UInt8) (fullOffset hostOffset : Nat) (draft : List UInt8) :
    answerRest capacity unicast record txt fullOffset hostOffset draft ≠ .error .overrun := by
  intro overrun
  rw [answerRest] at overrun
  cases first : answerRecord capacity unicast record.useIpv4 1 hostOffset record.addressIpv4 draft with
  | error refusal =>
    rw [first] at overrun
    cases overrun
    exact answerRecord_ne_overrun _ _ _ _ _ first
  | ok one =>
    rw [first] at overrun
    cases second : answerRecord capacity unicast record.useIpv6 28 hostOffset (record.addressIpv6.getD []) one with
    | error refusal =>
      simp only [bind, Except.bind, second] at overrun
      cases overrun
      exact answerRecord_ne_overrun _ _ _ _ _ second
    | ok two =>
      simp only [bind, Except.bind, second] at overrun
      exact answerRecord_ne_overrun _ _ _ _ _ overrun

/-- The answer up to its SRV record. -/
def answerDraft (unicast : Bool) (queryId : UInt16) (record : ServiceRecord) (txt : List UInt8) : List UInt8 :=
  answerFront unicast (answerHeader unicast queryId
      (1 + record.useIpv4.toNat + record.useIpv6.toNat + (useTxt txt).toNat)) record.service ++
    recordHead unicast 12 (encodedLength record.hostname + 1) ++ refName record.hostname 12

/-- What an answer takes up to the name of the SRV record, apart from names. -/
def fixedLength (unicast : Bool) : Nat := if unicast then 31 else 25

theorem length_answerDraft (queryId : UInt16) (txt : List UInt8) : (answerDraft unicast queryId record txt).length + 2 =
    fixedLength unicast + encodedLength record.service + encodedLength record.hostname := by
  rw [answerDraft, List.length_append, List.length_append, length_answerFront (length_answerHeader _ _ _),
    length_recordHead, length_refName, fixedLength]
  split <;> omega

/-- The place of the data of the PTR record. -/
def fullOffsetOf (unicast : Bool) (record : ServiceRecord) : Nat :=
  (if unicast then 28 else 22) + encodedLength record.service

theorem queryAnswer_eq (queryId : UInt16) (txt : List UInt8) : queryAnswer capacity unicast queryId record txt =
    if capacity < 44 + record.service.length + record.hostname.length then .error .failed
    else (answerSrv capacity unicast record (fullOffsetOf unicast record) (5 + encodedLength record.service)
      (answerDraft unicast queryId record txt)).bind fun done =>
        answerRest capacity unicast record txt (fullOffsetOf unicast record) done.2 done.1 := by
  rw [queryAnswer]
  by_cases small : capacity < 44 + record.service.length + record.hostname.length
  · rw [if_pos small, if_pos small]
    rfl
  · rw [if_neg small, if_neg small]
    have ofService := encodedLength_le record.service
    have ofHostname := encodedLength_le record.hostname
    simp only [bind, Except.bind]
    rw [answerStart_eq (length_answerHeader _ _ _) (by omega)]
    dsimp only
    have front : (answerFront unicast (answerHeader unicast queryId
        (1 + record.useIpv4.toNat + record.useIpv6.toNat + (useTxt txt).toNat)) record.service).length =
        (if unicast then 18 else 12) + encodedLength record.service := length_answerFront (length_answerHeader _ _ _) _
    have isPlace : (answerFront unicast (answerHeader unicast queryId
        (1 + record.useIpv4.toNat + record.useIpv6.toNat + (useTxt txt).toNat)) record.service).length + 10 =
        fullOffsetOf unicast record := by
      rw [front, fullOffsetOf]
      split <;> omega
    rw [answerPtr_eq (by rw [front]; split <;> omega), isPlace]
    rfl

/-- A byte outside the send buffer is written exactly if what is free behind the PTR record is more than the ten bytes
that are asked for, and less than the SRV record and the name of the host need. -/
theorem queryAnswer_overrun_iff (capacity : Nat) (unicast : Bool) (queryId : UInt16) (record : ServiceRecord)
    (txt : List UInt8) : queryAnswer capacity unicast queryId record txt = .error .overrun ↔
      44 + record.service.length + record.hostname.length ≤ capacity ∧
        fixedLength unicast + encodedLength record.service + encodedLength record.hostname + 10 < capacity ∧
        capacity < fixedLength unicast + encodedLength record.service + 2 * encodedLength record.hostname + 16 := by
  have isLength : (answerDraft unicast queryId record txt).length + 2 =
      fixedLength unicast + encodedLength record.service + encodedLength record.hostname := length_answerDraft queryId txt
  rw [queryAnswer_eq]
  by_cases small : capacity < 44 + record.service.length + record.hostname.length
  · rw [if_pos small]
    exact iff_of_false (by simp) (by omega)
  · rw [if_neg small, answerSrv_eq]
    by_cases noRoom : capacity ≤ (answerDraft unicast queryId record txt).length + 12
    · rw [if_pos noRoom]
      exact iff_of_false (by simp [Except.bind]) (by omega)
    · rw [if_neg noRoom]
      by_cases short : capacity < (answerDraft unicast queryId record txt).length + 18 + encodedLength record.hostname
      · rw [if_pos short]
        exact iff_of_true rfl (by omega)
      · rw [if_neg short]
        refine iff_of_false ?_ (by omega)
        split
        · simp [Except.bind]
        · exact answerRest_ne_overrun _ _ _ _

/-- The answer to a question for all services stays inside the buffer. -/
theorem discoveryAnswer_ne_overrun (capacity : Nat) (service : List UInt8) :
    discoveryAnswer capacity service ≠ .error .overrun := by
  have isLength : servicesQuery.length = 46 := rfl
  have ofService := (encodedLength_le service).2
  rw [discoveryAnswer, isLength]
  split
  · simp [throw, throwThe, MonadExceptOf.throw]
  · next large =>
    have isTail : (servicesQuery.drop 8).length = 38 := rfl
    rw [stringMake_fits (by omega)]
    simp only [List.length_append, length_be16, length_be32, length_refBytes, length_wholeName, isTail,
      List.length_singleton]
    rw [if_neg (by omega)]
    simp [pure, Except.pure]

end Overrun

end AbilityFramework.DiscoveryMgr.Mdns
