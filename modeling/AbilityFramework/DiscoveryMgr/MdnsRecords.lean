import AbilityFramework.DiscoveryMgr.MdnsAnswer

/-! # Answers read back

`mdns_query_recv` skips the question of an answer and goes through its records with `mdns_records_parse`, which hands the
places of the name and of the data of each to a callback.

`queryRecv_queryAnswer`: the records that are found in an answer of `mdns_query_answer` are those that the service has,
with the references followed. -/

namespace AbilityFramework.DiscoveryMgr.Mdns

open Library.Loops

/-! ## Parsing -/

/-- What the callback is given of a record. -/
structure RecordView where
  nameOffset : Nat
  nameLength : Nat
  rtype : Nat
  rclass : Nat
  ttl : Nat
  recordOffset : Nat
  recordLength : Nat

namespace Received

variable (packet : Received)

/-- `ntohs` of the two bytes at an offset. -/
def word (offset : Nat) : Option Nat := do
  let upper ← packet.buffer[offset]?
  let lower ← packet.buffer[offset + 1]?
  pure (upper.toNat * 256 + lower.toNat)

/-- Where the name at an offset ends, as `mdns_string_skip` leaves it: nowhere else if it is malformed. -/
def skipName (offset : Nat) : Option Nat :=
  match loop packet.skipTurn (packet.size - offset + 1) offset with
  | some (.skipped behind) => some behind
  | some .malformed => some offset
  | _ => none

/-- There is no result where a byte behind the buffer is read. -/
def recordsParse : Nat → Nat → Option (List RecordView × Nat)
  | 0, offset => some ([], offset)
  | records + 1, offset => do
    let behind ← packet.skipName offset
    let rtype ← packet.word behind
    let rclass ← packet.word (behind + 2)
    let upper ← packet.word (behind + 4)
    let lower ← packet.word (behind + 6)
    let length ← packet.word (behind + 8)
    let (views, last) ← recordsParse records (behind + 10 + length)
    pure ({
      nameOffset := offset
      nameLength := behind - offset
      rtype, rclass
      ttl := upper * 65536 + lower
      recordOffset := behind + 10
      recordLength := length } :: views, last)

/-- The records of all three sections; none if the answer is not wanted. -/
def queryRecv (onlyQueryId : Int) : Option (List RecordView) := do
  let queryId ← packet.word 0
  let questions ← packet.word 4
  let answers ← packet.word 6
  let authorities ← packet.word 8
  let additionals ← packet.word 10
  if onlyQueryId > 0 ∧ queryId ≠ onlyQueryId then pure []
  else if questions > 1 then pure []
  else
    let start ← if questions = 0 then pure (some 12) else
      match loop packet.skipTurn (packet.size - 12 + 1) 12 with
      | some (.skipped behind) => do
        let _ ← packet.word behind
        let _ ← packet.word (behind + 2)
        pure (some (behind + 4))
      | some .malformed => pure none
      | _ => none
    match start with
    | none => pure []
    | some offset =>
      let (first, offset) ← packet.recordsParse answers offset
      let (second, offset) ← packet.recordsParse authorities offset
      let (third, _) ← packet.recordsParse additionals offset
      pure (first ++ second ++ third)

end Received

/-! ## Numbers and references -/

theorem toNat_ofNat (value : Nat) : (UInt8.ofNat value).toNat = value % 256 := UInt8.toNat_ofNat'

namespace Received

variable {packet : Received} {cur : Nat}

theorem word_be16 {value : Nat} {rest : List UInt8} (small : value < 65536) (holds : packet.Holds cur (be16 value ++ rest)) :
    packet.word cur = some value := by
  have upper : packet.buffer[cur]? = some (UInt8.ofNat (value / 256)) := holds.head
  have lower : packet.buffer[cur + 1]? = some (UInt8.ofNat value) := holds.tail.head
  have whole : value / 256 % 256 * 256 + value % 256 = value := by omega
  simp [word, upper, lower, whole]

theorem refBytes_first {target : Nat} (small : target < 16384) :
    0xC000 ||| target % 65536 = 49152 + target := by
  rw [Nat.mod_eq_of_lt (by omega)]
  have below : target < 2 ^ 14 := small
  exact (Nat.two_pow_add_eq_or_of_lt below 3).symm

theorem stringRef_refBytes {target : Nat} (small : target < 16384) :
    stringRef (UInt8.ofNat ((49152 + target) / 256)) (UInt8.ofNat (49152 + target)) = target := by
  rw [stringRef, toNat_ofNat, toNat_ofNat, Nat.and_comm]
  have masked := Nat.and_two_pow_sub_one_eq_mod ((49152 + target) / 256 % 256 * 256 + (49152 + target) % 256) 14
  rw [show 0x3fff = 2 ^ 14 - 1 by rfl, masked]
  omega

theorem substring_ref {target : Nat} {rest : List UInt8} (holds : packet.Holds cur (refBytes target ++ rest))
    (small : target < 16384) (inside : target < packet.size) : packet.getNextSubstring cur = packet.labelAt target true := by
  have bytes : refBytes target = [UInt8.ofNat ((49152 + target) / 256), UInt8.ofNat (49152 + target)] := by
    rw [refBytes, refBytes_first small, be16]
  rw [bytes] at holds
  have upper := holds.head
  have lower := holds.tail.head
  have both := holds.fits
  have large : 192 ≤ (UInt8.ofNat ((49152 + target) / 256)).toNat := by
    rw [toNat_ofNat]
    omega
  have notZero : UInt8.ofNat ((49152 + target) / 256) ≠ 0 := by
    intro zero
    rw [zero] at large
    exact absurd large (by decide)
  rw [getNextSubstring, upper, Option.bind_some, if_neg notZero, if_pos ((isStringRef_iff _).mpr large),
    if_neg (by simp at both; omega), lower, Option.bind_some, stringRef_refBytes small, if_neg (by omega)]

/-- A reference is read as what is at its target, unless that is itself one. -/
theorem reads_ref {target offset length last : Nat} {labels : List (List UInt8)} {rest : List UInt8}
    (holds : packet.Holds cur (refBytes target ++ rest)) (small : target < 16384) (inside : target < packet.size)
    (direct : packet.getNextSubstring target = some ⟨some offset, length, false⟩) (reads : packet.Reads target labels last) :
    packet.Reads cur labels (cur + 2) := by
  have isSubstring := substring_ref holds small inside
  have inBuffer : target < packet.buffer.length := Nat.lt_of_lt_of_le inside packet.fits
  have isTarget := List.getElem?_eq_getElem inBuffer
  obtain ⟨zero, isEnd⟩ | ⟨isRef, _⟩ | ⟨_, positive, others, rfl, rest⟩ := reads_first isTarget reads
  · have isLabel : packet.labelAt target true = some ⟨some (target + 1), 0, true⟩ := by
      rw [labelAt, isTarget, zero, Option.map_some, UInt8.toNat_zero, if_neg (by omega)]
    cases reads with
    | terminator _ => exact .pointedTerminator (isSubstring.trans isLabel)
    | pointedTerminator other => cases direct.symm.trans other
    | label nonempty other _ =>
      obtain ⟨_, _, isEmpty, _⟩ | ⟨_, wrong⟩ | ⟨notZero, _⟩ := substring_first isTarget other
      · exact absurd isEmpty nonempty
      · cases wrong
      · exact absurd zero notZero
    | pointedLabel _ other _ => cases direct.symm.trans other
  · obtain ⟨zero, _⟩ | ⟨_, wrong⟩ | ⟨_, small, _⟩ := substring_first isTarget direct
    · rw [zero] at isRef
      exact absurd isRef (by decide)
    · cases wrong
    · omega
  · obtain ⟨zero, _⟩ | ⟨_, wrong⟩ | ⟨_, _, rfl, rfl, _⟩ := substring_first isTarget direct
    · rw [zero] at positive
      exact absurd positive (by decide)
    · cases wrong
    · obtain ⟨isPlace, _⟩ | ⟨fits, _⟩ := substring_cases direct rfl
      · omega
      · have isLabel : packet.labelAt target true = some ⟨some (target + 1), packet.buffer[target].toNat, true⟩ := by
          rw [labelAt, isTarget, Option.map_some, if_neg (Nat.not_lt.mpr fits)]
        exact .pointedLabel positive.ne' (isSubstring.trans isLabel) rest

@[simp] theorem recordsParse_zero (packet : Received) (offset : Nat) : packet.recordsParse 0 offset = some ([], offset) := rfl

theorem skipName_of_reads {labels : List (List UInt8)} {last : Nat} (reads : packet.Reads cur labels last) :
    loop packet.skipTurn (packet.size - cur + 1) cur = some (.skipped last) := by
  obtain ⟨result, isResult⟩ := exists_finishes (packet.size - ·) (fun _ _ goesOn => (skip_lowers goesOn).1) cur
  rw [isResult, finishes_unique ⟨_, isResult⟩ (skip_of_reads reads)]

end Received

/-! ## What an answer holds -/

inductive RecordData where
  | name (labels : List (List UInt8))
  | service (priority weight port : Nat) (labels : List (List UInt8))
  | content (bytes : List UInt8)

/-- A record without references. -/
structure RecordEntry where
  name : List (List UInt8)
  rtype : Nat
  rclass : Nat
  ttl : Nat
  data : RecordData

def RecordEntry.answer (unicast : Bool) (name : List (List UInt8)) (rtype : Nat) (data : RecordData) : RecordEntry :=
  { name, rtype, rclass := answerClass unicast, ttl := answerTtl unicast, data }

/-- The entry is what a reader finds at the places of the view. -/
structure Shows (packet : Received) (view : RecordView) (entry : RecordEntry) : Prop where
  name : packet.Reads view.nameOffset entry.name (view.nameOffset + view.nameLength)
  rtype : view.rtype = entry.rtype
  rclass : view.rclass = entry.rclass
  ttl : view.ttl = entry.ttl
  data : match entry.data with
    | .name labels => packet.Reads view.recordOffset labels (view.recordOffset + view.recordLength)
    | .service priority weight port labels =>
      packet.word view.recordOffset = some priority ∧ packet.word (view.recordOffset + 2) = some weight ∧
        packet.word (view.recordOffset + 4) = some port ∧
        packet.Reads (view.recordOffset + 6) labels (view.recordOffset + view.recordLength)
    | .content bytes => packet.bytes view.recordOffset view.recordLength = bytes

/-- The label `local`. -/
def localLabel : List UInt8 := [108, 111, 99, 97, 108]

namespace ServiceRecord

variable (record : ServiceRecord)

def serviceLabels : List (List UInt8) := nameLabels record.service

/-- `<hostname>.<service>`. -/
def instanceLabels : List (List UInt8) := nameLabels record.hostname ++ nameLabels record.service

/-- `<hostname>.local`. -/
def hostLabels : List (List UInt8) := nameLabels record.hostname ++ [localLabel]

/-- The records of an answer, in their order. -/
def entries (unicast : Bool) (txt : List UInt8) : List RecordEntry :=
  [.answer unicast record.serviceLabels 12 (.name record.instanceLabels),
      .answer unicast record.instanceLabels 33 (.service 0 0 record.port.toNat record.hostLabels)] ++
    ((if record.useIpv4 then [.answer unicast record.hostLabels 1 (.content record.addressIpv4)] else []) ++
      ((if record.useIpv6 then [.answer unicast record.hostLabels 28 (.content (record.addressIpv6.getD []))] else []) ++
        ((if useTxt txt then [.answer unicast record.instanceLabels 16 (.content (UInt8.ofNat txt.length :: txt))] else []) ++
          [])))

end ServiceRecord

/-! ## Records one after another -/

section Parsing

variable {packet : Received} {cur last count : Nat} {unicast : Bool} {labels : List (List UInt8)}

/-- The records at a place are found, with what they hold. -/
def ParsesTo (packet : Received) (count cur : Nat) (entries : List RecordEntry) (last : Nat) : Prop :=
  ∃ views, packet.recordsParse count cur = some (views, last) ∧ List.Forall₂ (Shows packet) views entries

theorem parsesTo_nil (packet : Received) (cur : Nat) : ParsesTo packet 0 cur [] cur := ⟨[], rfl, .nil⟩

/-- The view of a record behind a name. -/
def viewOf (unicast : Bool) (nameOffset nameLength rtype recordLength : Nat) : RecordView where
  nameOffset
  nameLength
  rtype
  rclass := answerClass unicast
  ttl := answerTtl unicast
  recordOffset := nameOffset + nameLength + 10
  recordLength

theorem parsesTo_cons {nameBytes data rest : List UInt8} {rtype : Nat} {content : RecordData} {entries : List RecordEntry}
    (holds : packet.Holds cur (nameBytes ++ (recordHead unicast rtype data.length ++ (data ++ rest))))
    (reads : packet.Reads cur labels (cur + nameBytes.length)) (smallType : rtype < 65536) (smallData : data.length < 65536)
    (shows : Shows packet (viewOf unicast cur nameBytes.length rtype data.length) (.answer unicast labels rtype content))
    (others : ParsesTo packet count (cur + nameBytes.length + 10 + data.length) entries last) :
    ParsesTo packet (count + 1) cur (.answer unicast labels rtype content :: entries) last := by
  obtain ⟨views, isParsed, shown⟩ := others
  refine ⟨viewOf unicast cur nameBytes.length rtype data.length :: views, ?_, .cons shows shown⟩
  have behind := (Received.holds_append.mp holds).2
  simp only [recordHead, be32, List.append_assoc] at behind
  have smallClass : answerClass unicast < 65536 := by cases unicast <;> decide
  have upperTtl : answerTtl unicast / 65536 < 65536 := by cases unicast <;> decide
  have smallTtl : answerTtl unicast < 65536 := by cases unicast <;> decide
  have wholeTtl : answerTtl unicast / 65536 * 65536 + answerTtl unicast = answerTtl unicast := by cases unicast <;> rfl
  have isType := Received.word_be16 smallType behind
  have second := (Received.holds_append.mp behind).2
  have isClass := Received.word_be16 smallClass second
  have third := (Received.holds_append.mp second).2
  have isUpper := Received.word_be16 upperTtl third
  have fourth := (Received.holds_append.mp third).2
  have isLower := Received.word_be16 smallTtl fourth
  have isLength := Received.word_be16 smallData (Received.holds_append.mp fourth).2
  simp only [length_be16, Nat.add_assoc, Nat.reduceAdd] at isClass isUpper isLower isLength
  have isName : packet.skipName cur = some (cur + nameBytes.length) := by
    rw [Received.skipName, Received.skipName_of_reads reads]
  simp only [Nat.add_assoc] at isType isParsed
  rw [Received.recordsParse, isName]
  simp [isType, isClass, isUpper, isLower, isLength, isParsed, viewOf, wholeTtl, Nat.add_assoc]

end Parsing

/-! ## What is sent -/

section Sent

variable {capacity : Nat} {unicast : Bool} {record : ServiceRecord} {txt : List UInt8}

def optionalRecord (unicast wanted : Bool) (rtype target : Nat) (content : List UInt8) : List UInt8 :=
  if wanted then refBytes target ++ recordHead unicast rtype content.length ++ content else []

theorem answerRecord_ok {wanted : Bool} {rtype target : Nat} {content draft sent : List UInt8}
    (isOk : answerRecord capacity unicast wanted rtype target content draft = .ok sent) :
    sent = draft ++ optionalRecord unicast wanted rtype target content := by
  rw [answerRecord] at isOk
  rw [optionalRecord]
  split at isOk
  · next isWanted =>
    rw [if_pos isWanted]
    split at isOk
    · cases isOk
    · next ref isRef =>
      split at isOk
      · cases isOk
      · cases isOk
        rw [stringMakeRef] at isRef
        split at isRef
        · cases isRef
        · cases isRef
          simp only [List.append_assoc]
  · next notWanted =>
    cases isOk
    rw [if_neg notWanted, List.append_nil]

def additionalRecords (unicast : Bool) (record : ServiceRecord) (txt : List UInt8) (fullOffset hostOffset : Nat) : List UInt8 :=
  optionalRecord unicast record.useIpv4 1 hostOffset record.addressIpv4 ++
    (optionalRecord unicast record.useIpv6 28 hostOffset (record.addressIpv6.getD []) ++
      (optionalRecord unicast (useTxt txt) 16 fullOffset (UInt8.ofNat txt.length :: txt) ++ []))

theorem answerRest_ok {fullOffset hostOffset : Nat} {draft sent : List UInt8}
    (isOk : answerRest capacity unicast record txt fullOffset hostOffset draft = .ok sent) :
    sent = draft ++ additionalRecords unicast record txt fullOffset hostOffset := by
  rw [answerRest] at isOk
  cases first : answerRecord capacity unicast record.useIpv4 1 hostOffset record.addressIpv4 draft with
  | error refusal => rw [first] at isOk; cases isOk
  | ok one =>
    rw [first] at isOk
    cases second : answerRecord capacity unicast record.useIpv6 28 hostOffset (record.addressIpv6.getD []) one with
    | error refusal => simp only [bind, Except.bind, second] at isOk; cases isOk
    | ok two =>
      simp only [bind, Except.bind, second] at isOk
      rw [answerRecord_ok isOk, answerRecord_ok second, answerRecord_ok first, additionalRecords]
      simp only [List.append_assoc, List.append_nil]

/-- The place of the name of the host. -/
def hostOffsetOf (unicast : Bool) (record : ServiceRecord) : Nat :=
  fixedLength unicast + encodedLength record.service + encodedLength record.hostname + 16

theorem queryAnswer_ok {queryId : UInt16} {sent : List UInt8}
    (isSent : queryAnswer capacity unicast queryId record txt = .ok sent) :
    hostOffsetOf unicast record < capacity ∧ sent = answerDraft unicast queryId record txt ++
      (srvRecord unicast record (fullOffsetOf unicast record) (5 + encodedLength record.service) ++
        additionalRecords unicast record txt (fullOffsetOf unicast record) (hostOffsetOf unicast record)) := by
  have isLength : (answerDraft unicast queryId record txt).length + 2 =
      fixedLength unicast + encodedLength record.service + encodedLength record.hostname := length_answerDraft queryId txt
  have isHost : (answerDraft unicast queryId record txt).length + 18 = hostOffsetOf unicast record := by
    rw [hostOffsetOf]
    omega
  rw [queryAnswer_eq] at isSent
  split at isSent
  · cases isSent
  · rw [answerSrv_eq] at isSent
    split at isSent
    · cases isSent
    · split at isSent
      · cases isSent
      · split at isSent
        · cases isSent
        · next large =>
          have rest := answerRest_ok isSent
          rw [isHost, List.append_assoc] at rest
          exact ⟨by omega, rest⟩

end Sent

/-! ## Reading an answer -/

section Answer

variable {packet : Received} {unicast : Bool} {record : ServiceRecord} {cur last : Nat}

theorem reads_refName {name rest : List UInt8} {target offset length behind : Nat} {labels : List (List UInt8)}
    (holds : packet.Holds cur (refName name target ++ rest)) (readable : Received.Readable (nameLabels name))
    (small : target < 16384) (inside : target < packet.size)
    (direct : packet.getNextSubstring target = some ⟨some offset, length, false⟩)
    (reads : packet.Reads target labels behind) :
    packet.Reads cur (nameLabels name ++ labels) (cur + (encodedLength name + 1)) := by
  rw [refName, List.append_assoc] at holds
  obtain ⟨isLabels, isRef⟩ := Received.holds_append.mp holds
  have read := Received.reads_labels readable isLabels (Received.reads_ref isRef small inside direct reads)
  have place : cur + (labelsBytes (nameLabels name)).length + 2 = cur + (encodedLength name + 1) := by
    rw [length_labelsBytes, dotted_nameLabels, encodedLength]
    omega
  rwa [place] at read

theorem reads_wholeName {name rest : List UInt8} (holds : packet.Holds cur (wholeName name ++ rest))
    (readable : Received.Readable (nameLabels name)) : packet.Reads cur (nameLabels name) (cur + encodedLength name) := by
  have read := Received.reads_name readable (Received.holds_append.mp holds).1
  rw [length_labelsBytes, dotted_nameLabels, Nat.add_assoc] at read
  exact read

/-- A name with labels is no reference itself. -/
theorem direct_of_labels {labels : List (List UInt8)} {rest : List UInt8} (some : labels ≠ [])
    (readable : Received.Readable labels) (holds : packet.Holds cur (labelsBytes labels ++ rest)) :
    ∃ offset length, packet.getNextSubstring cur = Option.some ⟨Option.some offset, length, false⟩ := by
  cases labels with
  | nil => exact absurd rfl some
  | cons label labels =>
    rw [labelsBytes_cons, List.append_assoc] at holds
    obtain ⟨nonempty, short⟩ := readable label (List.mem_cons_self ..)
    exact ⟨_, _, Received.substring_label (Received.holds_append.mp holds).1 nonempty short⟩

theorem nameLabels_ne_nil {name : List UInt8} (some : name ≠ []) : nameLabels name ≠ [] := by
  intro none
  have text := dotted_nameLabels name
  rw [none, withDot, dotted_nil] at text
  split at text
  · exact some text.symm
  · simp at text

/-- A service and a host whose names can be read and referred to. -/
structure ServiceRecord.Proper (record : ServiceRecord) : Prop where
  service : Received.Readable (nameLabels record.service)
  hostname : Received.Readable (nameLabels record.hostname)
  nonempty : record.hostname ≠ []
  isLocal : ∃ front, nameLabels record.service = front ++ [localLabel]

/-- What is read at the places that an answer refers to. -/
structure Answers (packet : Received) (unicast : Bool) (record : ServiceRecord) : Prop where
  service : packet.Reads 12 record.serviceLabels (12 + encodedLength record.service)
  serviceDirect : ∃ offset length, packet.getNextSubstring 12 = some ⟨some offset, length, false⟩
  full : packet.Reads (fullOffsetOf unicast record) record.instanceLabels
    (fullOffsetOf unicast record + (encodedLength record.hostname + 1))
  fullDirect : ∃ offset length, packet.getNextSubstring (fullOffsetOf unicast record) = some ⟨some offset, length, false⟩
  host : packet.Reads (hostOffsetOf unicast record) record.hostLabels
    (hostOffsetOf unicast record + (encodedLength record.hostname + 1))
  hostDirect : ∃ offset length, packet.getNextSubstring (hostOffsetOf unicast record) = some ⟨some offset, length, false⟩
  small : hostOffsetOf unicast record < 16384
  inside : hostOffsetOf unicast record < packet.size

theorem answers_of_holds {header more rest : List UInt8} (proper : record.Proper)
    (small : hostOffsetOf unicast record < 16384)
    (isService : packet.Holds 12 (wholeName record.service ++ more))
    (isFull : packet.Holds (fullOffsetOf unicast record) (refName record.hostname 12 ++ rest))
    (isHost : packet.Holds (hostOffsetOf unicast record)
      (refName record.hostname (5 + encodedLength record.service) ++ header)) :
    Answers packet unicast record := by
  obtain ⟨front, isLocal⟩ := proper.isLocal
  have serviceLength : encodedLength record.service = (labelsBytes front).length + 7 := by
    rw [encodedLength, ← dotted_nameLabels, ← length_labelsBytes, isLocal, labelsBytes, List.flatMap_append,
      List.length_append]
    rfl
  have service := reads_wholeName isService proper.service
  have someLabels : nameLabels record.service ≠ [] := by simp [isLocal]
  have someHost := nameLabels_ne_nil proper.nonempty
  have serviceDirect : ∃ offset length, packet.getNextSubstring 12 = some ⟨some offset, length, false⟩ := by
    rw [wholeName, List.append_assoc] at isService
    exact direct_of_labels someLabels proper.service isService
  have fullDirect : ∃ offset length,
      packet.getNextSubstring (fullOffsetOf unicast record) = some ⟨some offset, length, false⟩ := by
    have isLabels := isFull
    rw [refName, List.append_assoc] at isLabels
    exact direct_of_labels someHost proper.hostname isLabels
  have hostDirect : ∃ offset length,
      packet.getNextSubstring (hostOffsetOf unicast record) = some ⟨some offset, length, false⟩ := by
    have isLabels := isHost
    rw [refName, List.append_assoc] at isLabels
    exact direct_of_labels someHost proper.hostname isLabels
  -- The last label of the service name is seven bytes from its end.
  have isLast : packet.Holds (5 + encodedLength record.service) (labelsBytes [localLabel] ++ [0]) := by
    have split : wholeName record.service ++ more = labelsBytes front ++ (labelsBytes [localLabel] ++ [0] ++ more) := by
      rw [wholeName, isLocal, labelsBytes, List.flatMap_append, ← labelsBytes, ← labelsBytes]
      simp only [List.append_assoc]
    rw [split] at isService
    have behind := (Received.holds_append.mp (Received.holds_append.mp isService).2).1
    have place : 12 + (labelsBytes front).length = 5 + encodedLength record.service := by omega
    rwa [place] at behind
  have isReadable : Received.Readable [localLabel] := by
    intro label isLabel
    rw [List.mem_singleton.mp isLabel]
    exact ⟨by decide, by decide⟩
  obtain ⟨localOffset, localLength, localDirect⟩ := direct_of_labels (by simp) isReadable isLast
  obtain ⟨offset, length, direct⟩ := serviceDirect
  have fits := isHost.fits
  have fitsLocal := isLast.fits
  have fitsService := isService.fits
  rw [List.length_append, length_refName] at fits
  rw [List.length_append, length_wholeName] at fitsService
  have placeOfLocal : 5 + encodedLength record.service < 16384 := by
    rw [hostOffsetOf] at small
    omega
  have insideLocal : 5 + encodedLength record.service < packet.size := by
    rw [List.length_append, List.length_singleton] at fitsLocal
    omega
  exact {
    service
    serviceDirect := ⟨offset, length, direct⟩
    full := reads_refName isFull proper.hostname (by decide) (by omega) direct service
    fullDirect
    host := reads_refName isHost proper.hostname placeOfLocal insideLocal localDirect
      (Received.reads_name isReadable isLast)
    hostDirect
    small
    inside := by omega }

/-- What a reference to a name reads. -/
theorem reads_refBytes {target behind : Nat} {labels : List (List UInt8)} {rest : List UInt8}
    (holds : packet.Holds cur (refBytes target ++ rest)) (small : target < 16384) (inside : target < packet.size)
    (direct : ∃ offset length, packet.getNextSubstring target = some ⟨some offset, length, false⟩)
    (reads : packet.Reads target labels behind) : packet.Reads cur labels (cur + (refBytes target).length) := by
  obtain ⟨offset, length, direct⟩ := direct
  exact Received.reads_ref holds small inside direct reads

theorem parsesTo_optional {wanted : Bool} {rtype target behind count : Nat} {content rest : List UInt8}
    {labels : List (List UInt8)} {entries : List RecordEntry}
    (holds : packet.Holds cur (optionalRecord unicast wanted rtype target content ++ rest)) (smallType : rtype < 65536)
    (smallContent : wanted = true → content.length < 65536) (small : target < 16384) (inside : target < packet.size)
    (direct : ∃ offset length, packet.getNextSubstring target = some ⟨some offset, length, false⟩)
    (reads : packet.Reads target labels behind)
    (others : ParsesTo packet count (cur + (optionalRecord unicast wanted rtype target content).length) entries last) :
    ParsesTo packet (count + wanted.toNat) cur
      ((if wanted then [.answer unicast labels rtype (.content content)] else []) ++ entries) last := by
  cases wanted with
  | false => exact others
  | true =>
    have isRecord : optionalRecord unicast true rtype target content =
        refBytes target ++ (recordHead unicast rtype content.length ++ content) := List.append_assoc _ _ _
    rw [isRecord] at others
    rw [isRecord, List.append_assoc, List.append_assoc] at holds
    have read := reads_refBytes holds small inside direct reads
    have isContent := (Received.holds_append.mp (Received.holds_append.mp (Received.holds_append.mp holds).2).2).1
    refine parsesTo_cons holds read smallType (smallContent rfl) ⟨read, rfl, rfl, rfl, isContent.same⟩ ?_
    simp only [List.length_append, length_recordHead, ← Nat.add_assoc] at others
    exact others

theorem header_words {queryId : UInt16} {additional : Nat} {rest : List UInt8} (few : additional < 65536)
    (holds : packet.Holds 0 (answerHeader unicast queryId additional ++ rest)) :
    packet.word 0 = some (if unicast then queryId.toNat else 0) ∧ packet.word 4 = some unicast.toNat ∧
      packet.word 6 = some 1 ∧ packet.word 8 = some 0 ∧ packet.word 10 = some additional := by
  have smallId : (if unicast then queryId.toNat else 0) < 65536 := by
    have := queryId.toNat_lt
    split <;> omega
  have isFlag : (if unicast then 1 else 0) = unicast.toNat := by cases unicast <;> rfl
  have smallFlag : unicast.toNat < 65536 := by cases unicast <;> decide
  simp only [answerHeader, List.append_assoc, isFlag] at holds
  have second := (Received.holds_append.mp holds).2
  have third := (Received.holds_append.mp second).2
  have fourth := (Received.holds_append.mp third).2
  have fifth := (Received.holds_append.mp fourth).2
  have sixth := (Received.holds_append.mp fifth).2
  exact ⟨Received.word_be16 smallId holds, Received.word_be16 smallFlag third, Received.word_be16 (by decide) fourth,
    Received.word_be16 (by decide) fifth, Received.word_be16 few sixth⟩

/-- What is between the name of the service and the record of it. -/
def answerMiddle (unicast : Bool) : List UInt8 :=
  if unicast then be16 12 ++ (be16 (answerClass unicast) ++ refBytes 12) else []

theorem sent_eq (queryId : UInt16) (txt behind : List UInt8) : answerDraft unicast queryId record txt ++ behind =
    answerHeader unicast queryId (1 + record.useIpv4.toNat + record.useIpv6.toNat + (useTxt txt).toNat) ++
      (wholeName record.service ++ (answerMiddle unicast ++ (recordHead unicast 12 (encodedLength record.hostname + 1) ++
        (refName record.hostname 12 ++ behind)))) := by
  simp [answerDraft, answerFront, answerMiddle]

/-- Where the first record of an answer is. -/
def firstRecord (unicast : Bool) (record : ServiceRecord) : Nat :=
  if unicast then 16 + encodedLength record.service else 12

variable {behind : List UInt8}

theorem parsesTo_ptr (answers : Answers packet unicast record) (smallHost : encodedLength record.hostname < 16384)
    (holds : packet.Holds 12 (wholeName record.service ++ (answerMiddle unicast ++
      (recordHead unicast 12 (encodedLength record.hostname + 1) ++ (refName record.hostname 12 ++ behind))))) :
    ParsesTo packet 1 (firstRecord unicast record)
      [.answer unicast record.serviceLabels 12 (.name record.instanceLabels)]
      (fullOffsetOf unicast record + (encodedLength record.hostname + 1)) := by
  have full := answers.full
  rw [← length_refName record.hostname 12] at holds full ⊢
  have smallData : (refName record.hostname 12).length < 65536 := by
    rw [length_refName]
    omega
  cases unicast with
  | false =>
    have reads : packet.Reads 12 record.serviceLabels (12 + (wholeName record.service).length) := by
      rw [length_wholeName]
      exact answers.service
    have place : 12 + (wholeName record.service).length + 10 = fullOffsetOf false record := by
      simp [fullOffsetOf]
      omega
    rw [← place] at full ⊢
    exact parsesTo_cons holds reads (by decide) smallData ⟨reads, rfl, rfl, rfl, full⟩ (parsesTo_nil _ _)
  | true =>
    have question := (Received.holds_append.mp holds).2
    simp only [answerMiddle, if_true, List.append_assoc] at question
    have isRef := (Received.holds_append.mp (Received.holds_append.mp question).2).2
    have start : 12 + (wholeName record.service).length + (be16 12).length + (be16 (answerClass true)).length =
        firstRecord true record := by
      simp [firstRecord]
      omega
    rw [start] at isRef
    have reads := reads_refBytes isRef (by decide) (by have := answers.inside; rw [hostOffsetOf] at this; omega)
      answers.serviceDirect answers.service
    have place : firstRecord true record + (refBytes 12).length + 10 = fullOffsetOf true record := by
      simp [firstRecord, fullOffsetOf]
      omega
    rw [← place] at full ⊢
    exact parsesTo_cons isRef reads (by decide) smallData ⟨reads, rfl, rfl, rfl, full⟩ (parsesTo_nil _ _)

theorem parsesTo_srv {count : Nat} {entries : List RecordEntry} (answers : Answers packet unicast record)
    (smallHost : encodedLength record.hostname < 16384) (isPlace : cur + 18 = hostOffsetOf unicast record)
    (holds : packet.Holds cur
      (srvRecord unicast record (fullOffsetOf unicast record) (5 + encodedLength record.service) ++ behind))
    (others : ParsesTo packet count (cur + 19 + encodedLength record.hostname) entries last) :
    ParsesTo packet (count + 1) cur
      (.answer unicast record.instanceLabels 33 (.service 0 0 record.port.toNat record.hostLabels) :: entries) last := by
  obtain ⟨data, isData⟩ : ∃ data, data = be16 0 ++ (be16 0 ++ (be16 record.port.toNat ++
      refName record.hostname (5 + encodedLength record.service))) := ⟨_, rfl⟩
  have dataLength : data.length = 7 + encodedLength record.hostname := by
    simp [isData]
    omega
  have isRecord : srvRecord unicast record (fullOffsetOf unicast record) (5 + encodedLength record.service) ++ behind =
      refBytes (fullOffsetOf unicast record) ++ (recordHead unicast 33 data.length ++ (data ++ behind)) := by
    rw [dataLength, isData, srvRecord]
    simp only [List.append_assoc]
  rw [isRecord] at holds
  have before : fullOffsetOf unicast record ≤ hostOffsetOf unicast record := by
    rw [fullOffsetOf, hostOffsetOf, fixedLength]
    split <;> omega
  have small := answers.small
  have inside := answers.inside
  have reads := reads_refBytes holds (by omega) (by omega) answers.fullDirect answers.full
  have content := (Received.holds_append.mp (Received.holds_append.mp holds).2).2
  rw [length_recordHead, length_refBytes, isData, List.append_assoc, List.append_assoc] at content
  have second := (Received.holds_append.mp content).2
  rw [List.append_assoc] at second
  have third := (Received.holds_append.mp second).2
  have host := answers.host
  rw [← isPlace] at host
  have hostEnd : cur + 18 + (encodedLength record.hostname + 1) = cur + 2 + 10 + data.length := by omega
  rw [hostEnd] at host
  refine parsesTo_cons holds reads (by decide) (by omega) ⟨reads, rfl, rfl, rfl, ?_⟩ ?_
  · exact ⟨Received.word_be16 (by decide) content, Received.word_be16 (by decide) second,
      Received.word_be16 record.port.toNat_lt third, host⟩
  · rw [dataLength, length_refBytes]
    convert others using 1
    omega

theorem content_small (record : ServiceRecord) (txt : List UInt8) : record.addressIpv4.length < 65536 ∧
    (record.addressIpv6.getD []).length < 65536 ∧
      (useTxt txt = true → (UInt8.ofNat txt.length :: txt).length < 65536) := by
  refine ⟨by rw [record.isIpv4]; decide, ?_, ?_⟩
  · cases isAddress : record.addressIpv6 with
    | none => decide
    | some address =>
      rw [Option.getD_some, record.isIpv6 address (by rw [isAddress]; rfl)]
      decide
  · intro used
    rw [useTxt, Bool.and_eq_true, decide_eq_true_eq] at used
    rw [List.length_cons]
    have := of_decide_eq_true used.2
    omega

theorem parsesTo_additional {txt : List UInt8} (answers : Answers packet unicast record)
    (holds : packet.Holds cur
      (additionalRecords unicast record txt (fullOffsetOf unicast record) (hostOffsetOf unicast record))) :
    ∃ last, ParsesTo packet (0 + (useTxt txt).toNat + record.useIpv6.toNat + record.useIpv4.toNat) cur
      (record.entries unicast txt).tail.tail last := by
  have before : fullOffsetOf unicast record ≤ hostOffsetOf unicast record := by
    rw [fullOffsetOf, hostOffsetOf, fixedLength]
    split <;> omega
  have small := answers.small
  have inside := answers.inside
  obtain ⟨smallIpv4, smallIpv6, smallTxt⟩ := content_small record txt
  rw [additionalRecords] at holds
  have second := (Received.holds_append.mp holds).2
  have third := (Received.holds_append.mp second).2
  have ofTxt := parsesTo_optional third (by decide) smallTxt (by omega) (by omega) answers.fullDirect answers.full
    (parsesTo_nil _ _)
  have ofIpv6 := parsesTo_optional second (by decide) (fun _ => smallIpv6) small inside answers.hostDirect answers.host ofTxt
  exact ⟨_, parsesTo_optional holds (by decide) (fun _ => smallIpv4) small inside answers.hostDirect answers.host ofIpv6⟩

/-- In a packet with an answer of the service the records of the service are found, in their order and with the names
that the references stand for. -/
theorem queryRecv_queryAnswer {capacity : Nat} {queryId : UInt16} {txt sent : List UInt8} {onlyQueryId : Int}
    (isSent : queryAnswer capacity unicast queryId record txt = .ok sent) (notLarge : capacity ≤ 16384)
    (holds : packet.Holds 0 sent) (proper : record.Proper)
    (wanted : onlyQueryId ≤ 0 ∨ unicast = true ∧ onlyQueryId = queryId.toNat) :
    ∃ views, packet.queryRecv onlyQueryId = some views ∧ List.Forall₂ (Shows packet) views (record.entries unicast txt) := by
  obtain ⟨room, rfl⟩ := queryAnswer_ok isSent
  rw [sent_eq] at holds
  have few : 1 + record.useIpv4.toNat + record.useIpv6.toNat + (useTxt txt).toNat < 65536 := by
    have := Bool.toNat_le record.useIpv4
    have := Bool.toNat_le record.useIpv6
    have := Bool.toNat_le (useTxt txt)
    omega
  obtain ⟨isId, isQuestions, isAnswers, isAuthorities, isAdditionals⟩ := header_words few holds
  -- The places of the names and of the records.
  have service := (Received.holds_append.mp holds).2
  rw [length_answerHeader, Nat.zero_add] at service
  have question := (Received.holds_append.mp service).2
  have full := (Received.holds_append.mp (Received.holds_append.mp question).2).2
  have fullPlace : 12 + (wholeName record.service).length + (answerMiddle unicast).length +
      (recordHead unicast 12 (encodedLength record.hostname + 1)).length = fullOffsetOf unicast record := by
    cases unicast <;> simp [answerMiddle, fullOffsetOf] <;> omega
  rw [fullPlace] at full
  have srv := (Received.holds_append.mp full).2
  have additional := (Received.holds_append.mp srv).2
  have srvPlace : fullOffsetOf unicast record + (refName record.hostname 12).length + 18 = hostOffsetOf unicast record := by
    rw [length_refName, fullOffsetOf, hostOffsetOf, fixedLength]
    split <;> omega
  have host := srv
  rw [srvRecord, List.append_assoc] at host
  replace host := (Received.holds_append.mp host).2
  have hostPlace : fullOffsetOf unicast record + (refName record.hostname 12).length +
      (refBytes (fullOffsetOf unicast record) ++ recordHead unicast 33 (7 + encodedLength record.hostname) ++
        (be16 0 ++ be16 0 ++ be16 record.port.toNat)).length = hostOffsetOf unicast record := by
    rw [← srvPlace]
    simp
  rw [hostPlace] at host
  have answers := answers_of_holds proper (by omega) service full host
  have smallHost : encodedLength record.hostname < 16384 := by
    rw [hostOffsetOf] at room
    omega
  -- One record after another is found.
  rw [length_srvRecord, ← Nat.add_assoc] at additional
  obtain ⟨last, others⟩ := parsesTo_additional answers additional
  obtain ⟨views, isRest, shownRest⟩ := parsesTo_srv answers smallHost srvPlace srv others
  obtain ⟨first, isFirst, shownFirst⟩ := parsesTo_ptr answers smallHost service
  rw [length_refName] at isRest
  have count : 0 + (useTxt txt).toNat + record.useIpv6.toNat + record.useIpv4.toNat + 1 =
      1 + record.useIpv4.toNat + record.useIpv6.toNat + (useTxt txt).toNat := by omega
  rw [count] at isRest
  refine ⟨first ++ views, ?_, List.rel_append shownFirst shownRest⟩
  have notOther : ¬ (onlyQueryId > 0 ∧ ((if unicast then queryId.toNat else 0 : Nat) : Int) ≠ onlyQueryId) := by
    rintro ⟨positive, differ⟩
    obtain notPositive | ⟨isUnicast, same⟩ := wanted
    · omega
    · rw [isUnicast] at differ
      exact differ same.symm
  have notMany : ¬ unicast.toNat > 1 := by cases unicast <;> decide
  rw [Received.queryRecv, isId, isQuestions, isAnswers, isAuthorities, isAdditionals]
  simp only [Option.bind_eq_bind, Option.bind_some]
  rw [if_neg notOther, if_neg notMany]
  cases unicast with
  | false =>
    have isStart : firstRecord false record = 12 := rfl
    rw [isStart] at isFirst
    simp [isFirst, isRest]
  | true =>
    have isSkipped := Received.skipName_of_reads answers.service
    have isStart : firstRecord true record = 12 + encodedLength record.service + 4 := by
      rw [firstRecord, if_pos rfl]
      omega
    rw [isStart] at isFirst
    rw [length_wholeName, answerMiddle, if_pos rfl, List.append_assoc, List.append_assoc] at question
    have isType := Received.word_be16 (by decide) question
    have isClass := Received.word_be16 (by decide) (Received.holds_append.mp question).2
    rw [length_be16] at isClass
    simp [isSkipped, isType, isClass, isFirst, isRest]

/-- The service `a.local` at port 80 of the host `h`. -/
def plainRecord : ServiceRecord where
  service := [97, 46, 108, 111, 99, 97, 108]
  hostname := [104]
  addressIpv4 := [10, 0, 0, 1]
  addressIpv6 := none
  port := 80
  isIpv4 := rfl
  isIpv6 := by simp

end Answer

end AbilityFramework.DiscoveryMgr.Mdns
