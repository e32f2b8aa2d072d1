import AbilityFramework.DiscoveryMgr.MdnsListen

/-! # A query and its answer

`mDNS::executeQuery` sends a question with `mdns_query_send` and reads what comes back with `mdns_query_recv`.

`query_answered`: the service hears the question, answers it once, and in the answer its records are found, unless the
answer goes to everyone and the query had an id: the answer then has none, and is not wanted. -/

namespace AbilityFramework.DiscoveryMgr.Mdns

open Library.Loops

/-- The class of a question; a socket on the mDNS port asks for no unicast answer. -/
def queryClass (mdnsPort : Bool) : Nat := if mdnsPort then 1 else 0x8001

def querySend (capacity rtype : Nat) (name : List UInt8) (queryId : UInt16) (mdnsPort : Bool) : Option (List UInt8) :=
  if capacity < 17 + name.length then none
  else (stringMake (capacity - 17) name).map fun written =>
    be16 queryId.toNat ++ (be16 0 ++ (be16 1 ++ [0, 0, 0, 0, 0, 0])) ++ (written ++ (be16 rtype ++ be16 (queryClass mdnsPort)))

theorem isUnicast_queryClass (mdnsPort : Bool) : isUnicast (queryClass mdnsPort) = !mdnsPort := by cases mdnsPort <;> decide

theorem nameLabels_dotted {name : List UInt8} (full : withDot name = name) : dotted (nameLabels name) = name :=
  (dotted_nameLabels name).trans full

section Heard

variable {packet : Received} {record : ServiceRecord} {place last : Nat} {labels : List (List UInt8)}

/-- The only question of a packet is read to the end of its name. -/
theorem questionName_of_reads (reads : packet.Reads place labels last) : packet.questionName 0 1 place = .inr last := by
  obtain ⟨result, isResult, isEqual⟩ := Received.equalServices packet place
  have isSkipped := Received.skipName_of_reads reads
  rw [Received.questionName, isResult]
  cases result with
  | outside =>
    -- The comparison reads no further than the names go.
    exact absurd ⟨_, isResult⟩ (not_outside_of_reads reads Received.reads_services)
  | equal stop rhsLast =>
    obtain ⟨⟨others, alsoReads, _⟩, _⟩ := (isEqual _ _).mp rfl
    simp [Received.reads_last_unique alsoReads reads]
  | different => simp only [isSkipped]

/-- A question for the service is answered with what `mdns_query_answer` makes of it. -/
theorem query_heard {capacity : Nat} {queryId : UInt16} {mdnsPort : Bool} {sent bytes : List UInt8}
    (isSent : querySend capacity 12 record.service queryId mdnsPort = some sent) (holds : packet.Holds 0 sent)
    (proper : record.Proper) (full : withDot record.service = record.service) (other : record.service ≠ dnsSd)
    (isAnswer : queryAnswer sendbufferSize (!mdnsPort) queryId record txtRecord = .ok bytes) :
    packet.listen record = ([⟨!mdnsPort, bytes⟩], .ok 1) := by
  rw [querySend] at isSent
  split at isSent
  · cases isSent
  · obtain ⟨written, isWritten, rfl⟩ := Option.map_eq_some_iff.mp isSent
    obtain ⟨_, rfl⟩ := stringMake_eq_some_iff.mp isWritten
    obtain ⟨isName, isListen⟩ := Received.listen_eq record rfl queryId.toNat_lt (by decide) (by decide) holds
    have isBehind := (Received.holds_append.mp isName).2
    have reads := Received.reads_name proper.service (Received.holds_append.mp isName).1
    rw [List.length_append, List.length_singleton, ← Nat.add_assoc] at isBehind
    have smallClass : queryClass mdnsPort < 65536 := by cases mdnsPort <;> decide
    have inClass : queryClass mdnsPort &&& 0x7FFF = 1 := by cases mdnsPort <;> decide
    have rest : be16 12 ++ be16 (queryClass mdnsPort) = be16 12 ++ (be16 (queryClass mdnsPort) ++ []) := by
      rw [List.append_nil]
    rw [rest] at isBehind
    have isType := Received.word_be16 (by decide) isBehind
    have isClass := Received.word_be16 smallClass (Received.holds_append.mp isBehind).2
    rw [length_be16] at isClass
    have fits := isBehind.fits
    have isQuestion : packet.question 0 1 12 =
        .asked 12 (queryClass mdnsPort) (12 + (labelsBytes (nameLabels record.service)).length + 1) := by
      rw [Received.question, questionName_of_reads reads]
      simp only [isType, isClass, if_pos inClass]
    -- The text of the name is the service.
    have short := queryAnswer_ok_length isAnswer
    rw [sendbufferSize] at short
    have isText : packet.recordParsePtr 12 (12 + (labelsBytes (nameLabels record.service)).length + 1 - 12) namebufferSize =
        .ok record.service := by
      have long : 1 ≤ (labelsBytes (nameLabels record.service)).length := by
        obtain ⟨front, isLocal⟩ := proper.isLocal
        rw [isLocal, labelsBytes, List.flatMap_append, List.length_append]
        exact Nat.le_trans (by decide) (Nat.le_add_left _ _)
      rw [Received.recordParsePtr, if_pos (by omega), Received.extractText_of_reads reads, nameLabels_dotted full,
        List.take_of_length_le (by rw [namebufferSize]; omega)]
    have isCalled : serviceCallback record packet (UInt16.ofNat queryId.toNat) 12 (queryClass mdnsPort) 12
        (12 + (labelsBytes (nameLabels record.service)).length + 1 - 12) = .ok [⟨!mdnsPort, bytes⟩] := by
      rw [serviceCallback, if_pos rfl, isText]
      simp only [bind, Except.bind]
      rw [if_neg other, if_pos trivial, isUnicast_queryClass, UInt16.ofNat_toNat, isAnswer]
      rfl
    rw [isListen, Received.listenFrom, isQuestion]
    simp only [isCalled]
    rfl

/-- An answer to everyone to a query with an id is not wanted. -/
theorem queryRecv_unwanted {queryId : UInt16} {sent : List UInt8}
    (isSent : queryAnswer sendbufferSize false queryId record txtRecord = .ok sent) (holds : packet.Holds 0 sent)
    (some : queryId ≠ 0) : packet.queryRecv queryId.toNat = Option.some [] := by
  obtain ⟨_, rfl⟩ := queryAnswer_ok isSent
  rw [sent_eq] at holds
  have few : 1 + record.useIpv4.toNat + record.useIpv6.toNat + (useTxt txtRecord).toNat < 65536 := by
    have := Bool.toNat_le record.useIpv4
    have := Bool.toNat_le record.useIpv6
    have := Bool.toNat_le (useTxt txtRecord)
    omega
  obtain ⟨isId, isQuestions, isAnswers, isAuthorities, isAdditionals⟩ := header_words few holds
  have positive : queryId.toNat ≠ 0 := by
    intro zero
    exact some (UInt16.toNat_inj.mp zero)
  have unwanted : (queryId.toNat : Int) > 0 ∧ ((if false then queryId.toNat else 0 : Nat) : Int) ≠ queryId.toNat := by
    simp only [Bool.false_eq_true, if_false]
    omega
  rw [Received.queryRecv, isId, isQuestions, isAnswers, isAuthorities, isAdditionals]
  simp only [Option.bind_eq_bind, Option.bind_some]
  rw [if_pos unwanted]
  rfl

end Heard

/-- A query for the service is answered once, and whoever asked finds the records of the service in the answer; but not if
the query had an id and came from the mDNS port. -/
theorem query_answered {question answer : Received} {record : ServiceRecord} {capacity : Nat} {queryId : UInt16}
    {mdnsPort : Bool} {sent bytes : List UInt8} (proper : record.Proper) (full : withDot record.service = record.service)
    (other : record.service ≠ dnsSd) (isSent : querySend capacity 12 record.service queryId mdnsPort = some sent)
    (isQuestion : question.Holds 0 sent)
    (isAnswer : queryAnswer sendbufferSize (!mdnsPort) queryId record txtRecord = .ok bytes) (isReceived : answer.Holds 0 bytes) :
    question.listen record = ([⟨!mdnsPort, bytes⟩], .ok 1) ∧
      ((mdnsPort = false ∨ queryId = 0) → ∃ views, answer.queryRecv queryId.toNat = some views ∧
        List.Forall₂ (Shows answer) views (record.entries (!mdnsPort) txtRecord)) ∧
      (mdnsPort = true → queryId ≠ 0 → answer.queryRecv queryId.toNat = some []) := by
  refine ⟨query_heard isSent isQuestion proper full other isAnswer, ?_, ?_⟩
  · intro reachable
    refine queryRecv_queryAnswer isAnswer (by decide) isReceived proper ?_
    obtain rfl | rfl := reachable
    · exact .inr ⟨rfl, rfl⟩
    · exact .inl (Int.le_refl 0)
  · rintro rfl some
    exact queryRecv_unwanted isAnswer isReceived some

/-- The service `a.local.` at port 80 of the host `h`. -/
def localRecord : ServiceRecord := { plainRecord with service := [97, 46, 108, 111, 99, 97, 108, 46] }

theorem query_answered_local : ∃ question answer : Received, ∃ bytes,
    question.listen localRecord = ([⟨true, bytes⟩], .ok 1) ∧ ∃ views, answer.queryRecv 7 = some views ∧
      List.Forall₂ (Shows answer) views (localRecord.entries true txtRecord) := by
  have proper : localRecord.Proper := by
    refine ⟨by unfold Received.Readable; decide +kernel, by unfold Received.Readable; decide +kernel, by decide,
      [[97]], by decide +kernel⟩
  have isOk : (queryAnswer sendbufferSize (!false) 7 localRecord txtRecord).isOk = true := by decide +kernel
  have isSome : (querySend 2048 12 localRecord.service 7 false).isSome = true := by decide +kernel
  obtain ⟨sent, isSent⟩ := Option.isSome_iff_exists.mp isSome
  cases isAnswer : queryAnswer sendbufferSize (!false) 7 localRecord txtRecord with
  | error refusal =>
    rw [isAnswer] at isOk
    cases isOk
  | ok bytes =>
    have isQuestion : Received.Holds ⟨sent, sent.length, le_rfl⟩ 0 sent := ⟨by simp, by simp [Received.bytes]⟩
    have isReceived : Received.Holds ⟨bytes, bytes.length, le_rfl⟩ 0 bytes := ⟨by simp, by simp [Received.bytes]⟩
    have answered := query_answered proper (by decide +kernel) (by decide) isSent isQuestion isAnswer isReceived
    exact ⟨_, _, bytes, answered.1, answered.2.1 (.inl rfl)⟩

end AbilityFramework.DiscoveryMgr.Mdns
