import AbilityFramework.DiscoveryMgr.MdnsEqual
import AbilityFramework.DiscoveryMgr.MdnsRecords

/-! # Questions heard

`mdns_socket_listen` goes through the questions of a packet and hands each to `service_callback`, which answers those for
the types of all services and for the service itself.

`listen_replies`: nothing is sent that was not asked for.
`listen_endless`: a packet with a question whose name refers to itself is never done with. -/

namespace AbilityFramework.DiscoveryMgr.Mdns

open Library.Loops

/-! ## The callback -/

/-- How the listening does not come to an end of its own. -/
inductive Broken where
  /-- A byte behind the receive buffer is read. -/
  | outside
  /-- An extraction runs for ever. -/
  | endless
  /-- A byte outside the send buffer is written. -/
  | overrun
  deriving DecidableEq

structure Reply where
  unicast : Bool
  bytes : List UInt8
  deriving DecidableEq

namespace Received

variable (packet : Received)

/-- The text that `mdns_string_extract` gives. -/
def extractText (offset capacity : Nat) : Except Broken (List UInt8) :=
  match loop packet.extractTurn (packet.size + 2) (.start offset capacity) with
  | none => throw .endless
  | some .outside => throw .outside
  | some .malformed => pure []
  | some (.extracted text _) => pure text

def recordParsePtr (offset length capacity : Nat) : Except Broken (List UInt8) :=
  if offset + length ≤ packet.size ∧ 2 ≤ length then packet.extractText offset capacity else pure []

/-- The name of an SRV record. -/
def recordParseSrv (offset length capacity : Nat) : Except Broken (List UInt8) :=
  if offset + length ≤ packet.size ∧ 8 ≤ length then packet.extractText (offset + 6) capacity else pure []

end Received

/-- The text `_services._dns-sd._udp.local.` -/
def dnsSd : List UInt8 :=
  [95, 115, 101, 114, 118, 105, 99, 101, 115, 46, 95, 100, 110, 115, 45, 115, 100, 46, 95, 117, 100, 112, 46,
    108, 111, 99, 97, 108, 46]

/-- The text `asdf=1` with its zero byte. -/
def txtRecord : List UInt8 := [97, 115, 100, 102, 61, 49, 0]

/-- What is sent, or the damage that is done. -/
def sendReply (unicast : Bool) : Except Refusal (List UInt8) → Except Broken (List Reply)
  | .ok bytes => pure [{ unicast, bytes }]
  | .error .failed => pure []
  | .error .overrun => throw .overrun

def isUnicast (rclass : Nat) : Bool := rclass &&& 0x8000 ≠ 0

def sendbufferSize : Nat := 256

def namebufferSize : Nat := 256

def serviceCallback (record : ServiceRecord) (packet : Received) (queryId : UInt16) (rtype rclass offset length : Nat) :
    Except Broken (List Reply) :=
  if rtype = 12 then do
    let service ← packet.recordParsePtr offset length namebufferSize
    if service = dnsSd then sendReply true (discoveryAnswer sendbufferSize record.service)
    else if service = record.service then
      sendReply (isUnicast rclass) (queryAnswer sendbufferSize (isUnicast rclass) queryId record txtRecord)
    else pure []
  else if rtype = 33 then do
    let _ ← packet.recordParseSrv offset length namebufferSize
    pure []
  else pure []

/-! ## Listening -/

/-- The name that all services are asked for with, as it is in `mdns_services_query`. -/
def servicesPacket : Received := ⟨servicesQuery, servicesQuery.length, le_rfl⟩

/-- What is found at the place of a question. -/
inductive Question where
  | outside
  /-- The rest of the packet is not looked at, and none of its questions count. -/
  | refused
  | malformed
  | asked (rtype rclass stop : Nat)
  deriving DecidableEq

namespace Received

variable (packet : Received)

/-- Where the name of a question ends. -/
def questionName (flags questions place : Nat) : Question ⊕ Nat :=
  match loop (equalTurn packet servicesPacket) 5 ⟨place, 12, none, none⟩ with
  | some (.equal stop _) => if flags ≠ 0 ∨ questions ≠ 1 then .inl .refused else .inr stop
  | some .different =>
    match loop packet.skipTurn (packet.size - place + 1) place with
    | some (.skipped stop) => .inr stop
    | some .malformed => .inl .malformed
    | _ => .inl .outside
  | _ => .inl .outside

def question (flags questions place : Nat) : Question :=
  match packet.questionName flags questions place with
  | .inl found => found
  | .inr stop =>
    match packet.word stop, packet.word (stop + 2) with
    | some rtype, some rclass => if rclass &&& 0x7FFF = 1 then .asked rtype rclass stop else .refused
    | _, _ => .outside

/-- The questions from a place on, with what is sent before the listening ends or breaks off. -/
def listenFrom (record : ServiceRecord) (queryId : UInt16) (flags questions : Nat) :
    Nat → Nat → Nat → List Reply × Except Broken Nat
  | 0, _, parsed => ([], .ok parsed)
  | left + 1, place, parsed =>
    match packet.question flags questions place with
    | .outside => ([], .error .outside)
    | .refused => ([], .ok 0)
    | .malformed => ([], .ok parsed)
    | .asked rtype rclass stop =>
      match serviceCallback record packet queryId rtype rclass place (stop - place) with
      | .error broken => ([], .error broken)
      | .ok replies =>
        let (others, ending) := listenFrom record queryId flags questions left (stop + 4) (parsed + 1)
        (replies ++ others, ending)

/-- `mdns_socket_listen`, with the packet that was received. -/
def listen (record : ServiceRecord) : List Reply × Except Broken Nat :=
  if packet.size = 0 then ([], .ok 0)
  else match packet.word 0, packet.word 2, packet.word 4 with
    | some queryId, some flags, some questions =>
      packet.listenFrom record (UInt16.ofNat queryId) flags questions questions 12 0
    | _, _, _ => ([], .error .outside)

/-! ## Texts -/

variable {packet : Received} {cur last capacity : Nat} {labels : List (List UInt8)}

theorem reads_last_unique {others : List (List UInt8)} {otherLast : Nat} (reads : packet.Reads cur labels last)
    (alsoReads : packet.Reads cur others otherLast) : last = otherLast := by
  have same := finishes_unique (skip_of_reads reads) (skip_of_reads alsoReads)
  cases same
  rfl

theorem extract_of_reads (reads : packet.Reads cur labels last) (capacity : Nat) :
    loop packet.extractTurn (packet.size + 2) (.start cur capacity) =
      some (.extracted ((dotted labels).take capacity) last) := by
  have extracts : packet.extract cur capacity (.extracted ((dotted labels).take capacity) last) :=
    extract_iff.mpr ⟨labels, reads, rfl⟩
  have once : ¬ Recurs packet.nextLabel cur := by
    rw [← extract_forever packet cur capacity]
    exact not_forever extracts
  obtain ⟨result, isResult⟩ := exists_extract packet capacity once
  rw [isResult, finishes_unique ⟨_, isResult⟩ extracts]

theorem extractText_of_reads (reads : packet.Reads cur labels last) (capacity : Nat) :
    packet.extractText cur capacity = .ok ((dotted labels).take capacity) := by
  rw [extractText, extract_of_reads reads]
  rfl

theorem extractText_ok {text : List UInt8} (isOk : packet.extractText cur capacity = .ok text) :
    text = [] ∨ ∃ labels last, packet.Reads cur labels last ∧ text = (dotted labels).take capacity := by
  rw [extractText] at isOk
  split at isOk
  · cases isOk
  · cases isOk
  · cases isOk
    exact .inl rfl
  · next text stop isText =>
    cases isOk
    obtain ⟨labels, reads, rfl⟩ := extract_iff.mp ⟨_, isText⟩
    exact .inr ⟨labels, stop, reads, rfl⟩

theorem extractText_endless_iff : packet.extractText cur capacity = .error .endless ↔ Recurs packet.nextLabel cur := by
  constructor
  · intro isEndless
    by_contra once
    obtain ⟨result, isResult⟩ := exists_extract packet capacity once
    rw [extractText, isResult] at isEndless
    cases result <;> cases isEndless
  · intro recurs
    have forever := (extract_forever packet cur capacity).mpr recurs
    rw [extractText, forever]
    rfl

/-! ## Questions -/

/-- The labels that all services are asked for with. -/
def servicesLabels : List (List UInt8) := nameLabels dnsSd

theorem reads_services : servicesPacket.Reads 12 servicesLabels 42 := by
  have readable : Readable servicesLabels := by
    unfold Readable
    decide +kernel
  have holds : servicesPacket.Holds 12 (labelsBytes servicesLabels ++ [0]) := ⟨by decide +kernel, by decide +kernel⟩
  exact reads_name readable holds

/-- The comparison ends and is exact. -/
theorem equalServices (packet : Received) (place : Nat) :
    ∃ result, loop (equalTurn packet servicesPacket) 5 ⟨place, 12, none, none⟩ = some result ∧
      ∀ stop last, result = .equal stop last ↔
        (∃ labels, packet.Reads place labels stop ∧ SameLabels labels servicesLabels) ∧ last = 42 := by
  obtain ⟨⟨result, isResult⟩, isEqual⟩ := equal_iff packet reads_services place
  refine ⟨result, isResult, fun stop last => ?_⟩
  rw [← isEqual]
  constructor
  · rintro rfl
    exact ⟨_, isResult⟩
  · intro finishes
    exact finishes_unique ⟨_, isResult⟩ finishes

variable {flags questions place rtype rclass stop : Nat}

theorem questionName_stop (isStop : packet.questionName flags questions place = .inr stop)
    (reads : packet.Reads place labels last) : last = stop := by
  obtain ⟨result, isResult, isEqual⟩ := equalServices packet place
  rw [questionName, isResult] at isStop
  cases result with
  | outside => cases isStop
  | equal otherStop otherLast =>
    simp only at isStop
    split at isStop
    · cases isStop
    · cases isStop
      obtain ⟨⟨others, alsoReads, _⟩, _⟩ := (isEqual _ _).mp rfl
      exact reads_last_unique reads alsoReads
  | different =>
    simp only at isStop
    split at isStop
    · next otherStop isSkipped =>
      cases isStop
      have same := finishes_unique (skip_of_reads reads) ⟨_, isSkipped⟩
      cases same
      rfl
    · cases isStop
    · cases isStop

theorem question_asked (isAsked : packet.question flags questions place = .asked rtype rclass stop) :
    packet.questionName flags questions place = .inr stop ∧ packet.word stop = some rtype ∧
      packet.word (stop + 2) = some rclass ∧ rclass &&& 0x7FFF = 1 := by
  rw [question] at isAsked
  split at isAsked
  · next found isFound =>
    -- What is found before the name ends is no question.
    subst isAsked
    rw [questionName] at isFound
    split at isFound
    · split at isFound <;> cases isFound
    · split at isFound <;> cases isFound
    · cases isFound
  · next otherStop isStop =>
    split at isAsked
    · next otherType otherClass isType isClass =>
      split at isAsked
      · next inClass =>
        cases isAsked
        exact ⟨isStop, isType, isClass, inClass⟩
      · cases isAsked
    · cases isAsked

theorem skip_lt (finishes : Finishes packet.skipTurn place (.skipped stop)) : place < stop := by
  have grows : ∀ before later, place ≤ before → packet.skipTurn before = .again later → place ≤ later := by
    intro before later isBehind goesOn
    have := (skip_lowers goesOn).1
    omega
  obtain ⟨reached, isBehind, leaves⟩ := finishes_invariant (place ≤ ·) grows (Nat.le_refl place) finishes
  rw [skipTurn] at leaves
  split at leaves
  · cases leaves
  · next substr isSubstring =>
    split at leaves
    · cases leaves
    · next offset valid =>
      split at leaves
      · cases leaves
        omega
      · next noRef =>
        split at leaves
        · cases leaves
          obtain ⟨isPlace, _⟩ | ⟨_, isNext⟩ := substring_cases isSubstring valid
          · omega
          · have := isNext (Bool.eq_false_of_not_eq_true noRef)
            omega
        · cases leaves

theorem questionName_lt (isStop : packet.questionName flags questions place = .inr stop) : place < stop := by
  obtain ⟨result, isResult, isEqual⟩ := equalServices packet place
  rw [questionName, isResult] at isStop
  cases result with
  | outside => cases isStop
  | equal otherStop otherLast =>
    simp only at isStop
    split at isStop
    · cases isStop
    · cases isStop
      obtain ⟨⟨others, reads, _⟩, _⟩ := (isEqual _ _).mp rfl
      exact skip_lt (skip_of_reads reads)
  | different =>
    simp only at isStop
    split at isStop
    · next otherStop isSkipped =>
      cases isStop
      exact skip_lt ⟨_, isSkipped⟩
    · cases isStop
    · cases isStop

end Received

/-! ## What is sent -/

section Replies

variable {packet : Received} {record : ServiceRecord} {queryId : UInt16} {flags questions place : Nat}

/-- A question of class IN for the names of services. -/
structure Asked where
  place : Nat
  labels : List (List UInt8)
  stop : Nat
  rclass : Nat

structure Asked.InPacket (packet : Received) (asked : Asked) : Prop where
  name : packet.Reads asked.place asked.labels asked.stop
  rtype : packet.word asked.stop = some 12
  rclass : packet.word (asked.stop + 2) = some asked.rclass
  inClass : asked.rclass &&& 0x7FFF = 1

/-- The reply is the answer to the question. -/
def IsReply (record : ServiceRecord) (queryId : UInt16) (reply : Reply) (asked : Asked) : Prop :=
  (dotted asked.labels = dnsSd ∧ reply.unicast = true ∧ discoveryAnswer sendbufferSize record.service = .ok reply.bytes) ∨
    (dotted asked.labels = record.service ∧ reply.unicast = isUnicast asked.rclass ∧
      queryAnswer sendbufferSize (isUnicast asked.rclass) queryId record txtRecord = .ok reply.bytes)

theorem eq_of_take_eq {text short : List UInt8} {capacity : Nat} (isShort : short.length < capacity)
    (same : text.take capacity = short) : text = short := by
  have lengths := congrArg List.length same
  rw [List.length_take] at lengths
  rw [← same, List.take_of_length_le (by omega)]

theorem queryAnswer_ok_length {capacity : Nat} {unicast : Bool} {txt sent : List UInt8}
    (isOk : queryAnswer capacity unicast queryId record txt = .ok sent) :
    44 + record.service.length + record.hostname.length ≤ capacity := by
  rw [queryAnswer] at isOk
  split at isOk
  · cases isOk
  · omega

theorem sendReply_ok {unicast : Bool} {answer : Except Refusal (List UInt8)} {replies : List Reply}
    (isOk : sendReply unicast answer = .ok replies) :
    replies = [] ∨ ∃ bytes, answer = .ok bytes ∧ replies = [⟨unicast, bytes⟩] := by
  cases answer with
  | ok bytes =>
    cases isOk
    exact .inr ⟨bytes, rfl, rfl⟩
  | error refusal =>
    cases refusal with
    | failed =>
      cases isOk
      exact .inl rfl
    | overrun => cases isOk

theorem recordParsePtr_ok {offset length capacity : Nat} {text : List UInt8}
    (isOk : packet.recordParsePtr offset length capacity = .ok text) :
    text = [] ∨ ∃ labels last, packet.Reads offset labels last ∧ text = (dotted labels).take capacity := by
  rw [Received.recordParsePtr] at isOk
  split at isOk
  · exact Received.extractText_ok isOk
  · cases isOk
    exact .inl rfl

/-- A question is answered once, and only if it is one for the services or the service. -/
theorem serviceCallback_ok (named : record.service ≠ []) {rtype rclass length : Nat} {replies : List Reply}
    (isOk : serviceCallback record packet queryId rtype rclass place length = .ok replies) :
    replies = [] ∨ rtype = 12 ∧ ∃ labels last reply, packet.Reads place labels last ∧ replies = [reply] ∧
      ∀ stop, IsReply record queryId reply ⟨place, labels, stop, rclass⟩ := by
  rw [serviceCallback] at isOk
  split at isOk
  · next isPtr =>
    cases isText : packet.recordParsePtr place length namebufferSize with
    | error broken =>
      rw [isText] at isOk
      cases isOk
    | ok text =>
      simp only [isText, bind, Except.bind] at isOk
      split at isOk
      · next isServices =>
        obtain rfl | ⟨bytes, isAnswer, rfl⟩ := sendReply_ok isOk
        · exact .inl rfl
        · obtain isEmpty | ⟨labels, last, reads, isTaken⟩ := recordParsePtr_ok isText
          · rw [isEmpty] at isServices
            cases isServices
          · have isName := eq_of_take_eq (by decide) (isTaken.symm.trans isServices)
            exact .inr ⟨isPtr, labels, last, _, reads, rfl, fun stop => .inl ⟨isName, rfl, isAnswer⟩⟩
      · split at isOk
        · next isService =>
          obtain rfl | ⟨bytes, isAnswer, rfl⟩ := sendReply_ok isOk
          · exact .inl rfl
          · obtain isEmpty | ⟨labels, last, reads, isTaken⟩ := recordParsePtr_ok isText
            · exact absurd (isService.symm.trans isEmpty) named
            · have isShort : record.service.length < namebufferSize := by
                have := queryAnswer_ok_length isAnswer
                rw [sendbufferSize] at this
                rw [namebufferSize]
                omega
              have isName := eq_of_take_eq isShort (isTaken.symm.trans isService)
              exact .inr ⟨isPtr, labels, last, _, reads, rfl, fun stop => .inr ⟨isName, rfl, isAnswer⟩⟩
        · cases isOk
          exact .inl rfl
  · split at isOk
    · cases isName : packet.recordParseSrv place length namebufferSize with
      | error broken =>
        rw [isName] at isOk
        cases isOk
      | ok text =>
        simp only [isName, bind, Except.bind] at isOk
        cases isOk
        exact .inl rfl
    · cases isOk
      exact .inl rfl

/-- Replies to questions of a packet behind a place, to each one at most. -/
structure RepliesTo (packet : Received) (record : ServiceRecord) (queryId : UInt16) (place many : Nat) (replies : List Reply)
    (asked : List Asked) : Prop where
  replies : List.Forall₂ (IsReply record queryId) replies asked
  inPacket : ∀ question ∈ asked, question.InPacket packet
  behind : ∀ question ∈ asked, place ≤ question.place
  inOrder : asked.Pairwise (·.place < ·.place)
  many : asked.length ≤ many

theorem repliesTo_nil {many : Nat} : RepliesTo packet record queryId place many [] [] where
  replies := .nil
  inPacket := by simp
  behind := by simp
  inOrder := .nil
  many := Nat.zero_le many

theorem listenFrom_replies (named : record.service ≠ []) (left parsed : Nat) :
    ∃ asked, RepliesTo packet record queryId place left
      (packet.listenFrom record queryId flags questions left place parsed).1 asked := by
  induction left generalizing place parsed with
  | zero => exact ⟨[], repliesTo_nil⟩
  | succ left inductionHypothesis =>
    rw [Received.listenFrom]
    cases isQuestion : packet.question flags questions place with
    | outside => exact ⟨[], repliesTo_nil⟩
    | refused => exact ⟨[], repliesTo_nil⟩
    | malformed => exact ⟨[], repliesTo_nil⟩
    | asked rtype rclass stop =>
      cases isCalled : serviceCallback record packet queryId rtype rclass place (stop - place) with
      | error broken => exact ⟨[], by simp only [isCalled]; exact repliesTo_nil⟩
      | ok replies =>
        simp only [isCalled]
        obtain ⟨isStop, isType, isClass, inClass⟩ := Received.question_asked isQuestion
        have before := Received.questionName_lt isStop
        obtain ⟨others, rest⟩ : ∃ asked, RepliesTo packet record queryId (stop + 4) left
            (packet.listenFrom record queryId flags questions left (stop + 4) (parsed + 1)).1 asked := inductionHypothesis _
        obtain rfl | ⟨rfl, labels, last, reply, reads, rfl, isReply⟩ := serviceCallback_ok named isCalled
        · refine ⟨others, rest.replies, rest.inPacket, fun question isOther => ?_, rest.inOrder, Nat.le_succ_of_le rest.many⟩
          have := rest.behind question isOther
          omega
        · have isLast := Received.questionName_stop isStop reads
          subst isLast
          refine ⟨⟨place, labels, last, rclass⟩ :: others, .cons (isReply last) rest.replies, ?_, ?_, ?_,
            Nat.succ_le_succ rest.many⟩
          · rw [List.forall_mem_cons]
            exact ⟨⟨reads, isType, isClass, inClass⟩, rest.inPacket⟩
          · rw [List.forall_mem_cons]
            refine ⟨Nat.le_refl place, fun question isOther => ?_⟩
            have := rest.behind question isOther
            omega
          · rw [List.pairwise_cons]
            refine ⟨fun question isOther => ?_, rest.inOrder⟩
            have := rest.behind question isOther
            simp only
            omega

/-- Whatever is received, each reply is the answer to a question of its own in the packet, for the services or for the
service, and in their order. -/
theorem listen_replies (packet : Received) {record : ServiceRecord} (named : record.service ≠ []) :
    ∃ asked, RepliesTo packet record (UInt16.ofNat ((packet.word 0).getD 0)) 12 ((packet.word 4).getD 0)
      (packet.listen record).1 asked := by
  rw [Received.listen]
  split
  · exact ⟨[], repliesTo_nil⟩
  · split
    · next queryId flags questions isId _ isQuestions =>
      rw [isId, isQuestions]
      exact listenFrom_replies named questions 0
    · exact ⟨[], repliesTo_nil⟩

theorem listen_replies_plain : ∃ asked, RepliesTo servicesPacket plainRecord (UInt16.ofNat ((servicesPacket.word 0).getD 0)) 12
    ((servicesPacket.word 4).getD 0) (servicesPacket.listen plainRecord).1 asked :=
  listen_replies servicesPacket (by decide)

end Replies

/-! ## A name that refers to itself -/

namespace Received

variable {packet : Received} {cur last target : Nat} {front back labels : List (List UInt8)} {rest : List UInt8}

theorem nextLabel_label {label : List UInt8} (holds : packet.Holds cur (labelBytes label)) (nonempty : label ≠ [])
    (short : label.length < 192) : packet.nextLabel cur = some (cur + (labelBytes label).length) := by
  refine nextLabel_eq_some.mpr ⟨_, _, _, substring_label holds nonempty short, ?_, ?_⟩
  · exact (List.length_pos_iff.mpr nonempty).ne'
  · rw [length_labelBytes]
    omega

theorem follow_labels (readable : Readable labels) (holds : packet.Holds cur (labelsBytes labels)) :
    follow packet.nextLabel labels.length cur = some (cur + (labelsBytes labels).length) := by
  induction labels generalizing cur with
  | nil => rfl
  | cons label labels inductionHypothesis =>
    rw [Readable, List.forall_mem_cons] at readable
    obtain ⟨⟨nonempty, short⟩, readable⟩ := readable
    rw [labelsBytes_cons] at holds ⊢
    obtain ⟨isLabel, isRest⟩ := holds_append.mp holds
    rw [List.length_cons, follow, nextLabel_label isLabel nonempty short, Option.bind_some,
      inductionHypothesis readable isRest, List.length_append, Nat.add_assoc]

theorem skip_labels {result : Skipped} (readable : Readable labels) (holds : packet.Holds cur (labelsBytes labels)) :
    Finishes packet.skipTurn cur result ↔ Finishes packet.skipTurn (cur + (labelsBytes labels).length) result := by
  induction labels generalizing cur with
  | nil => rfl
  | cons label labels inductionHypothesis =>
    rw [Readable, List.forall_mem_cons] at readable
    obtain ⟨⟨nonempty, short⟩, readable⟩ := readable
    rw [labelsBytes_cons] at holds ⊢
    obtain ⟨isLabel, isRest⟩ := holds_append.mp holds
    have notEmpty : label.length ≠ 0 := (List.length_pos_iff.mpr nonempty).ne'
    have place : cur + 1 + label.length = cur + (labelBytes label).length := by
      rw [length_labelBytes]
      omega
    rw [finishes_again (skipTurn_again notEmpty (substring_label isLabel nonempty short)), place,
      inductionHypothesis readable isRest, List.length_append, Nat.add_assoc]

/-- A name that goes on with a reference to one of its own labels. -/
theorem recurs_of_holds (readable : Readable (front ++ back)) (some : back ≠ [])
    (small : cur + (labelsBytes front).length < 16384)
    (holds : packet.Holds cur (labelsBytes (front ++ back) ++ (refBytes (cur + (labelsBytes front).length) ++ rest))) :
    Recurs packet.nextLabel cur ∧
      Finishes packet.skipTurn cur (.skipped (cur + (labelsBytes (front ++ back)).length + 2)) := by
  obtain ⟨isLabels, isRef⟩ := holds_append.mp holds
  cases back with
  | nil => exact absurd rfl some
  | cons label back =>
    have whole : labelsBytes (front ++ label :: back) = labelsBytes front ++ (labelBytes label ++ labelsBytes back) :=
      List.flatMap_append
    have isReadable := List.forall_mem_append.mp readable
    obtain ⟨nonempty, short⟩ := isReadable.2 label (List.mem_cons_self ..)
    have isBack := (holds_append.mp (whole ▸ isLabels)).2
    have isLabel := (holds_append.mp isBack).1
    have direct := substring_label isLabel nonempty short
    have inside : cur + (labelsBytes front).length < packet.size := by
      have := isLabel.fits
      rw [length_labelBytes] at this
      omega
    have notEmpty : label.length ≠ 0 := (List.length_pos_iff.mpr nonempty).ne'
    -- Behind the reference the name is where it was behind the label that is referred to.
    have atRef : packet.getNextSubstring (cur + (labelsBytes (front ++ label :: back)).length) =
        Option.some ⟨Option.some (cur + (labelsBytes front).length + 1), label.length, true⟩ := by
      have isFirst := isLabel.head
      have fits := isLabel.fits
      have number : (UInt8.ofNat label.length).toNat = label.length :=
        UInt8.toNat_ofNat_of_lt' (Nat.lt_trans short (by decide))
      rw [length_labelBytes] at fits
      rw [substring_ref isRef small inside, labelAt, isFirst, Option.map_some, number, if_neg (by omega)]
    have sameNext : packet.nextLabel (cur + (labelsBytes (front ++ label :: back)).length) =
        packet.nextLabel (cur + (labelsBytes front).length) := by
      rw [nextLabel, nextLabel, atRef, direct]
      rfl
    have toRef : follow packet.nextLabel (front.length + (label :: back).length) cur =
        Option.some (cur + (labelsBytes (front ++ label :: back)).length) := by
      rw [← List.length_append]
      exact follow_labels readable isLabels
    have around : follow packet.nextLabel (label :: back).length (cur + (labelsBytes (front ++ label :: back)).length) =
        Option.some (cur + (labelsBytes (front ++ label :: back)).length) := by
      have fromLabel : follow packet.nextLabel (label :: back).length (cur + (labelsBytes front).length) =
          Option.some (cur + (labelsBytes front).length + (labelsBytes (label :: back)).length) :=
        follow_labels isReadable.2 isBack
      rw [List.length_cons, follow] at fromLabel ⊢
      rw [sameNext, fromLabel, whole, List.length_append, Nat.add_assoc]
      rfl
    refine ⟨⟨_, front.length + (label :: back).length + (label :: back).length, _, ?_, toRef, ?_⟩, ?_⟩
    · rw [List.length_cons]
      omega
    · rw [follow_add, toRef, Option.bind_some, around]
    · exact (skip_labels readable isLabels).mpr (finishes_leave (skipTurn_ref atRef))

/-- What the listening does with the first question of a packet. -/
theorem listen_eq {queryId flags questions : Nat} {counts content : List UInt8} (record : ServiceRecord)
    (isCounts : counts.length = 6) (smallId : queryId < 65536) (smallFlags : flags < 65536) (few : questions < 65536)
    (holds : packet.Holds 0 (be16 queryId ++ (be16 flags ++ (be16 questions ++ counts)) ++ content)) :
    packet.Holds 12 content ∧ packet.listen record =
      packet.listenFrom record (UInt16.ofNat queryId) flags questions questions 12 0 := by
  have behind := (holds_append.mp holds).2
  simp only [List.length_append, length_be16, isCounts, Nat.zero_add, Nat.reduceAdd] at behind
  have all := holds
  rw [List.append_assoc, List.append_assoc, List.append_assoc] at all
  have isId := word_be16 smallId all
  have isFlags := word_be16 smallFlags (holds_append.mp all).2
  have isQuestions := word_be16 few (holds_append.mp (holds_append.mp all).2).2
  simp only [length_be16, Nat.zero_add, Nat.reduceAdd] at isFlags isQuestions
  have notEmpty : packet.size ≠ 0 := by
    have fits := holds.fits
    simp only [List.length_append, length_be16] at fits
    omega
  exact ⟨behind, by rw [listen, if_neg notEmpty, isId, isFlags, isQuestions]⟩

/-- A packet whose first question is for a name that refers to one of its own labels is never done with. -/
theorem listen_endless {queryId flags questions rclass : Nat} {counts rest : List UInt8} (record : ServiceRecord)
    (isCounts : counts.length = 6) (smallId : queryId < 65536) (smallFlags : flags < 65536) (few : questions < 65536)
    (one : 0 < questions) (readable : Readable (front ++ back)) (some : back ≠ [])
    (small : 12 + (labelsBytes front).length < 16384) (smallClass : rclass < 65536) (inClass : rclass &&& 0x7FFF = 1)
    (holds : packet.Holds 0 (be16 queryId ++ (be16 flags ++ (be16 questions ++ counts)) ++
      (labelsBytes (front ++ back) ++ (refBytes (12 + (labelsBytes front).length) ++
        (be16 12 ++ (be16 rclass ++ rest)))))) :
    packet.listen record = ([], .error .endless) := by
  obtain ⟨isName, isListen⟩ := listen_eq record isCounts smallId smallFlags few holds
  obtain ⟨recurs, isSkipped⟩ := recurs_of_holds readable some small isName
  have isBehind := (holds_append.mp (holds_append.mp isName).2).2
  rw [length_refBytes] at isBehind
  have isType := word_be16 (by decide) isBehind
  have isClass := word_be16 smallClass (holds_append.mp isBehind).2
  rw [length_be16] at isClass
  have fits := isBehind.fits
  -- The name is no name for the services.
  have isDifferent : loop (equalTurn packet servicesPacket) 5 ⟨12, 12, none, none⟩ = Option.some .different := by
    obtain ⟨result, isResult, _⟩ := equalServices packet 12
    have finishes : Finishes (equalTurn packet servicesPacket) ⟨12, 12, none, none⟩ .different :=
      different_of_endless reads_services (endless_of_recurs recurs)
    rw [isResult, finishes_unique ⟨_, isResult⟩ finishes]
  have isSkip : loop packet.skipTurn (packet.size - 12 + 1) 12 =
      Option.some (.skipped (12 + (labelsBytes (front ++ back)).length + 2)) := by
    obtain ⟨result, isResult⟩ := exists_finishes (packet.size - ·) (fun _ _ goesOn => (skip_lowers goesOn).1) 12
    rw [isResult, finishes_unique ⟨_, isResult⟩ isSkipped]
  have isQuestion : packet.question flags questions 12 =
      .asked 12 rclass (12 + (labelsBytes (front ++ back)).length + 2) := by
    rw [question, questionName, isDifferent]
    simp only [isSkip, isType, isClass, if_pos inClass]
  obtain ⟨left, rfl⟩ := Nat.exists_eq_succ_of_ne_zero one.ne'
  have isCalled : serviceCallback record packet (UInt16.ofNat queryId) 12 rclass 12
      (12 + (labelsBytes (front ++ back)).length + 2 - 12) = .error .endless := by
    have isText : packet.recordParsePtr 12 (12 + (labelsBytes (front ++ back)).length + 2 - 12) namebufferSize =
        .error .endless := by
      rw [recordParsePtr, if_pos (by omega)]
      exact extractText_endless_iff.mpr recurs
    rw [serviceCallback, if_pos rfl, isText]
    rfl
  rw [isListen, listenFrom, isQuestion]
  simp only [isCalled]

theorem listen_endless_label : (Received.mk ([0, 0, 0, 0, 0, 1, 0, 0, 0, 0, 0, 0, 1, 97, 0xC0, 12, 0, 12, 0, 1]) 20
    (by decide)).listen plainRecord = ([], .error .endless) := by
  have readable : Readable ([] ++ [[97]]) := by
    unfold Readable
    decide
  have holds : (Received.mk ([0, 0, 0, 0, 0, 1, 0, 0, 0, 0, 0, 0, 1, 97, 0xC0, 12, 0, 12, 0, 1]) 20 (by decide)).Holds 0
      (be16 0 ++ (be16 0 ++ (be16 1 ++ [0, 0, 0, 0, 0, 0])) ++
        (labelsBytes ([] ++ [[97]]) ++ (refBytes (12 + (labelsBytes []).length) ++ (be16 12 ++ (be16 1 ++ []))))) :=
    ⟨by decide, by decide +kernel⟩
  exact listen_endless plainRecord rfl (by decide) (by decide) (by decide) (by decide) readable (by simp) (by decide)
    (by decide) rfl holds

end Received

end AbilityFramework.DiscoveryMgr.Mdns
