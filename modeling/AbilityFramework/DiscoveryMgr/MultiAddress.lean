import AbilityFramework.DiscoveryMgr.PeerAddress
import AbilityFramework.DiscoveryMgr.TeamRecords
import AbilityFramework.Library.Pieces
import Mathlib.Data.List.TakeWhile

/-! # Multi-addresses

`impl_send` takes an address for `/ip4/<ip>` or `/ip4/<ip>/http/<port>`, and `make_pinfo` writes such addresses.  The
parser passes over empty segments, reads a number at the start of the fourth segment whatever follows and however large
it is, and takes the default port if the third segment is not `http`.  It goes by the letter of the format exactly for
the addresses that none of this makes good (`sendsExactly_iff`). -/

namespace AbilityFramework.DiscoveryMgr

open Library

/-! ## Dotted quads -/

theorem octet_words : ∀ word ∈ Regex.words (Regex.anyOf octets),
    Nat.ofDigitChars 10 word 0 < 256 ∧ Nat.toDigits 10 (Nat.ofDigitChars 10 word 0) = word := by
  decide +kernel

theorem octet_of_rmatch {text : List Char} (matched : (Regex.anyOf octets).rmatch text = true) :
    ∃ value : Fin 256, text = Nat.toDigits 10 value := by
  obtain ⟨small, same⟩ := octet_words text (Regex.mem_words (by decide) matched)
  exact ⟨⟨_, small⟩, same.symm⟩

theorem octetDot_of_rmatch {text : List Char}
    (matched : (Regex.anyOf (octets.map (· * .char '.'))).rmatch text = true) :
    ∃ value : Fin 256, text = Nat.toDigits 10 value ++ ['.'] := by
  obtain ⟨_, isOctetDot, matched⟩ := Regex.rmatch_anyOf.mp matched
  obtain ⟨octet, isOctet, rfl⟩ := List.mem_map.mp isOctetDot
  obtain ⟨digits, dot, rfl, isDigits, isDot⟩ := Regex.rmatch_mul_iff.mp matched
  obtain ⟨value, rfl⟩ := octet_of_rmatch (Regex.rmatch_anyOf.mpr ⟨octet, isOctet, isDigits⟩)
  exact ⟨value, by rw [(RegularExpression.char_rmatch_iff '.' dot).mp isDot]⟩

/-- The regular expression takes the dotted quads, each number without zeros in front. -/
theorem isValidIpv4_iff {ip : String} : isValidIpv4 ip = true ↔ ∃ quad : Ipv4, ip = quad.text := by
  constructor
  · intro valid
    obtain ⟨_, _, isText, matched, isFourth⟩ := Regex.rmatch_mul_iff.mp valid
    obtain ⟨_, _, _, rfl, isFirst, isSecond, isThird⟩ := Regex.rmatch_pow_three_iff.mp matched
    obtain ⟨first, rfl⟩ := octetDot_of_rmatch isFirst
    obtain ⟨second, rfl⟩ := octetDot_of_rmatch isSecond
    obtain ⟨third, rfl⟩ := octetDot_of_rmatch isThird
    obtain ⟨fourth, rfl⟩ := octet_of_rmatch isFourth
    refine ⟨⟨first, second, third, fourth⟩, ?_⟩
    rw [Ipv4.text, Ipv4.characters, ← isText, String.ofList_toList]
  · rintro ⟨quad, rfl⟩
    exact isValidIpv4_text quad

theorem Ipv4.noSlash (ip : Ipv4) : '/' ∉ ip.text.toList := by
  simp [Ipv4.text, Ipv4.characters, digits_noSlash]

theorem Ipv4.text_ne_empty (ip : Ipv4) : ip.text ≠ "" := by
  simp [Ipv4.text, Ipv4.characters, ← String.toList_inj]

/-! ## Segments -/

/-- Two slashes in a row, or a slash at the end. -/
def hasEmptySegment (addr : MultiAddr) : Bool := (addr.toList.tail.splitOn '/').any List.isEmpty

theorem hasEmptySegment_eq_false {addr : MultiAddr} :
    hasEmptySegment addr = false ↔ [] ∉ addr.toList.tail.splitOn '/' := by
  rw [hasEmptySegment, List.any_eq_false]
  constructor
  · exact fun none isEmpty => none [] isEmpty rfl
  · rintro none segment isSegment empty
    exact none (List.isEmpty_iff.mp empty ▸ isSegment)

theorem modifyHead_nil_append (pieces : List (List Char)) : pieces.modifyHead ([] ++ ·) = pieces := by
  cases pieces <;> rfl

theorem splitSegments_eq (current rest : List Char) :
    splitSegments current rest = ((rest.splitOn '/').modifyHead (current ++ ·)).filter (· ≠ []) := by
  induction rest generalizing current with
  | nil => by_cases none : current = [] <;> simp [splitSegments, none]
  | cons character rest inductionHypothesis =>
    rw [splitSegments, List.splitOn_cons_eq_if_modifyHead]
    by_cases isSlash : character = '/'
    · rw [if_pos isSlash, inductionHypothesis, modifyHead_nil_append, isSlash]
      by_cases none : current = [] <;> simp [none]
    · rw [if_neg isSlash, inductionHypothesis]
      cases rest.splitOn '/' <;> simp [isSlash]

/-- The segments of an address with a slash in front are its pieces, but for the empty ones. -/
theorem multiaddrSegments_cons {addr : MultiAddr} {rest : List Char} (isAddr : addr.toList = '/' :: rest) :
    multiaddrSegments addr = (pieces '/' rest).map String.ofList := by
  rw [multiaddrSegments, isAddr]
  simp only [splitSegments_eq, modifyHead_nil_append, pieces]

/-- An address that is written with these segments. -/
def joined (segments : List String) : MultiAddr := "/" ++ String.ofList (['/'].intercalate (segments.map String.toList))

theorem toList_joined (segments : List String) :
    (joined segments).toList = '/' :: ['/'].intercalate (segments.map String.toList) := by
  simp [joined]

theorem splitOn_joined {segments : List String} (some : segments ≠ [])
    (noSlash : ∀ segment ∈ segments, '/' ∉ segment.toList) :
    (['/'].intercalate (segments.map String.toList)).splitOn '/' = segments.map String.toList := by
  refine List.splitOn_intercalate '/' ?_ (by simpa using some)
  rintro _ isSegment
  obtain ⟨segment, member, rfl⟩ := List.mem_map.mp isSegment
  exact noSlash segment member

theorem segments_joined {segments : List String} (some : segments ≠ [])
    (plain : ∀ segment ∈ segments, '/' ∉ segment.toList ∧ segment ≠ "") :
    multiaddrSegments (joined segments) = segments ∧ hasEmptySegment (joined segments) = false := by
  have split := splitOn_joined some fun segment member => (plain segment member).1
  have noneEmpty : [] ∉ (['/'].intercalate (segments.map String.toList)).splitOn '/' := by
    rw [split]
    intro isSegment
    obtain ⟨segment, member, empty⟩ := List.mem_map.mp isSegment
    exact (plain segment member).2 (String.toList_eq_nil_iff.mp empty)
  constructor
  · rw [multiaddrSegments_cons (toList_joined segments), pieces_eq_splitOn '/' noneEmpty, split, List.map_map]
    simp [Function.comp_def]
  · rw [hasEmptySegment_eq_false, toList_joined, List.tail_cons]
    exact noneEmpty

/-- Without empty segments an address is written with its segments. -/
theorem eq_joined {addr : MultiAddr} (some : multiaddrSegments addr ≠ []) (noEmpty : hasEmptySegment addr = false) :
    addr = joined (multiaddrSegments addr) := by
  cases isAddr : addr.toList with
  | nil => simp [multiaddrSegments, isAddr] at some
  | cons first rest =>
    by_cases isSlash : first = '/'
    · subst isSlash
      have noneEmpty : [] ∉ rest.splitOn '/' := by
        rwa [hasEmptySegment_eq_false, isAddr, List.tail_cons] at noEmpty
      refine String.toList_injective ?_
      rw [toList_joined, multiaddrSegments_cons isAddr, pieces_eq_splitOn '/' noneEmpty, List.map_map, isAddr]
      simp [Function.comp_def, List.intercalate_splitOn]
    · -- Without a slash in front there are no segments.
      refine absurd ?_ some
      rw [multiaddrSegments, isAddr]
      split
      · rename_i sameFirst
        exact absurd (List.cons.inj sameFirst).1 isSlash
      · rfl

/-! ## Ports -/

/-- A decimal number up to 65535. -/
def isPort (port : String) : Bool :=
  port ≠ "" && port.toList.all Char.isDigit && Nat.ofDigitChars 10 port.toList 0 ≤ 65535

theorem foldl_digits {digits : List Char} (allDigits : digits.all Char.isDigit = true) (start : Nat) :
    digits.foldl (fun (value : Int) digit => 10 * value + (digit.toNat - '0'.toNat)) start =
      (Nat.ofDigitChars 10 digits start : Nat) := by
  induction digits generalizing start with
  | nil => rfl
  | cons digit digits inductionHypothesis =>
    rw [List.all_cons, Bool.and_eq_true] at allDigits
    have isDigit : '0'.toNat ≤ digit.toNat := (Char.isDigit_iff_toNat.mp allDigits.1).1
    have next : ((10 * start + (digit.toNat - '0'.toNat) : Nat) : Int) =
        10 * start + (digit.toNat - '0'.toNat) := by omega
    rw [List.foldl_cons, Nat.ofDigitChars_cons, ← inductionHypothesis allDigits.2, next]

theorem fromChars_of_isPort {port : String} (valid : isPort port = true) :
    fromChars port = some ((Nat.ofDigitChars 10 port.toList 0 : Nat) : Int) := by
  simp only [isPort, Bool.and_eq_true, decide_eq_true_eq, ne_eq] at valid
  obtain ⟨⟨nonempty, allDigits⟩, small⟩ := valid
  have whole : port.toList.takeWhile Char.isDigit = port.toList :=
    List.takeWhile_eq_self_iff.mpr (List.all_eq_true.mp allDigits)
  have value := foldl_digits allDigits 0
  have inRange : decide (-2147483648 ≤ ((Nat.ofDigitChars 10 port.toList 0 : Nat) : Int)) &&
      decide (((Nat.ofDigitChars 10 port.toList 0 : Nat) : Int) ≤ 2147483647) := by
    simp only [Bool.and_eq_true, decide_eq_true_eq]
    omega
  simp only [fromChars]
  split
  · -- A minus sign is no digit.
    rename_i rest isMinus
    rw [isMinus] at allDigits
    cases allDigits
  · rename_i characters _
    rw [whole]
    split
    · rename_i none
      exact absurd (String.toList_eq_nil_iff.mp none) nonempty
    · exact (congrArg _ (congrArg some value)).trans (if_pos inRange)

/-! ## The format -/

/-- What an address stands for, by the letter. -/
inductive Denotes : MultiAddr → HttpOverIpv4 → Prop
  | plain (ip : Ipv4) : Denotes ("/ip4/" ++ ip.text) ⟨ip.text, 8080⟩
  | http (ip : Ipv4) (port : String) (valid : isPort port = true) :
    Denotes ("/ip4/" ++ ip.text ++ "/http/" ++ port) ⟨ip.text, (Nat.ofDigitChars 10 port.toList 0 : Nat)⟩

/-- The parser takes the address for one that it is not: there is an empty segment, the third one is not `http`, or a
number with which the fourth one begins is not the port that it should be. -/
def lenient (addr : MultiAddr) : Bool :=
  match multiaddrSegments addr with
  | [family, ip] => family = "ip4" && isValidIpv4 ip && hasEmptySegment addr
  | [family, ip, protocol, port] => family = "ip4" && isValidIpv4 ip &&
    (protocol ≠ "http" || (fromChars port).isSome && (hasEmptySegment addr || !isPort port))
  | _ => false

theorem plain_joined (ip : Ipv4) : "/ip4/" ++ ip.text = joined ["ip4", ip.text] := by
  simp [joined, ← String.toList_inj, List.intercalate]

theorem http_joined (ip : Ipv4) (port : String) :
    "/ip4/" ++ ip.text ++ "/http/" ++ port = joined ["ip4", ip.text, "http", port] := by
  simp [joined, ← String.toList_inj, List.intercalate]

theorem isPort_plain {port : String} (valid : isPort port = true) : '/' ∉ port.toList ∧ port ≠ "" := by
  simp only [isPort, Bool.and_eq_true, decide_eq_true_eq, ne_eq] at valid
  obtain ⟨⟨nonempty, allDigits⟩, _⟩ := valid
  refine ⟨fun isSlash => ?_, nonempty⟩
  exact absurd (List.all_eq_true.mp allDigits '/' isSlash) (by decide)

theorem segments_plain (ip : Ipv4) : multiaddrSegments ("/ip4/" ++ ip.text) = ["ip4", ip.text] ∧
    hasEmptySegment ("/ip4/" ++ ip.text) = false := by
  rw [plain_joined]
  exact segments_joined (by simp) (by simp [ip.noSlash, ip.text_ne_empty])

theorem segments_http (ip : Ipv4) {port : String} (valid : isPort port = true) :
    multiaddrSegments ("/ip4/" ++ ip.text ++ "/http/" ++ port) = ["ip4", ip.text, "http", port] ∧
    hasEmptySegment ("/ip4/" ++ ip.text ++ "/http/" ++ port) = false := by
  rw [http_joined]
  exact segments_joined (by simp) (by simp [ip.noSlash, ip.text_ne_empty, isPort_plain valid])

/-- An address in the format is taken for what it stands for. -/
theorem target_of_denotes {addr : MultiAddr} {server : HttpOverIpv4} (denotes : Denotes addr server) :
    target addr = some server ∧ lenient addr = false := by
  cases denotes with
  | plain ip =>
    obtain ⟨segments, noEmpty⟩ := segments_plain ip
    simp only [target, lenient, segments, noEmpty, HttpOverIpv4.fromSegments, isValidIpv4_text]
    exact ⟨rfl, rfl⟩
  | http ip port valid =>
    obtain ⟨segments, noEmpty⟩ := segments_http ip valid
    simp only [target, lenient, segments, noEmpty, HttpOverIpv4.fromSegments, isValidIpv4_text,
      fromChars_of_isPort valid, valid]
    exact ⟨rfl, rfl⟩

theorem target_cases {addr : MultiAddr} {server : HttpOverIpv4} (accepted : target addr = some server) :
    (∃ ip : Ipv4, multiaddrSegments addr = ["ip4", ip.text] ∧ server = ⟨ip.text, 8080⟩) ∨
      ∃ (ip : Ipv4) (protocol port : String), multiaddrSegments addr = ["ip4", ip.text, protocol, port] ∧
        (protocol = "http" → fromChars port = some server.port ∧ server.addr = ip.text) := by
  unfold target HttpOverIpv4.fromSegments at accepted
  split at accepted
  · rename_i family ip segments
    split at accepted
    · rename_i isIp4
      rw [Bool.and_eq_true, decide_eq_true_eq] at isIp4
      obtain ⟨rfl, valid⟩ := isIp4
      obtain ⟨quad, rfl⟩ := isValidIpv4_iff.mp valid
      exact .inl ⟨quad, segments, (Option.some.inj accepted).symm⟩
    · cases accepted
  · rename_i family ip protocol port segments
    split at accepted
    · rename_i isIp4
      rw [Bool.and_eq_true, decide_eq_true_eq] at isIp4
      obtain ⟨rfl, valid⟩ := isIp4
      obtain ⟨quad, rfl⟩ := isValidIpv4_iff.mp valid
      refine .inr ⟨quad, protocol, port, segments, fun isHttp => ?_⟩
      rw [if_pos isHttp] at accepted
      obtain ⟨value, read, rfl⟩ := Option.map_eq_some_iff.mp accepted
      exact ⟨read, rfl⟩
    · cases accepted
  · cases accepted

/-- What is accepted without leniency is in the format. -/
theorem denotes_of_target {addr : MultiAddr} {server : HttpOverIpv4} (accepted : target addr = some server)
    (strict : lenient addr = false) : Denotes addr server := by
  obtain ⟨ip, segments, rfl⟩ | ⟨ip, protocol, port, segments, read⟩ := target_cases accepted
  · have noEmpty : hasEmptySegment addr = false := by
      simpa [lenient, segments, isValidIpv4_text] using strict
    rw [eq_joined (by simp [segments]) noEmpty, segments, ← plain_joined]
    exact .plain ip
  · have strict : protocol = "http" ∧
        ((fromChars port).isSome = true → hasEmptySegment addr = false ∧ isPort port = true) := by
      simpa [lenient, segments, isValidIpv4_text] using strict
    obtain ⟨rfl, strict⟩ := strict
    obtain ⟨read, isIp⟩ := read rfl
    obtain ⟨noEmpty, valid⟩ := strict (by rw [read, Option.isSome_some])
    have server_eq : server = ⟨ip.text, (Nat.ofDigitChars 10 port.toList 0 : Nat)⟩ := by
      rw [fromChars_of_isPort valid, Option.some.injEq] at read
      rw [read, ← isIp]
    rw [eq_joined (by simp [segments]) noEmpty, segments, ← http_joined, server_eq]
    exact .http ip port valid

theorem target_of_lenient {addr : MultiAddr} (isLenient : lenient addr = true) :
    ∃ server, target addr = some server := by
  unfold lenient at isLenient
  split at isLenient
  · rename_i family ip segments
    simp only [Bool.and_eq_true, decide_eq_true_eq] at isLenient
    obtain ⟨⟨rfl, valid⟩, _⟩ := isLenient
    exact ⟨⟨ip, defaultPort⟩, by simp [target, segments, HttpOverIpv4.fromSegments, valid]⟩
  · rename_i family ip protocol port segments
    simp only [Bool.and_eq_true, Bool.or_eq_true, decide_eq_true_eq] at isLenient
    obtain ⟨⟨rfl, valid⟩, other⟩ := isLenient
    by_cases isHttp : protocol = "http"
    · obtain notHttp | ⟨read, _⟩ := other
      · exact absurd isHttp notHttp
      · obtain ⟨value, read⟩ := Option.isSome_iff_exists.mp read
        exact ⟨⟨ip, value⟩, by simp [target, segments, HttpOverIpv4.fromSegments, valid, isHttp, read]⟩
    · exact ⟨⟨ip, defaultPort⟩, by simp [target, segments, HttpOverIpv4.fromSegments, valid, isHttp]⟩
  · cases isLenient

/-! ## Addresses of peers on record -/

/-- The address that `make_pinfo` writes for an IPv4 address of a peer. -/
def peerAddress (port : Int) (ip4 : String) : MultiAddr :=
  "/ip4/" ++ ip4 ++ (if port ≠ 8080 then "/http/" ++ toString port else "")

/-- What the port of a peer reads as is `unassigned` while nothing has been assigned to it. -/
def makePinfo (text : UuidText) (unassigned : Int) (id : String) (minfo : MultiMap.Peer) : Option PeerInfo :=
  match text.fromString id with
  | none => none
  | some optId =>
    let port := minfo.port.getD unassigned
    let suffix := if port ≠ 8080 then "/http/" ++ toString port else ""
    let withIpv4 := (minfo.ipv4.map (peerAddress port)).foldl PeerInfo.insertAddress { id := optId }
    some ((minfo.ipv6.map ("/ip6/" ++ · ++ suffix)).foldl PeerInfo.insertAddress withIpv4)

theorem mem_insertAddress {peer : PeerInfo} {address inserted : MultiAddr} :
    address ∈ (peer.insertAddress inserted).addresses ↔ address = inserted ∨ address ∈ peer.addresses := by
  rw [PeerInfo.insertAddress]
  split
  · rename_i known
    exact ⟨.inr, fun either => either.elim (fun same => same ▸ known) id⟩
  · exact List.mem_orderedInsert _

theorem mem_insertAddresses {peer : PeerInfo} {address : MultiAddr} {inserted : List MultiAddr} :
    address ∈ (inserted.foldl PeerInfo.insertAddress peer).addresses ↔
      address ∈ inserted ∨ address ∈ peer.addresses := by
  induction inserted generalizing peer with
  | nil => simp
  | cons first rest inductionHypothesis =>
    rw [List.foldl_cons, inductionHypothesis, mem_insertAddress, List.mem_cons]
    tauto

theorem peerAddress_mem {text : UuidText} {unassigned : Int} {id : String} {minfo : MultiMap.Peer} {pinfo : PeerInfo}
    (made : makePinfo text unassigned id minfo = some pinfo) {port : Int} (isPort : minfo.port = some port)
    {ip4 : String} (listed : ip4 ∈ minfo.ipv4) : peerAddress port ip4 ∈ pinfo.addresses := by
  unfold makePinfo at made
  split at made
  · cases made
  · cases made
    rw [isPort, Option.getD_some, mem_insertAddresses, mem_insertAddresses]
    exact .inr (.inl (List.mem_map.mpr ⟨ip4, listed, rfl⟩))

theorem isPort_toString {port : Nat} (small : port ≤ 65535) :
    isPort (toString (port : Int)) = true ∧ Nat.ofDigitChars 10 (toString (port : Int)).toList 0 = port := by
  have isText : toString (port : Int) = port.repr := by
    rw [Int.toString_eq_repr, Int.repr_eq_if, if_pos (Int.natCast_nonneg port), Int.toNat_natCast]
  have value : Nat.ofDigitChars 10 (Nat.toDigits 10 port) 0 = port := Nat.ofDigitChars_ten_toDigits
  have allDigits : (Nat.toDigits 10 port).all Char.isDigit = true :=
    List.all_eq_true.mpr fun _ isDigit => Nat.isDigit_of_mem_toDigits (by decide) (Nat.le_refl 10) isDigit
  have nonempty : port.repr ≠ "" := by
    rw [ne_eq, ← String.toList_eq_nil_iff, Nat.toList_repr]
    exact Nat.toDigits_ne_nil
  rw [isPort, isText, Nat.toList_repr, value, allDigits, decide_eq_true nonempty, decide_eq_true small]
  exact ⟨rfl, rfl⟩

theorem peerAddress_denotes (ip : Ipv4) {port : Nat} (small : port ≤ 65535) :
    Denotes (peerAddress port ip.text) ⟨ip.text, port⟩ := by
  obtain ⟨valid, value⟩ := isPort_toString small
  rw [peerAddress]
  split
  · have denotes := Denotes.http ip _ valid
    rw [value] at denotes
    simpa [String.append_assoc] using denotes
  · rename_i isDefault
    rw [ne_eq, not_not] at isDefault
    rw [isDefault]
    simpa using Denotes.plain ip

/-! ## Sending -/

/-- `impl_send`, with the servers that it posts to. -/
def implSendLog (text : UuidText) (post : Post) (addr : MultiAddr) (msg : ElectionMsg) :
    List HttpOverIpv4 × ElectionMsgRes :=
  match target addr with
  | none => ([], .timeout)
  | some http => ([http], readReply text (post http (requestBody text msg)))

/-- The server that the address stands for is contacted, and none if it stands for none. -/
def SendsExactly (text : UuidText) (addr : MultiAddr) : Prop :=
  ∀ post msg, (∀ server, Denotes addr server → (implSendLog text post addr msg).1 = [server]) ∧
    ((∀ server, ¬ Denotes addr server) → implSendLog text post addr msg = ([], .timeout))

variable (text : UuidText)

theorem implSendLog_snd (post : Post) (addr : MultiAddr) (msg : ElectionMsg) :
    (implSendLog text post addr msg).2 = implSend text post addr msg := by
  rw [implSendLog, implSend]
  cases target addr <;> rfl

theorem implSendLog_of_target {addr : MultiAddr} {server : HttpOverIpv4} (accepted : target addr = some server)
    (post : Post) (msg : ElectionMsg) : (implSendLog text post addr msg).1 = [server] := by
  rw [implSendLog, accepted]

theorem sendsExactly_addr (addr : MultiAddr) : SendsExactly text addr ↔ lenient addr = false := by
  constructor
  · intro exactly
    by_contra isLenient
    rw [Bool.not_eq_false] at isLenient
    obtain ⟨server, accepted⟩ := target_of_lenient isLenient
    -- What is taken leniently denotes nothing, and is contacted all the same.
    have noServer (server : HttpOverIpv4) : ¬ Denotes addr server := fun denotes => by
      rw [(target_of_denotes denotes).2] at isLenient
      cases isLenient
    obtain ⟨_, rejected⟩ := exactly (fun _ _ => none) (pingFrom 0)
    have contacted := implSendLog_of_target text accepted (fun _ _ => none) (pingFrom 0)
    rw [rejected noServer] at contacted
    cases contacted
  · intro strict post msg
    refine ⟨fun server denotes => ?_, fun noServer => ?_⟩
    · exact implSendLog_of_target text (target_of_denotes denotes).1 post msg
    · cases accepted : target addr with
      | none => rw [implSendLog, accepted]
      | some server => exact absurd (denotes_of_target accepted strict) (noServer server)

/-- The addresses for which the transport keeps to the format; those that `make_pinfo` writes are among them. -/
theorem sendsExactly_iff : (∀ addr, SendsExactly text addr ↔ lenient addr = false) ∧
    ∀ unassigned id minfo pinfo, makePinfo text unassigned id minfo = some pinfo →
      ∀ ip : Ipv4, ip.text ∈ minfo.ipv4 → ∀ port : Nat, port ≤ 65535 → minfo.port = some (port : Int) →
        peerAddress port ip.text ∈ pinfo.addresses ∧
          ∀ post msg, (implSendLog text post (peerAddress port ip.text) msg).1 = [⟨ip.text, port⟩] := by
  refine ⟨sendsExactly_addr text, fun unassigned id minfo pinfo made ip listed port small isPort => ?_⟩
  refine ⟨peerAddress_mem made isPort listed, ?_⟩
  exact implSendLog_of_target text (target_of_denotes (peerAddress_denotes ip small)).1

def kitchenTexts : UuidText := ⟨fun _ => "kitchen", fun written => if written = "kitchen" then some 2 else none⟩

def kitchenPeer : MultiMap.Peer := { name := "kitchen", port := some 9090, ipv4 := ["192.168.1.20"] }

theorem kitchenPeer_reached : ∃ pinfo, makePinfo kitchenTexts 0 "kitchen" kitchenPeer = some pinfo ∧
    "/ip4/192.168.1.20/http/9090" ∈ pinfo.addresses ∧ ∀ post msg,
      (implSendLog kitchenTexts post "/ip4/192.168.1.20/http/9090" msg).1 = [⟨"192.168.1.20", 9090⟩] := by
  obtain ⟨pinfo, made⟩ : ∃ pinfo, makePinfo kitchenTexts 0 "kitchen" kitchenPeer = some pinfo := ⟨_, rfl⟩
  have isText : Ipv4.text ⟨192, 168, 1, 20⟩ = "192.168.1.20" := by decide
  have isAddress : peerAddress 9090 "192.168.1.20" = "/ip4/192.168.1.20/http/9090" := by decide
  have rendered := (sendsExactly_iff kitchenTexts).2 0 "kitchen" kitchenPeer pinfo made ⟨192, 168, 1, 20⟩
    (by rw [isText]; exact List.mem_singleton.mpr rfl) 9090 (by decide) rfl
  rw [isText, Nat.cast_ofNat, isAddress] at rendered
  exact ⟨pinfo, made, rendered⟩

/-- A fourth segment that is no number, but begins with one, is taken for that number. -/
theorem garbledPort_accepted : ¬ SendsExactly kitchenTexts "/ip4/10.0.0.2/http/8080abc" := by
  have isLenient : lenient "/ip4/10.0.0.2/http/8080abc" = true := by decide +kernel
  rw [sendsExactly_addr, isLenient]
  exact Bool.false_ne_true.symm

end AbilityFramework.DiscoveryMgr
