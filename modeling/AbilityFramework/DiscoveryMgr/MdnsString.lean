import Mathlib.Data.UInt
import AbilityFramework.Library.Loops

/-! # Names in an mDNS packet

A name is a sequence of labels, each behind a byte with its length, and ends with a zero byte.  A length byte with its two
upper bits set is a reference: the next label is read at the place that it and the byte behind it say, and the name goes
on behind that label.  Nothing keeps a name from coming back to where it was.

`Reads` says what a name is; `mdns_string_extract` and `mdns_string_skip` are compared with it.
`extract_forever_iff`: the extraction runs for ever exactly if the name comes to a label twice.
`skip_agrees`: skipping always ends, and where the extraction ends with a name it ends behind that name. -/

namespace AbilityFramework.DiscoveryMgr.Mdns

open Library.Loops

/-- A buffer with what was received at its front.  Behind it is what was in the buffer before. -/
structure Received where
  buffer : List UInt8
  size : Nat
  fits : size ≤ buffer.length

/-- `mdns_string_pair_t`; no offset is `MDNS_INVALID_POS`. -/
structure StringPair where
  offset : Option Nat := none
  length : Nat := 0
  ref : Bool := false
  deriving DecidableEq

def isStringRef (value : UInt8) : Bool := 0xC0 == (value &&& 0xC0)

/-- The place that the two bytes of a reference say, the upper one first. -/
def stringRef (first second : UInt8) : Nat := 0x3fff &&& (first.toNat * 256 + second.toNat)

namespace Received

variable (packet : Received)

def bytes (offset length : Nat) : List UInt8 := (packet.buffer.drop offset).take length

/-- The label whose length byte is at the offset. -/
def labelAt (offset : Nat) (ref : Bool) : Option StringPair :=
  packet.buffer[offset]?.map fun length =>
    if packet.size < offset + 1 + length.toNat then { ref }
    else { offset := some (offset + 1), length := length.toNat, ref }

/-- There is no result where a byte behind the buffer is read. -/
def getNextSubstring (offset : Nat) : Option StringPair :=
  packet.buffer[offset]?.bind fun first =>
    if first = 0 then some { offset := some offset }
    else if isStringRef first then
      if packet.size < offset + 2 then some {}
      else packet.buffer[offset + 1]?.bind fun second =>
        if packet.size ≤ stringRef first second then some {} else packet.labelAt (stringRef first second) true
    else packet.labelAt offset false

/-! ## Extracting, skipping and comparing -/

inductive Extracted where
  /-- A byte behind the buffer was read. -/
  | outside
  /-- The text is empty, and the offset stays. -/
  | malformed
  | extracted (text : List UInt8) (offset : Nat)
  deriving DecidableEq

/-- Where `mdns_string_extract` is: `stop` is its `end`, and `written` what is in the text. -/
structure Extraction where
  cur : Nat
  stop : Option Nat := none
  written : List UInt8 := []
  remain : Nat

/-- What fits of a label, and a dot if there is still room. -/
def Extraction.copy (state : Extraction) (label : List UInt8) : Extraction :=
  let toCopy := min label.length state.remain
  let remain := state.remain - toCopy
  if remain = 0 then { state with written := state.written ++ label.take toCopy, remain }
  else { state with written := state.written ++ label.take toCopy ++ [46], remain := remain - 1 }

/-- The end of the name is behind the first reference. -/
def Extraction.stopWith (state : Extraction) (ref : Bool) : Option Nat :=
  if ref && state.stop.isNone then some (state.cur + 2) else state.stop

def Extraction.advance (state : Extraction) (cur : Nat) (ref : Bool) (label : List UInt8) : Extraction :=
  { state with cur, stop := state.stopWith ref }.copy label

def extractTurn (state : Extraction) : Turn Extraction Extracted :=
  match packet.getNextSubstring state.cur with
  | none => .leave .outside
  | some substr =>
    match substr.offset with
    | none => .leave .malformed
    | some offset =>
      let cur := offset + substr.length
      if substr.length = 0 then .leave (.extracted state.written ((state.stopWith substr.ref).getD (cur + 1)))
      else .again (state.advance cur substr.ref (packet.bytes offset substr.length))

/-- Where the extraction begins, with the capacity of the text. -/
def Extraction.start (offset capacity : Nat) : Extraction := { cur := offset, remain := capacity }

/-- `mdns_string_extract` ends with a result. -/
def extract (offset capacity : Nat) (result : Extracted) : Prop :=
  Finishes packet.extractTurn (.start offset capacity) result

inductive Skipped where
  | outside
  | malformed
  | skipped (offset : Nat)
  deriving DecidableEq

def skipTurn (cur : Nat) : Turn Nat Skipped :=
  match packet.getNextSubstring cur with
  | none => .leave .outside
  | some substr =>
    match substr.offset with
    | none => .leave .malformed
    | some offset =>
      if substr.ref then .leave (.skipped (cur + 2))
      else if substr.length = 0 then .leave (.skipped (offset + substr.length + 1))
      else .again (offset + substr.length)

/-! ## What a name is -/

/-- The labels of the name at an offset, and where it ends. -/
inductive Reads : Nat → List (List UInt8) → Nat → Prop where
  | terminator {cur offset : Nat} (substr : packet.getNextSubstring cur = some ⟨some offset, 0, false⟩) :
      Reads cur [] (offset + 1)
  | pointedTerminator {cur offset : Nat} (substr : packet.getNextSubstring cur = some ⟨some offset, 0, true⟩) :
      Reads cur [] (cur + 2)
  | label {cur offset length stop : Nat} {labels : List (List UInt8)} (nonempty : length ≠ 0)
      (substr : packet.getNextSubstring cur = some ⟨some offset, length, false⟩)
      (rest : Reads (offset + length) labels stop) : Reads cur (packet.bytes offset length :: labels) stop
  | pointedLabel {cur offset length stop : Nat} {labels : List (List UInt8)} (nonempty : length ≠ 0)
      (substr : packet.getNextSubstring cur = some ⟨some offset, length, true⟩)
      (rest : Reads (offset + length) labels stop) : Reads cur (packet.bytes offset length :: labels) (cur + 2)

/-- Where the label behind the one at an offset is. -/
def nextLabel (cur : Nat) : Option Nat :=
  (packet.getNextSubstring cur).bind fun substr =>
    substr.offset.bind fun offset => if substr.length = 0 then none else some (offset + substr.length)

end Received

/-- The text of a name: a dot behind every label. -/
def dotted (labels : List (List UInt8)) : List UInt8 := labels.flatMap (· ++ [46])

@[simp] theorem dotted_nil : dotted [] = [] := rfl

theorem dotted_append (first second : List (List UInt8)) : dotted (first ++ second) = dotted first ++ dotted second :=
  List.flatMap_append

@[simp] theorem dotted_singleton (label : List UInt8) : dotted [label] = label ++ [46] := by simp [dotted]

theorem isStringRef_iff (value : UInt8) : isStringRef value = true ↔ 192 ≤ value.toNat := by
  have all : ∀ number : Fin 256, isStringRef (UInt8.ofNat number) = true ↔ 192 ≤ (number : Nat) := by decide +kernel
  have this := all ⟨value.toNat, value.toNat_lt⟩
  rwa [UInt8.ofNat_toNat] at this

/-! ## One substring -/

namespace Received

variable {packet : Received} {cur later : Nat} {substr : StringPair}

theorem labelAt_of_lt (inside : cur < packet.buffer.length) (ref : Bool) :
    packet.labelAt cur ref = some (if packet.size < cur + 1 + packet.buffer[cur].toNat then { ref }
      else { offset := some (cur + 1), length := packet.buffer[cur].toNat, ref }) := by
  rw [labelAt, List.getElem?_eq_getElem inside]
  rfl

theorem labelAt_fits {offset : Nat} {ref : Bool} (isLabel : packet.labelAt cur ref = some substr)
    (valid : substr.offset = some offset) : offset = cur + 1 ∧ offset + substr.length ≤ packet.size ∧ substr.ref = ref := by
  rw [labelAt, Option.map_eq_some_iff] at isLabel
  obtain ⟨length, _, rfl⟩ := isLabel
  split at valid
  · cases valid
  · next fits =>
    cases valid
    rw [if_neg fits]
    exact ⟨rfl, Nat.not_lt.mp fits, rfl⟩

/-- What a substring with an offset is. -/
theorem substring_cases {offset : Nat} (isSubstring : packet.getNextSubstring cur = some substr)
    (valid : substr.offset = some offset) :
    (offset = cur ∧ substr.length = 0 ∧ substr.ref = false) ∨
      (offset + substr.length ≤ packet.size ∧ (substr.ref = false → offset = cur + 1)) := by
  rw [getNextSubstring, Option.bind_eq_some_iff] at isSubstring
  obtain ⟨first, _, isSubstring⟩ := isSubstring
  split at isSubstring
  · cases isSubstring
    cases valid
    exact .inl ⟨rfl, rfl, rfl⟩
  · split at isSubstring
    · split at isSubstring
      · cases isSubstring
        cases valid
      · obtain ⟨second, _, isSubstring⟩ := Option.bind_eq_some_iff.mp isSubstring
        split at isSubstring
        · cases isSubstring
          cases valid
        · obtain ⟨_, fits, isRef⟩ := labelAt_fits isSubstring valid
          exact .inr ⟨fits, fun noRef => absurd (isRef.symm.trans noRef) (by decide)⟩
    · obtain ⟨behind, fits, _⟩ := labelAt_fits isSubstring valid
      exact .inr ⟨fits, fun _ => behind⟩

/-- Both bytes of a reference were received. -/
theorem ref_fits {offset length : Nat} (isSubstring : packet.getNextSubstring cur = some ⟨some offset, length, true⟩) :
    cur + 2 ≤ packet.size := by
  rw [getNextSubstring, Option.bind_eq_some_iff] at isSubstring
  obtain ⟨first, _, isSubstring⟩ := isSubstring
  split at isSubstring
  · cases isSubstring
  · split at isSubstring
    · split at isSubstring
      · cases isSubstring
      · next both => exact Nat.not_lt.mp both
    · obtain ⟨_, _, isRef⟩ := labelAt_fits isSubstring rfl
      cases isRef

theorem substring_eq_none_iff : packet.getNextSubstring cur = none ↔ packet.buffer.length ≤ cur := by
  constructor
  · intro isNone
    by_contra inside
    rw [Nat.not_le] at inside
    have fits := packet.fits
    rw [getNextSubstring, List.getElem?_eq_getElem inside, Option.bind_some] at isNone
    split at isNone
    · cases isNone
    · split at isNone
      · split at isNone
        · cases isNone
        · next both =>
          rw [List.getElem?_eq_getElem (by omega), Option.bind_some] at isNone
          split at isNone
          · cases isNone
          · next target =>
            rw [labelAt_of_lt (by omega)] at isNone
            cases isNone
      · rw [labelAt_of_lt inside] at isNone
        cases isNone
  · intro outside
    rw [getNextSubstring, List.getElem?_eq_none outside]
    rfl

theorem nextLabel_eq_some : packet.nextLabel cur = some later ↔ ∃ offset length ref,
    packet.getNextSubstring cur = some ⟨some offset, length, ref⟩ ∧ length ≠ 0 ∧ later = offset + length := by
  constructor
  · intro isNext
    rw [nextLabel, Option.bind_eq_some_iff] at isNext
    obtain ⟨⟨place, length, ref⟩, isSubstring, isNext⟩ := isNext
    rw [Option.bind_eq_some_iff] at isNext
    obtain ⟨offset, rfl, isNext⟩ := isNext
    split at isNext
    · cases isNext
    · next nonempty =>
      cases isNext
      exact ⟨offset, length, ref, isSubstring, nonempty, rfl⟩
  · rintro ⟨offset, length, ref, isSubstring, nonempty, rfl⟩
    rw [nextLabel, isSubstring, Option.bind_some, Option.bind_some]
    exact if_neg nonempty

theorem nextLabel_le (isNext : packet.nextLabel cur = some later) : later ≤ packet.size := by
  obtain ⟨offset, length, ref, isSubstring, nonempty, rfl⟩ := nextLabel_eq_some.mp isNext
  obtain ⟨_, isEmpty, _⟩ | ⟨fits, _⟩ := substring_cases isSubstring rfl
  · exact absurd isEmpty nonempty
  · exact fits

theorem follow_nextLabel_mem {turns start : Nat} (isReached : follow packet.nextLabel turns start = some cur) :
    cur ∈ insert start (Finset.range (packet.size + 1)) := by
  cases turns with
  | zero =>
    cases isReached
    exact Finset.mem_insert_self _ _
  | succ turns =>
    rw [follow_add, Option.bind_eq_some_iff] at isReached
    obtain ⟨before, _, isNext⟩ := isReached
    rw [follow, Option.bind_eq_some_iff] at isNext
    obtain ⟨after, isNext, isLast⟩ := isNext
    cases isLast
    exact Finset.mem_insert_of_mem (Finset.mem_range.mpr (Nat.lt_succ_of_le (nextLabel_le isNext)))

end Received

/-! ## Extraction -/

namespace Received

variable {packet : Received} {cur last capacity : Nat} {substr : StringPair} {labels done : List (List UInt8)}

/-- What is in the text after some labels. -/
structure Extraction.Wrote (capacity : Nat) (done : List (List UInt8)) (state : Extraction) : Prop where
  written : state.written = (dotted done).take capacity
  remain : state.remain = capacity - (dotted done).length

@[simp] theorem Extraction.advance_cur (state : Extraction) (ref : Bool) (label : List UInt8) :
    (state.advance cur ref label).cur = cur := by
  rw [Extraction.advance, Extraction.copy]
  split <;> rfl

@[simp] theorem Extraction.advance_stop (state : Extraction) (ref : Bool) (label : List UInt8) :
    (state.advance cur ref label).stop = state.stopWith ref := by
  rw [Extraction.advance, Extraction.copy]
  split <;> rfl

theorem Extraction.stopWith_getD (state : Extraction) (ref : Bool) (last : Nat) :
    (state.stopWith ref).getD last = state.stop.getD (if ref then state.cur + 2 else last) := by
  cases ref <;> cases isStop : state.stop <;> simp [Extraction.stopWith, isStop]

theorem Extraction.wrote_advance {state : Extraction} (wrote : state.Wrote capacity done) (cur : Nat) (ref : Bool)
    (label : List UInt8) : (state.advance cur ref label).Wrote capacity (done ++ [label]) := by
  obtain ⟨written, remain⟩ := wrote
  have whole : (dotted (done ++ [label])).length = (dotted done).length + label.length + 1 := by
    rw [dotted_append, dotted_singleton, List.length_append, List.length_append, List.length_singleton, Nat.add_assoc]
  have taken : (dotted (done ++ [label])).take capacity = (dotted done).take capacity ++
      (label ++ [46]).take (capacity - (dotted done).length) := by
    rw [dotted_append, dotted_singleton, List.take_append]
  rw [Extraction.advance, Extraction.copy, remain]
  split
  · next full =>
    refine ⟨?_, by simp only [whole]; omega⟩
    have short : capacity - (dotted done).length ≤ label.length := by omega
    simp only [written, taken, List.take_append_of_le_length short]
    rw [Nat.min_eq_right short]
  · next room =>
    refine ⟨?_, by simp only [whole]; omega⟩
    have long : label.length < capacity - (dotted done).length := by omega
    have fits : (label ++ [46]).length ≤ capacity - (dotted done).length := by
      rw [List.length_append, List.length_singleton]
      exact long
    simp only [written, taken]
    rw [Nat.min_eq_left long.le, List.take_length, List.append_assoc, List.take_of_length_le fits]

theorem extractTurn_leave {state : Extraction} {offset : Nat} {ref : Bool}
    (isSubstring : packet.getNextSubstring state.cur = some ⟨some offset, 0, ref⟩) :
    packet.extractTurn state =
      .leave (.extracted state.written (state.stop.getD (if ref then state.cur + 2 else offset + 1))) := by
  simp only [extractTurn, isSubstring, ← Extraction.stopWith_getD]
  rfl

theorem extractTurn_again {state : Extraction} {offset length : Nat} {ref : Bool} (nonempty : length ≠ 0)
    (isSubstring : packet.getNextSubstring state.cur = some ⟨some offset, length, ref⟩) :
    packet.extractTurn state = .again (state.advance (offset + length) ref (packet.bytes offset length)) := by
  simp only [extractTurn, isSubstring, if_neg nonempty]

/-- The extraction goes from label to label. -/
theorem extractTurn_projects (packet : Received) (state : Extraction) :
    (packet.extractTurn state).next?.map Extraction.cur = packet.nextLabel state.cur := by
  cases isSubstring : packet.getNextSubstring state.cur with
  | none => simp only [extractTurn, nextLabel, isSubstring]; rfl
  | some substr =>
    obtain ⟨place, length, ref⟩ := substr
    cases place with
    | none => simp only [extractTurn, nextLabel, isSubstring]; rfl
    | some offset =>
      simp only [nextLabel, isSubstring, Option.bind_some]
      by_cases isEmpty : length = 0
      · subst isEmpty
        rw [extractTurn_leave isSubstring, if_pos rfl]
        rfl
      · rw [extractTurn_again isEmpty isSubstring, if_neg isEmpty]
        simp [Turn.next?]

theorem finishes_of_reads (reads : packet.Reads cur labels last) {state : Extraction} (isAt : state.cur = cur)
    (wrote : state.Wrote capacity done) : Finishes packet.extractTurn state
      (.extracted ((dotted (done ++ labels)).take capacity) (state.stop.getD last)) := by
  induction reads generalizing state done with
  | terminator isSubstring =>
    subst isAt
    rw [List.append_nil, ← wrote.written]
    exact finishes_leave (extractTurn_leave isSubstring)
  | pointedTerminator isSubstring =>
    subst isAt
    rw [List.append_nil, ← wrote.written]
    exact finishes_leave (extractTurn_leave isSubstring)
  | @label _ offset length _ _ nonempty isSubstring _ inductionHypothesis =>
    subst isAt
    rw [finishes_again (extractTurn_again nonempty isSubstring), List.append_cons]
    have rest := inductionHypothesis (Extraction.advance_cur state false (packet.bytes offset length))
      (Extraction.wrote_advance wrote _ _ _)
    rwa [Extraction.advance_stop, Extraction.stopWith_getD] at rest
  | @pointedLabel _ offset length _ _ nonempty isSubstring _ inductionHypothesis =>
    subst isAt
    rw [finishes_again (extractTurn_again nonempty isSubstring), List.append_cons]
    have rest := inductionHypothesis (Extraction.advance_cur state true (packet.bytes offset length))
      (Extraction.wrote_advance wrote _ _ _)
    rwa [Extraction.advance_stop, Extraction.stopWith_getD] at rest

theorem reads_of_finishes {state : Extraction} {text : List UInt8} {stop : Nat}
    (finishes : Finishes packet.extractTurn state (.extracted text stop)) :
    ∃ labels last, packet.Reads state.cur labels last := by
  obtain ⟨turns, isResult⟩ := finishes
  induction turns generalizing state with
  | zero => cases isResult
  | succ turns inductionHypothesis =>
    cases isSubstring : packet.getNextSubstring state.cur with
    | none =>
      have leaves : packet.extractTurn state = .leave .outside := by simp only [extractTurn, isSubstring]
      rw [loop_leave leaves] at isResult
      cases isResult
    | some substr =>
      obtain ⟨place, length, ref⟩ := substr
      cases place with
      | none =>
        have leaves : packet.extractTurn state = .leave .malformed := by simp only [extractTurn, isSubstring]
        rw [loop_leave leaves] at isResult
        cases isResult
      | some offset =>
        by_cases isEmpty : length = 0
        · subst isEmpty
          cases ref with
          | false => exact ⟨_, _, .terminator isSubstring⟩
          | true => exact ⟨_, _, .pointedTerminator isSubstring⟩
        · rw [loop_again (extractTurn_again isEmpty isSubstring)] at isResult
          obtain ⟨labels, last, reads⟩ := inductionHypothesis isResult
          rw [Extraction.advance_cur] at reads
          cases ref with
          | false => exact ⟨_, _, .label isEmpty isSubstring reads⟩
          | true => exact ⟨_, _, .pointedLabel isEmpty isSubstring reads⟩

theorem extract_iff {text : List UInt8} {stop : Nat} : packet.extract cur capacity (.extracted text stop) ↔
    ∃ labels, packet.Reads cur labels stop ∧ text = (dotted labels).take capacity := by
  have initially : (Extraction.start cur capacity).Wrote capacity [] := ⟨by simp [Extraction.start], by simp [Extraction.start]⟩
  constructor
  · intro finishes
    obtain ⟨labels, last, reads⟩ := reads_of_finishes finishes
    have same := finishes_unique finishes (finishes_of_reads reads rfl initially)
    cases same
    exact ⟨labels, reads, rfl⟩
  · rintro ⟨labels, reads, rfl⟩
    exact finishes_of_reads reads rfl initially

/-! ## Skipping -/

theorem skipTurn_ref {offset length : Nat} (isSubstring : packet.getNextSubstring cur = some ⟨some offset, length, true⟩) :
    packet.skipTurn cur = .leave (.skipped (cur + 2)) := by
  simp only [skipTurn, isSubstring]
  rfl

theorem skipTurn_terminator {offset : Nat} (isSubstring : packet.getNextSubstring cur = some ⟨some offset, 0, false⟩) :
    packet.skipTurn cur = .leave (.skipped (offset + 1)) := by
  simp only [skipTurn, isSubstring]
  rfl

theorem skipTurn_again {offset length : Nat} (nonempty : length ≠ 0)
    (isSubstring : packet.getNextSubstring cur = some ⟨some offset, length, false⟩) :
    packet.skipTurn cur = .again (offset + length) := by
  simp only [skipTurn, isSubstring, if_neg nonempty]
  rfl

theorem skip_of_reads (reads : packet.Reads cur labels last) : Finishes packet.skipTurn cur (.skipped last) := by
  induction reads with
  | terminator isSubstring => exact finishes_leave (skipTurn_terminator isSubstring)
  | pointedTerminator isSubstring => exact finishes_leave (skipTurn_ref isSubstring)
  | label nonempty isSubstring _ inductionHypothesis =>
    exact (finishes_again (skipTurn_again nonempty isSubstring)).mpr inductionHypothesis
  | pointedLabel nonempty isSubstring _ _ => exact finishes_leave (skipTurn_ref isSubstring)

theorem skip_lowers {later : Nat} (goesOn : packet.skipTurn cur = .again later) :
    packet.size - later < packet.size - cur ∧ later ≤ packet.size := by
  rw [skipTurn] at goesOn
  split at goesOn
  · cases goesOn
  · next substr isSubstring =>
    split at goesOn
    · cases goesOn
    · next offset valid =>
      split at goesOn
      · cases goesOn
      · next noRef =>
        split at goesOn
        · cases goesOn
        · next nonempty =>
          cases goesOn
          obtain ⟨_, isEmpty, _⟩ | ⟨fits, behind⟩ := substring_cases isSubstring valid
          · exact absurd isEmpty nonempty
          · have := behind (Bool.eq_false_of_not_eq_true noRef)
            omega

/-! ## What extracting and skipping do with any packet -/

theorem extract_forever (packet : Received) (offset capacity : Nat) :
    Forever packet.extractTurn (.start offset capacity) ↔ Recurs packet.nextLabel offset := by
  rw [forever_iff_endless packet.extractTurn_projects]
  exact endless_iff_recurs fun _ _ => follow_nextLabel_mem

theorem exists_extract (packet : Received) {offset : Nat} (capacity : Nat) (once : ¬ Recurs packet.nextLabel offset) :
    ∃ result, loop packet.extractTurn (packet.size + 2) (.start offset capacity) = some result := by
  have within : ∀ turns reached, follow packet.nextLabel turns (Extraction.start offset capacity).cur = some reached →
      reached ∈ insert offset (Finset.range (packet.size + 1)) := fun _ _ => follow_nextLabel_mem
  obtain ⟨result, isResult⟩ := exists_finishes_of_not_recurs packet.extractTurn_projects within once
  have few : (insert offset (Finset.range (packet.size + 1))).card ≤ packet.size + 2 := by
    have := Finset.card_insert_le offset (Finset.range (packet.size + 1))
    rwa [Finset.card_range] at this
  exact ⟨result, loop_of_le few isResult⟩

/-- The extraction runs for ever exactly if the name comes to a label twice, and ends within two turns more than bytes
were received otherwise. -/
theorem extract_forever_iff (packet : Received) (offset capacity : Nat) :
    (Forever packet.extractTurn (.start offset capacity) ↔ Recurs packet.nextLabel offset) ∧
      (¬ Recurs packet.nextLabel offset → ∃ result,
        loop packet.extractTurn (packet.size + 2) (.start offset capacity) = some result) :=
  ⟨extract_forever packet offset capacity, exists_extract packet capacity⟩

/-- The extraction reads behind the buffer exactly if the packet fills it and the name comes to its end. -/
theorem extract_outside_iff (packet : Received) {offset : Nat} (inside : offset < packet.size) (capacity : Nat) :
    packet.extract offset capacity .outside ↔ packet.size = packet.buffer.length ∧
      ∃ turns, follow packet.nextLabel turns offset = some packet.size := by
  have fits := packet.fits
  constructor
  · intro finishes
    obtain ⟨last, turns, isReached, leaves⟩ := exists_follow_of_finishes packet.extractTurn_projects finishes
    have isNone : packet.getNextSubstring last.cur = none := by
      cases isSubstring : packet.getNextSubstring last.cur with
      | none => rfl
      | some substr =>
        simp only [extractTurn, isSubstring] at leaves
        split at leaves
        · cases leaves
        · split at leaves <;> cases leaves
    rw [substring_eq_none_iff] at isNone
    change follow packet.nextLabel turns offset = some last.cur at isReached
    have among := follow_nextLabel_mem isReached
    rw [Finset.mem_insert, Finset.mem_range] at among
    have isEnd : last.cur = packet.size := by omega
    exact ⟨by omega, turns, by rw [← isEnd]; exact isReached⟩
  · rintro ⟨full, turns, isReached⟩
    change follow packet.nextLabel turns (Extraction.start offset capacity).cur = some packet.size at isReached
    obtain ⟨last, isLast, finishes⟩ := exists_reached packet.extractTurn_projects isReached
    refine finishes _ (finishes_leave ?_)
    have isNone : packet.getNextSubstring last.cur = none := substring_eq_none_iff.mpr (by omega)
    simp only [extractTurn, isNone]

theorem extract_outside_label : (Received.mk [1, 97] 2 (by decide)).extract 0 256 .outside :=
  (extract_outside_iff _ (by decide) 256).mpr ⟨rfl, 1, rfl⟩

/-- Skipping a name always ends, at most one byte behind what was received, and behind the name that is extracted. -/
theorem skip_agrees (packet : Received) {offset : Nat} (inside : offset ≤ packet.size) (capacity : Nat) :
    (∃ result, loop packet.skipTurn (packet.size - offset + 1) offset = some result) ∧
      (∀ stop, Finishes packet.skipTurn offset (.skipped stop) → stop ≤ packet.size + 1) ∧
      ∀ text stop, packet.extract offset capacity (.extracted text stop) →
        Finishes packet.skipTurn offset (.skipped stop) ∧ text.length ≤ capacity := by
  refine ⟨exists_finishes (packet.size - ·) (fun _ _ goesOn => (skip_lowers goesOn).1) offset, ?_, ?_⟩
  · intro stop finishes
    obtain ⟨last, isWithin, leaves⟩ := finishes_invariant (· ≤ packet.size)
      (fun _ _ _ goesOn => (skip_lowers goesOn).2) inside finishes
    rw [skipTurn] at leaves
    split at leaves
    · cases leaves
    · next substr isSubstring =>
      split at leaves
      · cases leaves
      · next place valid =>
        obtain ⟨valid, length, ref⟩ := substr
        cases valid
        cases ref with
        | true =>
          have both := ref_fits isSubstring
          cases leaves
          omega
        | false =>
          split at leaves
          · contradiction
          · split at leaves
            · cases leaves
              obtain ⟨isPlace, isEmpty, _⟩ | ⟨fits, _⟩ := substring_cases isSubstring rfl
              · simp only at isEmpty
                omega
              · simp only at fits
                omega
            · cases leaves
  · intro text stop extracted
    obtain ⟨labels, reads, rfl⟩ := extract_iff.mp extracted
    exact ⟨skip_of_reads reads, List.length_take_le capacity _⟩

theorem skip_agrees_label : Finishes (Received.mk [1, 97, 0] 3 (by decide)).skipTurn 0 (.skipped 3) :=
  ((skip_agrees _ (by decide) 256).2.2 [97, 46] 3 ⟨2, rfl⟩).1

end Received

end AbilityFramework.DiscoveryMgr.Mdns
