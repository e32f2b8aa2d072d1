import AbilityFramework.DiscoveryMgr.MdnsString

/-! # Names written and read back

`mdns_string_make` writes the parts of a name between its dots, each behind its length, and a zero byte.  A length that a
byte does not hold is cut, and nothing says that a part is too long for a label.

`stringMake_eq_some_iff`: it fails only for want of room.
`extract_stringMake_iff`: the name is read back if and only if each part has from 1 to 191 bytes. -/

namespace AbilityFramework.DiscoveryMgr.Mdns

open Library.Loops

/-! ## Writing -/

/-- The parts of a name between its dots, with what was read since the last one. -/
def labelsFrom (label : List UInt8) : List UInt8 → List (List UInt8)
  | [] => if label = [] then [] else [label]
  | byte :: rest => if byte = 46 then label :: labelsFrom [] rest else labelsFrom (label ++ [byte]) rest

def nameLabels (name : List UInt8) : List (List UInt8) := labelsFrom [] name

def labelBytes (label : List UInt8) : List UInt8 := UInt8.ofNat label.length :: label

/-- There is no result where there is no room. -/
def labelsMake : Nat → List (List UInt8) → Option (List UInt8)
  | remain, [] => if remain = 0 then none else some [0]
  | remain, label :: labels =>
    if label.length < remain then (labelsMake (remain - (label.length + 1)) labels).map (labelBytes label ++ ·) else none

def stringMake (capacity : Nat) (name : List UInt8) : Option (List UInt8) := labelsMake capacity (nameLabels name)

def labelsBytes (labels : List (List UInt8)) : List UInt8 := labels.flatMap labelBytes

@[simp] theorem labelsBytes_nil : labelsBytes [] = [] := rfl

@[simp] theorem labelsBytes_cons (label : List UInt8) (labels : List (List UInt8)) :
    labelsBytes (label :: labels) = labelBytes label ++ labelsBytes labels := rfl

@[simp] theorem length_labelBytes (label : List UInt8) : (labelBytes label).length = label.length + 1 := rfl

theorem labelsMake_eq_some_iff {remain : Nat} {labels : List (List UInt8)} {written : List UInt8} :
    labelsMake remain labels = some written ↔
      (labelsBytes labels).length + 1 ≤ remain ∧ written = labelsBytes labels ++ [0] := by
  induction labels generalizing remain written with
  | nil =>
    rw [labelsMake]
    split
    · next noRoom => simp [noRoom]
    · next room => simp [Nat.one_le_iff_ne_zero, room, eq_comm]
  | cons label labels inductionHypothesis =>
    rw [labelsMake, labelsBytes_cons, List.length_append, length_labelBytes]
    split
    · next fits =>
      rw [Option.map_eq_some_iff]
      constructor
      · rintro ⟨rest, isRest, rfl⟩
        obtain ⟨room, rfl⟩ := inductionHypothesis.mp isRest
        exact ⟨by omega, (List.append_assoc _ _ _).symm⟩
      · rintro ⟨room, rfl⟩
        exact ⟨_, inductionHypothesis.mpr ⟨by omega, rfl⟩, (List.append_assoc _ _ _).symm⟩
    · next tooLong =>
      refine iff_of_false (by simp) ?_
      rintro ⟨room, -⟩
      omega

/-! ## Names and their parts -/

/-- A name with a dot at its end. -/
def withDot (name : List UInt8) : List UInt8 :=
  if name = [] ∨ name.getLast? = some 46 then name else name ++ [46]

theorem dotFree_labelsFrom {label : List UInt8} (free : (46 : UInt8) ∉ label) (rest : List UInt8) :
    ∀ part ∈ labelsFrom label rest, (46 : UInt8) ∉ part := by
  induction rest generalizing label with
  | nil =>
    rw [labelsFrom]
    split
    · simp
    · simpa using free
  | cons byte rest inductionHypothesis =>
    rw [labelsFrom]
    split
    · rw [List.forall_mem_cons]
      exact ⟨free, inductionHypothesis (List.not_mem_nil)⟩
    · next notDot =>
      exact inductionHypothesis (by simp [free, Ne.symm notDot])

theorem dotted_labelsFrom {label : List UInt8} (free : (46 : UInt8) ∉ label) (rest : List UInt8) :
    dotted (labelsFrom label rest) = withDot (label ++ rest) := by
  induction rest generalizing label with
  | nil =>
    rw [labelsFrom, List.append_nil, withDot]
    split
    · next none => simp [none]
    · next some =>
      have noDot : ¬ (label = [] ∨ label.getLast? = Option.some 46) := by
        rintro (none | dot)
        · exact some none
        · exact free (List.mem_of_getLast? dot)
      rw [if_neg noDot, dotted_singleton]
  | cons byte rest inductionHypothesis =>
    rw [labelsFrom]
    split
    · next isDot =>
      subst isDot
      have whole : dotted (label :: labelsFrom [] rest) = label ++ [46] ++ dotted (labelsFrom [] rest) := rfl
      rw [whole, inductionHypothesis List.not_mem_nil, List.nil_append]
      cases rest with
      | nil => simp [withDot]
      | cons next rest =>
        have sameLast : (label ++ 46 :: next :: rest).getLast? = (next :: rest).getLast? := by
          rw [← List.singleton_append, ← List.append_assoc, List.getLast?_append_cons]
        simp only [withDot, sameLast, List.append_eq_nil_iff, reduceCtorEq, and_false, false_or]
        split <;> simp
    · next notDot =>
      rw [inductionHypothesis (by simp [free, Ne.symm notDot]), List.append_assoc, List.singleton_append]

theorem dotted_nameLabels (name : List UInt8) : dotted (nameLabels name) = withDot name :=
  dotted_labelsFrom List.not_mem_nil name

theorem length_labelsBytes (labels : List (List UInt8)) : (labelsBytes labels).length = (dotted labels).length := by
  induction labels with
  | nil => rfl
  | cons label labels inductionHypothesis =>
    have whole : dotted (label :: labels) = label ++ [46] ++ dotted labels := rfl
    rw [whole, labelsBytes_cons, List.length_append, List.length_append, length_labelBytes, inductionHypothesis,
      List.length_append, List.length_singleton]

/-- A name needs one byte more than its text with a dot at the end. -/
def encodedLength (name : List UInt8) : Nat := (withDot name).length + 1

theorem stringMake_eq_some_iff {capacity : Nat} {name written : List UInt8} :
    stringMake capacity name = some written ↔
      encodedLength name ≤ capacity ∧ written = labelsBytes (nameLabels name) ++ [0] := by
  rw [stringMake, labelsMake_eq_some_iff, length_labelsBytes, dotted_nameLabels]
  rfl

/-! ## What a packet holds -/

namespace Received

variable {packet : Received} {cur capacity : Nat}

structure Holds (packet : Received) (offset : Nat) (content : List UInt8) : Prop where
  fits : offset + content.length ≤ packet.size
  same : packet.bytes offset content.length = content

theorem length_bytes {length : Nat} (fits : cur + length ≤ packet.size) : (packet.bytes cur length).length = length := by
  have := packet.fits
  rw [bytes, List.length_take, List.length_drop]
  omega

theorem bytes_append (packet : Received) (offset first second : Nat) :
    packet.bytes offset (first + second) = packet.bytes offset first ++ packet.bytes (offset + first) second := by
  rw [bytes, bytes, bytes, List.take_add, List.drop_drop]

theorem holds_append {first second : List UInt8} :
    packet.Holds cur (first ++ second) ↔ packet.Holds cur first ∧ packet.Holds (cur + first.length) second := by
  constructor
  · rintro ⟨fits, same⟩
    rw [List.length_append] at fits same
    rw [bytes_append] at same
    obtain ⟨isFirst, isSecond⟩ := List.append_inj same (length_bytes (by omega))
    exact ⟨⟨by omega, isFirst⟩, ⟨by omega, isSecond⟩⟩
  · rintro ⟨⟨_, isFirst⟩, ⟨fits, isSecond⟩⟩
    refine ⟨by rw [List.length_append]; omega, ?_⟩
    rw [List.length_append, bytes_append, isFirst, isSecond]

theorem Holds.head {byte : UInt8} {rest : List UInt8} (holds : packet.Holds cur (byte :: rest)) :
    packet.buffer[cur]? = some byte := by
  have isByte := congrArg (·[0]?) holds.same
  simpa [bytes] using isByte

theorem Holds.tail {byte : UInt8} {rest : List UInt8} (holds : packet.Holds cur (byte :: rest)) :
    packet.Holds (cur + 1) rest := (holds_append.mp (List.singleton_append ▸ holds)).2

/-- A length from 1 to 191 is read as one. -/
theorem substring_label {label : List UInt8} (holds : packet.Holds cur (labelBytes label)) (nonempty : label ≠ [])
    (short : label.length < 192) : packet.getNextSubstring cur = some ⟨some (cur + 1), label.length, false⟩ := by
  have positive := List.length_pos_iff.mpr nonempty
  have number : (UInt8.ofNat label.length).toNat = label.length := UInt8.toNat_ofNat_of_lt' (Nat.lt_trans short (by decide))
  have fits := holds.fits
  rw [length_labelBytes] at fits
  have isLength := holds.head
  have notZero : UInt8.ofNat label.length ≠ 0 := by
    intro zero
    rw [zero] at number
    simp at number
    omega
  have noRef : isStringRef (UInt8.ofNat label.length) ≠ true := by
    rw [ne_eq, isStringRef_iff, number]
    omega
  rw [getNextSubstring, isLength, Option.bind_some, if_neg notZero, if_neg noRef, labelAt, isLength, Option.map_some, number,
    if_neg (by omega)]

theorem substring_zero {rest : List UInt8} (holds : packet.Holds cur (0 :: rest)) :
    packet.getNextSubstring cur = some ⟨some cur, 0, false⟩ := by
  rw [getNextSubstring, holds.head]
  rfl

theorem bytes_label {label rest : List UInt8} (holds : packet.Holds cur (labelBytes label ++ rest)) :
    packet.bytes (cur + 1) label.length = label := (holds_append.mp holds).1.tail.same

/-! ## Reading back -/

/-- Labels that a reader takes for what they are. -/
def Readable (labels : List (List UInt8)) : Prop := ∀ label ∈ labels, label ≠ [] ∧ label.length < 192

/-- Behind readable labels the name goes on with what is there. -/
theorem reads_labels {labels more : List (List UInt8)} {last : Nat} (readable : Readable labels)
    (holds : packet.Holds cur (labelsBytes labels)) (rest : packet.Reads (cur + (labelsBytes labels).length) more last) :
    packet.Reads cur (labels ++ more) last := by
  induction labels generalizing cur with
  | nil => exact rest
  | cons label labels inductionHypothesis =>
    rw [Readable, List.forall_mem_cons] at readable
    obtain ⟨⟨nonempty, short⟩, readable⟩ := readable
    rw [labelsBytes_cons] at holds rest
    rw [List.length_append, length_labelBytes, ← Nat.add_assoc] at rest
    obtain ⟨first, others⟩ := holds_append.mp holds
    have later := inductionHypothesis readable others rest
    have isLabel := Reads.label (List.length_pos_iff.mpr nonempty).ne' (substring_label first nonempty short)
      (by rwa [Nat.add_assoc, Nat.add_comm 1])
    rwa [bytes_label holds] at isLabel

theorem reads_name {labels : List (List UInt8)} (readable : Readable labels)
    (holds : packet.Holds cur (labelsBytes labels ++ [0])) :
    packet.Reads cur labels (cur + (labelsBytes labels).length + 1) := by
  obtain ⟨isLabels, isEnd⟩ := holds_append.mp holds
  have read := reads_labels readable isLabels (.terminator (substring_zero isEnd))
  rwa [List.append_nil] at read

/-- What a length byte is taken for. -/
theorem substring_first {first : UInt8} {offset length : Nat} {ref : Bool} (isFirst : packet.buffer[cur]? = some first)
    (isSubstring : packet.getNextSubstring cur = some ⟨some offset, length, ref⟩) :
    (first = 0 ∧ offset = cur ∧ length = 0 ∧ ref = false) ∨ (192 ≤ first.toNat ∧ ref = true) ∨
      (first ≠ 0 ∧ first.toNat < 192 ∧ offset = cur + 1 ∧ length = first.toNat ∧ ref = false) := by
  rw [getNextSubstring, isFirst, Option.bind_some] at isSubstring
  split at isSubstring
  · next zero =>
    cases isSubstring
    exact .inl ⟨zero, rfl, rfl, rfl⟩
  · next notZero =>
    split at isSubstring
    · next isRef =>
      rw [isStringRef_iff] at isRef
      cases ref with
      | true => exact .inr (.inl ⟨isRef, rfl⟩)
      | false =>
        split at isSubstring
        · cases isSubstring
        · obtain ⟨second, _, isSubstring⟩ := Option.bind_eq_some_iff.mp isSubstring
          split at isSubstring
          · cases isSubstring
          · obtain ⟨_, _, wrong⟩ := labelAt_fits isSubstring rfl
            cases wrong
    · next noRef =>
      rw [isStringRef_iff, Nat.not_le] at noRef
      rw [labelAt, isFirst, Option.map_some] at isSubstring
      split at isSubstring
      · cases isSubstring
      · cases isSubstring
        exact .inr (.inr ⟨notZero, noRef, rfl, rfl, rfl⟩)

/-- The first label behind a length byte, and what comes behind it. -/
theorem reads_first {first : UInt8} {found : List (List UInt8)} {last : Nat} (isFirst : packet.buffer[cur]? = some first)
    (reads : packet.Reads cur found last) :
    (first = 0 ∧ last = cur + 1) ∨ (192 ≤ first.toNat ∧ last = cur + 2) ∨
      (first.toNat < 192 ∧ 0 < first.toNat ∧ ∃ others, found = packet.bytes (cur + 1) first.toNat :: others ∧
        packet.Reads (cur + 1 + first.toNat) others last) := by
  cases reads with
  | terminator isSubstring =>
    obtain ⟨zero, rfl, _⟩ | ⟨_, wrong⟩ | ⟨notZero, _, _, isEmpty, _⟩ := substring_first isFirst isSubstring
    · exact .inl ⟨zero, rfl⟩
    · cases wrong
    · exact absurd (UInt8.toNat_inj.mp isEmpty.symm) notZero
  | pointedTerminator isSubstring =>
    obtain ⟨_, _, _, wrong⟩ | ⟨large, _⟩ | ⟨_, _, _, _, wrong⟩ := substring_first isFirst isSubstring
    · cases wrong
    · exact .inr (.inl ⟨large, rfl⟩)
    · cases wrong
  | label nonempty isSubstring rest =>
    obtain ⟨_, _, isEmpty, _⟩ | ⟨_, wrong⟩ | ⟨_, small, rfl, rfl, _⟩ := substring_first isFirst isSubstring
    · exact absurd isEmpty nonempty
    · cases wrong
    · exact .inr (.inr ⟨small, Nat.pos_of_ne_zero nonempty, _, rfl, rest⟩)
  | pointedLabel nonempty isSubstring rest =>
    obtain ⟨_, _, isEmpty, _⟩ | ⟨large, _⟩ | ⟨_, _, _, _, wrong⟩ := substring_first isFirst isSubstring
    · exact absurd isEmpty nonempty
    · exact .inr (.inl ⟨large, rfl⟩)
    · cases wrong

/-- A name that is read with its own text and end has readable labels. -/
theorem readable_of_reads {labels found : List (List UInt8)} (free : ∀ label ∈ labels, (46 : UInt8) ∉ label)
    (holds : packet.Holds cur (labelsBytes labels ++ [0]))
    (reads : packet.Reads cur found (cur + (labelsBytes labels).length + 1)) (same : dotted found = dotted labels) :
    Readable labels := by
  induction labels generalizing cur found with
  | nil => exact List.forall_mem_nil _
  | cons label labels inductionHypothesis =>
    rw [List.forall_mem_cons] at free
    rw [labelsBytes_cons] at holds reads
    rw [List.length_append, length_labelBytes] at reads
    have number : (UInt8.ofNat label.length).toNat = label.length % 256 := UInt8.toNat_ofNat'
    have isText : dotted (label :: labels) = label ++ 46 :: dotted labels := by simp [dotted]
    rw [List.append_assoc] at holds
    have isLabel := holds_append.mp holds
    obtain ⟨zero, isEnd⟩ | ⟨large, isEnd⟩ | ⟨small, positive, others, rfl, rest⟩ := reads_first holds.head reads
    · omega
    · rw [number] at large
      have : label.length % 256 ≤ label.length := Nat.mod_le _ _
      omega
    · have isFound : dotted (packet.bytes (cur + 1) (label.length % 256) :: others) =
          packet.bytes (cur + 1) (label.length % 256) ++ 46 :: dotted others := by simp [dotted]
      rw [number] at same small positive rest
      rw [isFound, isText] at same
      by_cases short : label.length < 256
      · rw [Nat.mod_eq_of_lt short] at same small positive rest
        rw [bytes_label holds] at same
        have others_same := List.cons.inj (List.append_cancel_left same)
        rw [Readable, List.forall_mem_cons]
        refine ⟨⟨List.length_pos_iff.mp positive, small⟩, inductionHypothesis free.2 isLabel.2 ?_ others_same.2⟩
        rw [length_labelBytes]
        convert rest using 1 <;> omega
      · -- The dot behind the cut label stands where the name has a byte of the label.
        have cut : (packet.bytes (cur + 1) (label.length % 256)).length = label.length % 256 := by
          refine length_bytes ?_
          have := isLabel.1.fits
          rw [length_labelBytes] at this
          omega
        have isDot := congrArg (·[label.length % 256]?) same
        have before : label.length % 256 < label.length := by omega
        simp only [List.getElem?_append_right cut.le, cut, Nat.sub_self, List.getElem?_cons_zero,
          List.getElem?_append_left before] at isDot
        exact absurd (List.mem_of_getElem? isDot.symm) free.1

end Received

/-- A name that `mdns_string_make` wrote into a packet is read back, with a dot at its end, if and only if each part
between its dots has from 1 to 191 bytes. -/
theorem extract_stringMake_iff {packet : Received} {offset room capacity : Nat} {name written : List UInt8}
    (makes : stringMake room name = some written) (holds : packet.Holds offset written)
    (longer : (withDot name).length < capacity) :
    packet.extract offset capacity (.extracted (withDot name) (offset + written.length)) ↔
      ∀ label ∈ nameLabels name, 1 ≤ label.length ∧ label.length ≤ 191 := by
  obtain ⟨_, rfl⟩ := stringMake_eq_some_iff.mp makes
  have isReadable : (∀ label ∈ nameLabels name, 1 ≤ label.length ∧ label.length ≤ 191) ↔
      Received.Readable (nameLabels name) := by
    simp only [Received.Readable, Nat.one_le_iff_ne_zero, ne_eq, List.length_eq_zero_iff, Nat.lt_succ_iff]
  have isEnd : offset + (labelsBytes (nameLabels name) ++ [0]).length =
      offset + (labelsBytes (nameLabels name)).length + 1 := by
    rw [List.length_append, List.length_singleton, Nat.add_assoc]
  rw [isReadable, Received.extract_iff, isEnd]
  constructor
  · rintro ⟨found, reads, isText⟩
    refine Received.readable_of_reads (dotFree_labelsFrom List.not_mem_nil name) holds reads ?_
    rw [dotted_nameLabels]
    -- The text is shorter than the capacity, so that nothing of it was cut.
    have notCut : (dotted found).length ≤ capacity := by
      have lengths := congrArg List.length isText
      rw [List.length_take] at lengths
      omega
    rw [isText, List.take_of_length_le notCut]
  · intro readable
    refine ⟨nameLabels name, Received.reads_name readable holds, ?_⟩
    rw [dotted_nameLabels, List.take_of_length_le longer.le]

theorem extract_stringMake_label :
    (Received.mk [1, 97, 0] 3 (by decide)).extract 0 256 (.extracted [97, 46] 3) := by
  have makes : stringMake 3 [97] = some [1, 97, 0] := rfl
  exact (extract_stringMake_iff makes ⟨by decide, rfl⟩ (by decide)).mpr (by decide)

end AbilityFramework.DiscoveryMgr.Mdns
