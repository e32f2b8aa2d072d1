import AbilityFramework.DiscoveryMgr.MdnsMake

/-! # Names compared

`mdns_string_equal` goes through two names at once, label by label.  Labels are compared with `strncasecmp`, which stops
at a zero byte: what is behind one in both of two labels may differ.

`equal_iff`: against a name that ends, the comparison ends too, also where the other name does not, and says whether the
other name has the same labels. -/

namespace AbilityFramework.DiscoveryMgr.Mdns

open Library.Loops

/-! ## Labels -/

/-- `tolower`. -/
def lower (byte : UInt8) : UInt8 := if 65 ≤ byte ∧ byte ≤ 90 then byte + 32 else byte

/-- `strncasecmp` is zero, with what it reads of the two texts. -/
def sameIgnoringCase : List UInt8 → List UInt8 → Bool
  | first :: firstRest, second :: secondRest =>
    lower first == lower second && (first == 0 || sameIgnoringCase firstRest secondRest)
  | _, _ => true

def SameLabel (first second : List UInt8) : Prop := first.length = second.length ∧ sameIgnoringCase second first = true

instance (first second : List UInt8) : Decidable (SameLabel first second) := inferInstanceAs (Decidable (_ ∧ _))

def SameLabels : List (List UInt8) → List (List UInt8) → Prop := List.Forall₂ SameLabel

/-! ## Comparing -/

inductive Compared where
  | outside
  | different
  | equal (lhsOffset rhsOffset : Nat)
  deriving DecidableEq

structure Comparison where
  lhsCur : Nat
  rhsCur : Nat
  lhsEnd : Option Nat := none
  rhsEnd : Option Nat := none

/-- An end that is set stays. -/
def endWith (stop : Option Nat) (ref : Bool) (cur : Nat) : Option Nat := if ref && stop.isNone then some (cur + 2) else stop

theorem endWith_getD (stop : Option Nat) (ref : Bool) (cur last : Nat) :
    (endWith stop ref cur).getD last = stop.getD (if ref then cur + 2 else last) := by
  cases ref <;> cases stop <;> simp [endWith]

variable (lhs rhs : Received)

def equalTurn (state : Comparison) : Turn Comparison Compared :=
  match lhs.getNextSubstring state.lhsCur, rhs.getNextSubstring state.rhsCur with
  | some lhsSubstr, some rhsSubstr =>
    match lhsSubstr.offset, rhsSubstr.offset with
    | some lhsOffset, some rhsOffset =>
      if lhsSubstr.length ≠ rhsSubstr.length then .leave .different
      else if sameIgnoringCase (rhs.bytes rhsOffset rhsSubstr.length) (lhs.bytes lhsOffset lhsSubstr.length) = false then
        .leave .different
      else
        let lhsEnd := endWith state.lhsEnd lhsSubstr.ref state.lhsCur
        let rhsEnd := endWith state.rhsEnd rhsSubstr.ref state.rhsCur
        let lhsCur := lhsOffset + lhsSubstr.length
        let rhsCur := rhsOffset + rhsSubstr.length
        if lhsSubstr.length = 0 then .leave (.equal (lhsEnd.getD (lhsCur + 1)) (rhsEnd.getD (rhsCur + 1)))
        else .again { lhsCur, rhsCur, lhsEnd, rhsEnd }
    | _, _ => .leave .different
  | _, _ => .leave .outside

/-! ## Against a name that ends -/

variable {lhs rhs} {state : Comparison} {labels others : List (List UInt8)} {last otherLast : Nat}

/-- A name begins with a label or is at its end. -/
theorem Received.reads_iff {packet : Received} {cur last : Nat} {labels : List (List UInt8)} :
    packet.Reads cur labels last ↔ ∃ offset length ref,
      packet.getNextSubstring cur = some ⟨some offset, length, ref⟩ ∧
        (length = 0 ∧ labels = [] ∧ last = (if ref then cur + 2 else offset + 1) ∨
          length ≠ 0 ∧ ∃ rest restLast, packet.Reads (offset + length) rest restLast ∧
            labels = packet.bytes offset length :: rest ∧ last = (if ref then cur + 2 else restLast)) := by
  constructor
  · intro reads
    cases reads with
    | terminator isSubstring => exact ⟨_, _, _, isSubstring, .inl ⟨rfl, rfl, rfl⟩⟩
    | pointedTerminator isSubstring => exact ⟨_, _, _, isSubstring, .inl ⟨rfl, rfl, rfl⟩⟩
    | label nonempty isSubstring rest => exact ⟨_, _, _, isSubstring, .inr ⟨nonempty, _, _, rest, rfl, rfl⟩⟩
    | pointedLabel nonempty isSubstring rest => exact ⟨_, _, _, isSubstring, .inr ⟨nonempty, _, _, rest, rfl, rfl⟩⟩
  · rintro ⟨offset, length, ref, isSubstring, ⟨rfl, rfl, rfl⟩ | ⟨nonempty, rest, restLast, reads, rfl, rfl⟩⟩
    · cases ref with
      | false => exact .terminator isSubstring
      | true => exact .pointedTerminator isSubstring
    · cases ref with
      | false => exact .label nonempty isSubstring reads
      | true => exact .pointedLabel nonempty isSubstring reads

theorem Received.length_substring {packet : Received} {cur offset length : Nat} {ref : Bool}
    (isSubstring : packet.getNextSubstring cur = some ⟨some offset, length, ref⟩) : (packet.bytes offset length).length = length := by
  obtain ⟨_, isEmpty, _⟩ | ⟨fits, _⟩ := substring_cases isSubstring rfl
  · simp only at isEmpty
    rw [isEmpty, bytes, List.take_zero, List.length_nil]
  · exact length_bytes fits

/-- The comparison of two places with labels there. -/
theorem equalTurn_eq {lhsOffset lhsLength rhsOffset rhsLength : Nat} {lhsRef rhsRef : Bool}
    (isLhs : lhs.getNextSubstring state.lhsCur = some ⟨some lhsOffset, lhsLength, lhsRef⟩)
    (isRhs : rhs.getNextSubstring state.rhsCur = some ⟨some rhsOffset, rhsLength, rhsRef⟩) :
    equalTurn lhs rhs state =
      if lhsLength ≠ rhsLength then .leave .different
      else if sameIgnoringCase (rhs.bytes rhsOffset rhsLength) (lhs.bytes lhsOffset lhsLength) = false then .leave .different
      else if lhsLength = 0 then .leave (.equal ((endWith state.lhsEnd lhsRef state.lhsCur).getD (lhsOffset + lhsLength + 1))
        ((endWith state.rhsEnd rhsRef state.rhsCur).getD (rhsOffset + rhsLength + 1)))
      else .again ⟨lhsOffset + lhsLength, rhsOffset + rhsLength, endWith state.lhsEnd lhsRef state.lhsCur,
        endWith state.rhsEnd rhsRef state.rhsCur⟩ := by
  simp only [equalTurn, isLhs, isRhs]

/-- What the comparison comes to, said of the two names. -/
def Agrees (lhs rhs : Received) (state : Comparison) (others : List (List UInt8)) (otherLast : Nat) : Prop :=
  (∃ result, loop (equalTurn lhs rhs) (others.length + 1) state = some result) ∧
    ∀ lhsOffset rhsOffset, Finishes (equalTurn lhs rhs) state (.equal lhsOffset rhsOffset) ↔
      ∃ labels last, lhs.Reads state.lhsCur labels last ∧ SameLabels labels others ∧
        lhsOffset = state.lhsEnd.getD last ∧ rhsOffset = state.rhsEnd.getD otherLast

theorem agrees_of_leave {result : Compared} (leaves : equalTurn lhs rhs state = .leave result)
    (notEqual : ∀ lhsOffset rhsOffset, result ≠ .equal lhsOffset rhsOffset)
    (differ : ∀ labels last, lhs.Reads state.lhsCur labels last → ¬ SameLabels labels others) :
    Agrees lhs rhs state others otherLast := by
  refine ⟨⟨result, loop_leave leaves _⟩, fun lhsOffset rhsOffset => iff_of_false ?_ ?_⟩
  · rw [finishes_leave_iff leaves]
    exact fun same => notEqual _ _ same.symm
  · rintro ⟨labels, last, reads, same, -⟩
    exact differ labels last reads same

/-- A place without a label, in the name of which nothing is known, is told apart. -/
theorem agrees_of_valid {rhsOffset rhsLength : Nat} {rhsRef : Bool}
    (isRhs : rhs.getNextSubstring state.rhsCur = some ⟨some rhsOffset, rhsLength, rhsRef⟩)
    (valid : ∀ lhsOffset lhsLength lhsRef, lhs.getNextSubstring state.lhsCur = some ⟨some lhsOffset, lhsLength, lhsRef⟩ →
      Agrees lhs rhs state others otherLast) : Agrees lhs rhs state others otherLast := by
  cases isLhs : lhs.getNextSubstring state.lhsCur with
  | none =>
    refine agrees_of_leave (by simp only [equalTurn, isLhs]; rfl) (by simp) ?_
    intro labels last reads
    obtain ⟨_, _, _, isSome, _⟩ := Received.reads_iff.mp reads
    cases isLhs.symm.trans isSome
  | some substr =>
    obtain ⟨place, lhsLength, lhsRef⟩ := substr
    cases place with
    | none =>
      refine agrees_of_leave (by simp only [equalTurn, isLhs, isRhs]; rfl) (by simp) ?_
      intro labels last reads
      obtain ⟨_, _, _, isSome, _⟩ := Received.reads_iff.mp reads
      cases isLhs.symm.trans isSome
    | some lhsOffset => exact valid lhsOffset lhsLength lhsRef isLhs

theorem agrees_of_reads (reads : rhs.Reads state.rhsCur others otherLast) : Agrees lhs rhs state others otherLast := by
  induction others generalizing state otherLast with
  | nil =>
    obtain ⟨rhsOffset, rhsLength, rhsRef, isRhs, ⟨rfl, -, rfl⟩ | ⟨_, _, _, _, wrong, _⟩⟩ := Received.reads_iff.mp reads
    · refine agrees_of_valid isRhs fun lhsOffset lhsLength lhsRef isLhs => ?_
      have turn := equalTurn_eq isLhs isRhs
      by_cases isEmpty : lhsLength = 0
      · subst isEmpty
        have same : sameIgnoringCase (rhs.bytes rhsOffset 0) (lhs.bytes lhsOffset 0) = true := rfl
        rw [if_neg (by simp), if_neg (by simp [same]), if_pos rfl, endWith_getD, endWith_getD] at turn
        refine ⟨⟨_, loop_leave turn _⟩, fun one another => ?_⟩
        rw [finishes_leave_iff turn]
        constructor
        · intro isEqual
          cases isEqual
          exact ⟨[], _, Received.reads_iff.mpr ⟨_, _, _, isLhs, .inl ⟨rfl, rfl, rfl⟩⟩, .nil, rfl, rfl⟩
        · rintro ⟨labels, last, lhsReads, same, rfl, rfl⟩
          obtain ⟨_, _, _, isAlso, ⟨rfl, _, rfl⟩ | ⟨nonempty, _⟩⟩ := Received.reads_iff.mp lhsReads
          · cases isLhs.symm.trans isAlso
            rfl
          · cases isLhs.symm.trans isAlso
            exact absurd rfl nonempty
      · rw [if_pos isEmpty] at turn
        refine agrees_of_leave turn (by simp) ?_
        rintro labels last lhsReads same
        cases same
        obtain ⟨_, _, _, isAlso, ⟨isZero, _⟩ | ⟨_, _, _, _, wrong, _⟩⟩ := Received.reads_iff.mp lhsReads
        · cases isLhs.symm.trans isAlso
          exact isEmpty isZero
        · cases wrong
    · cases wrong
  | cons other others inductionHypothesis =>
    obtain ⟨rhsOffset, rhsLength, rhsRef, isRhs, ⟨_, wrong, _⟩ | ⟨nonempty, rest, restLast, rhsReads, isCons, rfl⟩⟩ :=
      Received.reads_iff.mp reads
    · cases wrong
    · cases isCons
      refine agrees_of_valid isRhs fun lhsOffset lhsLength lhsRef isLhs => ?_
      have turn := equalTurn_eq isLhs isRhs
      -- What a name with these labels has at the place.
      have begins : ∀ labels last, lhs.Reads state.lhsCur labels last →
          SameLabels labels (rhs.bytes rhsOffset rhsLength :: others) → lhsLength ≠ 0 ∧ ∃ front frontLast,
            lhs.Reads (lhsOffset + lhsLength) front frontLast ∧ labels = lhs.bytes lhsOffset lhsLength :: front ∧
              last = (if lhsRef then state.lhsCur + 2 else frontLast) := by
        intro labels last lhsReads same
        obtain ⟨_, _, _, isAlso, ⟨_, rfl, _⟩ | found⟩ := Received.reads_iff.mp lhsReads
        · cases same
        · cases isLhs.symm.trans isAlso
          exact found
      have lhsSize := Received.length_substring isLhs
      have rhsSize := Received.length_substring isRhs
      by_cases sameLength : lhsLength = rhsLength
      · subst sameLength
        rw [if_neg (by simp)] at turn
        by_cases sameText : sameIgnoringCase (rhs.bytes rhsOffset lhsLength) (lhs.bytes lhsOffset lhsLength) = true
        · rw [if_neg (by simp [sameText]), if_neg nonempty] at turn
          obtain ⟨⟨result, isResult⟩, isEqual⟩ : Agrees lhs rhs ⟨lhsOffset + lhsLength, rhsOffset + lhsLength,
              endWith state.lhsEnd lhsRef state.lhsCur, endWith state.rhsEnd rhsRef state.rhsCur⟩ others restLast :=
            inductionHypothesis rhsReads
          refine ⟨⟨result, by rw [List.length_cons, loop_again turn]; exact isResult⟩, fun one another => ?_⟩
          rw [finishes_again turn, isEqual]
          constructor
          · rintro ⟨labels, last, lhsReads, same, rfl, rfl⟩
            exact ⟨_, _, Received.reads_iff.mpr ⟨_, _, _, isLhs, .inr ⟨nonempty, _, _, lhsReads, rfl, rfl⟩⟩,
              .cons ⟨lhsSize.trans rhsSize.symm, sameText⟩ same, endWith_getD .., endWith_getD ..⟩
          · rintro ⟨labels, last, lhsReads, same, rfl, rfl⟩
            obtain ⟨_, front, frontLast, frontReads, rfl, rfl⟩ := begins labels last lhsReads same
            cases same with
            | cons _ rest =>
              exact ⟨front, frontLast, frontReads, rest, (endWith_getD ..).symm, (endWith_getD ..).symm⟩
        · rw [if_pos (Bool.eq_false_of_not_eq_true sameText)] at turn
          refine agrees_of_leave turn (by simp) fun labels last lhsReads same => ?_
          obtain ⟨_, _, _, _, rfl, _⟩ := begins labels last lhsReads same
          cases same with
          | cons head _ => exact sameText head.2
      · rw [if_pos sameLength] at turn
        refine agrees_of_leave turn (by simp) fun labels last lhsReads same => ?_
        obtain ⟨_, _, _, _, rfl, _⟩ := begins labels last lhsReads same
        cases same with
        | cons head _ => exact sameLength (by rw [← lhsSize, ← rhsSize]; exact head.1)

/-- The comparison of two names that end reads no further than they go. -/
theorem not_outside_of_reads (lhsReads : lhs.Reads state.lhsCur labels last) (rhsReads : rhs.Reads state.rhsCur others otherLast) :
    ¬ Finishes (equalTurn lhs rhs) state .outside := by
  induction others generalizing state labels last otherLast with
  | nil =>
    obtain ⟨lhsOffset, lhsLength, lhsRef, isLhs, _⟩ := Received.reads_iff.mp lhsReads
    obtain ⟨rhsOffset, rhsLength, rhsRef, isRhs, ⟨rfl, _⟩ | ⟨_, _, _, _, wrong, _⟩⟩ := Received.reads_iff.mp rhsReads
    · have turn := equalTurn_eq isLhs isRhs
      split at turn
      · rw [finishes_leave_iff turn]
        simp
      · next same =>
        rw [if_pos (not_not.mp same)] at turn
        split at turn <;> · rw [finishes_leave_iff turn]; simp
    · cases wrong
  | cons other others inductionHypothesis =>
    obtain ⟨lhsOffset, lhsLength, lhsRef, isLhs, lhsCase⟩ := Received.reads_iff.mp lhsReads
    obtain ⟨rhsOffset, rhsLength, rhsRef, isRhs, ⟨_, wrong, _⟩ | ⟨_, rest, restLast, rhsRest, isCons, rfl⟩⟩ :=
      Received.reads_iff.mp rhsReads
    · cases wrong
    · cases isCons
      have turn := equalTurn_eq isLhs isRhs
      split at turn
      · rw [finishes_leave_iff turn]
        simp
      · split at turn
        · rw [finishes_leave_iff turn]
          simp
        · split at turn
          · rw [finishes_leave_iff turn]
            simp
          · next nonempty =>
            obtain ⟨isEmpty, _⟩ | ⟨_, _, _, lhsRest, _⟩ := lhsCase
            · exact absurd isEmpty nonempty
            · rw [finishes_again turn]
              exact inductionHypothesis lhsRest rhsRest

theorem endless_next {next : Nat → Option Nat} {place : Nat} (endless : Endless next place) :
    ∃ later, next place = some later ∧ Endless next later := by
  cases isNext : next place with
  | none =>
    have once := endless 1
    rw [follow, isNext] at once
    cases once
  | some later =>
    refine ⟨later, rfl, fun turns => ?_⟩
    have longer := endless (turns + 1)
    rwa [follow, isNext] at longer

/-- A name that does not end is told apart from one that does. -/
theorem different_of_endless (reads : rhs.Reads state.rhsCur others otherLast) (endless : Endless lhs.nextLabel state.lhsCur) :
    Finishes (equalTurn lhs rhs) state .different := by
  induction others generalizing state otherLast with
  | nil =>
    obtain ⟨later, isNext, _⟩ := endless_next endless
    obtain ⟨lhsOffset, lhsLength, lhsRef, isLhs, nonempty, rfl⟩ := Received.nextLabel_eq_some.mp isNext
    obtain ⟨rhsOffset, rhsLength, rhsRef, isRhs, ⟨rfl, _⟩ | ⟨_, _, _, _, wrong, _⟩⟩ := Received.reads_iff.mp reads
    · have turn := equalTurn_eq isLhs isRhs
      rw [if_pos nonempty] at turn
      exact finishes_leave turn
    · cases wrong
  | cons other others inductionHypothesis =>
    obtain ⟨later, isNext, endless⟩ := endless_next endless
    obtain ⟨lhsOffset, lhsLength, lhsRef, isLhs, nonempty, rfl⟩ := Received.nextLabel_eq_some.mp isNext
    obtain ⟨rhsOffset, rhsLength, rhsRef, isRhs, ⟨_, wrong, _⟩ | ⟨_, rest, restLast, rhsReads, isCons, rfl⟩⟩ :=
      Received.reads_iff.mp reads
    · cases wrong
    · cases isCons
      have turn := equalTurn_eq isLhs isRhs
      split at turn
      · exact finishes_leave turn
      · split at turn
        · exact finishes_leave turn
        · rw [finishes_again turn]
          exact inductionHypothesis rhsReads endless

/-- Against a name that ends the comparison ends after one turn more than that name has labels, and finds the names
equal exactly if the other one ends as well and has the same labels. -/
theorem equal_iff (lhs : Received) {rhs : Received} {rhsOffset rhsLast : Nat} {others : List (List UInt8)}
    (reads : rhs.Reads rhsOffset others rhsLast) (lhsOffset : Nat) :
    (∃ result, loop (equalTurn lhs rhs) (others.length + 1) ⟨lhsOffset, rhsOffset, none, none⟩ = some result) ∧
      ∀ lhsLast last, Finishes (equalTurn lhs rhs) ⟨lhsOffset, rhsOffset, none, none⟩ (.equal lhsLast last) ↔
        (∃ labels, lhs.Reads lhsOffset labels lhsLast ∧ SameLabels labels others) ∧ last = rhsLast := by
  obtain ⟨ends, isEqual⟩ : Agrees lhs rhs ⟨lhsOffset, rhsOffset, none, none⟩ others rhsLast := agrees_of_reads reads
  refine ⟨ends, fun lhsLast last => (isEqual lhsLast last).trans ⟨?_, ?_⟩⟩
  · rintro ⟨labels, _, lhsReads, same, rfl, rfl⟩
    exact ⟨⟨labels, lhsReads, same⟩, rfl⟩
  · rintro ⟨⟨labels, lhsReads, same⟩, rfl⟩
    exact ⟨labels, lhsLast, lhsReads, same, rfl, rfl⟩

end AbilityFramework.DiscoveryMgr.Mdns
