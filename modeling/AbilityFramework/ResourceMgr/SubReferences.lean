import AbilityFramework.ResourceMgr.CRSchema

/-! # References to sub-abilities

What `SubRefEntry::parse` makes of an `x-ref`, compared with the form `/sub/<decimal index>#<path>/<key>`.  It is right
about a text exactly if the text, should it be taken for a reference, begins with `/sub/`, has nothing but digits in the
place of the number and a slash behind its first `#` (`parsesExactly_iff`). -/

namespace AbilityFramework.ResourceMgr.Document.SubRefEntry

open Library ByteText

variable {ref : ByteText}

def sub : ByteText := .ofString "/sub/"

/-- The text is `/sub/<decimal index>#<path>/<key>` with the index and the key of the entry. -/
def Denotes (ref : ByteText) (entry : SubRefEntry) : Prop :=
  ∃ digits path, ref = sub ++ digits ++ hash :: (path ++ slash :: entry.subKey) ∧ digits ≠ [] ∧
    (∀ byte ∈ digits, isDigit byte = true) ∧ slash ∉ entry.subKey ∧ entry.number = decimal digits ∧
      decimal digits < 2147483648

/-- References are accepted, with their index and key, and nothing else is. -/
def ParsesExactly (ref : ByteText) : Prop :=
  ∀ entry, parse ref = .ok entry ↔ Denotes ref entry

/-- There is a `#`, at the place given, and a slash, and what stands in the place of the number begins with an `int`. -/
structure Taken (ref : ByteText) (stop : Nat) : Prop where
  hash : ref.idxOf? hash = some stop
  slash : slash ∈ ref
  number : (numberField ref stop).fromChars ≠ none

structure WellFormed (ref : ByteText) (stop : Nat) : Prop where
  sub : sub <+: ref
  digits : ∀ byte ∈ numberField ref stop, isDigit byte = true
  key : SubRefEntry.slash ∈ ref.drop (stop + 1)

theorem parse_eq_ok {entry : SubRefEntry} : parse ref = .ok entry ↔
    ∃ stop, ref.idxOf? hash = some stop ∧ (numberField ref stop).fromChars = some entry.number ∧ slash ∈ ref ∧
      ref.afterLast slash = entry.subKey := by
  obtain ⟨number, subKey⟩ := entry
  rw [parse]
  cases isStop : ref.idxOf? hash with
  | none => exact iff_of_false (fun impossible => by cases impossible) fun ⟨_, impossible, _⟩ => by cases impossible
  | some stop =>
    simp only [Option.some.injEq, exists_eq_left']
    by_cases short : ref.length < numberStart ref
    · -- Nothing is left for the number.
      obtain ⟨front, back, split, _, length⟩ := idxOf?_eq_some isStop
      have inside : stop < ref.length := by
        rw [split, List.length_append, List.length_cons]
        omega
      have noField : numberField ref stop = [] := by
        rw [numberField, if_neg (by omega)]
        exact List.drop_eq_nil_of_le (by omega)
      rw [if_pos short, noField]
      exact iff_of_false (fun impossible => by cases impossible) fun isNumber => by cases isNumber.1
    · rw [if_neg short, svToInteger]
      cases (numberField ref stop).fromChars with
      | none => exact iff_of_false (fun impossible => by cases impossible) fun isNumber => by cases isNumber.1
      | some value =>
        by_cases slashed : slash ∈ ref
        · simp [slashed, pure, Except.pure, bind, Except.bind]
        · simp [slashed, bind, Except.bind]

theorem numberStart_of_sub (begins : sub <+: ref) : numberStart ref = 5 := by
  rw [numberStart, show ByteText.ofString "/sub/" = sub from rfl, find_of_prefix begins]
  rfl

theorem numberField_of_sub {digits back : ByteText} :
    numberField (sub ++ digits ++ hash :: back) (sub ++ digits).length = digits := by
  have start : numberStart (sub ++ digits ++ hash :: back) = 5 :=
    numberStart_of_sub (by rw [List.append_assoc]; exact List.prefix_append _ _)
  have subLength : sub.length = 5 := by decide
  rw [numberField, start, if_pos (by rw [List.length_append]; omega), List.take_left, ← subLength, List.drop_left]

theorem not_mem_hash {digits : ByteText} (all : ∀ byte ∈ digits, isDigit byte = true) : hash ∉ sub ++ digits := by
  rw [List.mem_append, not_or]
  refine ⟨by decide, fun isDigit => ?_⟩
  cases all _ isDigit

theorem parse_of_denotes {entry : SubRefEntry} (denotes : Denotes ref entry) : parse ref = .ok entry := by
  obtain ⟨digits, path, rfl, some, all, lastSlash, number, fits⟩ := denotes
  refine parse_eq_ok.mpr ⟨_, idxOf?_append (not_mem_hash all), ?_, by simp, ?_⟩
  · rw [numberField_of_sub]
    exact (fromChars_digits some all _).mpr ⟨number, fits⟩
  · rw [← List.cons_append, ← List.append_assoc]
    exact afterLast_append lastSlash

theorem denotes_of_wellFormed {stop : Nat} {entry : SubRefEntry} (wellFormed : WellFormed ref stop)
    (isStop : ref.idxOf? hash = some stop) (number : (numberField ref stop).fromChars = some entry.number)
    (key : ref.afterLast slash = entry.subKey) : Denotes ref entry := by
  obtain ⟨front, back, rfl, noHash, rfl⟩ := idxOf?_eq_some isStop
  obtain ⟨rest, beginsSub⟩ := wellFormed.sub
  -- The `#` is behind `/sub/`.
  obtain ⟨digitBytes, rfl⟩ : ∃ digits, front = sub ++ digits := by
    obtain ⟨digits, isFront, _⟩ | ⟨inSub, isSub, isRest⟩ := List.append_eq_append_iff.mp beginsSub
    · exact ⟨digits, isFront⟩
    · cases inSub with
      | nil => exact ⟨[], by rw [isSub, List.append_nil, List.append_nil]⟩
      | cons first inSub =>
        obtain ⟨rfl, _⟩ := List.cons.inj isRest
        have hashInSub : hash ∈ sub := by
          rw [isSub]
          simp
        exact absurd hashInSub (by decide)
  have digits := wellFormed.digits
  have hasKey := wellFormed.key
  rw [numberField_of_sub] at number digits
  rw [drop_behind] at hasKey
  -- The key is what stands behind the last slash.
  obtain ⟨path, subKey, rfl, lastSlash⟩ := exists_last hasKey
  rw [← List.cons_append, ← List.append_assoc, afterLast_append lastSlash] at key
  subst key
  have some : digitBytes ≠ [] := by
    rintro rfl
    cases number
  obtain ⟨isNumber, fits⟩ := (fromChars_digits some digits _).mp number
  exact ⟨digitBytes, path, rfl, some, digits, lastSlash, isNumber, fits⟩

/-- A text that is a reference is well formed. -/
theorem wellFormed_of_denotes {entry : SubRefEntry} {stop : Nat} (denotes : Denotes ref entry)
    (isStop : ref.idxOf? hash = some stop) : WellFormed ref stop := by
  obtain ⟨digits, path, rfl, some, all, lastSlash, number, fits⟩ := denotes
  rw [idxOf?_append (not_mem_hash all)] at isStop
  cases isStop
  refine ⟨by rw [List.append_assoc]; exact List.prefix_append _ _, ?_, ?_⟩
  · rwa [numberField_of_sub]
  · rw [drop_behind]
    simp

theorem parsesExactly_iff (ref : ByteText) : ParsesExactly ref ↔ ∀ stop, Taken ref stop → WellFormed ref stop := by
  constructor
  · intro exactly stop taken
    obtain ⟨number, isNumber⟩ := Option.ne_none_iff_exists'.mp taken.number
    have parsed : parse ref = .ok ⟨number, ref.afterLast slash⟩ :=
      parse_eq_ok.mpr ⟨stop, taken.hash, isNumber, taken.slash, rfl⟩
    exact wellFormed_of_denotes ((exactly _).mp parsed) taken.hash
  · intro wellFormed entry
    refine ⟨fun parsed => ?_, parse_of_denotes⟩
    obtain ⟨stop, isStop, number, slashed, key⟩ := parse_eq_ok.mp parsed
    have taken : Taken ref stop := ⟨isStop, slashed, by rw [number]; exact Option.some_ne_none _⟩
    exact denotes_of_wellFormed (wellFormed stop taken) isStop number key

/-- The number is read as far as it goes, and where it goes on is not asked. -/
theorem trailing_accepted : ¬ ParsesExactly (.ofString "/sub/1x#/status/state") := by
  intro exactly
  have parsed : parse (.ofString "/sub/1x#/status/state") = .ok ⟨1, .ofString "state"⟩ := by rfl
  have wellFormed : WellFormed _ 7 := wellFormed_of_denotes ((exactly _).mp parsed) (by decide)
  have digit := wellFormed.digits 120 (by decide)
  cases digit

end AbilityFramework.ResourceMgr.Document.SubRefEntry
