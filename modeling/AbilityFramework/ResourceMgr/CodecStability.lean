import AbilityFramework.ResourceMgr.PlainDocuments

/-! # CRs that are written and read once more

What is read from any document is written, and read again, as the same CR, up to empty containers that come
back as null.  There is one exception: the writer leaves out an owner without a position, but the reader accepts
one, and takes the owner of the labels when there is none. -/

namespace AbilityFramework.ResourceMgr.Document

open Library LifecycleMgr

/-! ## Empty containers -/

/-- The CR up to the identification of null and empty containers. -/
def AbilityCR.identified (cr : AbilityCR) : AbilityCR :=
  { cr with status := emptyIsNull cr.status, spec := cr.spec.mapJson emptyIsNull emptyIsNull }

/-- An empty debug option is not written. -/
def AbilitySpec.optionsNull (spec : AbilitySpec) : AbilitySpec := spec.mapJson (fun json => json) emptyIsNull

/-- The CR as it is read back, but for its owner. -/
def AbilityCR.optionsNull (cr : AbilityCR) : AbilityCR := { cr with spec := cr.spec.optionsNull }

variable {doc : DocumentEnvironment}

section OptionsNull

theorem AbilitySpec.optionsNull_eq (spec : AbilitySpec) :
    spec.optionsNull =
      { spec with
        debugOption := emptyIsNull spec.debugOption
        subabilities := spec.subabilities.map AbilitySpec.optionsNull } := by
  rw [AbilitySpec.optionsNull, AbilitySpec.mapJson_eq, Option.map_id']
  rfl

theorem emptyIsNull_emptyIsNull (json : Json) : emptyIsNull (emptyIsNull json) = emptyIsNull json := by
  by_cases empty : json.isEmpty = true
  · have same : emptyIsNull json = .null := if_pos empty
    rw [same]
    rfl
  · have same : emptyIsNull json = json := if_neg empty
    rw [same, same]

/-- Nulls for empty options are lost among the nulls for everything empty. -/
theorem AbilitySpec.mapJson_optionsNull (spec : AbilitySpec) :
    spec.optionsNull.mapJson emptyIsNull emptyIsNull = spec.mapJson emptyIsNull emptyIsNull := by
  induction spec using AbilitySpec.subInduction with
  | nested spec inductionHypothesis =>
    have subabilities : (spec.subabilities.map AbilitySpec.optionsNull).map
        (AbilitySpec.mapJson emptyIsNull emptyIsNull) =
          spec.subabilities.map (AbilitySpec.mapJson emptyIsNull emptyIsNull) := by
      rw [List.map_map]
      exact List.map_congr_left inductionHypothesis
    rw [AbilitySpec.mapJson_eq, AbilitySpec.optionsNull_eq, AbilitySpec.mapJson_eq spec]
    simp only [emptyIsNull_emptyIsNull, subabilities]

theorem AbilityCR.identified_optionsNull (cr : AbilityCR) : cr.optionsNull.identified = cr.identified := by
  simp only [AbilityCR.identified, AbilityCR.optionsNull, AbilitySpec.mapJson_optionsNull]

theorem unlessEmpty_emptyIsNull (json : Json) : unlessEmpty (emptyIsNull json) = unlessEmpty json := by
  rw [emptyIsNull]
  split
  · rename_i empty
    rw [unlessEmpty, unlessEmpty, if_pos empty]
    rfl
  · rfl

/-- An empty debug option is written as null is: not at all. -/
theorem AbilitySpec.toJson_optionsNull (spec : AbilitySpec) : spec.optionsNull.toJson doc = spec.toJson doc := by
  induction spec using AbilitySpec.subInduction with
  | nested spec inductionHypothesis =>
    have subabilities : (spec.subabilities.map AbilitySpec.optionsNull).map (AbilitySpec.toJson doc) =
        spec.subabilities.map (AbilitySpec.toJson doc) := by
      rw [List.map_map]
      exact List.map_congr_left inductionHypothesis
    rw [AbilitySpec.toJson_eq, AbilitySpec.toJson_eq spec, AbilitySpec.optionsNull_eq]
    simp only [AbilitySpec.members, unlessEmpty_emptyIsNull, subabilities]

theorem AbilityCR.toJson_optionsNull (cr : AbilityCR) : cr.optionsNull.toJson doc = cr.toJson doc := by
  simp only [AbilityCR.toJson, AbilityCR.members, AbilityCR.optionsNull, AbilitySpec.toJson_optionsNull]
  rfl

end OptionsNull

/-! ## What is read from any document -/

section Read

variable {json : Json} {cr : AbilityCR}

theorem mem_specsFrom {specs : List AbilitySpec} (isRead : specsFrom doc json = .ok specs) :
    ∀ spec ∈ specs, ∃ item, AbilitySpec.fromJson doc item = .ok spec := by
  have among {items : List Json} (isItems : specsFromItems doc items = .ok specs) :
      ∀ spec ∈ specs, ∃ item, AbilitySpec.fromJson doc item = .ok spec := fun spec isSpec =>
    have ⟨item, _, given⟩ := mem_specsFromItems isItems spec isSpec
    ⟨item, given⟩
  cases json with
  | null =>
    rw [specsFrom] at isRead
    cases isRead
    intro spec isSpec
    cases isSpec
  | array items =>
    rw [specsFrom] at isRead
    exact among isRead
  | object members =>
    rw [specsFrom, specsFromMembers_eq] at isRead
    exact among isRead
  | boolean | integer | float | string =>
    rw [specsFrom] at isRead
    cases isRead
    all_goals simp

theorem spec_optionsNull_settled {spec : AbilitySpec} (isRead : AbilitySpec.fromJson doc json = .ok spec) :
    spec.optionsNull.Settled doc := by
  induction spec using AbilitySpec.subInduction generalizing json with
  | nested spec inductionHypothesis =>
    cases json with
    | object members =>
      rw [AbilitySpec.fromJson, subabilitiesFrom_eq] at isRead
      obtain ⟨-, isNested, version, priority, condition⟩ := read_settled isRead
      have subRead : ∀ sub ∈ spec.subabilities, ∃ item, AbilitySpec.fromJson doc item = .ok sub := by
        cases found : members.lookup "subabilities" with
        | none =>
          rw [found, Option.elim_none, Except.ok.injEq] at isNested
          rw [← isNested]
          intro sub isSub
          cases isSub
        | some subabilities =>
          rw [found, Option.elim_some] at isNested
          exact mem_specsFrom isNested
      rw [AbilitySpec.optionsNull_eq]
      refine .intro ⟨version, priority, condition, ?_⟩ ?_
      · show (emptyIsNull spec.debugOption).isEmpty = true → emptyIsNull spec.debugOption = .null
        intro empty
        rw [emptyIsNull] at empty ⊢
        split
        · rfl
        · rename_i filled
          rw [if_neg filled] at empty
          contradiction
      · intro sub isSub
        obtain ⟨given, isGiven, rfl⟩ := List.mem_map.mp isSub
        obtain ⟨item, isItem⟩ := subRead given isGiven
        exact inductionHypothesis given isGiven isItem
    | null | boolean | integer | float | string | array =>
      rw [AbilitySpec.fromJson] at isRead
      cases isRead
      all_goals simp

end Read

/-! ## Stability -/

/-- Writing the CR and reading it again gives the CR. -/
def AbilityCR.Stable (doc : DocumentEnvironment) (cr : AbilityCR) : Prop :=
  ∃ again, AbilityCR.fromJson doc (cr.toJson doc) = .ok again ∧ again.identified = cr.identified

/-- An owner that is given without a position is the one that the labels give. -/
def OwnerSurvives (doc : DocumentEnvironment) (json : Json) : Prop :=
  ∀ found owner metadata, json.find "owner" = some found → found.isEmpty = false →
    OwnerEntry.fromJson doc found = .ok owner → owner.position.isEmpty = true →
    required json "metadata" CRMetadata.fromJson = .ok metadata → labelledOwner doc metadata.labels = .ok owner

section Stability

variable {json : Json} {cr : AbilityCR}

/-- What is known of a CR that has been read: its members are settled, but for its owner and empty options. -/
theorem cr_of_read (isRead : AbilityCR.fromJson doc json = .ok cr) :
    ∃ labelled, required json "metadata" CRMetadata.fromJson = .ok cr.metadata ∧
      labelledOwner doc cr.metadata.labels = .ok labelled ∧
      optionalUnlessEmpty json "owner" (OwnerEntry.fromJson doc) labelled = .ok cr.owner ∧
      AbilityCR.fromJson doc (cr.toJson doc) =
        .ok { cr.optionsNull with owner := if cr.owner.position.isEmpty then labelled else cr.owner } := by
  have readsBack {labelled : OwnerEntry} := @cr_readsBack_owner doc cr.optionsNull labelled
  rw [AbilityCR.toJson_optionsNull] at readsBack
  simp only [AbilityCR.fromJson, except_bind_eq_ok] at isRead
  obtain ⟨tag, -, metadata, isMetadata, id, -, kind, -, status, -, runInfo, isRunInfo, subabilities, -, devices, -, labelled,
    isLabelled, sharers, isSharers, owner, isOwner, spec, isSpec, same⟩ := isRead
  obtain ⟨_, isSpec⟩ := required_ok isSpec
  cases same
  exact ⟨labelled, isMetadata, isLabelled, isOwner, readsBack (readRunInfo_settled isRunInfo)
    (readSharers_settled isSharers) isLabelled (spec_optionsNull_settled isSpec)⟩

/-- The owner that is read back is the one that was read. -/
theorem identified_owner_iff (owner : OwnerEntry) :
    ({ cr.optionsNull with owner := owner } : AbilityCR).identified = cr.identified ↔ owner = cr.owner := by
  refine ⟨fun same => congrArg AbilityCR.owner same, ?_⟩
  rintro rfl
  exact AbilityCR.identified_optionsNull cr

theorem stable_iff_owner {labelled : OwnerEntry}
    (readsBack : AbilityCR.fromJson doc (cr.toJson doc) =
      .ok { cr.optionsNull with owner := if cr.owner.position.isEmpty then labelled else cr.owner }) :
    cr.Stable doc ↔ (cr.owner.position.isEmpty = true → labelled = cr.owner) := by
  rw [AbilityCR.Stable, readsBack]
  refine ⟨?_, fun same => ⟨_, rfl, ?_⟩⟩
  · rintro ⟨_, ⟨⟩, same⟩ empty
    rw [if_pos empty] at same
    exact (identified_owner_iff labelled).mp same
  · by_cases empty : cr.owner.position.isEmpty = true
    · rw [if_pos empty]
      exact (identified_owner_iff labelled).mpr (same empty)
    · rw [if_neg empty]
      exact (identified_owner_iff cr.owner).mpr rfl

/-- A CR that has been read is written and read again as itself, up to empty containers, if and only if an owner
without a position in its document is the one of its labels. -/
theorem codec_stable_iff (isRead : AbilityCR.fromJson doc json = .ok cr) : cr.Stable doc ↔ OwnerSurvives doc json := by
  obtain ⟨labelled, isMetadata, isLabelled, isOwner, readsBack⟩ := cr_of_read isRead
  rw [stable_iff_owner readsBack]
  obtain ⟨found, given, filled, isOwn⟩ | ⟨notGiven, isLabelledOne⟩ := optionalUnlessEmpty_ok isOwner
  · constructor
    · intro same _ owner metadata isGiven _ isOwner empty isOther
      cases given.symm.trans isGiven
      cases isMetadata.symm.trans isOther
      cases isOwn.symm.trans isOwner
      exact isLabelled.trans (congrArg Except.ok (same empty))
    · intro survives empty
      have kept := survives found cr.owner cr.metadata given filled isOwn empty isMetadata
      exact Except.ok.inj (isLabelled.symm.trans kept)
  · constructor
    · intro _ found _ _ isGiven filled
      rw [notGiven found isGiven] at filled
      cases filled
    · exact fun _ _ => isLabelledOne.symm

end Stability

/-- The CR of a camera, whose owner is another instance without a position. -/
def positionlessJson : Json :=
  .pack ((cameraCr.members (plainDocuments ∅)).dropLast ++
    [("owner", some (OwnerEntry.toJson (plainDocuments ∅) ⟨9, ""⟩))])

def positionlessCr : AbilityCR := { cameraCr with owner := ⟨9, ""⟩ }

theorem positionless_read : AbilityCR.fromJson (plainDocuments ∅) positionlessJson = .ok positionlessCr := by
  rfl

theorem positionless_readsBack :
    AbilityCR.fromJson (plainDocuments ∅) (positionlessCr.toJson (plainDocuments ∅)) = .ok cameraCr := by
  rfl

/-- Its owner is lost when it is written. -/
theorem positionless_lost :
    ∃ cr, AbilityCR.fromJson (plainDocuments ∅) positionlessJson = .ok cr ∧ ¬ cr.Stable (plainDocuments ∅) := by
  refine ⟨positionlessCr, positionless_read, ?_⟩
  rintro ⟨again, isAgain, same⟩
  cases positionless_readsBack.symm.trans isAgain
  have owners : (⟨0, ""⟩ : OwnerEntry) = ⟨9, ""⟩ := congrArg AbilityCR.owner same
  cases owners

/-- A camera whose document names no owner. -/
theorem camera_stable : cameraCr.Stable (plainDocuments ∅) ↔ OwnerSurvives (plainDocuments ∅) cameraJson :=
  codec_stable_iff rfl

end AbilityFramework.ResourceMgr.Document
