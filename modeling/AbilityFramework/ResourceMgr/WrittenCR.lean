import AbilityFramework.Library.WrittenJson
import AbilityFramework.ResourceMgr.CRRoundTrip

/-! # CRs as their texts have them

The free-form members of a CR may hold floating-point numbers that are not finite, for which a text has null.  From
the text of its document a CR is read as it is from the document itself, with these nulls (`fromJson_asWritten`). -/

namespace AbilityFramework.ResourceMgr.Document

open Library LifecycleMgr

/-! ## Free-form members -/

mutual

/-- The spec with its JSON members changed at every depth, the debug option apart from the others. -/
def AbilitySpec.mapJson (member option : Json → Json) : AbilitySpec → AbilitySpec
  | ⟨id, status, package, version, abilityName, position, priority, activityCondition, autoStart, keepAlive, singleton,
      config, debugOption, subabilities, devices, models⟩ =>
    ⟨id, status.map member, package, version, abilityName, position, priority, member activityCondition, autoStart,
      keepAlive, singleton, member config, option debugOption, specsMapJson member option subabilities, devices, models⟩

def specsMapJson (member option : Json → Json) : List AbilitySpec → List AbilitySpec
  | [] => []
  | spec :: specs => spec.mapJson member option :: specsMapJson member option specs

end

/-- Null and the empty containers are identified. -/
def emptyIsNull (json : Json) : Json := if json.isEmpty then .null else json

/-- The spec as it is read from the text of its document. -/
def AbilitySpec.asWritten (spec : AbilitySpec) : AbilitySpec := spec.mapJson Json.asWritten Json.asWritten

def AbilityCR.asWritten (cr : AbilityCR) : AbilityCR :=
  { cr with status := cr.status.asWritten, spec := cr.spec.asWritten }

/-- All numbers in the free-form members are finite. -/
inductive AbilitySpec.Writable : AbilitySpec → Prop
  | intro {spec : AbilitySpec} (status : ∀ json, spec.status = some json → json.Writable)
    (activityCondition : spec.activityCondition.Writable) (config : spec.config.Writable)
    (debugOption : spec.debugOption.Writable) (subabilities : ∀ sub ∈ spec.subabilities, sub.Writable) : spec.Writable

structure AbilityCR.Writable (cr : AbilityCR) : Prop where
  status : cr.status.Writable
  spec : cr.spec.Writable

variable {doc : DocumentEnvironment}

/-- What holds of a spec if it holds of its sub-abilities holds of every spec. -/
theorem AbilitySpec.subInduction {motive : AbilitySpec → Prop}
    (nested : ∀ spec, (∀ sub ∈ spec.subabilities, motive sub) → motive spec) (spec : AbilitySpec) : motive spec :=
  nested spec fun sub _ => AbilitySpec.subInduction nested sub
termination_by spec
decreasing_by
  rename_i isSub
  have smaller := List.sizeOf_lt_of_mem isSub
  cases spec
  simp only [AbilitySpec.mk.sizeOf_spec] at smaller ⊢
  omega

section MapJson

variable {member option : Json → Json}

theorem specsMapJson_eq (specs : List AbilitySpec) :
    specsMapJson member option specs = specs.map (AbilitySpec.mapJson member option) := by
  induction specs with
  | nil => rw [specsMapJson, List.map_nil]
  | cons spec specs inductionHypothesis => rw [specsMapJson, List.map_cons, inductionHypothesis]

theorem AbilitySpec.mapJson_eq (spec : AbilitySpec) :
    spec.mapJson member option =
      { spec with
        status := spec.status.map member
        activityCondition := member spec.activityCondition
        config := member spec.config
        debugOption := option spec.debugOption
        subabilities := spec.subabilities.map (AbilitySpec.mapJson member option) } := by
  cases spec
  rw [AbilitySpec.mapJson, specsMapJson_eq]

end MapJson

theorem AbilitySpec.asWritten_eq (spec : AbilitySpec) :
    spec.asWritten =
      { spec with
        status := spec.status.map Json.asWritten
        activityCondition := spec.activityCondition.asWritten
        config := spec.config.asWritten
        debugOption := spec.debugOption.asWritten
        subabilities := spec.subabilities.map AbilitySpec.asWritten } :=
  spec.mapJson_eq

theorem AbilitySpec.asWritten_eq_self_iff (spec : AbilitySpec) : spec.asWritten = spec ↔ spec.Writable := by
  induction spec using AbilitySpec.subInduction with
  | nested spec inductionHypothesis =>
    have subabilities : spec.subabilities.map AbilitySpec.asWritten = spec.subabilities ↔
        ∀ sub ∈ spec.subabilities, sub.Writable := by
      rw [Json.map_eq_self]
      exact forall₂_congr inductionHypothesis
    have status : spec.status.map Json.asWritten = spec.status ↔ ∀ json, spec.status = some json → json.Writable := by
      cases spec.status with
      | none => exact iff_of_true rfl nofun
      | some json => simp [Json.asWritten_eq_self_iff]
    rw [AbilitySpec.asWritten_eq]
    constructor
    · intro same
      have sameStatus := congrArg AbilitySpec.status same
      have sameCondition := congrArg AbilitySpec.activityCondition same
      have sameConfig := congrArg AbilitySpec.config same
      have sameOption := congrArg AbilitySpec.debugOption same
      have sameSubs := congrArg AbilitySpec.subabilities same
      exact .intro (status.mp sameStatus) ((Json.asWritten_eq_self_iff _).mp sameCondition)
        ((Json.asWritten_eq_self_iff _).mp sameConfig) ((Json.asWritten_eq_self_iff _).mp sameOption)
        (subabilities.mp sameSubs)
    · rintro ⟨hasStatus, condition, config, option, subs⟩
      rw [status.mpr hasStatus, (Json.asWritten_eq_self_iff _).mpr condition, (Json.asWritten_eq_self_iff _).mpr config,
        (Json.asWritten_eq_self_iff _).mpr option, subabilities.mpr subs]
      cases spec
      rfl

theorem AbilityCR.asWritten_eq_self_iff (cr : AbilityCR) : cr.asWritten = cr ↔ cr.Writable := by
  constructor
  · intro same
    exact ⟨(Json.asWritten_eq_self_iff _).mp (congrArg AbilityCR.status same),
      cr.spec.asWritten_eq_self_iff.mp (congrArg AbilityCR.spec same)⟩
  · rintro ⟨status, spec⟩
    rw [AbilityCR.asWritten, (Json.asWritten_eq_self_iff _).mpr status, cr.spec.asWritten_eq_self_iff.mpr spec]

@[simp] theorem AbilitySpec.asWritten_asWritten (spec : AbilitySpec) : spec.asWritten.asWritten = spec.asWritten := by
  induction spec using AbilitySpec.subInduction with
  | nested spec inductionHypothesis =>
    have subabilities : (spec.subabilities.map AbilitySpec.asWritten).map AbilitySpec.asWritten =
        spec.subabilities.map AbilitySpec.asWritten := by
      rw [List.map_map]
      exact List.map_congr_left inductionHypothesis
    rw [AbilitySpec.asWritten_eq spec, AbilitySpec.asWritten_eq]
    simp only [Option.map_map, Function.comp_def, Json.asWritten_asWritten, subabilities]

@[simp] theorem AbilityCR.asWritten_asWritten (cr : AbilityCR) : cr.asWritten.asWritten = cr.asWritten := by
  simp only [AbilityCR.asWritten, Json.asWritten_asWritten, AbilitySpec.asWritten_asWritten]

/-! ## What has been read -/

theorem emptyConditions_asWritten {json : Json} (settled : json.isEmpty = true → json = .null)
    (empty : json.asWritten.isEmpty = true) : json.asWritten = .null := by
  obtain isEmpty | isNull := Json.asWritten_of_isEmpty empty
  · rw [settled isEmpty, Json.asWritten_null]
  · exact isNull

theorem AbilitySpec.Settled.asWritten {spec : AbilitySpec} (settled : spec.Settled doc) : spec.asWritten.Settled doc := by
  induction settled with
  | @intro spec fields subabilities inductionHypothesis =>
    rw [AbilitySpec.asWritten_eq]
    refine .intro ⟨fields.version, fields.priority, emptyConditions_asWritten fields.activityCondition,
      emptyConditions_asWritten fields.debugOption⟩ fun sub isSub => ?_
    obtain ⟨given, isGiven, rfl⟩ := List.mem_map.mp isSub
    exact inductionHypothesis given isGiven

theorem AbilityCR.Settled.asWritten {cr : AbilityCR} (settled : cr.Settled doc) : cr.asWritten.Settled doc :=
  ⟨settled.runInfo, settled.sharers, settled.owner, settled.spec.asWritten⟩

/-! ## Records -/

section Records

variable {α : Type} {write : α → Json}

@[simp] theorem deviceEntry_asWritten (entry : DeviceEntry) : entry.toJson.asWritten = entry.toJson := rfl

@[simp] theorem modelEntry_asWritten (entry : ModelEntry) : entry.toJson.asWritten = entry.toJson := rfl

@[simp] theorem tag_asWritten (tag : Tag) : tag.toJson.asWritten = tag.toJson := rfl

@[simp] theorem ownerEntry_asWritten (owner : OwnerEntry) : (owner.toJson doc).asWritten = owner.toJson doc := rfl

@[simp] theorem placedEntry_asWritten (entry : PlacedEntry) : (entry.toJson doc).asWritten = entry.toJson doc := rfl

@[simp] theorem runInfo_asWritten (info : RunInfo) : info.toJson.asWritten = info.toJson := rfl

/-- An object whose members are texts. -/
theorem texts_asWritten {entries : List α} {key text : α → String} :
    (Json.object (entries.map fun entry => (key entry, .string (text entry)))).asWritten =
      .object (entries.map fun entry => (key entry, .string (text entry))) := by
  rw [Json.asWritten_object, List.map_map]
  rfl

@[simp] theorem textsToJson_asWritten (map : StringMap) : (textsToJson map).asWritten = textsToJson map := texts_asWritten

@[simp] theorem sharersToJson_asWritten (sharers : Sharers) :
    (sharersToJson doc sharers).asWritten = sharersToJson doc sharers :=
  texts_asWritten

@[simp] theorem arrayUnlessEmpty_asWritten (items : List Json) :
    (arrayUnlessEmpty items).map Json.asWritten = arrayUnlessEmpty (items.map Json.asWritten) := by
  cases items with
  | nil => rfl
  | cons item items => exact congrArg some (Json.asWritten_array (item :: items))

theorem unlessEmpty_asWritten {json : Json} (fixed : json.asWritten = json) :
    (unlessEmpty json).map Json.asWritten = unlessEmpty json := by
  rw [unlessEmpty]
  split
  · rfl
  · rw [Option.map_some, fixed]

@[simp] theorem metadata_asWritten (metadata : CRMetadata) :
    (metadataToJson metadata).asWritten = metadataToJson metadata := by
  simp only [metadataToJson, Json.asWritten_pack, List.map_cons, List.map_nil, Option.map_some, Json.asWritten_string,
    unlessEmpty_asWritten (textsToJson_asWritten _)]

end Records

/-! ## Reading -/

theorem elim_free (json : Json) :
    (unlessEmpty json).elim (.ok .null) .ok = (.ok (emptyIsNull json) : Except CRException Json) := by
  rw [unlessEmpty, emptyIsNull]
  split <;> rfl

theorem elim_checked (json : Json) :
    (unlessEmpty json).elim (.ok .null) (fun found => if found.isEmpty then .ok .null else .ok found) =
      (.ok (emptyIsNull json) : Except CRException Json) := by
  rw [elim_unlessEmpty_checked, emptyIsNull]
  split <;> rfl

theorem elim_free_asWritten (json : Json) :
    ((unlessEmpty json).map Json.asWritten).elim (.ok .null) .ok =
      (.ok (emptyIsNull json).asWritten : Except CRException Json) := by
  rw [unlessEmpty, emptyIsNull]
  split <;> rfl

theorem elim_checked_asWritten (json : Json) :
    ((unlessEmpty json).map Json.asWritten).elim (.ok .null)
        (fun found => if found.isEmpty then .ok .null else .ok found) =
      (.ok (emptyIsNull json).asWritten : Except CRException Json) := by
  rw [unlessEmpty, emptyIsNull]
  split
  · rfl
  · rename_i filled
    rw [Option.map_some, Option.elim_some]
    split
    · rename_i empty
      rw [(Json.asWritten_of_isEmpty empty).resolve_left filled]
    · rfl

theorem map_bind_ok {Error α β γ : Type} (result : Except Error α) (next : α → Except Error β) (change : β → γ) :
    (result >>= next).map change = result >>= fun value => (next value).map change := by
  cases result <;> rfl

theorem bind_map_ok {Error α β γ : Type} (result : Except Error α) (change : α → β) (next : β → Except Error γ) :
    result.map change >>= next = result >>= fun value => next (change value) := by
  cases result <;> rfl

theorem ok_bind_ok {Error α β : Type} (value : α) (next : α → Except Error β) :
    (Except.ok value >>= next) = next value := rfl

theorem map_pure_ok {Error α β : Type} (value : α) (change : α → β) :
    (pure value : Except Error α).map change = pure (change value) := rfl

/-- The members before the sub-abilities. -/
theorem read_asWritten (spec : AbilitySpec) (subabilities : List Json) (nested : Except CRException (List AbilitySpec)) :
    AbilitySpec.read doc (Json.pack (spec.members doc subabilities)).asWritten (nested.map (List.map AbilitySpec.asWritten)) =
      (AbilitySpec.read doc (.pack (spec.members doc subabilities)) nested).map AbilitySpec.asWritten := by
  have distinct : ((spec.members doc subabilities).map Prod.fst).Nodup := specMembers_distinct spec subabilities
  have distinctWritten : (((spec.members doc subabilities).map fun member =>
      (member.1, member.2.map Json.asWritten)).map Prod.fst).Nodup := by
    rwa [List.map_map]
  rw [Json.asWritten_pack, AbilitySpec.read, AbilitySpec.read]
  simp only [optionalUnlessEmpty, optional_pack distinct, optional_pack distinctWritten]
  rw [required_pack distinct (show (spec.members doc subabilities).lookup "package" = _ from rfl),
    required_pack distinct (show (spec.members doc subabilities).lookup "version" = _ from rfl),
    required_pack distinct (show (spec.members doc subabilities).lookup "abilityName" = _ from rfl)]
  rw [required_pack distinctWritten (show List.lookup "package" _ = _ from rfl),
    required_pack distinctWritten (show List.lookup "version" _ = _ from rfl),
    required_pack distinctWritten (show List.lookup "abilityName" _ = _ from rfl)]
  simp only [AbilitySpec.members, List.map_cons, List.map_nil, List.lookup_cons, String.reduceBEq, Option.map_some,
    Option.map_map, Function.comp_def, Json.asWritten_string, Json.asWritten_integer, Json.asWritten_boolean, Option.join_some,
    Option.elim_some, elim_status, elim_free, elim_checked, elim_free_asWritten, elim_checked_asWritten,
    arrayUnlessEmpty_asWritten, List.map_map, deviceEntry_asWritten, modelEntry_asWritten, map_bind_ok, bind_map_ok,
    ok_bind_ok, map_pure_ok, AbilitySpec.asWritten_eq]

theorem specsFromItems_asWritten {items : List Json}
    (each : ∀ item ∈ items, AbilitySpec.fromJson doc item.asWritten =
      (AbilitySpec.fromJson doc item).map AbilitySpec.asWritten) :
    specsFromItems doc (items.map Json.asWritten) = (specsFromItems doc items).map (List.map AbilitySpec.asWritten) := by
  induction items with
  | nil => rfl
  | cons item items inductionHypothesis =>
    obtain ⟨first, later⟩ := List.forall_mem_cons.mp each
    rw [List.map_cons, specsFromItems, specsFromItems, first, inductionHypothesis later]
    simp only [map_bind_ok, bind_map_ok, map_pure_ok, List.map_cons]

theorem specFromJson_pack {members : List (String × Option Json)} (distinct : (members.map Prod.fst).Nodup) :
    AbilitySpec.fromJson doc (.pack members) =
      AbilitySpec.read doc (.pack members) ((members.lookup "subabilities").join.elim (.ok []) (specsFrom doc)) := by
  have found := Json.find_pack distinct "subabilities"
  rw [Json.pack, Json.find] at found
  rw [Json.pack, AbilitySpec.fromJson, subabilitiesFrom_eq, found]

theorem spec_asWritten (spec : AbilitySpec) : AbilitySpec.fromJson doc (spec.toJson doc).asWritten =
    (AbilitySpec.fromJson doc (spec.toJson doc)).map AbilitySpec.asWritten := by
  induction spec using AbilitySpec.subInduction with
  | nested spec inductionHypothesis =>
    have distinct : ((spec.members doc (spec.subabilities.map (AbilitySpec.toJson doc))).map Prod.fst).Nodup :=
      specMembers_distinct spec _
    have nested : ((arrayUnlessEmpty (spec.subabilities.map (AbilitySpec.toJson doc))).map Json.asWritten).elim (.ok [])
        (specsFrom doc) =
          ((arrayUnlessEmpty (spec.subabilities.map (AbilitySpec.toJson doc))).elim (.ok []) (specsFrom doc)).map
            (List.map AbilitySpec.asWritten) := by
      have each : ∀ item ∈ spec.subabilities.map (AbilitySpec.toJson doc), AbilitySpec.fromJson doc item.asWritten =
          (AbilitySpec.fromJson doc item).map AbilitySpec.asWritten := by
        intro _ isItem
        obtain ⟨sub, isSub, rfl⟩ := List.mem_map.mp isItem
        exact inductionHypothesis sub isSub
      have items := specsFromItems_asWritten each
      cases given : spec.subabilities.map (AbilitySpec.toJson doc) with
      | nil => rfl
      | cons item rest =>
        rw [given] at items
        rw [arrayUnlessEmpty_asWritten]
        show specsFrom doc (.array ((item :: rest).map Json.asWritten)) = (specsFrom doc (.array (item :: rest))).map _
        rw [specsFrom, specsFrom, items]
    rw [AbilitySpec.toJson_eq, specFromJson_pack distinct, ← read_asWritten, Json.asWritten_pack,
      specFromJson_pack (by rwa [List.map_map])]
    exact congrArg (AbilitySpec.read doc _) nested

/-! ## What has been read back -/

theorem writable_emptyIsNull (json : Json) : (emptyIsNull json).Writable ↔ json.Writable := by
  rw [emptyIsNull]
  split
  · rename_i empty
    refine iff_of_true rfl ?_
    cases json with
    | null => rfl
    | array items =>
      rw [List.isEmpty_iff.mp empty]
      rfl
    | object members =>
      rw [List.isEmpty_iff.mp empty]
      rfl
    | boolean | integer | float | string => cases empty
  · exact Iff.rfl

theorem specsFromItems_each {items : List Json} {specs : List AbilitySpec} (isRead : specsFromItems doc items = .ok specs) :
    List.Forall₂ (fun item spec => AbilitySpec.fromJson doc item = .ok spec) items specs := by
  induction items generalizing specs with
  | nil =>
    rw [specsFromItems] at isRead
    cases isRead
    exact .nil
  | cons item items inductionHypothesis =>
    simp only [specsFromItems, except_bind_eq_ok] at isRead
    obtain ⟨first, isFirst, later, isLater, same⟩ := isRead
    cases same
    exact .cons isFirst (inductionHypothesis isLater)

/-- The free-form members of a spec that is read from those of another. -/
theorem read_members_free {spec read : AbilitySpec} {subabilities : List Json}
    {nested : Except CRException (List AbilitySpec)}
    (isRead : AbilitySpec.read doc (.pack (spec.members doc subabilities)) nested = .ok read) :
    read.status = spec.status ∧ read.activityCondition = emptyIsNull spec.activityCondition ∧
      read.config = spec.config ∧ read.debugOption = emptyIsNull spec.debugOption ∧ nested = .ok read.subabilities := by
  have distinct : ((spec.members doc subabilities).map Prod.fst).Nodup := specMembers_distinct spec subabilities
  simp only [AbilitySpec.read, optionalUnlessEmpty, optional_pack distinct, except_bind_eq_ok] at isRead
  obtain ⟨id, -, status, isStatus, package, -, version, -, abilityName, -, position, -, config, isConfig, debugOption,
    isDebugOption, condition, isCondition, priority, -, devices, -, models, -, subs, isSubs, autoStart, -, keepAlive, -,
    singleton, -, same⟩ := isRead
  cases same
  simp only [AbilitySpec.members, List.lookup_cons, String.reduceBEq, Option.join_some, Option.elim_some, elim_status, elim_free,
    elim_checked, Except.ok.injEq] at isStatus isConfig isDebugOption isCondition
  exact ⟨isStatus.symm, isCondition.symm, isConfig.symm, isDebugOption.symm, isSubs⟩

theorem writable_of_free {spec read : AbilitySpec} (status : read.status = spec.status)
    (condition : read.activityCondition = emptyIsNull spec.activityCondition) (config : read.config = spec.config)
    (option : read.debugOption = emptyIsNull spec.debugOption)
    (subabilities : (∀ sub ∈ read.subabilities, sub.Writable) ↔ ∀ sub ∈ spec.subabilities, sub.Writable) :
    read.Writable ↔ spec.Writable := by
  have conditions : read.activityCondition.Writable ↔ spec.activityCondition.Writable := by
    rw [condition, writable_emptyIsNull]
  have options : read.debugOption.Writable ↔ spec.debugOption.Writable := by rw [option, writable_emptyIsNull]
  constructor
  · rintro ⟨hasStatus, hasCondition, hasConfig, hasOption, subs⟩
    exact .intro (status ▸ hasStatus) (conditions.mp hasCondition) (config ▸ hasConfig) (options.mp hasOption)
      (subabilities.mp subs)
  · rintro ⟨hasStatus, hasCondition, hasConfig, hasOption, subs⟩
    exact .intro (status ▸ hasStatus) (conditions.mpr hasCondition) (config ▸ hasConfig) (options.mpr hasOption)
      (subabilities.mpr subs)

theorem spec_writable_iff {spec read : AbilitySpec} (isRead : AbilitySpec.fromJson doc (spec.toJson doc) = .ok read) :
    read.Writable ↔ spec.Writable := by
  induction spec using AbilitySpec.subInduction generalizing read with
  | nested spec inductionHypothesis =>
    have distinct : ((spec.members doc (spec.subabilities.map (AbilitySpec.toJson doc))).map Prod.fst).Nodup :=
      specMembers_distinct spec _
    rw [AbilitySpec.toJson_eq, specFromJson_pack distinct] at isRead
    obtain ⟨status, condition, config, option, isNested⟩ := read_members_free isRead
    refine writable_of_free status condition config option ?_
    have items : specsFromItems doc (spec.subabilities.map (AbilitySpec.toJson doc)) = .ok read.subabilities := by
      rw [← isNested]
      cases spec.subabilities with
      | nil => rfl
      | cons sub rest =>
        show _ = specsFrom doc (.array ((sub :: rest).map (AbilitySpec.toJson doc)))
        rw [specsFrom]
    have each := List.forall₂_map_left_iff.mp (specsFromItems_each items)
    generalize read.subabilities = reads at each
    generalize spec.subabilities = written at each inductionHypothesis
    clear isRead isNested items
    induction each with
    | nil => exact Iff.rfl
    | cons first _ later =>
      obtain ⟨own, others⟩ := List.forall_mem_cons.mp inductionHypothesis
      rw [List.forall_mem_cons, List.forall_mem_cons]
      exact and_congr (own first) (later others)

/-! ## CRs -/

/-- From the text of its document a CR is read as from the document, with nulls for the numbers that are not finite;
what is wrong with it is wrong in both. -/
theorem fromJson_asWritten (cr : AbilityCR) : AbilityCR.fromJson doc (cr.toJson doc).asWritten =
    (AbilityCR.fromJson doc (cr.toJson doc)).map AbilityCR.asWritten := by
  have distinct : ((cr.members doc).map Prod.fst).Nodup := members_distinct cr
  have distinctWritten : (((cr.members doc).map fun member => (member.1, member.2.map Json.asWritten)).map
      Prod.fst).Nodup := by
    rwa [List.map_map]
  have owner : (if cr.owner.position.isEmpty then .object [] else cr.owner.toJson doc : Json).asWritten =
      if cr.owner.position.isEmpty then .object [] else cr.owner.toJson doc := by
    split <;> rfl
  rw [AbilityCR.toJson, Json.asWritten_pack, AbilityCR.fromJson, AbilityCR.fromJson]
  simp only [optionalUnlessEmpty, optional_pack distinct, optional_pack distinctWritten]
  rw [required_pack distinct (show (cr.members doc).lookup "metadata" = _ from rfl),
    required_pack distinct (show (cr.members doc).lookup "kind" = _ from rfl),
    required_pack distinct (show (cr.members doc).lookup "spec" = _ from rfl),
    required_pack distinctWritten (show List.lookup "metadata" _ = _ from rfl),
    required_pack distinctWritten (show List.lookup "kind" _ = _ from rfl),
    required_pack distinctWritten (show List.lookup "spec" _ = _ from rfl)]
  simp only [AbilityCR.members, List.map_cons, List.map_nil, List.lookup_cons, String.reduceBEq, Option.map_some,
    Option.map_map, Function.comp_def, Json.asWritten_string, Option.join_some, Option.elim_some, tag_asWritten,
    metadata_asWritten, runInfo_asWritten, arrayUnlessEmpty_asWritten, List.map_map, placedEntry_asWritten,
    sharersToJson_asWritten, owner, spec_asWritten, map_bind_ok, bind_map_ok, ok_bind_ok, map_pure_ok, AbilityCR.asWritten]

theorem cr_writable_iff {cr read : AbilityCR} (isRead : AbilityCR.fromJson doc (cr.toJson doc) = .ok read) :
    read.Writable ↔ cr.Writable := by
  have distinct : ((cr.members doc).map Prod.fst).Nodup := members_distinct cr
  rw [AbilityCR.toJson] at isRead
  simp only [AbilityCR.fromJson, optional_pack distinct, except_bind_eq_ok] at isRead
  obtain ⟨tag, -, metadata, -, id, -, kind, -, status, isStatus, runInfo, -, subabilities, -, devices, -, labelled, -,
    sharers, -, owner, -, spec, isSpec, same⟩ := isRead
  cases same
  rw [required_pack distinct (show (cr.members doc).lookup "spec" = _ from rfl)] at isSpec
  have sameStatus : cr.status = status := Except.ok.inj isStatus
  have specs := spec_writable_iff isSpec
  rw [← sameStatus]
  exact ⟨fun writable => ⟨writable.status, specs.mp writable.spec⟩, fun writable => ⟨writable.status, specs.mpr writable.spec⟩⟩

end AbilityFramework.ResourceMgr.Document
