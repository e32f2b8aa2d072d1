import AbilityFramework.ResourceMgr.CRDocument

/-! # CRs that are read back

A document that a CR is written as is read as the same CR, provided that the CR itself has been read from a
document of this kind (`AbilityCR.Settled`). -/

namespace AbilityFramework.ResourceMgr.Document

open Library LifecycleMgr

variable {doc : DocumentEnvironment}

/-! ## Members of an object -/

section Members

variable {α : Type} {members : List (String × Option Json)}

theorem optional_pack (distinct : (members.map Prod.fst).Nodup) (name : String) (get : Json → Except CRException α)
    (default : α) :
    optional (.pack members) name get default = ((members.lookup name).join).elim (.ok default) get := by
  rw [optional, Json.find_pack distinct]
  cases (members.lookup name).join <;> rfl

theorem required_pack (distinct : (members.map Prod.fst).Nodup) {name : String} {value : Json}
    (present : members.lookup name = some (some value)) (get : Json → Except CRException α) :
    required (.pack members) name get = get value := by
  have found : (Json.pack members).find name = some value := by
    rw [Json.find_pack distinct, present]
    rfl
  rw [required, Json.getAt_of_find found]

end Members

@[simp] theorem getStringValue_string (text : String) : getStringValue (.string text) = .ok text := rfl

@[simp] theorem readUuid_idText (id : Uuid) : readUuid doc (.string (doc.idText id)) = .ok id := by
  rw [readUuid, doc.readId_idText]
  rfl

theorem elim_uuid (id : Option Uuid) :
    (id.map fun id => Json.string (doc.idText id)).elim (.ok none) (fun found => (readUuid doc found).map some) = .ok id := by
  cases id with
  | none => rfl
  | some id => rw [Option.map_some, Option.elim_some, readUuid_idText, Except.map]

theorem elim_status (status : Option Json) :
    status.elim (.ok none) (fun found => .ok (some found)) = (.ok status : Except CRException (Option Json)) := by
  cases status <;> rfl

theorem elim_flag (flag : Option Bool) : (flag.map Json.boolean).elim (.ok none) getBoolValue = .ok flag := by
  cases flag <;> rfl

theorem elim_priority {priority : Option Int} (settled : ∀ value, priority = some value → value.bmod (2 ^ 32) = value) :
    (priority.map Json.integer).elim (.ok none) (fun found => (found.getInt32.mapError CRException.json).map some) =
      .ok priority := by
  cases priority with
  | none => rfl
  | some value =>
    have kept := settled value rfl
    rw [Option.map_some, Option.elim_some, Json.getInt32, kept]
    rfl

theorem elim_unlessEmpty {json : Json} (settled : json.isEmpty = true → json = .null) :
    (unlessEmpty json).elim (.ok .null) .ok = (.ok json : Except CRException Json) := by
  rw [unlessEmpty]
  split
  · rename_i empty
    rw [settled empty, Option.elim_none]
  · rfl

theorem elim_unlessEmpty_checked {α : Type} {json : Json} {read : Json → Except CRException α} {default : α} :
    (unlessEmpty json).elim (.ok default) (fun found => if found.isEmpty then .ok default else read found) =
      if json.isEmpty then .ok default else read json := by
  rw [unlessEmpty]
  split
  · rfl
  · rename_i present
    rw [Option.elim_some, if_neg present]

/-- Each item may come back as another. -/
theorem readArray_map_back {α : Type} {read : Json → Except CRException α} {write : α → Json} {back : α → α}
    (readsBack : ∀ item, read (write item) = .ok (back item)) (items : List α) :
    readArray read (.array (items.map write)) = .ok (items.map back) := by
  rw [readArray]
  induction items with
  | nil => rfl
  | cons item items inductionHypothesis =>
    rw [List.map_cons, List.mapM_cons, readsBack, inductionHypothesis]
    rfl

theorem readArray_map {α : Type} {read : Json → Except CRException α} {write : α → Json}
    (readsBack : ∀ item, read (write item) = .ok item) (items : List α) :
    readArray read (.array (items.map write)) = .ok items := by
  have same := @readArray_map_back α read write id readsBack items
  rwa [List.map_id] at same

theorem elim_array {α : Type} {read : Json → Except CRException α} {write : α → Json}
    (readsBack : ∀ item, read (write item) = .ok item) (items : List α) :
    (arrayUnlessEmpty (items.map write)).elim (.ok []) (fun found => if found.isEmpty then .ok [] else readArray read found) =
      .ok items := by
  cases items with
  | nil => rfl
  | cons item items => exact readArray_map readsBack (item :: items)

/-! ## Records without conditions -/

theorem deviceEntry_readsBack (entry : DeviceEntry) : DeviceEntry.fromJson entry.toJson = .ok entry := by
  simp only [DeviceEntry.fromJson, DeviceEntry.toJson]
  rw [required_pack (by simp) rfl, required_pack (by simp) rfl, optional_pack (by simp), optional_pack (by simp)]
  simp only [List.lookup_cons, String.reduceBEq, Option.join_some, Option.elim_some, enumFromJson_ownershipMode,
    enumFromJson_bindMode, getStringValue_string]
  rfl

theorem modelEntry_readsBack (entry : ModelEntry) : ModelEntry.fromJson doc entry.toJson = .ok entry := by
  simp only [ModelEntry.fromJson, ModelEntry.toJson]
  rw [required_pack (by simp) rfl]
  rfl

theorem tag_readsBack (tag : Tag) : Tag.fromJson tag.toJson = .ok tag := by
  simp only [Tag.fromJson, Tag.toJson]
  rw [required_pack (by simp) rfl, required_pack (by simp) rfl]
  rfl

theorem ownerEntry_readsBack (owner : OwnerEntry) : OwnerEntry.fromJson doc (owner.toJson doc) = .ok owner := by
  simp only [OwnerEntry.fromJson, OwnerEntry.toJson]
  rw [required_pack (by simp) rfl, required_pack (by simp) rfl, readUuid_idText]
  rfl

theorem placedEntry_readsBack (entry : PlacedEntry) : PlacedEntry.fromJson doc (entry.toJson doc) = .ok entry := by
  simp only [PlacedEntry.fromJson, PlacedEntry.toJson]
  rw [required_pack (by simp) rfl, required_pack (by simp) rfl, readUuid_idText]
  rfl

theorem runInfo_readsBack {info : RunInfo} (update : info.lastUpdate.bmod (2 ^ 64) = info.lastUpdate)
    (connect : info.lastConnect.bmod (2 ^ 64) = info.lastConnect) : RunInfo.fromJson info.toJson = .ok info := by
  simp only [RunInfo.fromJson, RunInfo.toJson]
  rw [required_pack (by simp) rfl, required_pack (by simp) rfl, required_pack (by simp) rfl, readInt64, readInt64, update,
    connect, enumFromJson_lifecycleState]
  rfl

/-- Entries that are read one after the other into a map. -/
theorem foldlM_replaceInto {Row Key α : Type} {key : Row → Key} [DecidableEq Key]
    {add : Relation key → α → Except CRException (Relation key)} {write : Row → α}
    (adds : ∀ map row, add map (write row) = .ok (map.replaceInto row)) (rows : List Row) (start : Relation key) :
    (rows.map write).foldlM add start = .ok (rows.foldl Relation.replaceInto start) := by
  induction rows generalizing start with
  | nil => rfl
  | cons row rows inductionHypothesis =>
    rw [List.map_cons, List.foldlM_cons, List.foldl_cons, adds]
    exact inductionHypothesis _

theorem getStringMap_texts (map : StringMap) : getStringMap (textsToJson map) = .ok map := by
  rw [textsToJson, getStringMap, foldlM_replaceInto fun _ _ => rfl, Relation.foldl_replaceInto_empty]

theorem elim_texts (map : StringMap) : (unlessEmpty (textsToJson map)).elim (.ok ∅) getStringMap = .ok map := by
  rw [unlessEmpty]
  split
  · rename_i empty
    have noRows : map.rows = [] := by simpa [textsToJson, Json.isEmpty] using empty
    rw [Option.elim_none]
    exact congrArg Except.ok (Relation.ext noRows.symm)
  · exact getStringMap_texts map

theorem metadata_readsBack (metadata : CRMetadata) : CRMetadata.fromJson (metadataToJson metadata) = .ok metadata := by
  simp only [CRMetadata.fromJson, metadataToJson]
  rw [required_pack (by simp) rfl, optional_pack (by simp), optional_pack (by simp)]
  simp only [List.lookup_cons, String.reduceBEq, Option.join_some, elim_texts, getStringValue_string]
  rfl

@[simp] theorem addSharer_idText (sharers : Sharers) (id : Uuid) (position : String) :
    addSharer doc sharers (doc.idText id, .string position) = .ok (sharers.replaceInto (id, position)) := by
  rw [addSharer, doc.readId_idText]
  rfl

theorem readSharers_toJson (sharers : Sharers) : readSharers doc (sharersToJson doc sharers) = .ok sharers := by
  have adds (map : Sharers) (entry : Uuid × String) :
      addSharer doc map (doc.idText entry.1, .string entry.2) = .ok (map.replaceInto entry) :=
    addSharer_idText map entry.1 entry.2
  rw [sharersToJson, readSharers, jsonItems, foldlM_replaceInto adds, Relation.foldl_replaceInto_empty]

/-! ## Specs -/

/-- What a spec that has been read from a document always has: its version is in the form in which versions are
written, its priority fits an `int`, and an empty condition or option is null. -/
structure AbilitySpec.FieldsSettled (doc : DocumentEnvironment) (spec : AbilitySpec) : Prop where
  version : doc.version spec.version = some spec.version
  priority : ∀ value, spec.priority = some value → value.bmod (2 ^ 32) = value
  activityCondition : spec.activityCondition.isEmpty = true → spec.activityCondition = .null
  debugOption : spec.debugOption.isEmpty = true → spec.debugOption = .null

inductive AbilitySpec.Settled (doc : DocumentEnvironment) : AbilitySpec → Prop
  | intro {spec : AbilitySpec} (fields : spec.FieldsSettled doc) (subabilities : ∀ sub ∈ spec.subabilities, sub.Settled doc) :
    spec.Settled doc

theorem specMembers_distinct (spec : AbilitySpec) (subabilities : List Json) :
    ((spec.members doc subabilities).map Prod.fst).Nodup := by
  simp [AbilitySpec.members]

theorem read_members {spec : AbilitySpec} (settled : spec.FieldsSettled doc) (subabilities : List Json) :
    AbilitySpec.read doc (.pack (spec.members doc subabilities)) (.ok spec.subabilities) = .ok spec := by
  have distinct : ((spec.members doc subabilities).map Prod.fst).Nodup := specMembers_distinct spec subabilities
  have version : readVersion doc (.string spec.version) = .ok spec.version := by
    show (doc.version spec.version).elim (Except.error CRException.invalidVersion) Except.ok = _
    rw [settled.version, Option.elim_some]
  have condition : (if spec.activityCondition.isEmpty then .ok .null else .ok spec.activityCondition) =
      (.ok spec.activityCondition : Except CRException Json) := by
    split
    · rename_i empty
      rw [settled.activityCondition empty]
    · rfl
  rw [AbilitySpec.read]
  simp only [optionalUnlessEmpty, optional_pack distinct]
  rw [required_pack distinct (show (spec.members doc subabilities).lookup "package" = _ from rfl),
    required_pack distinct (show (spec.members doc subabilities).lookup "version" = _ from rfl),
    required_pack distinct (show (spec.members doc subabilities).lookup "abilityName" = _ from rfl)]
  simp only [AbilitySpec.members, List.lookup_cons, String.reduceBEq, Option.join_some, elim_uuid, elim_flag, elim_status,
    elim_priority settled.priority, elim_unlessEmpty settled.debugOption, elim_unlessEmpty_checked,
    elim_array deviceEntry_readsBack, elim_array modelEntry_readsBack, version, condition, getStringValue_string, Option.elim_some]
  cases spec
  rfl

theorem subabilitiesFrom_eq (members : List (String × Json)) :
    subabilitiesFrom doc members = (members.lookup "subabilities").elim (.ok []) (specsFrom doc) := by
  induction members with
  | nil => rw [subabilitiesFrom, List.lookup_nil, Option.elim_none]
  | cons member members inductionHypothesis =>
    obtain ⟨key, value⟩ := member
    rw [subabilitiesFrom, List.lookup_cons]
    by_cases found : key = "subabilities"
    · rw [if_pos found, beq_iff_eq.mpr found.symm, Option.elim_some]
    · rw [if_neg found, beq_eq_false_iff_ne.mpr (Ne.symm found), inductionHypothesis]

theorem specsToJson_eq (specs : List AbilitySpec) : specsToJson doc specs = specs.map (AbilitySpec.toJson doc) := by
  induction specs with
  | nil => rw [specsToJson, List.map_nil]
  | cons spec specs inductionHypothesis => rw [specsToJson, List.map_cons, inductionHypothesis]

theorem AbilitySpec.toJson_eq (spec : AbilitySpec) :
    spec.toJson doc = .pack (spec.members doc (spec.subabilities.map (AbilitySpec.toJson doc))) := by
  cases spec
  rw [AbilitySpec.toJson, specsToJson_eq]

theorem specsFromMembers_eq (members : List (String × Json)) :
    specsFromMembers doc members = specsFromItems doc (members.map Prod.snd) := by
  induction members with
  | nil => rw [specsFromMembers, List.map_nil, specsFromItems]
  | cons member members inductionHypothesis =>
    rw [specsFromMembers, List.map_cons, specsFromItems, inductionHypothesis]

theorem specsFromItems_toJson {specs : List AbilitySpec}
    (readsBack : ∀ spec ∈ specs, AbilitySpec.fromJson doc (spec.toJson doc) = .ok spec) :
    specsFromItems doc (specs.map (AbilitySpec.toJson doc)) = .ok specs := by
  induction specs with
  | nil => rw [List.map_nil, specsFromItems]
  | cons spec specs inductionHypothesis =>
    rw [List.map_cons, specsFromItems, readsBack spec List.mem_cons_self,
      inductionHypothesis fun later isLater => readsBack later (List.mem_cons_of_mem _ isLater)]
    rfl

theorem subabilities_readsBack {spec : AbilitySpec}
    (readsBack : ∀ sub ∈ spec.subabilities, AbilitySpec.fromJson doc (sub.toJson doc) = .ok sub) :
    ((Json.pack (spec.members doc (spec.subabilities.map (AbilitySpec.toJson doc)))).find "subabilities").elim (.ok [])
      (specsFrom doc) = .ok spec.subabilities := by
  rw [Json.find_pack (specMembers_distinct spec _)]
  show (arrayUnlessEmpty (spec.subabilities.map (AbilitySpec.toJson doc))).elim (.ok []) (specsFrom doc) = _
  rw [← specsFromItems_toJson readsBack]
  cases spec.subabilities with
  | nil => rw [List.map_nil, specsFromItems]; rfl
  | cons sub subabilities =>
    show specsFrom doc (.array ((sub :: subabilities).map (AbilitySpec.toJson doc))) = _
    rw [specsFrom]

theorem spec_readsBack {spec : AbilitySpec} (settled : spec.Settled doc) :
    AbilitySpec.fromJson doc (spec.toJson doc) = .ok spec := by
  induction settled with
  | @intro spec fields subabilities inductionHypothesis =>
    have nested : subabilitiesFrom doc ((spec.members doc (spec.subabilities.map (AbilitySpec.toJson doc))).filterMap
        fun member => member.2.map (member.1, ·)) = .ok spec.subabilities := by
      rw [subabilitiesFrom_eq]
      exact subabilities_readsBack inductionHypothesis
    rw [AbilitySpec.toJson_eq, Json.pack, AbilitySpec.fromJson, nested]
    exact read_members fields _

/-! ## CRs -/

/-- What a CR that has been read from a document always has: the times of its run fit 64 bits, its sharers
are those of its labels when there are no others, and so is its owner when it has no position. -/
structure AbilityCR.Settled (doc : DocumentEnvironment) (cr : AbilityCR) : Prop where
  runInfo : ∀ info, cr.runInfo = some info →
    info.lastUpdate.bmod (2 ^ 64) = info.lastUpdate ∧ info.lastConnect.bmod (2 ^ 64) = info.lastConnect
  sharers : cr.sharers = ∅ → labelledSharers doc cr.metadata.labels = ∅
  owner : ∃ owner, labelledOwner doc cr.metadata.labels = .ok owner ∧ (cr.owner.position.isEmpty = true → cr.owner = owner)
  spec : cr.spec.Settled doc

theorem members_distinct (cr : AbilityCR) : ((cr.members doc).map Prod.fst).Nodup := by
  simp [AbilityCR.members]

theorem elim_runInfo {runInfo : Option RunInfo}
    (settled : ∀ info, runInfo = some info →
      info.lastUpdate.bmod (2 ^ 64) = info.lastUpdate ∧ info.lastConnect.bmod (2 ^ 64) = info.lastConnect) :
    (runInfo.map RunInfo.toJson).elim (.ok none)
      (fun found => if found.isEmpty then .ok none else (RunInfo.fromJson found).map some) = .ok runInfo := by
  cases runInfo with
  | none => rfl
  | some info =>
    obtain ⟨update, connect⟩ := settled info rfl
    show (RunInfo.fromJson info.toJson).map some = _
    rw [runInfo_readsBack update connect]
    rfl

theorem elim_sharers {sharers labelled : Sharers} (settled : sharers = ∅ → labelled = ∅) :
    (if (sharersToJson doc sharers).isEmpty then .ok labelled else readSharers doc (sharersToJson doc sharers)) =
      .ok sharers := by
  split
  · rename_i empty
    have noRows : sharers.rows = [] := by simpa [sharersToJson, Json.isEmpty] using empty
    have none : sharers = ∅ := Relation.ext noRows
    rw [settled none, none]
  · exact readSharers_toJson sharers

/-- Without a position the owner is not written, and the reader takes the labelled one. -/
theorem elim_owner (owner labelled : OwnerEntry) :
    (if (if owner.position.isEmpty then Json.object [] else owner.toJson doc).isEmpty then .ok labelled
      else OwnerEntry.fromJson doc (if owner.position.isEmpty then Json.object [] else owner.toJson doc)) =
      .ok (if owner.position.isEmpty then labelled else owner) := by
  by_cases empty : owner.position.isEmpty = true
  · rw [if_pos empty, if_pos empty]
    rfl
  · rw [if_neg empty, if_neg empty, ownerEntry_readsBack]
    rfl

theorem cr_readsBack_owner {cr : AbilityCR} {labelled : OwnerEntry}
    (runInfo : ∀ info, cr.runInfo = some info →
      info.lastUpdate.bmod (2 ^ 64) = info.lastUpdate ∧ info.lastConnect.bmod (2 ^ 64) = info.lastConnect)
    (sharers : cr.sharers = ∅ → labelledSharers doc cr.metadata.labels = ∅)
    (isLabelled : labelledOwner doc cr.metadata.labels = .ok labelled) (spec : cr.spec.Settled doc) :
    AbilityCR.fromJson doc (cr.toJson doc) =
      .ok { cr with owner := if cr.owner.position.isEmpty then labelled else cr.owner } := by
  have distinct : ((cr.members doc).map Prod.fst).Nodup := members_distinct cr
  rw [AbilityCR.fromJson, AbilityCR.toJson]
  simp only [optionalUnlessEmpty, optional_pack distinct]
  rw [required_pack distinct (show (cr.members doc).lookup "metadata" = _ from rfl),
    required_pack distinct (show (cr.members doc).lookup "kind" = _ from rfl),
    required_pack distinct (show (cr.members doc).lookup "spec" = _ from rfl)]
  simp only [AbilityCR.members, List.lookup_cons, String.reduceBEq, Option.join_some, Option.elim_some, elim_runInfo runInfo,
    elim_array placedEntry_readsBack, tag_readsBack, metadata_readsBack, readUuid_idText, getStringValue_string,
    spec_readsBack spec]
  show labelledOwner doc cr.metadata.labels >>= (fun _ => _) = _
  rw [isLabelled, elim_sharers sharers]
  refine (pure_bind labelled _).trans ?_
  rw [elim_owner]
  rfl

theorem cr_readsBack {cr : AbilityCR} (settled : cr.Settled doc) : AbilityCR.fromJson doc (cr.toJson doc) = .ok cr := by
  obtain ⟨labelled, isLabelled, isOwner⟩ := settled.owner
  rw [cr_readsBack_owner settled.runInfo settled.sharers isLabelled settled.spec]
  by_cases empty : cr.owner.position.isEmpty = true
  · rw [if_pos empty, ← isOwner empty]
  · rw [if_neg empty]

/-! ## What is read is settled -/

theorem readVersion_settled {json : Json} {version : String} (isRead : readVersion doc json = .ok version) :
    doc.version version = some version := by
  obtain ⟨text, _, written⟩ := except_bind_eq_ok.mp isRead
  cases found : doc.version text with
  | none => rw [found] at written; cases written
  | some own =>
    rw [found] at written
    cases written
    exact doc.version_version found

theorem getInt32_settled {json : Json} {value : Int} (isRead : json.getInt32 = .ok value) : value.bmod (2 ^ 32) = value := by
  cases json with
  | boolean flag =>
    cases isRead
    cases flag <;> rfl
  | integer given =>
    cases isRead
    exact Int.bmod_bmod
  | float given =>
    cases isRead
    exact Double.toInt_settled 31 given
  | null | string | array | object => cases isRead

theorem readInt64_settled {json : Json} {value : Int} (isRead : readInt64 json = .ok value) : value.bmod (2 ^ 64) = value := by
  cases json with
  | integer given =>
    cases isRead
    exact Int.bmod_bmod
  | float given =>
    cases isRead
    exact Double.toInt_settled 63 given
  | null | boolean | string | array | object => cases isRead

theorem unlessEmpty_settled {json found : Json}
    (isRead : (unlessEmpty json).elim (.ok .null) .ok = (.ok found : Except CRException Json)) : found.isEmpty = true → found = .null := by
  rw [unlessEmpty] at isRead
  split at isRead
  · rw [Option.elim_none] at isRead
    cases isRead
    exact fun _ => rfl
  · rw [Option.elim_some] at isRead
    cases isRead
    intro empty
    contradiction

theorem optionalUnlessEmpty_ok {α : Type} {json : Json} {name : String} {read : Json → Except CRException α} {default value : α}
    (isRead : optionalUnlessEmpty json name read default = .ok value) :
    (∃ found, json.find name = some found ∧ found.isEmpty = false ∧ read found = .ok value) ∨
      (∀ found, json.find name = some found → found.isEmpty = true) ∧ value = default := by
  rw [optionalUnlessEmpty, optional] at isRead
  cases given : json.find name with
  | none =>
    rw [given] at isRead
    exact .inr ⟨nofun, (Except.ok.inj isRead).symm⟩
  | some found =>
    simp only [given] at isRead
    by_cases empty : found.isEmpty = true
    · rw [if_pos empty] at isRead
      refine .inr ⟨?_, (Except.ok.inj isRead).symm⟩
      rintro _ ⟨⟩
      exact empty
    · rw [if_neg empty] at isRead
      exact .inl ⟨found, rfl, Bool.eq_false_iff.mpr empty, isRead⟩

theorem optionalUnlessEmpty_settled {json found : Json} {name : String}
    (isRead : optionalUnlessEmpty json name .ok .null = .ok found) : found.isEmpty = true → found = .null := by
  intro empty
  obtain ⟨given, -, filled, same⟩ | ⟨-, same⟩ := optionalUnlessEmpty_ok isRead
  · cases same
    rw [filled] at empty
    cases empty
  · exact same

theorem required_ok {α : Type} {json : Json} {name : String} {get : Json → Except CRException α} {value : α}
    (isRead : required json name get = .ok value) : ∃ found, get found = .ok value := by
  rw [required] at isRead
  split at isRead
  · cases isRead
  · exact ⟨_, isRead⟩

/-- Of the fields of a spec that has been read only the debug option may not be settled. -/
theorem read_settled {json : Json} {nested : Except CRException (List AbilitySpec)} {spec : AbilitySpec}
    (isRead : AbilitySpec.read doc json nested = .ok spec) :
    optional json "debugOption" .ok .null = .ok spec.debugOption ∧ nested = .ok spec.subabilities ∧
      doc.version spec.version = some spec.version ∧
      (∀ value, spec.priority = some value → value.bmod (2 ^ 32) = value) ∧
      (spec.activityCondition.isEmpty = true → spec.activityCondition = .null) := by
  simp only [AbilitySpec.read, except_bind_eq_ok] at isRead
  obtain ⟨id, -, status, -, package, -, version, isVersion, abilityName, -, position, -, config, -, debugOption,
    isDebugOption, condition, isCondition, priority, isPriority, devices, -, models, -, subs, isSubs, autoStart, -, keepAlive, -, singleton, -, same⟩ := isRead
  cases same
  refine ⟨isDebugOption, isSubs, ?_, ?_, optionalUnlessEmpty_settled isCondition⟩
  · obtain ⟨_, found⟩ := required_ok isVersion
    exact readVersion_settled found
  rintro value rfl
  rw [optional] at isPriority
  split at isPriority
  · cases isPriority
  · rename_i json _
    cases got : json.getInt32 with
    | error =>
      rw [got] at isPriority
      cases isPriority
    | ok own =>
      rw [got] at isPriority
      cases isPriority
      exact getInt32_settled got

theorem fieldsSettled_of_read {spec written : AbilitySpec} {subabilities : List Json}
    {nested : Except CRException (List AbilitySpec)}
    (isRead : AbilitySpec.read doc (.pack (written.members doc subabilities)) nested = .ok spec) :
    spec.FieldsSettled doc ∧ nested = .ok spec.subabilities := by
  obtain ⟨isDebugOption, isNested, version, priority, condition⟩ := read_settled isRead
  rw [optional_pack (specMembers_distinct written subabilities)] at isDebugOption
  exact ⟨⟨version, priority, condition, unlessEmpty_settled isDebugOption⟩, isNested⟩

theorem mem_specsFromItems {items : List Json} {specs : List AbilitySpec}
    (isRead : specsFromItems doc items = .ok specs) :
    ∀ spec ∈ specs, ∃ item ∈ items, AbilitySpec.fromJson doc item = .ok spec := by
  induction items generalizing specs with
  | nil =>
    rw [specsFromItems] at isRead
    cases isRead
    intro spec isSpec
    cases isSpec
  | cons item items inductionHypothesis =>
    simp only [specsFromItems, except_bind_eq_ok] at isRead
    obtain ⟨first, isFirst, later, isLater, same⟩ := isRead
    cases same
    intro spec isSpec
    rcases List.mem_cons.mp isSpec with rfl | isSpec
    · exact ⟨item, List.mem_cons_self, isFirst⟩
    · obtain ⟨found, isItem, given⟩ := inductionHypothesis isLater spec isSpec
      exact ⟨found, List.mem_cons_of_mem _ isItem, given⟩

theorem spec_settled {written spec : AbilitySpec} (isRead : AbilitySpec.fromJson doc (written.toJson doc) = .ok spec) :
    spec.Settled doc := by
  rw [AbilitySpec.toJson_eq, Json.pack, AbilitySpec.fromJson, subabilitiesFrom_eq] at isRead
  obtain ⟨fields, isNested⟩ := fieldsSettled_of_read isRead
  refine .intro fields fun sub isSub => ?_
  have found : ((Json.pack (written.members doc (written.subabilities.map (AbilitySpec.toJson doc)))).find
      "subabilities").elim (.ok []) (specsFrom doc) = .ok spec.subabilities := isNested
  rw [Json.find_pack (specMembers_distinct written _)] at found
  have items : (arrayUnlessEmpty (written.subabilities.map (AbilitySpec.toJson doc))).elim (.ok []) (specsFrom doc) =
      .ok spec.subabilities := found
  rw [arrayUnlessEmpty] at items
  split at items
  · rw [← Except.ok.inj items] at isSub
    cases isSub
  · rw [Option.elim_some, specsFrom] at items
    obtain ⟨item, isItem, own⟩ := mem_specsFromItems items sub isSub
    obtain ⟨writtenSub, isWritten, rfl⟩ := List.mem_map.mp isItem
    exact spec_settled own
termination_by written
decreasing_by
  have smaller := List.sizeOf_lt_of_mem isWritten
  cases written
  simp only [AbilitySpec.mk.sizeOf_spec] at smaller ⊢
  omega

theorem runInfo_settled {json : Json} {info : RunInfo} (isRead : RunInfo.fromJson json = .ok info) :
    info.lastUpdate.bmod (2 ^ 64) = info.lastUpdate ∧ info.lastConnect.bmod (2 ^ 64) = info.lastConnect := by
  simp only [RunInfo.fromJson, except_bind_eq_ok] at isRead
  obtain ⟨state, -, update, isUpdate, connect, isConnect, same⟩ := isRead
  cases same
  obtain ⟨_, isUpdate⟩ := required_ok isUpdate
  obtain ⟨_, isConnect⟩ := required_ok isConnect
  exact ⟨readInt64_settled isUpdate, readInt64_settled isConnect⟩

theorem readRunInfo_settled {json : Json} {runInfo : Option RunInfo}
    (isRead : optionalUnlessEmpty json "runInfo" (fun found => (RunInfo.fromJson found).map some) none = .ok runInfo) :
    ∀ info, runInfo = some info →
      info.lastUpdate.bmod (2 ^ 64) = info.lastUpdate ∧ info.lastConnect.bmod (2 ^ 64) = info.lastConnect := by
  rintro info rfl
  obtain ⟨found, -, -, isInfo⟩ | ⟨-, impossible⟩ := optionalUnlessEmpty_ok isRead
  · cases own : RunInfo.fromJson found with
    | error =>
      rw [own] at isInfo
      cases isInfo
    | ok given =>
      rw [own] at isInfo
      cases isInfo
      exact runInfo_settled own
  · cases impossible

theorem addSharers_ne_empty {items : List (String × Json)} {start sharers : Sharers} (some : start ≠ ∅ ∨ items ≠ [])
    (isRead : items.foldlM (addSharer doc) start = .ok sharers) : sharers ≠ ∅ := by
  induction items generalizing start with
  | nil =>
    obtain filled | impossible := some
    · exact Except.ok.inj isRead ▸ filled
    · exact absurd rfl impossible
  | cons item items inductionHypothesis =>
    obtain ⟨next, isNext, later⟩ := except_bind_eq_ok.mp (List.foldlM_cons.symm.trans isRead)
    simp only [addSharer, except_bind_eq_ok] at isNext
    obtain ⟨position, -, id, -, same⟩ := isNext
    refine inductionHypothesis (.inl ?_) later
    rintro rfl
    have member : (id, position) ∈ start.replaceInto (id, position) := Relation.mem_replaceInto.mpr (.inl rfl)
    rw [Except.ok.inj same] at member
    exact Relation.not_mem_empty _ member

theorem jsonItems_ne_nil {json : Json} (filled : json.isEmpty = false) : jsonItems json ≠ [] := by
  cases json with
  | null => cases filled
  | array items =>
    cases items with
    | nil => cases filled
    | cons => simp [jsonItems]
  | object members =>
    cases members with
    | nil => cases filled
    | cons => exact List.cons_ne_nil _ _
  | boolean | integer | float | string => exact List.cons_ne_nil _ _

/-- Sharers that are read are some, so that without any the labels have none either. -/
theorem readSharers_settled {json : Json} {labelled sharers : Sharers}
    (isRead : optionalUnlessEmpty json "sharers" (readSharers doc) labelled = .ok sharers) :
    sharers = ∅ → labelled = ∅ := by
  intro none
  obtain ⟨found, -, filled, isSharers⟩ | ⟨-, same⟩ := optionalUnlessEmpty_ok isRead
  · exact absurd none (addSharers_ne_empty (.inr (jsonItems_ne_nil filled)) isSharers)
  · exact same.symm.trans none

theorem cr_settled {written cr : AbilityCR} (isRead : AbilityCR.fromJson doc (written.toJson doc) = .ok cr) :
    cr.Settled doc := by
  have distinct : ((written.members doc).map Prod.fst).Nodup := members_distinct written
  simp only [AbilityCR.fromJson, AbilityCR.toJson, except_bind_eq_ok] at isRead
  obtain ⟨tag, -, metadata, -, id, -, kind, -, status, -, runInfo, isRunInfo, subabilities, -, devices, -, labelled,
    isLabelled, sharers, isSharers, owner, isOwner, spec, isSpec, same⟩ := isRead
  cases same
  rw [optionalUnlessEmpty, optional_pack distinct] at isOwner
  rw [required_pack distinct (show (written.members doc).lookup "spec" = _ from rfl)] at isSpec
  refine ⟨readRunInfo_settled isRunInfo, readSharers_settled isSharers, ⟨labelled, isLabelled, fun empty => ?_⟩,
    spec_settled isSpec⟩
  have given : (if (if written.owner.position.isEmpty then Json.object [] else written.owner.toJson doc).isEmpty
      then .ok labelled
      else OwnerEntry.fromJson doc (if written.owner.position.isEmpty then Json.object [] else written.owner.toJson doc)) =
        .ok owner := isOwner
  rw [elim_owner] at given
  cases given
  by_cases noPosition : written.owner.position.isEmpty = true
  · exact if_pos noPosition
  · have kept : (if written.owner.position.isEmpty then labelled else written.owner) = written.owner := if_neg noPosition
    exact absurd (kept ▸ empty) noPosition

/-- Reading and writing once more changes nothing. -/
theorem cr_readsBack_again {written cr : AbilityCR} (isRead : AbilityCR.fromJson doc (written.toJson doc) = .ok cr) :
    AbilityCR.fromJson doc (cr.toJson doc) = .ok cr := cr_readsBack (cr_settled isRead)

end AbilityFramework.ResourceMgr.Document
