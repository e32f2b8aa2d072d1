import AbilityFramework.ResourceMgr.CRTables

/-! # Files that throw

An exception in `read_cr_from_yaml`, or in adding what it has read, leaves `read_crs_into_db` as well: the
files after it are not read and nothing is reconciled.  `Throws` says which files these are, by what is in them, and `filesContained_iff`
that a round does what it does on its acceptable files alone exactly if no file is one of them. -/

namespace AbilityFramework.ResourceMgr

open Library

/-! ## Steps that throw -/

def Succeeds {α : Type} (result : Except CRException α) : Prop := ∃ value, result = .ok value

@[simp] theorem succeeds_ok {α : Type} (value : α) : Succeeds (.ok value : Except CRException α) := ⟨value, rfl⟩

@[simp] theorem not_succeeds_error {α : Type} (exception : CRException) :
    ¬ Succeeds (.error exception : Except CRException α) := by
  rintro ⟨_, impossible⟩
  cases impossible

theorem not_succeeds_iff {α : Type} {result : Except CRException α} :
    ¬ Succeeds result ↔ ∃ exception, result = .error exception := by
  cases result with
  | ok value => simp
  | error exception => simp

/-- Steps of which the later does not depend on what the earlier finds. -/
theorem succeeds_bind {α β : Type} {result : Except CRException α} {next : α → Except CRException β} {later : Prop}
    (next_iff : ∀ value, Succeeds (next value) ↔ later) : Succeeds (result >>= next) ↔ Succeeds result ∧ later := by
  cases result with
  | ok value =>
    rw [← next_iff value]
    simp [bind, Except.bind]
  | error exception => simp [bind, Except.bind]

theorem succeeds_bind_ok {α β : Type} {result : Except CRException α} {next : α → Except CRException β}
    (always : ∀ value, Succeeds (next value)) : Succeeds (result >>= next) ↔ Succeeds result := by
  rw [succeeds_bind fun value => iff_of_true (always value) trivial, and_true]

/-! ## Members of a JSON value -/

def Has (json : Json) (key : String) (good : Json → Prop) : Prop := ∃ found, json.find key = some found ∧ good found

def MayHave (json : Json) (key : String) (good : Json → Prop) : Prop := ∀ found, json.find key = some found → good found

def IsText (json : Json) : Prop := ∃ text, json = .string text

def IsFlag (json : Json) : Prop := ∃ flag, json = .boolean flag

def IsTextMap (json : Json) : Prop := ∃ members, json = .object members ∧ ∀ member ∈ members, IsText member.2

theorem succeeds_required {α : Type} {json : Json} {key : String} {get : Json → Except CRException α} :
    Succeeds (required json key get) ↔ Has json key fun found => Succeeds (get found) := by
  cases found : json.find key with
  | some value => simp [required, Has, found, Json.getAt_of_find found]
  | none =>
    have missing : ∃ error, json.getAt key = .error error := by
      cases json with
      | object members =>
        have unlisted : members.lookup key = none := found
        exact ⟨_, by rw [Json.getAt, unlisted, Option.elim_none]⟩
      | null | boolean | integer | float | string | array => exact ⟨_, rfl⟩
    obtain ⟨error, missing⟩ := missing
    simp [required, Has, found, missing]

theorem succeeds_optional {α : Type} {json : Json} {key : String} {get : Json → Except CRException α} {default : α} :
    Succeeds (optional json key get default) ↔ MayHave json key fun found => Succeeds (get found) := by
  cases found : json.find key with
  | some value => simp [optional, MayHave, found]
  | none => simp [optional, MayHave, found]

theorem succeeds_getStringValue {json : Json} : Succeeds (getStringValue json) ↔ IsText json := by
  cases json with
  | string text => exact iff_of_true (succeeds_ok text) ⟨text, rfl⟩
  | null | boolean | integer | float | array | object =>
    exact iff_of_false (not_succeeds_error _) (by rintro ⟨_, impossible⟩; cases impossible)

theorem succeeds_getBoolValue {json : Json} : Succeeds (getBoolValue json) ↔ IsFlag json := by
  cases json with
  | boolean flag => exact iff_of_true (succeeds_ok (some flag)) ⟨flag, rfl⟩
  | null | string | integer | float | array | object =>
    exact iff_of_false (not_succeeds_error _) (by rintro ⟨_, impossible⟩; cases impossible)

theorem succeeds_foldlM {α β : Type} {step : β → α → Except CRException β} {good : α → Prop}
    (step_iff : ∀ state item, Succeeds (step state item) ↔ good item) (items : List α) (state : β) :
    Succeeds (items.foldlM step state) ↔ ∀ item ∈ items, good item := by
  induction items generalizing state with
  | nil => simp [pure, Except.pure]
  | cons item items inductionHypothesis =>
    rw [List.foldlM_cons, succeeds_bind inductionHypothesis, step_iff, List.forall_mem_cons]

theorem succeeds_getStringMap {json : Json} : Succeeds (getStringMap json) ↔ IsTextMap json := by
  cases json with
  | object members =>
    have step_iff (map : StringMap) (member : String × Json) :
        Succeeds (do return map.replaceInto (member.1, ← getStringValue member.2)) ↔ IsText member.2 := by
      rw [← succeeds_getStringValue, succeeds_bind_ok fun _ => by simp [pure, Except.pure]]
    rw [getStringMap, succeeds_foldlM step_iff]
    simp [IsTextMap]
  | null | boolean | integer | float | string | array =>
    exact iff_of_false (not_succeeds_error _) (by rintro ⟨_, impossible, _⟩; cases impossible)

/-! ## Members that decode -/

structure MetadataDecodes (json : Json) : Prop where
  name : Has json "name" IsText
  labels : MayHave json "labels" IsTextMap
  annotations : MayHave json "annotations" IsTextMap

variable (env : CREnvironment)

def IsVersion (json : Json) : Prop := ∃ text version, json = .string text ∧ env.version text = some version

structure AbilitySpecDecodes (json : Json) : Prop where
  package : Has json "package" IsText
  version : Has json "version" (IsVersion env)
  abilityName : Has json "abilityName" IsText
  position : MayHave json "position" IsText
  flags : ∀ key ∈ ["autoStart", "keepAlive", "singleton"], MayHave json key IsFlag

structure AbilityDecodes (json : Json) : Prop where
  metadata : Has json "metadata" MetadataDecodes
  kind : Has json "kind" IsText
  rest : Succeeds (env.abilityRest json)
  spec : Has json "spec" (AbilitySpecDecodes env)

structure DeviceSpecDecodes (json : Json) : Prop where
  package : Has json "package" IsText
  deviceName : Has json "deviceName" IsText
  version : Has json "version" (IsVersion env)

structure DeviceDecodes (json : Json) : Prop where
  kind : Has json "kind" IsText
  metadata : Has json "metadata" MetadataDecodes
  rest : Succeeds (env.deviceRest json)
  spec : Has json "spec" (DeviceSpecDecodes env)

variable {env} {json : Json}

theorem succeeds_getVersion : Succeeds (getVersion env json) ↔ IsVersion env json := by
  cases json with
  | string text =>
    cases version : env.version text with
    | some read => simp [getVersion, getStringValue, Json.getString, Except.mapError, bind, Except.bind, IsVersion, version]
    | none => simp [getVersion, getStringValue, Json.getString, Except.mapError, bind, Except.bind, IsVersion, version]
  | null | boolean | integer | float | array | object =>
    exact iff_of_false (not_succeeds_error _) (by rintro ⟨_, _, impossible, _⟩; cases impossible)

theorem succeeds_metadata : Succeeds (CRMetadata.fromJson json) ↔ MetadataDecodes json := by
  rw [CRMetadata.fromJson,
    succeeds_bind fun _ => succeeds_bind fun _ => succeeds_bind_ok fun _ => by simp [pure, Except.pure]]
  simp only [succeeds_required, succeeds_optional, succeeds_getStringValue, succeeds_getStringMap]
  exact ⟨fun ⟨name, labels, annotations⟩ => ⟨name, labels, annotations⟩,
    fun decodes => ⟨decodes.name, decodes.labels, decodes.annotations⟩⟩

theorem succeeds_abilitySpec : Succeeds (abilitySpecFromJson env json) ↔ AbilitySpecDecodes env json := by
  rw [abilitySpecFromJson,
    succeeds_bind fun _ => succeeds_bind fun _ => succeeds_bind fun _ => succeeds_bind fun _ =>
      succeeds_bind fun _ => succeeds_bind fun _ => succeeds_bind_ok fun _ => by simp [pure, Except.pure]]
  simp only [succeeds_required, succeeds_optional, succeeds_getStringValue, succeeds_getBoolValue, succeeds_getVersion]
  constructor
  · rintro ⟨package, version, abilityName, position, autoStart, keepAlive, singleton⟩
    refine ⟨package, version, abilityName, position, ?_⟩
    simp only [List.forall_mem_cons, List.not_mem_nil, false_implies, implies_true, and_true]
    exact ⟨autoStart, keepAlive, singleton⟩
  · intro decodes
    have flags := decodes.flags
    simp only [List.forall_mem_cons, List.not_mem_nil, false_implies, implies_true, and_true] at flags
    exact ⟨decodes.package, decodes.version, decodes.abilityName, decodes.position, flags⟩

theorem succeeds_deviceSpec : Succeeds (DeviceSpec.fromJson env json) ↔ DeviceSpecDecodes env json := by
  rw [DeviceSpec.fromJson,
    succeeds_bind fun _ => succeeds_bind fun _ => succeeds_bind_ok fun _ => by simp [pure, Except.pure]]
  simp only [succeeds_required, succeeds_getStringValue, succeeds_getVersion]
  exact ⟨fun ⟨package, deviceName, version⟩ => ⟨package, deviceName, version⟩,
    fun decodes => ⟨decodes.package, decodes.deviceName, decodes.version⟩⟩

theorem succeeds_ability (id : Uuid) : Succeeds (AbilityCRData.fromJson env id json) ↔ AbilityDecodes env json := by
  rw [AbilityCRData.fromJson,
    succeeds_bind fun _ => succeeds_bind fun _ => succeeds_bind fun _ => succeeds_bind_ok fun _ => by
      simp [pure, Except.pure]]
  simp only [succeeds_required, succeeds_getStringValue, succeeds_metadata, succeeds_abilitySpec]
  exact ⟨fun ⟨metadata, kind, rest, spec⟩ => ⟨metadata, kind, rest, spec⟩,
    fun decodes => ⟨decodes.metadata, decodes.kind, decodes.rest, decodes.spec⟩⟩

theorem succeeds_device (id : Uuid) : Succeeds (DeviceCRData.fromJson env id json) ↔ DeviceDecodes env json := by
  rw [DeviceCRData.fromJson,
    succeeds_bind fun _ => succeeds_bind fun _ => succeeds_bind fun _ => succeeds_bind_ok fun _ => by
      simp [pure, Except.pure]]
  simp only [succeeds_required, succeeds_getStringValue, succeeds_metadata, succeeds_deviceSpec]
  exact ⟨fun ⟨kind, metadata, rest, spec⟩ => ⟨kind, metadata, rest, spec⟩,
    fun decodes => ⟨decodes.kind, decodes.metadata, decodes.rest, decodes.spec⟩⟩

/-! ## Members that can be written -/

/-- What lies on the path to a member is an object, null or not there. -/
def Assignable : Json → List String → Prop
  | _, [] => True
  | .null, _ :: _ => True
  | .object members, key :: path => Assignable ((members.lookup key).getD .null) path
  | _, _ :: _ => False

@[simp] theorem assignable_nil (json : Json) : Assignable json [] := by cases json <;> trivial

@[simp] theorem assignable_null (path : List String) : Assignable .null path := by cases path <;> trivial

theorem assignable_object (members : List (String × Json)) (key : String) (path : List String) :
    Assignable (.object members) (key :: path) ↔ Assignable ((members.lookup key).getD .null) path := Iff.rfl

theorem succeeds_assign {path : List String} {value : Json} (json : Json) :
    Succeeds (assign json path value) ↔ Assignable json path := by
  induction path generalizing json with
  | nil => simp [assign]
  | cons key path inductionHypothesis =>
    cases json with
    | null =>
      rw [assign, succeeds_bind_ok fun _ => by simp [pure, Except.pure], inductionHypothesis]
      simp
    | object members =>
      rw [assign, succeeds_bind_ok fun _ => by simp [pure, Except.pure], inductionHypothesis,
        assignable_object]
    | boolean | integer | float | string | array => simp [assign, Assignable]

/-- A member that has been written stands in the way of nothing but its own members. -/
theorem assignable_assigned {path other : List String} {value json after : Json}
    (written : assign json path value = .ok after) (apart : path <+: other → path = other) :
    Assignable after other ↔ Assignable json other := by
  induction path generalizing json after other with
  | nil =>
    rw [← apart List.nil_prefix]
    simp
  | cons key path inductionHypothesis =>
    cases other with
    | nil => simp
    | cons otherKey other =>
      -- The member written on the way down, in what was there before.
      have below (before member : Json) (assigned : assign before path value = .ok member) (same : otherKey = key) :
          Assignable member other ↔ Assignable before other := by
        refine inductionHypothesis assigned fun isPrefix => ?_
        have whole := apart (by rw [same]; exact List.prefix_cons_inj key |>.mpr isPrefix)
        exact (List.cons.inj whole).2
      cases json with
      | null =>
        cases assigned : assign .null path value with
        | error exception => simp [assign, assigned, bind, Except.bind] at written
        | ok member =>
          simp only [assign, assigned, bind, Except.bind, pure, Except.pure, Except.ok.injEq] at written
          rw [← written, assignable_object, lookup_cons_eq]
          by_cases same : otherKey = key
          · simp [same, below .null member assigned same]
          · simp [same]
      | object members =>
        cases assigned : assign ((members.lookup key).getD .null) path value with
        | error exception => simp [assign, assigned, bind, Except.bind] at written
        | ok member =>
          simp only [assign, assigned, bind, Except.bind, pure, Except.pure, Except.ok.injEq] at written
          rw [← written, assignable_object, assignable_object, lookup_written]
          by_cases same : otherKey = key
          · simp [same, below _ member assigned same]
          · simp [same]
      | boolean | integer | float | string | array => simp [assign] at written

theorem succeeds_assignAll {members : List (List String × Json)}
    (apart : members.Pairwise fun earlier later => earlier.1 <+: later.1 → earlier.1 = later.1) (json : Json) :
    Succeeds (assignAll json members) ↔ ∀ member ∈ members, Assignable json member.1 := by
  induction members generalizing json with
  | nil => simp [assignAll, pure, Except.pure]
  | cons member members inductionHypothesis =>
    obtain ⟨apartFirst, apart⟩ := List.pairwise_cons.mp apart
    have first : Succeeds (assign json member.1 member.2) ↔ Assignable json member.1 := succeeds_assign json
    rw [List.forall_mem_cons, ← first]
    cases assigned : assign json member.1 member.2 with
    | error exception => simp [assignAll, assigned, bind, Except.bind]
    | ok after =>
      have rest := inductionHypothesis apart after
      simp only [assignAll, List.foldlM_cons, assigned, bind, Except.bind] at rest ⊢
      rw [rest, and_iff_right (succeeds_ok after)]
      refine forall_congr' fun later => ?_
      refine imp_congr_right fun isLater => ?_
      exact assignable_assigned assigned (apartFirst later isLater)

/-! ## Files -/

/-- A map with a member of this key that is no scalar. -/
def HasSection (yaml : Yaml) (key : String) : Prop :=
  ∃ members found, yaml = .map members ∧ members.lookup key = some found ∧ ∀ text, found ≠ .scalar text

theorem succeeds_getScalar_section {yaml : Yaml} {key inner missing notScalar : String} :
    Succeeds (yaml.getScalar [key, inner] missing notScalar) ↔ HasSection yaml key := by
  rw [Yaml.getScalar, succeeds_bind_ok fun node => by split <;> simp [pure, Except.pure]]
  cases yaml with
  | map members =>
    simp only [List.foldlM_cons, List.foldlM_nil, Yaml.member, bind, Except.bind, HasSection, Yaml.map.injEq]
    cases found : members.lookup key with
    | none => simp [found]
    | some value =>
      cases value with
      | scalar text => simp [found]
      | null | sequence | map => simp [found, pure, Except.pure]
  | null | scalar | sequence => simp [Yaml.member, bind, Except.bind, HasSection]

theorem succeeds_getKind {yaml : Yaml} {key : String} (hasSection : HasSection yaml key) : Succeeds (getKind yaml) := by
  obtain ⟨members, _, rfl, _⟩ := hasSection
  simp only [getKind, Yaml.getScalar, List.foldlM_cons, List.foldlM_nil, Yaml.member, bind, Except.bind, pure,
    Except.pure]
  split <;> simp

theorem succeeds_getSpecVersion {yaml : Yaml} : Succeeds (getSpecVersion env yaml) ↔ HasSection yaml "spec" := by
  rw [getSpecVersion, succeeds_bind_ok fun text => by split <;> simp [pure, Except.pure],
    succeeds_getScalar_section]

variable (env) (checks : CRChecks)

/-- What the id of a CR is made from. -/
structure HeaderIs (yaml : Yaml) (name kind package version : String) : Prop where
  name : getName yaml = .ok (.ok name)
  kind : getKind yaml = .ok (.ok kind)
  package : getSpecPackage yaml = .ok (.ok package)
  version : getSpecVersion env yaml = .ok (.ok version)

/-- What throws once the id is known: the members that are written into the CR, its decoding, its check and, if it
is admitted, the text that it is added as. -/
inductive CRThrows {Data : Type} (members : List (List String × Json)) (Decodes : Json → Prop)
    (fromJson : Json → Except CRException Data) (check : Data → Except CRException (Except String Unit))
    (Admits : Json → Data → Prop) (text : Data → Except CRException String) (json : Json) : Prop where
  /-- Something is in the way of a member that is written. -/
  | member {member : List String × Json} (among : member ∈ members) (inTheWay : ¬ Assignable json member.1)
  | content {whole : Json} (written : assignAll json members = .ok whole) (undecodable : ¬ Decodes whole)
  | check {whole : Json} {data : Data} (written : assignAll json members = .ok whole)
      (decoded : fromJson whole = .ok data) (checkThrows : ¬ Succeeds (check data))
  /-- A text in it is not UTF-8. -/
  | text {whole : Json} {data : Data} (written : assignAll json members = .ok whole)
      (decoded : fromJson whole = .ok data) (passes : check data = .ok (.ok ())) (admitted : Admits whole data)
      (textThrows : ¬ Succeeds (text data))

/-- The ability is installed, and its tasks are what its manifest says. -/
def TasksAdmitted (json : Json) (data : AbilityCRData) : Prop :=
  ∃ manifest, checks.getAbilityManifest data.spec.abilityName data.spec.version = some manifest ∧
    checks.validateCrTasksField json manifest = .ok ()

def AbilityThrows (json : Json) (id : Uuid) : Prop :=
  CRThrows (abilityMembers env id) (AbilityDecodes env) (AbilityCRData.fromJson env id) checks.checkAbilityCrValidity
    (TasksAdmitted checks) (fun data => env.dump data.whole) json

def DeviceThrows (json : Json) (id : Uuid) : Prop :=
  CRThrows (deviceMembers env id) (DeviceDecodes env) (DeviceCRData.fromJson env id) checks.checkDeviceCrValidity
    (fun _ _ => True) (fun data => env.dump data.whole) json

/-- The files of which the reading, or adding what has been read, ends with an exception. -/
inductive Throws (yaml : Yaml) : Prop where
  | noMetadata (missing : ¬ HasSection yaml "metadata")
  | noSpec {name kind : String} (hasName : getName yaml = .ok (.ok name)) (hasKind : getKind yaml = .ok (.ok kind))
      (ofCr : isAbility kind = true ∨ kind = "Device") (missing : ¬ HasSection yaml "spec")
  | ability {name kind package version : String} (header : HeaderIs env yaml name kind package version)
      (ofAbility : isAbility kind = true)
      (throws : AbilityThrows env checks (yamlToJson env yaml) (env.makeUuid package version name kind))
  | device {name kind package version : String} (header : HeaderIs env yaml name kind package version)
      (ofDevice : isAbility kind = false ∧ kind = "Device")
      (throws : DeviceThrows env checks (yamlToJson env yaml) (env.makeUuid package version name kind))

variable {env} {checks} {json : Json} {id : Uuid}

/-- A CR that does not throw is read as far as its check, and has a text if it is admitted. -/
theorem crThrows_iff {Data : Type} {members : List (List String × Json)} {Decodes : Json → Prop}
    {fromJson : Json → Except CRException Data} {check : Data → Except CRException (Except String Unit)}
    {Admits : Json → Data → Prop} {text : Data → Except CRException String}
    (apart : members.Pairwise fun earlier later => earlier.1 <+: later.1 → earlier.1 = later.1)
    (decodes_iff : ∀ whole, Succeeds (fromJson whole) ↔ Decodes whole) :
    CRThrows members Decodes fromJson check Admits text json ↔
      ¬ ∃ whole data verdict, assignAll json members = .ok whole ∧ fromJson whole = .ok data ∧
        check data = .ok verdict ∧ (verdict = .ok () → Admits whole data → Succeeds (text data)) := by
  constructor
  · rintro throws ⟨whole, data, verdict, written, decoded, checked, hasText⟩
    cases throws with
    | member among inTheWay => exact inTheWay ((succeeds_assignAll apart json).mp ⟨whole, written⟩ _ among)
    | content written' undecodable =>
      cases written.symm.trans written'
      exact undecodable ((decodes_iff whole).mp ⟨data, decoded⟩)
    | check written' decoded' checkThrows =>
      cases written.symm.trans written'
      cases decoded.symm.trans decoded'
      exact checkThrows ⟨verdict, checked⟩
    | text written' decoded' passes admitted textThrows =>
      cases written.symm.trans written'
      cases decoded.symm.trans decoded'
      cases checked.symm.trans passes
      exact textThrows (hasText rfl admitted)
  · intro unread
    by_cases written : Succeeds (assignAll json members)
    · obtain ⟨whole, written⟩ := written
      by_cases decodes : Decodes whole
      · obtain ⟨data, decoded⟩ := (decodes_iff whole).mpr decodes
        by_cases checks : Succeeds (check data)
        · obtain ⟨verdict, checked⟩ := checks
          by_contra noThrow
          refine unread ⟨whole, data, verdict, written, decoded, checked, ?_⟩
          rintro rfl admitted
          by_contra textThrows
          exact noThrow (.text written decoded checked admitted textThrows)
        · exact .check written decoded checks
      · exact .content written decodes
    · rw [succeeds_assignAll apart] at written
      push Not at written
      obtain ⟨member, among, inTheWay⟩ := written
      exact .member among inTheWay

/-- No member that is written lies below another one. -/
theorem abilityMembers_apart :
    (abilityMembers env id).Pairwise fun earlier later => earlier.1 <+: later.1 → earlier.1 = later.1 := by
  simp [abilityMembers, onNode]

theorem deviceMembers_apart :
    (deviceMembers env id).Pairwise fun earlier later => earlier.1 <+: later.1 → earlier.1 = later.1 := by
  simp [deviceMembers, onNode]

variable {yaml : Yaml} {name kind package version : String}

theorem succeeds_loadCr_ability (header : HeaderIs env yaml name kind package version)
    (ofAbility : isAbility kind = true) :
    Succeeds (loadCr env checks yaml) ↔
      ¬ AbilityThrows env checks (yamlToJson env yaml) (env.makeUuid package version name kind) := by
  rw [AbilityThrows, crThrows_iff abilityMembers_apart fun _ => succeeds_ability _, not_not]
  simp only [loadCr, readCrFromYaml, header.name, header.kind, header.package, header.version, ofAbility, bind,
    Except.bind, if_true]
  cases written : assignAll (yamlToJson env yaml) (abilityMembers env (env.makeUuid package version name kind)) with
  | error exception => simp
  | ok whole =>
    cases decoded : AbilityCRData.fromJson env (env.makeUuid package version name kind) whole with
    | error exception => simp [decoded]
    | ok data =>
      cases checked : checks.checkAbilityCrValidity data with
      | error exception => simp [decoded, checked]
      | ok verdict =>
        simp only [decoded, checked, Except.ok.injEq, exists_and_left, exists_eq_left', TasksAdmitted]
        cases verdict with
        | error message => exact iff_of_true (succeeds_ok _) nofun
        | ok passes =>
          cases installed : checks.getAbilityManifest data.spec.abilityName data.spec.version with
          | none => exact iff_of_true (succeeds_ok _) (by simp)
          | some manifest =>
            cases valid : checks.validateCrTasksField whole manifest with
            | error message => simp [valid, pure, Except.pure]
            | ok value =>
              cases text : env.dump data.whole with
              | error exception => simp [valid, text, CRData.content, pure, Except.pure, bind, Except.bind]
              | ok detail => simp [valid, text, CRData.content, pure, Except.pure, bind, Except.bind]

theorem succeeds_loadCr_device (header : HeaderIs env yaml name kind package version)
    (ofDevice : isAbility kind = false ∧ kind = "Device") :
    Succeeds (loadCr env checks yaml) ↔
      ¬ DeviceThrows env checks (yamlToJson env yaml) (env.makeUuid package version name kind) := by
  rw [DeviceThrows, crThrows_iff deviceMembers_apart fun _ => succeeds_device _, not_not]
  simp only [loadCr, readCrFromYaml, header.name, header.kind, header.package, header.version, bind, Except.bind]
  rw [if_neg (by simp [ofDevice.1]), if_pos ofDevice.2]
  cases written : assignAll (yamlToJson env yaml) (deviceMembers env (env.makeUuid package version name kind)) with
  | error exception => simp
  | ok whole =>
    cases decoded : DeviceCRData.fromJson env (env.makeUuid package version name kind) whole with
    | error exception => simp [decoded]
    | ok data =>
      cases checked : checks.checkDeviceCrValidity data with
      | error exception => simp [decoded, checked]
      | ok verdict =>
        simp only [decoded, checked, Except.ok.injEq, exists_and_left, exists_eq_left']
        cases verdict with
        | error message => exact iff_of_true (succeeds_ok _) nofun
        | ok passes =>
          cases text : env.dump data.whole with
          | error exception => simp [text, CRData.content, pure, Except.pure, bind, Except.bind]
          | ok detail => simp [text, CRData.content, pure, Except.pure, bind, Except.bind]

theorem succeeds_of_nothing (nothing : readCrFromYaml env checks yaml = .ok none) : Succeeds (loadCr env checks yaml) := by
  simp [loadCr, nothing, bind, Except.bind, pure, Except.pure]

/-- A file whose name or kind is not what it should be is passed over. -/
theorem succeeds_of_name {message : String} (noName : getName yaml = .ok (.error message)) :
    Succeeds (loadCr env checks yaml) := by
  apply succeeds_of_nothing
  simp [readCrFromYaml, noName, bind, Except.bind, pure, Except.pure]

theorem succeeds_of_kind {message : String} (hasName : getName yaml = .ok (.ok name))
    (noKind : getKind yaml = .ok (.error message)) : Succeeds (loadCr env checks yaml) := by
  apply succeeds_of_nothing
  simp [readCrFromYaml, hasName, noKind, bind, Except.bind, pure, Except.pure]

theorem succeeds_of_other (hasName : getName yaml = .ok (.ok name)) (hasKind : getKind yaml = .ok (.ok kind))
    (other : ¬ (isAbility kind = true ∨ kind = "Device")) : Succeeds (loadCr env checks yaml) := by
  rw [not_or] at other
  apply succeeds_of_nothing
  simp [readCrFromYaml, hasName, hasKind, other.1, other.2, bind, Except.bind, pure, Except.pure]

theorem not_succeeds_of_spec (hasName : getName yaml = .ok (.ok name)) (hasKind : getKind yaml = .ok (.ok kind))
    (ofCr : isAbility kind = true ∨ kind = "Device") (missing : ¬ HasSection yaml "spec") :
    ¬ Succeeds (loadCr env checks yaml) := by
  have throws : ¬ Succeeds (getSpecPackage yaml) := mt succeeds_getScalar_section.mp missing
  obtain ⟨exception, noPackage⟩ := not_succeeds_iff.mp throws
  refine not_succeeds_iff.mpr ⟨exception, ?_⟩
  simp only [loadCr, readCrFromYaml, hasName, hasKind, noPackage, bind, Except.bind]
  cases ofAbility : isAbility kind with
  | true => rfl
  | false => rw [if_neg (by simp), if_pos (ofCr.resolve_left (by simp [ofAbility]))]

/-- With a spec, what the id is made from is there, or the file is passed over. -/
theorem header_or_succeeds (hasName : getName yaml = .ok (.ok name)) (hasKind : getKind yaml = .ok (.ok kind))
    (hasSpec : HasSection yaml "spec") :
    (∃ package version, HeaderIs env yaml name kind package version) ∨ Succeeds (loadCr env checks yaml) := by
  obtain ⟨package, hasPackage⟩ : Succeeds (getSpecPackage yaml) := succeeds_getScalar_section.mpr hasSpec
  obtain ⟨version, hasVersion⟩ : Succeeds (getSpecVersion env yaml) := succeeds_getSpecVersion.mpr hasSpec
  cases package with
  | error message =>
    refine .inr (succeeds_of_nothing ?_)
    simp only [readCrFromYaml, hasName, hasKind, hasPackage, bind, Except.bind]
    repeat' split
    all_goals rfl
  | ok package =>
    cases version with
    | error message =>
      refine .inr (succeeds_of_nothing ?_)
      simp only [readCrFromYaml, hasName, hasKind, hasPackage, hasVersion, bind, Except.bind]
      repeat' split
      all_goals rfl
    | ok version => exact .inl ⟨package, version, hasName, hasKind, hasPackage, hasVersion⟩

theorem not_succeeds_of_throws (throws : Throws env checks yaml) : ¬ Succeeds (loadCr env checks yaml) := by
  cases throws with
  | noMetadata missing =>
    have throws : ¬ Succeeds (getName yaml) := mt succeeds_getScalar_section.mp missing
    obtain ⟨exception, noName⟩ := not_succeeds_iff.mp throws
    simp [loadCr, readCrFromYaml, noName, bind, Except.bind]
  | noSpec hasName hasKind ofCr missing => exact not_succeeds_of_spec hasName hasKind ofCr missing
  | ability header ofAbility throws => exact fun reads => (succeeds_loadCr_ability header ofAbility).mp reads throws
  | device header ofDevice throws => exact fun reads => (succeeds_loadCr_device header ofDevice).mp reads throws

/-- Reading a file ends with an exception exactly if the file is one of these. -/
theorem throws_iff : Throws env checks yaml ↔ ¬ Succeeds (loadCr env checks yaml) := by
  refine ⟨not_succeeds_of_throws, fun unread => ?_⟩
  by_cases hasMetadata : HasSection yaml "metadata"
  · obtain ⟨name, hasName⟩ : Succeeds (getName yaml) := succeeds_getScalar_section.mpr hasMetadata
    obtain ⟨kind, hasKind⟩ := succeeds_getKind hasMetadata
    cases name with
    | error message => exact absurd (succeeds_of_name hasName) unread
    | ok name =>
      cases kind with
      | error message => exact absurd (succeeds_of_kind hasName hasKind) unread
      | ok kind =>
        by_cases ofCr : isAbility kind = true ∨ kind = "Device"
        · by_cases hasSpec : HasSection yaml "spec"
          · obtain ⟨package, version, header⟩ := (header_or_succeeds hasName hasKind hasSpec).resolve_right unread
            cases ofAbility : isAbility kind with
            | true =>
              refine .ability header ofAbility ?_
              exact not_not.mp (mt (succeeds_loadCr_ability header ofAbility).mpr unread)
            | false =>
              have ofDevice : isAbility kind = false ∧ kind = "Device" :=
                ⟨ofAbility, ofCr.resolve_left (by simp [ofAbility])⟩
              refine .device header ofDevice ?_
              exact not_not.mp (mt (succeeds_loadCr_device header ofDevice).mpr unread)
          · exact .noSpec hasName hasKind ofCr hasSpec
        · exact absurd (succeeds_of_other hasName hasKind ofCr) unread
  · exact .noMetadata hasMetadata

/-! ## A round with such files -/

section Round

variable (env) (checks) (makeUuid : Nat → Uuid)

/-- An entry of the directory that a CR is loaded from. -/
def acceptable (entry : DirectoryEntry) : Bool := (acceptedCr env checks entry).isSome

/-- The round completes, and its tables are those that the acceptable files alone lead to. -/
def FilesContained (db : CRDatabase) (entries : List DirectoryEntry) : Prop :=
  (readCrsIntoDb env checks makeUuid db entries).1 = .ok () ∧
    (readCrsIntoDb env checks makeUuid db entries).2 =
      (readCrsIntoDb env checks makeUuid db (entries.filter (acceptable env checks))).2

/-- A YAML file of the directory that can be parsed and that throws. -/
def EntryThrows (entry : DirectoryEntry) : Prop :=
  entry.isRegularFile = true ∧ entry.extensionIsYaml = true ∧ ∃ yaml, entry.yaml = some yaml ∧ Throws env checks yaml

variable {entry : DirectoryEntry}

theorem entryThrows_iff : EntryThrows env checks entry ↔ ¬ Succeeds (entryContent env checks entry) := by
  rw [EntryThrows, entryContent]
  cases entry.isRegularFile with
  | false => simp
  | true =>
    cases entry.extensionIsYaml with
    | false => simp
    | true =>
      cases entry.yaml with
      | none => simp
      | some yaml => simp [throws_iff]

variable {env} {checks}

theorem thrown_readEntry {scan : Scan} (goesOn : scan.thrown = none) :
    (readEntry env checks makeUuid scan entry).thrown = none ↔ ¬ EntryThrows env checks entry := by
  rw [entryThrows_iff, not_not, readEntry, goesOn]
  cases content : entryContent env checks entry with
  | error exception => simp
  | ok found =>
    rcases found with _ | ⟨cr | cr⟩
    · simp [goesOn]
    · simp
    · simp

theorem thrown_run {scan : Scan} (goesOn : scan.thrown = none) (entries : List DirectoryEntry) :
    (Runs.run (readEntry env checks makeUuid) scan entries).thrown = none ↔
      ∀ entry ∈ entries, ¬ EntryThrows env checks entry := by
  induction entries generalizing scan with
  | nil => simp [goesOn]
  | cons entry entries inductionHypothesis =>
    rw [Runs.run_cons, List.forall_mem_cons, ← thrown_readEntry makeUuid goesOn]
    constructor
    · intro stillGoesOn
      have goesOnFirst := goesOn_of_run stillGoesOn
      exact ⟨goesOnFirst, (inductionHypothesis goesOnFirst).mp stillGoesOn⟩
    · rintro ⟨goesOnFirst, rest⟩
      exact (inductionHypothesis goesOnFirst).mpr rest

theorem readCrsIntoDb_completes_iff (db : CRDatabase) {entries : List DirectoryEntry} :
    (readCrsIntoDb env checks makeUuid db entries).1 = .ok () ↔ ∀ entry ∈ entries, ¬ EntryThrows env checks entry := by
  have ran : (Runs.run (readEntry env checks makeUuid) { db } entries).thrown = none ↔ _ := thrown_run makeUuid rfl entries
  rw [← ran, readCrsIntoDb]
  cases thrown : (Runs.run (readEntry env checks makeUuid) { db } entries).thrown with
  | none => simp
  | some exception => simp

/-- Entries that hold no CR do not count. -/
theorem acceptedCrs_filter (entries : List DirectoryEntry) :
    acceptedCrs env checks (entries.filter (acceptable env checks)) = acceptedCrs env checks entries := by
  rw [acceptedCrs, acceptedCrs, List.filterMap_filter]
  congr 1
  funext entry
  cases accepted : acceptedCr env checks entry with
  | none => simp [acceptable, accepted]
  | some cr => simp [acceptable, accepted]

theorem not_throws_of_acceptable (isAcceptable : acceptable env checks entry = true) : ¬ EntryThrows env checks entry := by
  rw [entryThrows_iff, not_not]
  rw [acceptable, acceptedCr] at isAcceptable
  cases content : entryContent env checks entry with
  | error exception => simp [content] at isAcceptable
  | ok found => exact succeeds_ok found

/-- Bad files leave the others alone exactly if none of them throws. -/
theorem filesContained_iff (env : CREnvironment) (checks : CRChecks) (makeUuid : Nat → Uuid) (db : CRDatabase)
    (entries : List DirectoryEntry) :
    FilesContained env checks makeUuid db entries ↔ ∀ entry ∈ entries, ¬ EntryThrows env checks entry := by
  rw [FilesContained, ← readCrsIntoDb_completes_iff makeUuid db]
  refine and_iff_left_of_imp fun completes => ?_
  have othersComplete :
      (readCrsIntoDb env checks makeUuid db (entries.filter (acceptable env checks))).1 = .ok () := by
    rw [readCrsIntoDb_completes_iff]
    intro entry member
    exact not_throws_of_acceptable (List.mem_filter.mp member).2
  rw [readCrsIntoDb_completed completes rfl, readCrsIntoDb_completed othersComplete rfl]
  simp only [acceptedAbilities, acceptedDevices, acceptedCrs_filter]

/-- An empty file before the file of an ability. -/
def emptyFileFirst : List DirectoryEntry :=
  [⟨true, ".yaml", some .null, 0⟩, ⟨true, ".yaml", some (crYaml "AtomAbility" "package" "abilityName" "ability" "cr"), 0⟩]

/-- The exception of the empty file ends the round before the ability is read. -/
theorem emptyFile_not_contained : ¬ FilesContained plainEnvironment acceptsAll (fun made => made) {} emptyFileFirst := by
  rintro ⟨completes, _⟩
  cases completes

end Round

end AbilityFramework.ResourceMgr
