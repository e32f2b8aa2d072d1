import AbilityFramework.ResourceMgr.PlainDocuments

/-! # The tasks of a CR

`read_cr_from_yaml` insists on `spec.tasks` so that no CR loses its tasks by being cut down.  The typed spec
has no member for them: they are gone from the document that the template keeps, and so from all snapshots. -/

namespace AbilityFramework.ResourceMgr.Document

open Library

/-- `spec.tasks` of a document. -/
def tasksOf (json : Json) : Option Json := (json.find "spec").bind fun spec => spec.find "tasks"

variable (doc : DocumentEnvironment)

/-- `spec.tasks` of a text of the database. -/
def tasksIn (text : String) : Option Json := (doc.parse text).bind tasksOf

/-! ## The check -/

def taskName (task : Json) : Option String :=
  match task.find "taskName" with
  | some (.string name) => some name
  | _ => none

def manifestTaskNames (manifest : Json) : List String :=
  match manifest.find "tasks" with
  | some (.array tasks) => tasks.filterMap taskName
  | _ => []

/-- What is wrong with the task at an index. -/
def taskError (names : List String) (task : Json) (index : Nat) : String :=
  match task with
  | .object _ =>
    match taskName task with
    | none => "\n  - spec.tasks[" ++ toString index ++ "] missing required field: taskName"
    | some name =>
      if name ∈ names then ""
      else "\n  - spec.tasks[" ++ toString index ++ "] taskName '" ++ name ++ "' not found in manifest tasks"
  | _ => "\n  - spec.tasks[" ++ toString index ++ "] must be an object"

def validateCrTasksField (crJson manifest : Json) : Except String Unit :=
  match crJson.find "spec" with
  | some (.object spec) =>
    match spec.lookup "tasks" with
    | none => .error "missing required field: spec.tasks (CR must declare which manifest tasks it uses)"
    | some (.array (task :: tasks)) =>
      if (manifestTaskNames manifest).isEmpty then .error "manifest defines no tasks; cannot validate CR tasks"
      else
        let errors := String.join ((task :: tasks).mapIdx fun index task => taskError (manifestTaskNames manifest) task index)
        if errors.isEmpty then .ok () else .error ("task field validation failed:" ++ errors)
    | some _ => .error "spec.tasks must be a non-empty array"
  | _ => .error "missing required field: spec"

/-- A CR that passes has tasks. -/
theorem tasksOf_validated {crJson manifest : Json} (valid : validateCrTasksField crJson manifest = .ok ()) :
    ∃ task tasks, tasksOf crJson = some (.array (task :: tasks)) := by
  rw [validateCrTasksField] at valid
  split at valid
  · rename_i spec isSpec
    split at valid
    · cases valid
    · rename_i task tasks isTasks
      refine ⟨task, tasks, ?_⟩
      rw [tasksOf, isSpec, Option.bind_some]
      exact isTasks
    · cases valid
  · cases valid

/-! ## Documents of typed CRs -/

variable {doc}

theorem tasksOf_toJson (cr : AbilityCR) : tasksOf (cr.toJson doc) = none := by
  have spec : (cr.toJson doc).find "spec" = some (cr.spec.toJson doc) := Json.find_pack (members_distinct cr) "spec"
  rw [tasksOf, spec, Option.bind_some, AbilitySpec.toJson_eq, Json.find_pack (specMembers_distinct cr.spec _)]
  rfl

theorem tasksIn_dumpCr {cr : AbilityCR} {text : String} (written : dumpCr doc cr = .ok text) : tasksIn doc text = none := by
  have same : tasksOf (cr.toJson doc).asWritten = (tasksOf (cr.toJson doc)).map Json.asWritten := by
    rw [tasksOf, tasksOf, Json.find_asWritten, Option.bind_map, Option.map_bind]
    exact congrArg _ (funext fun spec => Json.find_asWritten spec "tasks")
  rw [tasksIn, parse_dumpCr written, Option.bind_some, same, tasksOf_toJson, Option.map_none]

/-- The templates of this name have the tasks of the file. -/
def TemplateKeepsTasks (doc : DocumentEnvironment) (abilities : AbilityTables) (name : CRName) (file : Json) : Prop :=
  ∀ row ∈ abilities.basic, row.name = name → tasksIn doc row.crDetail = tasksOf file

/-- So has the snapshot of the instance. -/
def SnapshotKeepsTasks (doc : DocumentEnvironment) (instances : AbilityInstances) (instanceId : Uuid) (file : Json) :
    Prop :=
  ∀ row ∈ instances, row.instanceId = instanceId → row.specSnapshot.bind (tasksIn doc) = tasksOf file

/-- An instance has just been created from a template of this name. -/
def CreatedFrom (doc : DocumentEnvironment) (abilities : AbilityTables) (name : CRName) (instanceId : Uuid)
    (instances created : AbilityInstances) : Prop :=
  ∃ row ∈ abilities.basic, row.name = name ∧ ∃ crTemplate now,
    getAbilityCr doc abilities row.instanceId = .ok (some crTemplate) ∧
      createAbilityInstance doc instances now instanceId crTemplate = .ok created

variable {env : CREnvironment} {checks : CRChecks} {yaml : Yaml} {content : AbilityCRContent}

/-- A file that the framework's own check accepts has tasks. -/
theorem accepted_hasTasks (ownCheck : checks.validateCrTasksField = validateCrTasksField)
    (accepted : loadCr env checks yaml = .ok (some (.ability content))) :
    (tasksOf (yamlToJson env yaml)).isSome := by
  obtain ⟨data, isRead, -⟩ := loadCr_ability accepted
  obtain ⟨id, json, written, -, manifest, valid⟩ := readCrFromYaml_ability isRead
  rw [ownCheck] at valid
  obtain ⟨task, tasks, hasTasks⟩ := tasksOf_validated valid
  have kept : json.find "spec" = (yamlToJson env yaml).find "spec" := by
    refine find_assignAll (fun member isMember => ?_) written
    simp only [abilityMembers, onNode, List.mem_append, List.mem_cons, List.not_mem_nil, or_false] at isMember
    rcases isMember with ((rfl | rfl | rfl) | rfl | rfl) | rfl | rfl | rfl <;> exact ⟨_, _, rfl, by decide⟩
  have same : tasksOf json = tasksOf (yamlToJson env yaml) := congrArg (·.bind fun spec => spec.find "tasks") kept
  rw [← same, hasTasks, Option.isSome_some]

/-- No file that is accepted keeps its tasks, neither in the template nor in an instance that is created from it. -/
theorem tasks_lost (accepted : loadCr (documented doc env) checks yaml = .ok (some (.ability content)))
    (hasTasks : (tasksOf (yamlToJson (documented doc env) yaml)).isSome) (makeUuid : Nat → Uuid) (db : CRDatabase)
    (time : Int) {abilities : AbilityTables} (added : (addAbilityCr makeUuid db time content).abilities = abilities) :
    ¬ TemplateKeepsTasks doc abilities content.name (yamlToJson (documented doc env) yaml) ∧
      ∀ instanceId instances created, CreatedFrom doc abilities content.name instanceId instances created →
        ¬ SnapshotKeepsTasks doc created instanceId (yamlToJson (documented doc env) yaml) := by
  have lost : none ≠ tasksOf (yamlToJson (documented doc env) yaml) := (Option.isSome_iff_ne_none.mp hasTasks).symm
  obtain ⟨cr, isDumped, -⟩ := documented_content accepted
  obtain ⟨row, isShown, member, -⟩ := addAbilityCr_row makeUuid db content time
  constructor
  · intro keeps
    have kept := keeps row (added ▸ member) isShown.name
    rw [isShown.detail, tasksIn_dumpCr isDumped] at kept
    exact lost kept
  · rintro instanceId instances created ⟨-, -, -, crTemplate, now, -, isCreated⟩ keeps
    obtain ⟨text, instanceRow, isSnapshot, sameId, hasSnapshot, inserted⟩ := createAbilityInstance_row isCreated
    have kept := keeps instanceRow ((Relation.mem_insert inserted).mpr (.inr rfl)) sameId
    rw [hasSnapshot, Option.bind_some, tasksIn_dumpCr isSnapshot] at kept
    exact lost kept

/-! ## A camera with a task -/

def cameraManifest : Json := .object [("tasks", .array [.object [("taskName", .string "capture")]])]

def cameraChecks : CRChecks where
  checkAbilityCrValidity _ := .ok (.ok ())
  checkDeviceCrValidity _ := .ok (.ok ())
  getAbilityManifest _ _ := some cameraManifest
  validateCrTasksField := validateCrTasksField

def cameraYaml : Yaml :=
  .map
    [("kind", .scalar "AtomAbility"), ("metadata", .map [("name", .scalar "camera")]),
      ("spec", .map
        [("package", .scalar "vision"), ("version", .scalar "1.0.0"), ("abilityName", .scalar "Camera"),
          ("tasks", .sequence [.map [("taskName", .scalar "capture")]])])]

def cameraEnvironment : CREnvironment := documented cameraDocuments plainEnvironment

def cameraTables : AbilityTables := (addAbilityCr (fun made => made + 1) {} 0 cameraContent).abilities

theorem camera_accepted :
    loadCr cameraEnvironment cameraChecks cameraYaml = .ok (some (.ability cameraContent)) := by rfl

/-- The file names a task of the manifest and passes the check; its template has none. -/
theorem camera_losesTasks :
    loadCr cameraEnvironment cameraChecks cameraYaml = .ok (some (.ability cameraContent)) ∧
      (tasksOf (yamlToJson cameraEnvironment cameraYaml)).isSome ∧
        ¬ TemplateKeepsTasks cameraDocuments cameraTables cameraContent.name (yamlToJson cameraEnvironment cameraYaml) := by
  refine ⟨camera_accepted, by rfl, fun keeps => ?_⟩
  have kept := keeps ((AbilityCRBasicRow.new 1).show cameraContent 0) List.mem_cons_self rfl
  have dumped : dumpCr cameraDocuments cameraCr = .ok cameraContent.detail := by rfl
  cases (tasksIn_dumpCr dumped).symm.trans kept

theorem cameraTasks_lost :
    ¬ TemplateKeepsTasks cameraDocuments cameraTables cameraContent.name (yamlToJson cameraEnvironment cameraYaml) ∧
      ∀ instanceId instances created,
        CreatedFrom cameraDocuments cameraTables cameraContent.name instanceId instances created →
          ¬ SnapshotKeepsTasks cameraDocuments created instanceId (yamlToJson cameraEnvironment cameraYaml) :=
  tasks_lost camera_accepted (by rfl) (fun made => made + 1) {} 0 rfl

end AbilityFramework.ResourceMgr.Document
