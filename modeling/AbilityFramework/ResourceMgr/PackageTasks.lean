import AbilityFramework.Library.FileTree
import AbilityFramework.TaskMgr.Task

/-! # Package tasks

The task factories that `ResourceManager::on_register` adds, and the tasks they make.  Tasks act on the
file tree; downloads, archives and what the file system refuses come from outside.

`on_register` adds the factory of uninstallations under the name "package.install_package", where it
replaces the one of installations.  An installation task therefore removes the package it names, and
means an installation only where no task is made at all (`installMeansInstall_iff`). -/

namespace AbilityFramework.ResourceMgr

open Library Library.Runs TaskMgr

/-! ## Tasks on packages -/

structure PackageSpec where
  package : String
  version : String
  arch : String
  deriving DecidableEq

def PackageSpec.isComplete (spec : PackageSpec) : Bool :=
  !spec.package.isEmpty && !spec.version.isEmpty && !spec.arch.isEmpty

/-- What a step of a task meets with. -/
structure StepOutcome where
  /-- The entries that are gone when `remove_all` throws, if it does. -/
  removeThrows : Option (Path → Bool)
  /-- The archive that the stores have. -/
  download : Option Unit
  /-- The content of the unpacked archive from its `package.yaml` on. -/
  unzip : Except String (Option FileTree)
  renameThrows : Bool
  mirrorThrows : Bool
  updateThrows : Bool
  /-- Where a model is stored, and the files that its download writes there. -/
  modelDir : Path
  modelFiles : FileTree
  modelThrows : Bool

inductive TaskException where
  | missingParam (name : String)
  | invalidParam (expected : String) (actual : Json)
  | json (error : Json.Error)
  | packageExists (package version : String)
  | fileSystem
  | specNotComplete
  | downloadFailed
  | extractFailed (reason : String)
  | updateFailed
  | modelUnavailable
  | modelMissing
  | modelDownloadFailed

abbrev PackageTask := Task FileTree StepOutcome TaskException

abbrev PackageTaskFactory := TaskFactory FileTree StepOutcome TaskException

/-- The directories and tables outside the packages that the factories go by. -/
structure PackageEnvironment where
  packagesPath : Path
  /-- The directory of a model that `ModelStorage` knows. -/
  getModelInfo : String → Option Path
  isOnline : Bool

section Tasks

variable (env : PackageEnvironment)

def packagePath (package version : String) : Path := (env.packagesPath.join package).join version

def existsPackage (tree : FileTree) (package version : String) : Bool :=
  tree.hasEntry (packagePath env package version)

def taskRemovePackage (pkg : PackageSpec) : AtomicTask FileTree StepOutcome TaskException where
  name := "remove old package " ++ pkg.package ++ " " ++ pkg.version
  task tree outcome :=
    let dir := env.packagesPath.join pkg.package
    -- Without a version the whole package goes.
    let dir := if !pkg.version.isEmpty then dir.join pkg.version else dir
    match outcome.removeThrows with
    | some removed => (.error .fileSystem, tree.removeSome dir removed)
    | none => (.ok (), tree.removeAll dir)

def extractPackage (spec : PackageSpec) (tree : FileTree) (outcome : StepOutcome) :
    Except TaskException Unit × FileTree :=
  if !spec.isComplete then (.error .specNotComplete, tree)
  else
    -- From here on the architecture plays no part.
    let destination := packagePath env spec.package spec.version
    if tree.hasEntry destination then (.error (.extractFailed "already exists path"), tree)
    else match tree.createDirectories destination.dropLast with
    | none => (.error .fileSystem, tree)
    | some tree =>
      match outcome.unzip with
      | .error reason => (.error (.extractFailed reason), tree)
      | .ok none => (.error (.extractFailed "no \"package.yaml\" found at package content"), tree)
      | .ok (some content) =>
        if outcome.renameThrows then (.error .fileSystem, tree)
        else
          let tree := tree.moveHere destination content
          if outcome.mirrorThrows then (.error .fileSystem, tree) else (.ok (), tree)

def taskDownloadPackage (pkg : PackageSpec) : AtomicTask FileTree StepOutcome TaskException where
  name := "download-package"
  task tree outcome :=
    match outcome.download with
    | none => (.error .downloadFailed, tree)
    | some () =>
      match extractPackage env pkg tree outcome with
      | (.error error, tree) => (.error error, tree)
      | (.ok (), tree) => if outcome.updateThrows then (.error .updateFailed, tree) else (.ok (), tree)

/-! ## Factories -/

def checkTaskParam (params : Json) (name : String) (predicate : Json → Bool) (predicateName : String) :
    Except TaskException Unit :=
  match params.find name with
  | none => .error (.missingParam name)
  | some value => if predicate value then .ok () else .error (.invalidParam predicateName value)

def fromJson {α : Type} (result : Except Json.Error α) : Except TaskException α :=
  result.mapError .json

def installPackageTaskFactory : PackageTaskFactory := fun tree params => do
  checkTaskParam params "package_name" Json.isString "is_string"
  checkTaskParam params "package_version" Json.isString "is_string"
  let packageName ← fromJson (params.getAt "package_name" >>= Json.getString)
  let packageVersion ← fromJson (params.getAt "package_version" >>= Json.getString)
  let overrideLocalPackage ←
    if params.contains "override_local_package" then
      fromJson (params.getAt "override_local_package" >>= Json.getBool)
    else pure false
  let existPkg := existsPackage env tree packageName packageVersion
  if existPkg && !overrideLocalPackage then throw (.packageExists packageName packageVersion)
  let pkg : PackageSpec := ⟨packageName, packageVersion, ""⟩
  if !existPkg then return some (.atomic (taskDownloadPackage env pkg))
  else
    return some (.sequence ("override install package " ++ packageName ++ " " ++ packageVersion)
      [taskRemovePackage env pkg, taskDownloadPackage env pkg] 0)

def uninstallPackageTaskFactory : PackageTaskFactory := fun _ params => do
  checkTaskParam params "package_name" Json.isString "is_string"
  let packageName ← fromJson (params.getAt "package_name" >>= Json.getString)
  let packageVersion ← fromJson (params.value "package_version" Json.getString "")
  return some (.atomic (taskRemovePackage env ⟨packageName, packageVersion, ""⟩))

def modelIdString : Json → Except TaskException String
  | .integer id => .ok (toString (id.bmod (2 ^ 64)))
  | .float id => .ok (toString (id.toInt 64))
  | other => fromJson other.getString

/-- The task of `InstallModelByIdTaskFactory` for a model id.  A download writes below the model's own
directory only. -/
def installModelTask (tree : FileTree) (idStr : String) : Except TaskException (Option PackageTask) :=
  let name := "install-model-" ++ idStr
  match (env.getModelInfo idStr).filter tree.hasEntry with
  | some _ => .ok (some (.atomic ⟨name, fun tree _ => (.ok (), tree)⟩))
  | none =>
    if !env.isOnline then .error .modelUnavailable
    else
      .ok (some (.atomic ⟨name, fun tree outcome =>
        -- A model that is known is not downloaded again, and its directory is not there.
        if (env.getModelInfo idStr).isSome then (.error .modelMissing, tree)
        else
          let tree := tree.writeBelow outcome.modelDir outcome.modelFiles
          if outcome.modelThrows then (.error .modelDownloadFailed, tree) else (.ok (), tree)⟩))

def installModelByIdTaskFactory : PackageTaskFactory := fun tree params => do
  checkTaskParam params "model_id" (fun _ => true) ""
  let modelId ← fromJson (params.getAt "model_id")
  let idStr ← modelIdString modelId
  installModelTask env tree idStr

/-- The factory that `TaskManager` adds itself. -/
def testHelloTaskFactory : PackageTaskFactory := fun _ params => do
  let _ ← fromJson (params.getAt "a" >>= Json.getInt32)
  let _ ← fromJson (params.getAt "b" >>= Json.getInt32)
  return some (.atomic ⟨"test-add", fun tree _ => (.ok (), tree)⟩)

/-- `ResourceManager::on_register`, as far as it adds factories. -/
def onRegister (factories : TaskFactories FileTree StepOutcome TaskException) :
    TaskFactories FileTree StepOutcome TaskException :=
  let factories := (addTaskFactory factories "package.install_package" (some (installPackageTaskFactory env))).2
  let factories := (addTaskFactory factories "model.install_model" (some (installModelByIdTaskFactory env))).2
  (addTaskFactory factories "package.install_package" (some (uninstallPackageTaskFactory env))).2

def taskFactories : TaskFactories FileTree StepOutcome TaskException :=
  onRegister env (addTaskFactory (fun _ => none) "test.hello" (some testHelloTaskFactory)).2

end Tasks

variable {env : PackageEnvironment} {tree : FileTree} {payload : Json}

/-! ## What is registered -/

/-- Under the name of installations the factory of uninstallations is registered, as the last one added
is. -/
theorem taskFactories_install :
    taskFactories env "package.install_package" = some (uninstallPackageTaskFactory env) := by
  simp only [taskFactories, onRegister, addTaskFactory_self]

theorem taskFactories_cases {taskType : String} {factory : PackageTaskFactory}
    (registered : taskFactories env taskType = some factory) :
    (taskType = "package.install_package" ∧ factory = uninstallPackageTaskFactory env) ∨
      (taskType = "model.install_model" ∧ factory = installModelByIdTaskFactory env) ∨
      (taskType = "test.hello" ∧ factory = testHelloTaskFactory) := by
  simp only [taskFactories, onRegister] at registered
  by_cases install : taskType = "package.install_package"
  · rw [install, addTaskFactory_self, Option.some.injEq] at registered
    exact .inl ⟨install, registered.symm⟩
  · rw [addTaskFactory_of_ne _ _ install] at registered
    by_cases model : taskType = "model.install_model"
    · rw [model, addTaskFactory_self, Option.some.injEq] at registered
      exact .inr (.inl ⟨model, registered.symm⟩)
    · rw [addTaskFactory_of_ne _ _ model, addTaskFactory_of_ne _ _ install] at registered
      by_cases hello : taskType = "test.hello"
      · rw [hello, addTaskFactory_self, Option.some.injEq] at registered
        exact .inr (.inr ⟨hello, registered.symm⟩)
      · rw [addTaskFactory_of_ne _ _ hello] at registered
        cases registered

/-! ## What uninstallations do -/

/-- The package that the parameters of an uninstallation name; without a version, all its versions. -/
def requestedPackage (payload : Json) : Option (String × String) :=
  match payload.find "package_name", payload.find "package_version" with
  | some (.string package), some (.string version) => some (package, version)
  | some (.string package), none => some (package, "")
  | _, _ => none

/-- The factory takes exactly the parameters that name a package. -/
theorem uninstallFactory_spec : uninstallPackageTaskFactory env tree payload =
      match payload.find "package_name", payload.find "package_version" with
      | none, _ => .error (.missingParam "package_name")
      | some (.string package), some version =>
        (fromJson version.getString).map fun version =>
          some (.atomic (taskRemovePackage env ⟨package, version, ""⟩))
      | some (.string package), none => .ok (some (.atomic (taskRemovePackage env ⟨package, "", ""⟩)))
      | some other, _ => .error (.invalidParam "is_string" other) := by
  unfold uninstallPackageTaskFactory checkTaskParam
  cases named : payload.find "package_name" with
  | none => rfl
  | some value =>
    have atName := Json.getAt_of_find named
    cases value with
    | string package =>
      cases versioned : payload.find "package_version" with
      | none =>
        have atVersion := Json.value_of_missing named versioned Json.getString ""
        simp only [atName, atVersion]
        rfl
      | some version =>
        have atVersion := Json.value_of_find versioned Json.getString ""
        simp only [atName, atVersion]
        cases version <;> rfl
    | null | boolean | integer | float | array | object => rfl

theorem uninstallFactory_ok (env : PackageEnvironment) (tree : FileTree) {package version : String}
    (requested : requestedPackage payload = some (package, version)) :
    uninstallPackageTaskFactory env tree payload =
      .ok (some (.atomic (taskRemovePackage env ⟨package, version, ""⟩))) := by
  rw [uninstallFactory_spec]
  unfold requestedPackage at requested
  split at requested
  · rename_i name text named versioned
    obtain ⟨rfl, rfl⟩ := Prod.mk.inj (Option.some.inj requested)
    simp only [named, versioned]
    rfl
  · rename_i name named versioned
    obtain ⟨rfl, rfl⟩ := Prod.mk.inj (Option.some.inj requested)
    simp only [named, versioned]
  · cases requested

theorem uninstallFactory_rejects (unrequested : requestedPackage payload = none)
    (task : PackageTask) : uninstallPackageTaskFactory env tree payload ≠ .ok (some task) := by
  rw [uninstallFactory_spec]
  unfold requestedPackage at unrequested
  split
  · exact nofun
  · rename_i package version named versioned
    rw [named, versioned] at unrequested
    cases version with
    | string text => cases unrequested
    | null | boolean | integer | float | array | object => exact nofun
  · rename_i package named versioned
    rw [named, versioned] at unrequested
    cases unrequested
  · exact nofun

/-- A removal that meets with no error. -/
def removeSucceeds : StepOutcome where
  removeThrows := none
  download := none
  unzip := .ok none
  renameThrows := false
  mirrorThrows := false
  updateThrows := false
  modelDir := []
  modelFiles := ⟨fun _ => none⟩
  modelThrows := false

theorem removeDir_eq (pkg : PackageSpec) :
    (if !pkg.version.isEmpty then (env.packagesPath.join pkg.package).join pkg.version
      else env.packagesPath.join pkg.package) = packagePath env pkg.package pkg.version := by
  by_cases empty : pkg.version = ""
  · simp [empty, packagePath]
  · simp [empty, packagePath]

/-- An uninstallation that meets with no error finishes, and its package is gone. -/
theorem run_taskRemovePackage (env : PackageEnvironment) (tree : FileTree) (pkg : PackageSpec) :
    let final := run taskStep (.start (.atomic (taskRemovePackage env pkg)) tree) [removeSucceeds]
    final.state = .finished ∧ existsPackage env final.world pkg.package pkg.version = false := by
  have resumed : (taskRemovePackage env pkg).resume tree removeSucceeds =
      (.finished, tree.removeAll (packagePath env pkg.package pkg.version)) := by
    rw [← removeDir_eq]
    rfl
  have stepped : taskStep (.start (.atomic (taskRemovePackage env pkg)) tree) removeSucceeds =
      ⟨.atomic (taskRemovePackage env pkg), .finished,
        tree.removeAll (packagePath env pkg.package pkg.version)⟩ := by
    simp only [taskStep, TaskRun.start, TaskState.isEnd, resume, resumed]
    rfl
  rw [run_cons, stepped]
  exact ⟨rfl, FileTree.hasEntry_removeAll_self⟩

/-! ## What installing means -/

def taskBody (taskType : String) (payload : Json) : Json :=
  .object [("task_type", .string taskType), ("payload", payload)]

/-- Installation tasks that have ended have removed no package and left the directories of others as they
are; a successful one has installed what it was asked to; and only uninstallations remove packages. -/
structure InstallMeansInstall (env : PackageEnvironment) (tree : FileTree) (payload : Json) : Prop where
  keeps : ∀ task outcomes,
    createTask (taskFactories env) tree (taskBody "package.install_package" payload) = .ok task →
    (run taskStep (.start task tree) outcomes).state.isEnd = true →
    ∀ package version, existsPackage env tree package version = true →
      existsPackage env (run taskStep (.start task tree) outcomes).world package version = true
  others : ∀ task outcomes,
    createTask (taskFactories env) tree (taskBody "package.install_package" payload) = .ok task →
    (run taskStep (.start task tree) outcomes).state.isEnd = true →
    ∀ package version,
      (∀ requested ∈ requestedPackage payload,
        (packagePath env requested.1 requested.2).Apart (packagePath env package version)) →
      ∀ path, packagePath env package version <+: path →
        (run taskStep (.start task tree) outcomes).world.entry path = tree.entry path
  installs : ∀ task outcomes,
    createTask (taskFactories env) tree (taskBody "package.install_package" payload) = .ok task →
    (run taskStep (.start task tree) outcomes).state = .finished →
    ∀ package version, requestedPackage payload = some (package, version) →
      existsPackage env (run taskStep (.start task tree) outcomes).world package version = true
  onlyUninstall : ∀ taskType task outcomes, taskType ≠ "package.uninstall_package" →
    createTask (taskFactories env) tree (taskBody taskType payload) = .ok task →
    (run taskStep (.start task tree) outcomes).state = .finished →
    ∀ package version, existsPackage env tree package version = true →
      existsPackage env (run taskStep (.start task tree) outcomes).world package version = true

theorem createTask_install (task : PackageTask) :
    createTask (taskFactories env) tree (taskBody "package.install_package" payload) = .ok task ↔
      uninstallPackageTaskFactory env tree payload = .ok (some task) := by
  rw [taskBody, createTask_eq_ok, taskFactories_install]
  simp only [Option.some.injEq, exists_eq_left']

/-- Where a package is named, the task that is made uninstalls it. -/
theorem not_installMeansInstall {package version : String}
    (requested : requestedPackage payload = some (package, version)) : ¬ InstallMeansInstall env tree payload := by
  intro means
  obtain ⟨finished, gone⟩ := run_taskRemovePackage env tree ⟨package, version, ""⟩
  have made := (createTask_install _).mpr (uninstallFactory_ok env tree requested)
  -- The task finishes, and what it was asked to install is gone.
  have installed := means.installs _ [removeSucceeds] made finished package version requested
  rw [gone] at installed
  cases installed

/-- No step of the task removes what is at the path. -/
def KeepsEntry (path : Path) (task : PackageTask) : Prop :=
  ∀ sub ∈ task.subs, ∀ world outcome, world.hasEntry path = true →
    (sub.task world outcome).2.hasEntry path = true

theorem KeepsEntry.run {path : Path} {task : PackageTask} (keeps : KeepsEntry path task)
    (present : tree.hasEntry path = true) (outcomes : List StepOutcome) :
    (run taskStep (.start task tree) outcomes).world.hasEntry path = true := by
  have kept : ∀ sub ∈ task.subs, ∀ world outcome, FileTree.hasEntry world path = true →
      FileTree.hasEntry (sub.task world outcome).2 path = true := keeps
  exact world_of_subs kept present outcomes

/-- A model task writes files and removes none. -/
theorem installModel_keeps {task : PackageTask}
    (made : installModelByIdTaskFactory env tree payload = .ok (some task)) (path : Path) :
    KeepsEntry path task := by
  unfold installModelByIdTaskFactory at made
  obtain ⟨_, _, made⟩ := except_bind_eq_ok.mp made
  obtain ⟨_, _, made⟩ := except_bind_eq_ok.mp made
  obtain ⟨idStr, _, made⟩ := except_bind_eq_ok.mp made
  unfold installModelTask at made
  split at made
  · obtain rfl := Option.some.inj (Except.ok.inj made)
    intro sub member world outcome present
    obtain rfl := List.mem_singleton.mp member
    exact present
  · split at made
    · cases made
    · obtain rfl := Option.some.inj (Except.ok.inj made)
      intro sub member world outcome present
      obtain rfl := List.mem_singleton.mp member
      have written := FileTree.hasEntry_writeBelow outcome.modelDir outcome.modelFiles present
      simp only
      split
      · exact present
      · split
        · exact written
        · exact written

theorem testHello_keeps {task : PackageTask} (made : testHelloTaskFactory tree payload = .ok (some task))
    (path : Path) : KeepsEntry path task := by
  unfold testHelloTaskFactory at made
  obtain ⟨_, _, made⟩ := except_bind_eq_ok.mp made
  obtain ⟨_, _, made⟩ := except_bind_eq_ok.mp made
  obtain rfl := Option.some.inj (Except.ok.inj made)
  intro sub member world outcome present
  obtain rfl := List.mem_singleton.mp member
  exact present

/-! ## The result -/

/-- An installation is one exactly where the parameters name no package, so that no task is made. -/
theorem installMeansInstall_iff (env : PackageEnvironment) (tree : FileTree) (payload : Json) :
    InstallMeansInstall env tree payload ↔ requestedPackage payload = none := by
  constructor
  · intro means
    cases requested : requestedPackage payload with
    | none => rfl
    | some pkg => exact absurd means (not_installMeansInstall requested)
  · intro unrequested
    have noTask : ∀ task,
        createTask (taskFactories env) tree (taskBody "package.install_package" payload) ≠ .ok task := by
      intro task made
      exact uninstallFactory_rejects unrequested task ((createTask_install task).mp made)
    constructor
    case keeps | others | installs =>
      intro task outcomes made
      exact absurd made (noTask task)
    case onlyUninstall =>
      intro taskType task outcomes _ made _ package version present
      obtain ⟨factory, registered, makes⟩ := createTask_eq_ok.mp made
      obtain ⟨rfl, rfl⟩ | ⟨rfl, rfl⟩ | ⟨rfl, rfl⟩ := taskFactories_cases registered
      · exact absurd made (noTask task)
      · exact (installModel_keeps makes _).run present outcomes
      · exact (testHello_keeps makes _).run present outcomes

/-- Version 1.0.0 of the package is installed. -/
def cameraTree : FileTree where
  entry path :=
    if path.isPrefixOf ["home", "packages", "camera.pkg", "1.0.0"] then some .directory else none

def homeEnvironment : PackageEnvironment where
  packagesPath := ["home", "packages"]
  getModelInfo _ := none
  isOnline := true

def cameraPayload : Json :=
  .object [("package_name", .string "camera.pkg"), ("package_version", .string "1.0.0")]

theorem installCamera_uninstalls :
    existsPackage homeEnvironment cameraTree "camera.pkg" "1.0.0" = true ∧
      ¬ InstallMeansInstall homeEnvironment cameraTree cameraPayload :=
  ⟨by decide, not_installMeansInstall rfl⟩

end AbilityFramework.ResourceMgr
