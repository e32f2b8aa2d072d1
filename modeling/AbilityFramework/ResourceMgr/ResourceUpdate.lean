import AbilityFramework.ResourceMgr.AbilityPackage
import AbilityFramework.ResourceMgr.ResourceView

/-! # Updates of the resource manager

`update` searches the packages, puts their CRDs into the database, copies their CRs to the directory of CRs and
reads that directory.  The search is a generator: a package is read when those before it have been mirrored.  Each
time that a directory is gone through, the file system lists the entries in an order of its own; an `Enumeration` is
such a choice of orders. -/

namespace AbilityFramework.ResourceMgr.ResourceManager

open Library

/-- The orders in which an update finds the entries of directories, and the times at which it reads files. -/
structure Enumeration where
  searching : Disk → Disk
  mirroring : Disk → Disk
  scanning : Disk → Disk
  readAt : Path → Int
  searching_same : ∀ disk, (searching disk).SameEntries disk
  mirroring_same : ∀ disk, (mirroring disk).SameEntries disk
  scanning_same : ∀ disk, (scanning disk).SameEntries disk

/-- What an update leaves in memory and in the database. -/
structure ManagerState where
  packages : List AbilityPackage
  crds : AbilityCRDBasic
  crs : CRDatabase

variable (env : ManagerEnvironment) (makeUuid : Nat → Uuid) (enumeration : Enumeration)

/-! ## Packages -/

/-- The file system makes no errors here. -/
def mirrorPackage (disk : Disk) (pkg : AbilityPackage) : Disk :=
  let mirror : StoreProgram Unit := do
    let _ ← StoreManager.mirrorPackageCrs env.store pkg.path pkg.name pkg.version
    let _ ← StoreManager.mirrorPackageSkills env.store pkg.path pkg.name pkg.version
  (FileProgram.run (fun _ _ => {}) mirror ⟨enumeration.mirroring disk, []⟩).2.disk

structure Loading where
  disk : Disk
  crds : AbilityCRDBasic
  packages : List AbilityPackage := []
  thrown : Option CRException := none

/-- The body of the loop of `update`. -/
def loadPackage (loading : Loading) (pkg : AbilityPackage) : Loading :=
  match addAbilityCrd env loading.crds pkg with
  | .error exception => { loading with packages := loading.packages ++ [pkg], thrown := some exception }
  | .ok crds =>
    { loading with
      packages := loading.packages ++ [pkg]
      crds
      disk := mirrorPackage env enumeration loading.disk pkg }

/-- The search ends with the first exception. -/
def loadFound (loading : Loading) : Except CRException AbilityPackage → Loading
  | .error exception => { loading with thrown := some exception }
  | .ok pkg => loadPackage env enumeration loading pkg

def loadVersion (loading : Loading) (versionDir : Path) : Loading :=
  if loading.thrown.isSome then loading
  else match readVersionDirectory env loading.disk versionDir with
  | none => loading
  | some found => loadFound env enumeration loading found

def loadVersions (loading : Loading) (pkgDir : Path) : Loading :=
  Runs.run (loadVersion env enumeration) loading
    (StoreManager.subdirectories pkgDir (enumeration.searching loading.disk))

/-- `recursively_search_packages`, with what is done for each package that it yields. -/
def recursivelySearchPackages (loading : Loading) : Loading :=
  if loading.disk.isDirectory (packagesPath env) then
    Runs.run (loadVersions env enumeration) loading
      (StoreManager.subdirectories (packagesPath env) (enumeration.searching loading.disk))
  else { loading with thrown := some (.other "filesystem error: directory iterator cannot open directory") }

/-! ## CRs -/

def checkLocalAbilityCrValidity (packages : List AbilityPackage) (cr : AbilityCRData) : Except String Unit :=
  match getAbilityManifest packages cr.spec.abilityName cr.spec.version with
  | none => .error ("manifest not found for " ++ cr.spec.abilityName ++ " " ++ cr.spec.version)
  | some manifest => env.checkLevels manifest cr

def checkAbilityCrValidity (packages : List AbilityPackage) (cr : AbilityCRData) :
    Except CRException (Except String Unit) :=
  if cr.spec.position.isEmpty || env.isLocalCr cr.spec.position then .ok (checkLocalAbilityCrValidity env packages cr)
  else env.checkRemoteAbilityCrValidity cr

def checks (packages : List AbilityPackage) : CRChecks where
  checkAbilityCrValidity := checkAbilityCrValidity env packages
  checkDeviceCrValidity := env.checkDeviceCrValidity
  getAbilityManifest abilityName version :=
    (getAbilityManifest packages abilityName version).map Document.AbilityManifest.toJson
  validateCrTasksField := Document.validateCrTasksField

def crsPath : Path := env.store.home ++ ["crs"]

/-- From the last dot of a file name, unless it is the first character. -/
def extension (name : String) : String :=
  let reversed := name.toList.reverse
  match reversed.dropWhile (· ≠ '.') with
  | [] | ['.'] => ""
  | _ :: _ => String.ofList ('.' :: (reversed.takeWhile (· ≠ '.')).reverse)

def directoryEntry (file : Path × String) : DirectoryEntry where
  isRegularFile := true
  extension := extension (file.1.getLast?.getD "")
  yaml := env.readYaml file.2
  readAt := enumeration.readAt file.1

def crEntries (disk : Disk) : List DirectoryEntry :=
  ((enumeration.scanning disk).regularFiles (crsPath env)).map (directoryEntry env enumeration)

/-- That there is no such directory is no more than an error message. -/
def readCrInFrameworkCrDir (packages : List AbilityPackage) (crs : CRDatabase) (disk : Disk) :
    Except CRException Unit × CRDatabase :=
  if disk.isDirectory (crsPath env) then
    readCrsIntoDb env.cr (checks env packages) makeUuid crs (crEntries env enumeration disk)
  else (.ok (), crs)

/-! ## Update -/

/-- As far as the automatic start of abilities. -/
def update (crds : AbilityCRDBasic) (crs : CRDatabase) (disk : Disk) : Except CRException Unit × ManagerState :=
  let loading := recursivelySearchPackages env enumeration { disk, crds }
  match loading.thrown with
  | some exception => (.error exception, ⟨loading.packages, loading.crds, crs⟩)
  | none =>
    let (result, crs) := readCrInFrameworkCrDir env makeUuid enumeration loading.packages crs loading.disk
    (result, ⟨loading.packages, loading.crds, crs⟩)

/-- The packages that are found. -/
def foundPackages (disk : Disk) : List AbilityPackage :=
  (recursivelySearchPackages env enumeration { disk, crds := ∅ }).packages

/-- The disk with the CRs of all packages mirrored. -/
def mirroredDisk (disk : Disk) : Disk := (recursivelySearchPackages env enumeration { disk, crds := ∅ }).disk

/-- The search comes to its end. -/
def SearchCompletes (disk : Disk) : Prop :=
  (recursivelySearchPackages env enumeration { disk, crds := ∅ }).thrown = none

variable {env makeUuid enumeration} {disk : Disk} {crds : AbilityCRDBasic} {crs : CRDatabase} {loading : Loading}
  {versionDir : Path}

/-! ## The table of CRDs -/

/-- The rows of the CRDs of packages. -/
def crdRows (env : ManagerEnvironment) (packages : List AbilityPackage) : List AbilityCRDRow :=
  packages.filterMap fun pkg => (pkg.crdRow env).toOption

theorem loadPackage_ok {pkg : AbilityPackage} {row : AbilityCRDRow} (isRow : pkg.crdRow env = .ok row) :
    loadPackage env enumeration loading pkg =
      { loading with
        packages := loading.packages ++ [pkg]
        crds := loading.crds.replaceInto row
        disk := mirrorPackage env enumeration loading.disk pkg } := by
  rw [loadPackage, addAbilityCrd, isRow]
  rfl

theorem loadPackage_error {pkg : AbilityPackage} {exception : CRException} (throws : pkg.crdRow env = .error exception) :
    loadPackage env enumeration loading pkg =
      { loading with packages := loading.packages ++ [pkg], thrown := some exception } := by
  rw [loadPackage, addAbilityCrd, throws]
  rfl

/-- Two searches, the one on an empty table: what there was in the table has no part in them. -/
structure SameSearch (env : ManagerEnvironment) (crds : AbilityCRDBasic) (plain loading : Loading) : Prop where
  disk : loading.disk = plain.disk
  packages : loading.packages = plain.packages
  thrown : loading.thrown = plain.thrown
  crds : loading.crds = (crdRows env loading.packages).foldl Relation.replaceInto crds

theorem sameSearch_loadPackage {plain : Loading} (same : SameSearch env crds plain loading) (pkg : AbilityPackage) :
    SameSearch env crds (loadPackage env enumeration plain pkg) (loadPackage env enumeration loading pkg) := by
  have rows : crdRows env (loading.packages ++ [pkg]) =
      crdRows env loading.packages ++ (pkg.crdRow env).toOption.toList := by
    rw [crdRows, List.filterMap_append, List.filterMap_cons, List.filterMap_nil]
    cases (pkg.crdRow env).toOption <;> rfl
  cases isRow : pkg.crdRow env with
  | error exception =>
    rw [loadPackage_error isRow, loadPackage_error isRow]
    refine ⟨same.disk, congrArg (· ++ [pkg]) same.packages, rfl, ?_⟩
    rw [rows, isRow]
    exact same.crds.trans (congrArg _ (List.append_nil _).symm)
  | ok row =>
    rw [loadPackage_ok isRow, loadPackage_ok isRow]
    refine ⟨congrArg (mirrorPackage env enumeration · pkg) same.disk, congrArg (· ++ [pkg]) same.packages, same.thrown, ?_⟩
    rw [rows, isRow, List.foldl_append, ← same.crds]
    rfl

theorem sameSearch_loadVersion {plain : Loading} (versionDir : Path) (same : SameSearch env crds plain loading) :
    SameSearch env crds (loadVersion env enumeration plain versionDir) (loadVersion env enumeration loading versionDir) := by
  rw [loadVersion, loadVersion, same.thrown, same.disk]
  split
  · exact same
  · split
    · exact same
    · rename_i found _
      cases found with
      | error exception => exact ⟨same.disk, same.packages, rfl, same.crds⟩
      | ok pkg => exact sameSearch_loadPackage same pkg

theorem sameSearch_loadVersions {plain : Loading} (pkgDir : Path) (same : SameSearch env crds plain loading) :
    SameSearch env crds (loadVersions env enumeration plain pkgDir) (loadVersions env enumeration loading pkgDir) := by
  rw [loadVersions, loadVersions, same.disk]
  exact @Runs.run_refines _ _ _ _ _ (fun loading plain => SameSearch env crds plain loading)
    (fun _ _ versionDir => sameSearch_loadVersion versionDir) loading plain same _

theorem sameSearch (env : ManagerEnvironment) (crds : AbilityCRDBasic) (enumeration : Enumeration) (disk : Disk) :
    SameSearch env crds (recursivelySearchPackages env enumeration { disk, crds := ∅ })
      (recursivelySearchPackages env enumeration { disk, crds }) := by
  rw [recursivelySearchPackages, recursivelySearchPackages]
  split
  · exact @Runs.run_refines _ _ _ _ _ (fun loading plain => SameSearch env crds plain loading)
      (fun _ _ pkgDir => sameSearch_loadVersions pkgDir) { disk, crds } { disk, crds := ∅ } ⟨rfl, rfl, rfl, rfl⟩ _
  · exact ⟨rfl, rfl, rfl, rfl⟩

/-- What an update does when no package throws. -/
theorem update_eq (completes : SearchCompletes env enumeration disk) (crds : AbilityCRDBasic) (crs : CRDatabase) :
    (update env makeUuid enumeration crds crs disk).2 =
      ⟨foundPackages env enumeration disk,
        (crdRows env (foundPackages env enumeration disk)).foldl Relation.replaceInto crds,
        (readCrInFrameworkCrDir env makeUuid enumeration (foundPackages env enumeration disk) crs
          (mirroredDisk env enumeration disk)).2⟩ := by
  have same := sameSearch env crds enumeration disk
  simp only [update, same.thrown.trans completes, same.crds, same.packages, same.disk]
  rfl

theorem update_packages : (update env makeUuid enumeration crds crs disk).2.packages = foundPackages env enumeration disk := by
  have same := sameSearch env crds enumeration disk
  rw [update]
  split <;> exact same.packages

theorem update_crds : (update env makeUuid enumeration crds crs disk).2.crds =
    (crdRows env (foundPackages env enumeration disk)).foldl Relation.replaceInto crds := by
  have same := sameSearch env crds enumeration disk
  rw [foundPackages, ← same.packages, ← same.crds, update]
  split <;> rfl

theorem update_crs_thrown (thrown : ¬ SearchCompletes env enumeration disk) :
    (update env makeUuid enumeration crds crs disk).2.crs = crs := by
  have same := sameSearch env crds enumeration disk
  rw [update]
  split
  · rfl
  · rename_i goesOn
    exact absurd (same.thrown.symm.trans goesOn) thrown

end AbilityFramework.ResourceMgr.ResourceManager
