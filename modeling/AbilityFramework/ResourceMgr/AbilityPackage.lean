import AbilityFramework.Library.CleanRuns
import AbilityFramework.Library.LastOf
import AbilityFramework.Library.Listing
import AbilityFramework.ResourceMgr.AbilityManifest
import AbilityFramework.ResourceMgr.CRValidation
import AbilityFramework.ResourceMgr.StoreManager
import AbilityFramework.ResourceMgr.TasksField

/-! # Installed packages

What a version directory of `packages` holds, and what all of them hold while nothing changes, in the order in
which the file system lists them.  Of the packages with one ability name and version, `get_ability_manifest` finds
the first, and the table of CRDs keeps the last. -/

namespace AbilityFramework.ResourceMgr.ResourceManager

open Library Document

structure ManagerEnvironment where
  store : StoreEnvironment
  cr : CREnvironment
  /-- `YAML::LoadFile`, of the content of a file. -/
  readYaml : String → Option Yaml
  isLocalCr : String → Bool
  /-- `validate_cr_framework_level` and `validate_cr_manifest_level` -/
  checkLevels : AbilityManifest → AbilityCRData → Except String Unit
  checkRemoteAbilityCrValidity : AbilityCRData → Except CRException (Except String Unit)
  checkDeviceCrValidity : DeviceCRData → Except CRException (Except String Unit)

/-- What `read_package` finds: one manifest, and the CRD that is made of it. -/
structure AbilityPackage where
  name : String
  version : String
  path : Path
  manifest : AbilityManifest
  deriving DecidableEq

variable (env : ManagerEnvironment)

/-! ## Reading a package -/

def readName (yaml : Yaml) : Except CRException (Except String String) :=
  yaml.getScalar ["name"] "need /name" "need /name"

def readVersion (yaml : Yaml) : Except CRException (Except String String) := do
  match ← yaml.getScalar ["version"] "need /version" "need /version" with
  | .error message => return .error message
  | .ok text => return (env.cr.version text).elim (.error "error parsing version: ") .ok

def readYamlFromPath (disk : Disk) (path : Path) : Option Yaml := (disk.fileAt path).bind env.readYaml

def readPackage (disk : Disk) (pkgDir : Path) : Except CRException (Option AbilityPackage) := do
  let some pkgDesc := readYamlFromPath env disk (pkgDir ++ ["package.yaml"]) | return none
  let .ok name ← readName pkgDesc | return none
  let .ok version ← readVersion env pkgDesc | return none
  let some manifestYaml := readYamlFromPath env disk (pkgDir ++ ["ability.manifest.yaml"]) | return none
  match AbilityManifest.fromJson (yamlToJson env.cr manifestYaml) with
  | .error _ => return none
  | .ok manifest => return some { name, version, path := pkgDir, manifest }

def nameIsSemver (path : Path) : Bool := (env.cr.version (path.getLast?.getD "")).isSome

def isPackage (disk : Disk) (path : Path) : Bool :=
  disk.hasEntry (path ++ ["package.yaml"]) && disk.hasEntry (path ++ ["ability.manifest.yaml"])

/-- A directory is passed over, holds a package or makes the search throw. -/
def readVersionDirectory (disk : Disk) (path : Path) : Option (Except CRException AbilityPackage) :=
  if nameIsSemver env path && isPackage disk path then
    match readPackage env disk path with
    | .error exception => some (.error exception)
    | .ok none => none
    | .ok (some pkg) => some (.ok pkg)
  else none

/-! ## The search -/

abbrev packagesPath : Path := StoreManager.packagesPath env.store

/-- What the directories hold. -/
def packagesOn (disk : Disk) : List (Except CRException AbilityPackage) :=
  if disk.isDirectory (packagesPath env) then
    (StoreManager.subdirectories (packagesPath env) disk).flatMap fun pkgDir =>
      (StoreManager.subdirectories pkgDir disk).filterMap (readVersionDirectory env disk)
  else [.error (.other "filesystem error: directory iterator cannot open directory")]

def AbilityPackage.provides (abilityName version : String) (pkg : AbilityPackage) : Bool :=
  pkg.version = version && pkg.manifest.abilityName = abilityName

def getAbilityManifest (packages : List AbilityPackage) (abilityName version : String) : Option AbilityManifest :=
  (packages.find? (AbilityPackage.provides abilityName version)).map AbilityPackage.manifest

structure AbilityCRDRow where
  abilityName : String
  abilityVersion : String
  crdDetail : String
  deriving DecidableEq

def AbilityCRDRow.key (row : AbilityCRDRow) : String × String := (row.abilityName, row.abilityVersion)

abbrev AbilityCRDBasic := Relation AbilityCRDRow.key

def AbilityPackage.key (pkg : AbilityPackage) : String × String := (pkg.manifest.abilityName, pkg.version)

def AbilityPackage.crdRow (pkg : AbilityPackage) : Except CRException AbilityCRDRow := do
  let id := env.cr.makeUuid pkg.name pkg.version pkg.manifest.abilityName pkg.manifest.kind
  let detail ← env.cr.dump (pkg.manifest.crdJson pkg.name pkg.version (env.cr.idText id))
  return { abilityName := pkg.manifest.abilityName, abilityVersion := pkg.version, crdDetail := detail }

def addAbilityCrd (crds : AbilityCRDBasic) (pkg : AbilityPackage) : Except CRException AbilityCRDBasic := do
  return crds.replaceInto (← pkg.crdRow env)

variable {env} in
theorem key_crdRow {pkg : AbilityPackage} {row : AbilityCRDRow} (isRow : pkg.crdRow env = .ok row) : row.key = pkg.key := by
  obtain ⟨_, _, same⟩ := except_bind_eq_ok.mp isRow
  cases same
  rfl

theorem provides_iff {abilityName version : String} {pkg : AbilityPackage} :
    pkg.provides abilityName version = true ↔ pkg.key = (abilityName, version) := by
  rw [AbilityPackage.provides, Bool.and_eq_true, decide_eq_true_eq, decide_eq_true_eq, and_comm, AbilityPackage.key,
    Prod.mk.injEq]

theorem getAbilityManifest_head (pkg : AbilityPackage) (more : List AbilityPackage) :
    getAbilityManifest (pkg :: more) pkg.manifest.abilityName pkg.version = some pkg.manifest := by
  rw [getAbilityManifest, List.find?_cons_of_pos (provides_iff.mpr rfl)]
  rfl

theorem getAbilityManifest_single {pkg : AbilityPackage} {abilityName version : String} {manifest : AbilityManifest}
    (answers : getAbilityManifest [pkg] abilityName version = some manifest) :
    pkg.key = (abilityName, version) ∧ pkg.manifest = manifest := by
  obtain ⟨found, isFound, same⟩ := Option.map_eq_some_iff.mp answers
  obtain rfl := List.mem_singleton.mp (List.mem_of_find?_eq_some isFound)
  exact ⟨provides_iff.mp (List.find?_some isFound), same⟩

/-! ## The order of listings -/

variable {env} {first second disk : Disk} {path : Path} {found : Except CRException AbilityPackage}

theorem readVersionDirectory_congr (same : first.SameEntries second) :
    readVersionDirectory env first = readVersionDirectory env second := by
  have sameYaml : readYamlFromPath env first = readYamlFromPath env second := by
    funext path
    rw [readYamlFromPath, readYamlFromPath, Disk.fileAt_of_entry (same.entry path).symm]
  have samePackage : isPackage first = isPackage second := by
    funext path
    rw [isPackage, isPackage, Disk.hasEntry, Disk.hasEntry, Disk.hasEntry, Disk.hasEntry, same.entry, same.entry]
  have sameRead : readPackage env first = readPackage env second := by
    funext path
    rw [readPackage, readPackage, sameYaml]
  funext path
  rw [readVersionDirectory, readVersionDirectory, samePackage, sameRead]

theorem subdirectories_eq (path : Path) (disk : Disk) :
    StoreManager.subdirectories path disk = ((disk.listing path).filter fun row => row.2 = .directory).map Prod.fst := by
  rw [StoreManager.subdirectories, Disk.listing, List.filter_filter]
  refine congrArg (List.map Prod.fst) (List.filter_congr fun row _ => ?_)
  rw [Bool.decide_and, Bool.and_assoc]

theorem mem_subdirectories {path child : Path} :
    child ∈ StoreManager.subdirectories path disk ↔ (child, .directory) ∈ disk.listing path := by
  rw [subdirectories_eq, List.mem_map]
  constructor
  · rintro ⟨⟨_, _⟩, isChild, rfl⟩
    obtain ⟨isChild, isDirectory⟩ := List.mem_filter.mp isChild
    obtain rfl := of_decide_eq_true isDirectory
    exact isChild
  · intro isChild
    exact ⟨_, List.mem_filter.mpr ⟨isChild, decide_eq_true rfl⟩, rfl⟩

theorem subdirectories_perm (same : first.SameEntries second) (path : Path) :
    (StoreManager.subdirectories path first).Perm (StoreManager.subdirectories path second) := by
  rw [subdirectories_eq, subdirectories_eq]
  exact ((same.listing path).filter _).map _

theorem isDirectory_congr (same : first.SameEntries second) (path : Path) :
    first.isDirectory path = second.isDirectory path := by
  rw [Disk.isDirectory, Disk.isDirectory, same.entry]

theorem packagesOn_perm (same : first.SameEntries second) :
    (packagesOn env first).Perm (packagesOn env second) := by
  rw [packagesOn, packagesOn, isDirectory_congr same, readVersionDirectory_congr same]
  split
  · refine List.Perm.flatMap (subdirectories_perm same _) fun pkgDir _ => ?_
    exact (subdirectories_perm same pkgDir).filterMap _
  · exact .refl _

theorem subdirectories_lastAt {path child target : Path} (isChild : child ∈ StoreManager.subdirectories path disk)
    (leads : child <+: target) : ∃ earlier, StoreManager.subdirectories path
      (disk.arrange fun other => !other.isPrefixOf target) = earlier ++ [child] := by
  rw [mem_subdirectories] at isChild
  simp only [subdirectories_eq, Disk.listing_arrange, Bool.not_not, Disk.filter_listing_prefix isChild leads,
    List.filter_append, List.map_append]
  exact ⟨_, rfl⟩

/-- Each package can be the last. -/
theorem packagesOn_lastAt (member : found ∈ packagesOn env disk) :
    ∃ arranged, Disk.SameEntries arranged disk ∧ ∃ earlier, packagesOn env arranged = earlier ++ [found] := by
  rw [packagesOn] at member
  split at member
  · rename_i isDirectory
    obtain ⟨pkgDir, isPkgDir, member⟩ := List.mem_flatMap.mp member
    obtain ⟨versionDir, isVersionDir, reads⟩ := List.mem_filterMap.mp member
    have leads : pkgDir <+: versionDir := Disk.prefix_of_mem_listing (mem_subdirectories.mp isVersionDir)
    have same := Disk.sameEntries_arrange (fun other => !other.isPrefixOf versionDir) disk
    obtain ⟨earlierPackages, packagesLast⟩ := subdirectories_lastAt isPkgDir leads
    obtain ⟨earlierVersions, versionsLast⟩ := subdirectories_lastAt isVersionDir (List.prefix_refl versionDir)
    refine ⟨_, same, ?_⟩
    rw [packagesOn, isDirectory_congr same, if_pos isDirectory, readVersionDirectory_congr same,
      packagesLast, List.flatMap_append, List.flatMap_singleton, versionsLast, List.filterMap_append,
      List.filterMap_cons_some reads, List.filterMap_nil, ← List.append_assoc]
    exact ⟨_, rfl⟩
  · rename_i noDirectory
    obtain rfl := List.mem_singleton.mp member
    refine ⟨disk, .refl _, [], ?_⟩
    rw [packagesOn, if_neg noDirectory, List.nil_append]

theorem packagesOn_reversed (disk : Disk) :
    packagesOn env disk.reversed = (packagesOn env disk).reverse := by
  have same := Disk.sameEntries_reversed disk
  have reversed (path : Path) :
      StoreManager.subdirectories path disk.reversed = (StoreManager.subdirectories path disk).reverse := by
    rw [subdirectories_eq, subdirectories_eq, Disk.listing_reversed, List.filter_reverse, List.map_reverse]
  rw [packagesOn, packagesOn, isDirectory_congr same, readVersionDirectory_congr same]
  split
  · rw [reversed, List.reverse_flatMap]
    refine congrArg (List.flatMap · _) (funext fun pkgDir => ?_)
    rw [reversed, List.filterMap_reverse, Function.comp_apply]
  · rfl

/-- Each package can be the first. -/
theorem packagesOn_firstAt (member : found ∈ packagesOn env disk) :
    ∃ arranged, Disk.SameEntries arranged disk ∧ ∃ later, packagesOn env arranged = found :: later := by
  obtain ⟨arranged, same, earlier, isLast⟩ := packagesOn_lastAt member
  refine ⟨arranged.reversed, (Disk.sameEntries_reversed arranged).trans same, earlier.reverse, ?_⟩
  rw [packagesOn_reversed, isLast, List.reverse_append, List.reverse_singleton, List.singleton_append]

end AbilityFramework.ResourceMgr.ResourceManager
