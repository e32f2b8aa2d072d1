import AbilityFramework.ResourceMgr.CRFiles
import AbilityFramework.ResourceMgr.PackageMirrors

/-! # Installed packages and their specs

`add_package` installs a package where its `package.yaml` says, and refuses one for another architecture.
`extract_package` installs it where the request says, and only looks whether there is a `package.yaml`.  So an
installed directory holds what it is named after exactly as long as every archive that is extracted names the
package it is requested as, for the architecture of the host (`always_specsMatch_iff`). -/

namespace AbilityFramework.ResourceMgr

open Library FileProgram

/-! ## Reading a spec -/

/-- `y[key]`, of which something is asked. -/
def Yaml.subscript (yaml : Yaml) (key : String) : Except CRException Yaml := do
  match ← Yaml.member (some yaml) key with
  | some node => return node
  | none => throw .invalidNode

def Yaml.isNull : Yaml → Bool
  | null => true
  | scalar _ | sequence _ | map _ => false

/-- `as<std::string>()` -/
def Yaml.asString : Yaml → Except CRException String
  | null => .ok "null"
  | scalar text => .ok text
  | sequence _ | map _ => .error (.runtimeError "bad conversion")

namespace StoreManager

def readPackageSpecFromYaml (y : Yaml) : Except CRException (Except String PackageSpec) := do
  if (← y.subscript "name").isNull then return .error "needs /name"
  let package ← (← y.subscript "name").asString
  if (← y.subscript "version").isNull then return .error "needs /version"
  if (← y.subscript "arch").isNull then return .error "needs /arch"
  let version ← (← y.subscript "version").asString
  let arch ← (← y.subscript "arch").asString
  return .ok ⟨package, version, arch⟩

/-- The YAML library. -/
structure YamlLibrary where
  /-- `YAML::LoadFile`, of the content of a file. -/
  loadFile : String → Option Yaml
  /-- What an exception says, which is also where the node is. -/
  what : CRException → String

section Specs

variable (library : YamlLibrary)

/-- The spec in the `package.yaml` of a directory, if there is one that can be read. -/
def packageSpecAt (disk : Disk) (dir : Path) : Option PackageSpec :=
  match ((disk.fileAt (dir ++ ["package.yaml"])).bind library.loadFile).map readPackageSpecFromYaml with
  | some (.ok (.ok spec)) => some spec
  | _ => none

/-- `read_yaml_from_file(package_yaml_path).and_then(read_package_spec_from_yaml)` -/
def readPackageSpec (base : Path) : StoreProgram PackageSpec := do
  let path := base ++ ["package.yaml"]
  require (.access path) (.messageAt "error reading yaml from " path)
  match ← see fun disk => ((disk.fileAt path).bind library.loadFile).map readPackageSpecFromYaml with
  -- What the exception says comes after the path.
  | none => fails (.messageAt "error reading yaml from " path)
  | some (.error exception) => fails (.message (library.what exception))
  | some (.ok (.error message)) => fails (.message message)
  | some (.ok (.ok spec)) => return spec

/-- What `add_package` makes of the `package.yaml` that it has unpacked. -/
def foundSpec (outcomes : Outcomes) (archive : ZipArchive) (tmpPath : Path) (disk : Disk) : Except StoreError PackageSpec :=
  (run outcomes (unpackedBase archive tmpPath >>= readPackageSpec library) ⟨disk, []⟩).1

end Specs

/-! ## Installations and removals -/

inductive PackageRequest where
  | addPackage (fileType : String) (archive : ZipArchive) (tmpPath : Path) (force : Bool)
  | extractPackage (spec : PackageSpec) (archive : ZipArchive) (tmpPath : Path)
  | removePackage (package version : String)
  | taskRemovePackage (package version : String)

def PackageRequest.operation (library : YamlLibrary) (outcomes : Outcomes) (disk : Disk) : PackageRequest → PackageOperation
  | addPackage fileType archive tmpPath force =>
    .addPackage (foundSpec library outcomes archive tmpPath disk) fileType archive tmpPath force
  | extractPackage spec archive tmpPath => .extractPackage spec archive tmpPath
  | removePackage package version => .removePackage package version
  | taskRemovePackage package version => .taskRemovePackage package version

/-- Name and version of the directory that the operation has successfully installed. -/
def PackageOperation.installs (env : StoreEnvironment) (outcomes : Outcomes) (disk : Disk) :
    PackageOperation → Option (String × String)
  | addPackage packageYaml fileType archive tmpPath force =>
    match (run outcomes (StoreManager.addPackage env packageYaml fileType archive tmpPath force) ⟨disk, []⟩).1 with
    | .ok ⟨true, spec⟩ => some (spec.package, spec.version)
    | .ok ⟨false, _⟩ | .error _ => none
  | extractPackage spec archive tmpPath =>
    match (run outcomes (StoreManager.extractPackage env spec archive tmpPath) ⟨disk, []⟩).1 with
    | .ok () => some (spec.package, spec.version)
    | .error _ => none
  | removePackage _ _ | taskRemovePackage _ _ => none

structure InstalledPackages where
  disk : Disk
  /-- The directories that a successful installation has made and that are still there. -/
  installed : List (String × String)

namespace InstalledPackages

variable (library : YamlLibrary) (env : StoreEnvironment)

/-- A request, and how the file system answers the calls. -/
def step (store : InstalledPackages) (request : PackageRequest × Outcomes) : InstalledPackages :=
  let operation := request.1.operation library request.2 store.disk
  let disk := operate env store.disk (operation, request.2)
  let installed := (operation.installs env request.2 store.disk).toList ++ store.installed
  ⟨disk, installed.filter fun (name, version) => isOn (destPath env name version) disk⟩

/-- Every installed directory holds the spec of the package that it is named after, for this host. -/
def SpecsMatch (store : InstalledPackages) : Prop :=
  ∀ name version, (name, version) ∈ store.installed →
    packageSpecAt library store.disk (destPath env name version).leadsTo = some ⟨name, version, env.arch⟩

end InstalledPackages

section Specs

variable {library : YamlLibrary} {env : StoreEnvironment} {outcomes : Outcomes} {disk after : Disk} {dir base tmpPath : Path}
  {spec : PackageSpec} {archive : ZipArchive}

/-! ## What is read -/

theorem packageSpecAt_of_file {other : Path}
    (same : after.fileAt (dir ++ ["package.yaml"]) = disk.fileAt (other ++ ["package.yaml"])) :
    packageSpecAt library after dir = packageSpecAt library disk other := by
  rw [packageSpecAt, same, packageSpecAt]

theorem packageSpecAt_of_readPackageSpec {state : FileState}
    (returns : (run outcomes (readPackageSpec library base) state).1 = .ok spec) :
    packageSpecAt library state.disk base = some spec := by
  rw [readPackageSpec, run_require_bind] at returns
  split at returns
  · rw [run_see_bind, FileState.disk_access] at returns
    rw [packageSpecAt]
    generalize ((state.disk.fileAt (base ++ ["package.yaml"])).bind library.loadFile).map readPackageSpecFromYaml = found at *
    rcases found with _ | exception | message | found
    · cases returns
    · cases returns
    · cases returns
    · exact congrArg some (Except.ok.inj returns)
  · cases returns

theorem prepare_eq (packageYaml : Except StoreError PackageSpec) (force : Bool) :
    prepare env packageYaml archive tmpPath force = unpackedBase archive tmpPath >>= fun base =>
      done packageYaml >>= fun spec => prepareUnpacked env spec base force := rfl

/-- What is prepared for a replacement holds the spec that it has been prepared for. -/
theorem packageSpecAt_prepare {force : Bool} {prepared : FileState}
    (prepares : run outcomes (prepare env (foundSpec library outcomes archive tmpPath disk) archive tmpPath force) ⟨disk, []⟩ =
      (.ok (spec, some base), prepared)) :
    packageSpecAt library prepared.disk base = some ⟨spec.package, spec.version, env.arch⟩ := by
  rw [prepare_eq, run_bind] at prepares
  -- The spec is read where the run of `prepare` finds the base.
  have isFound : foundSpec library outcomes archive tmpPath disk = _ := congrArg Prod.fst (run_bind _ _ _)
  rcases unpacks : run outcomes (unpackedBase archive tmpPath) ⟨disk, []⟩ with ⟨failed | unpackedAt, unpacked⟩
  · rw [unpacks] at prepares
    cases prepares
  · simp only [unpacks] at prepares isFound
    rw [isFound] at prepares
    cases reads : (run outcomes (readPackageSpec library unpackedAt) unpacked).1 with
    | error error =>
      rw [reads] at prepares
      cases prepares
    | ok read =>
      rw [reads, done_ok_bind] at prepares
      have returns := congrArg Prod.fst prepares
      obtain ⟨rfl, sameArch, isBase⟩ := run_ensures (ensures_prepareUnpacked read unpackedAt force) unpacked returns
      obtain rfl := isBase base rfl
      have sameFile : (run outcomes (prepareUnpacked env spec base force) unpacked).2.disk.fileAt (base ++ ["package.yaml"]) =
          unpacked.disk.fileAt (base ++ ["package.yaml"]) :=
        -- Directories are made for the package, and no file is touched.
        run_fileAt (calls_prepareUnpacked (fun _ => trivial) fun _ _ => trivial) unpacked
      rw [prepares] at sameFile
      rw [packageSpecAt_of_file sameFile, ← sameArch]
      exact packageSpecAt_of_readPackageSpec reads

/-! ## What is kept -/

/-- The directory of the package, if there is one, holds the spec that it is named after. -/
def Matches (library : YamlLibrary) (env : StoreEnvironment) (disk : Disk) (name version : String) : Prop :=
  disk.hasEntry (packageTree env name version) = true →
    packageSpecAt library disk (packageTree env name version) = some ⟨name, version, env.arch⟩

/-- No removal that fails half way leaves a directory without its `package.yaml`. -/
def WholeRemovals (env : StoreEnvironment) (outcomes : Outcomes) : Prop :=
  ∀ dir count, (outcomes (.removeAll dir) count).succeeds = false → ∀ name version,
    (outcomes (.removeAll dir) count).touches (packageTree env name version ++ ["package.yaml"]) = true →
      (outcomes (.removeAll dir) count).touches (packageTree env name version) = true

variable {name version : String} {state : FileState}

theorem Matches.kept (areSame : Matches library env disk name version)
    (kept : ∀ path, packageTree env name version <+: path → after.entry path = disk.entry path) :
    Matches library env after name version := by
  intro present
  rw [Disk.hasEntry, kept _ List.prefix_rfl] at present
  rw [packageSpecAt_of_file (Disk.fileAt_of_entry (kept _ (List.prefix_append _ _)))]
  exact areSame present

theorem Matches.run_kept {α : Type} {program : StoreProgram α} (areSame : Matches library env state.disk name version)
    (calls : ∀ path, packageTree env name version <+: path → Calls (fun request => ¬ request.mayChange path) program) :
    Matches library env (run outcomes program state).2.disk name version :=
  areSame.kept fun path inTree => run_entry (calls path inTree) state

theorem Matches.removeBelow {removed : Path → Bool} (areSame : Matches library env disk name version)
    (notYaml : dir ≠ packageTree env name version ++ ["package.yaml"])
    (wholly : removed (packageTree env name version ++ ["package.yaml"]) = true →
      removed (packageTree env name version) = true) :
    Matches library env (disk.removeBelow dir removed) name version := by
  intro present
  rw [Disk.hasEntry, Disk.entry_removeBelow] at present
  split at present
  · cases present
  · rename_i isKept
    -- Whatever removes the file removes the directory with it, unless it removes the file alone.
    have yamlKept : ¬ (dir <+: packageTree env name version ++ ["package.yaml"] ∧
        removed (packageTree env name version ++ ["package.yaml"]) = true) := by
      rintro ⟨above, isRemoved⟩
      exact isKept ⟨(List.prefix_concat_iff.mp above).resolve_left notYaml, wholly isRemoved⟩
    have sameEntry : (disk.removeBelow dir removed).entry (packageTree env name version ++ ["package.yaml"]) =
        disk.entry (packageTree env name version ++ ["package.yaml"]) := by
      rw [Disk.entry_removeBelow, if_neg yamlKept]
    rw [packageSpecAt_of_file (Disk.fileAt_of_entry sameEntry)]
    exact areSame present

/-- Whether or not `remove_all` succeeds. -/
theorem Matches.removeAll (areSame : Matches library env state.disk name version) (whole : WholeRemovals env outcomes)
    (notYaml : dir ≠ packageTree env name version ++ ["package.yaml"]) :
    Matches library env (state.make outcomes (.removeAll dir)).2.disk name version := by
  simp only [FileState.make, FileCall.attempt, FileCall.feasible, Bool.and_true]
  split
  · exact areSame.removeBelow notYaml fun _ => rfl
  · rename_i fails
    exact areSame.removeBelow notYaml (whole dir _ (Bool.eq_false_iff.mpr fails) name version)

/-! ## Placing a package -/

theorem calls_placePackage_other {path : Path} (names : HasNames spec) (apart : Path.Apart tmpPath (packagesPath env))
    (below : tmpPath <+: base) (inTree : InPackageTree env path)
    (other : ¬ packageTree env spec.package spec.version <+: path) :
    Calls (fun request => ¬ request.mayChange path) (placePackage env base spec) := by
  rw [placePackage_of_names names.package names.version, calls_require_bind]
  refine ⟨not_or.mpr ⟨fun isBase => ?_, other⟩, ?_⟩
  · exact apart.not_above (below.trans isBase) (packagesPath_isPrefix inTree)
  · exact calls_mirrorPackage_packages _ names.package names.version (packagesPath_isPrefix inTree)

/-- The package that has been moved to its place is the one that was unpacked. -/
theorem packageSpecAt_placePackage (names : HasNames spec)
    (isMoved : (state.make outcomes (.rename base (packageTree env spec.package spec.version))).1 = true) :
    packageSpecAt library (run outcomes (placePackage env base spec) state).2.disk (packageTree env spec.package spec.version) =
      packageSpecAt library state.disk base := by
  have inTree : InPackageTree env (packageTree env spec.package spec.version ++ ["package.yaml"]) :=
    ⟨_, _, List.prefix_append _ _⟩
  simp only [placePackage_of_names names.package names.version, run_require_bind, if_pos isMoved]
  refine packageSpecAt_of_file (Disk.fileAt_of_entry ?_)
  rw [run_entry (calls_mirrorPackage_packages _ names.package names.version (packagesPath_isPrefix inTree))]
  exact entry_moved ["package.yaml"] (Prod.ext isMoved rfl)

theorem Matches.placePackage_other (areSame : Matches library env state.disk name version) (names : HasNames spec)
    (apart : Path.Apart tmpPath (packagesPath env)) (below : tmpPath <+: base)
    (different : ¬ (spec.package = name ∧ spec.version = version)) :
    Matches library env (run outcomes (placePackage env base spec) state).2.disk name version := by
  refine areSame.run_kept fun path inTree => calls_placePackage_other names apart below ⟨name, version, inTree⟩ ?_
  obtain ⟨rest, rfl⟩ := inTree
  exact fun isPrefix => different ((packageTree_isPrefix rest).mp isPrefix)

theorem Matches.placePackage (areSame : Matches library env state.disk name version) (names : HasNames spec)
    (apart : Path.Apart tmpPath (packagesPath env)) (below : tmpPath <+: base)
    (isSpec : packageSpecAt library state.disk base = some ⟨spec.package, spec.version, env.arch⟩) :
    Matches library env (run outcomes (placePackage env base spec) state).2.disk name version := by
  by_cases isPlaced : spec.package = name ∧ spec.version = version
  · obtain ⟨rfl, rfl⟩ := isPlaced
    cases isMoved : (state.make outcomes (.rename base (packageTree env spec.package spec.version))).1 with
    | true =>
      intro _
      rw [packageSpecAt_placePackage names isMoved]
      exact isSpec
    | false =>
      -- Nothing is at the destination that was not there before.
      simp only [placePackage_of_names names.package names.version, run_require_bind, isMoved, Bool.false_eq_true, if_false]
      rwa [disk_not_moved (Prod.ext isMoved rfl)]
  · exact areSame.placePackage_other names apart below isPlaced

theorem packageSpecAt_of_placed (names : HasNames spec)
    (returns : (run outcomes (placePackage env base spec) state).1 = .ok ()) :
    packageSpecAt library (run outcomes (placePackage env base spec) state).2.disk (packageTree env spec.package spec.version) =
      packageSpecAt library state.disk base := by
  refine packageSpecAt_placePackage names ?_
  simp only [placePackage_of_names names.package names.version, run_require_bind] at returns
  split at returns
  · assumption
  · cases returns

theorem hasEntry_of_placed (names : HasNames spec) (returns : (run outcomes (placePackage env base spec) state).1 = .ok ()) :
    (run outcomes (placePackage env base spec) state).2.disk.hasEntry (packageTree env spec.package spec.version) = true := by
  have inTree : InPackageTree env (packageTree env spec.package spec.version) := ⟨_, _, List.prefix_rfl⟩
  simp only [placePackage_of_names names.package names.version, run_require_bind] at returns ⊢
  split at returns
  · rename_i isMoved
    have feasible := (FileState.make_succeeds isMoved).1
    simp only [FileCall.feasible, Bool.and_eq_true] at feasible
    have moved := entry_moved [] (Prod.ext isMoved rfl)
    rw [List.append_nil, List.append_nil] at moved
    rw [if_pos isMoved, Disk.hasEntry,
      run_entry (calls_mirrorPackage_packages _ names.package names.version (packagesPath_isPrefix inTree)), moved]
    exact feasible.1.1.1
  · cases returns

/-! ## Adding -/

/-- The destination lies apart from what has been unpacked. -/
theorem packageSpecAt_removeAll (apart : Path.Apart tmpPath (packagesPath env)) (below : tmpPath <+: base) :
    packageSpecAt library (state.make outcomes (.removeAll (packageTree env name version))).2.disk base =
      packageSpecAt library state.disk base := by
  refine packageSpecAt_of_file (FileState.fileAt_make fun above => ?_)
  exact apart.not_above (below.trans (List.prefix_append base _)) (packagesPath_isPrefix ⟨name, version, above⟩)

theorem Matches.replacePackage (areSame : Matches library env state.disk name version) (names : HasNames spec)
    (apart : Path.Apart tmpPath (packagesPath env)) (below : tmpPath <+: base) (whole : WholeRemovals env outcomes)
    (isSpec : packageSpecAt library state.disk base = some ⟨spec.package, spec.version, env.arch⟩) :
    Matches library env (run outcomes (replacePackage env base spec) state).2.disk name version := by
  have notYaml : packageTree env spec.package spec.version ≠ packageTree env name version ++ ["package.yaml"] := by
    intro same
    simpa [packageTree] using congrArg List.length same
  rw [replacePackage_of_names names.package names.version, run_require_bind]
  split
  · refine (areSame.removeAll whole notYaml).placePackage names apart below ?_
    rw [packageSpecAt_removeAll apart below, isSpec]
  · exact areSame.removeAll whole notYaml

theorem packageSpecAt_of_replaced (names : HasNames spec) (apart : Path.Apart tmpPath (packagesPath env))
    (below : tmpPath <+: base) (returns : (run outcomes (replacePackage env base spec) state).1 = .ok ()) :
    packageSpecAt library (run outcomes (replacePackage env base spec) state).2.disk
      (packageTree env spec.package spec.version) = packageSpecAt library state.disk base := by
  rw [replacePackage_of_names names.package names.version, run_require_bind] at returns ⊢
  split at returns
  · rename_i isRemoved
    rw [if_pos isRemoved, packageSpecAt_of_placed names returns, packageSpecAt_removeAll apart below]
  · cases returns

/-- The package is unpacked beside the packages, which are as they were, and holds its spec. -/
structure IsPrepared (library : YamlLibrary) (env : StoreEnvironment) (disk : Disk) (tmpPath : Path) (spec : PackageSpec)
    (base : Path) (prepared : FileState) : Prop where
  names : HasNames spec
  below : tmpPath <+: base
  kept : ∀ path, InPackageTree env path → prepared.disk.entry path = disk.entry path
  isSpec : packageSpecAt library prepared.disk base = some ⟨spec.package, spec.version, env.arch⟩

/-- Either nothing becomes of the packages, or what has been prepared takes its place. -/
theorem addPackage_cases {fileType : String} {force : Bool} {result : Except StoreError AddPackageRes} {last : FileState}
    (aside : UnpacksAside env archive tmpPath)
    (names : ∀ spec, foundSpec library outcomes archive tmpPath disk = .ok spec → HasNames spec)
    (runs : run outcomes (addPackage env (foundSpec library outcomes archive tmpPath disk) fileType archive tmpPath force)
      ⟨disk, []⟩ = (result, last)) :
    ((∀ spec, result ≠ .ok ⟨true, spec⟩) ∧ ∀ path, InPackageTree env path → last.disk.entry path = disk.entry path) ∨
      ∃ spec base prepared, IsPrepared library env disk tmpPath spec base prepared ∧
        result = (run outcomes (replacePackage env base spec) prepared).1.map (fun _ => ⟨true, spec⟩) ∧
        last = (run outcomes (replacePackage env base spec) prepared).2 := by
  have kept (path : Path) (inTree : InPackageTree env path) :
      (run outcomes (prepare env (foundSpec library outcomes archive tmpPath disk) archive tmpPath force)
        ⟨disk, []⟩).2.disk.entry path = disk.entry path :=
    run_entry (calls_prepare_packages aside (fun spec found => ⟨(names spec found).package, (names spec found).version⟩)
      inTree) _
  rw [addPackage] at runs
  split at runs
  · obtain ⟨rfl, rfl⟩ := Prod.mk.inj runs
    exact .inl ⟨fun _ same => (by cases same), fun _ _ => rfl⟩
  · rw [run_bind] at runs
    rcases prepares : run outcomes (prepare env (foundSpec library outcomes archive tmpPath disk) archive tmpPath force)
      ⟨disk, []⟩ with ⟨failed | ⟨spec, _ | base⟩, prepared⟩ <;> simp only [prepares] at kept runs
    · obtain ⟨rfl, rfl⟩ := Prod.mk.inj runs
      exact .inl ⟨fun _ same => (by cases same), kept⟩
    · obtain ⟨rfl, rfl⟩ := Prod.mk.inj runs
      exact .inl ⟨fun _ same => (by cases same), kept⟩
    · obtain ⟨isSpec, below⟩ := run_ensures (ensures_prepare _ archive tmpPath force) _ (congrArg Prod.fst prepares)
      rw [run_bind_pure] at runs
      obtain ⟨rfl, rfl⟩ := Prod.mk.inj runs
      exact .inr ⟨spec, base, prepared, ⟨names spec isSpec, below base rfl, kept, packageSpecAt_prepare prepares⟩, rfl, rfl⟩

theorem matches_addPackage {fileType : String} {force : Bool} (aside : UnpacksAside env archive tmpPath)
    (names : ∀ spec, foundSpec library outcomes archive tmpPath disk = .ok spec → HasNames spec)
    (whole : WholeRemovals env outcomes) (areSame : Matches library env disk name version) :
    Matches library env (run outcomes
      (addPackage env (foundSpec library outcomes archive tmpPath disk) fileType archive tmpPath force) ⟨disk, []⟩).2.disk
      name version := by
  rcases addPackage_cases aside names rfl with ⟨_, kept⟩ | ⟨spec, base, prepared, isPrepared, _, isLast⟩
  · exact areSame.kept fun path inTree => kept path ⟨name, version, inTree⟩
  · rw [isLast]
    have preparedSame := areSame.kept fun path inTree => isPrepared.kept path ⟨name, version, inTree⟩
    exact preparedSame.replacePackage isPrepared.names aside.apart isPrepared.below whole isPrepared.isSpec

theorem packageSpecAt_addPackage {fileType : String} {force : Bool} (aside : UnpacksAside env archive tmpPath)
    (names : ∀ spec, foundSpec library outcomes archive tmpPath disk = .ok spec → HasNames spec)
    (returns : (run outcomes (addPackage env (foundSpec library outcomes archive tmpPath disk) fileType archive tmpPath force)
      ⟨disk, []⟩).1 = .ok ⟨true, spec⟩) :
    HasNames spec ∧ packageSpecAt library (run outcomes
      (addPackage env (foundSpec library outcomes archive tmpPath disk) fileType archive tmpPath force) ⟨disk, []⟩).2.disk
      (packageTree env spec.package spec.version) = some ⟨spec.package, spec.version, env.arch⟩ := by
  rcases addPackage_cases aside names rfl with ⟨notInstalled, _⟩ | ⟨found, base, prepared, isPrepared, isResult, isLast⟩
  · exact absurd returns (notInstalled spec)
  · rw [returns] at isResult
    cases replaces : (run outcomes (replacePackage env base found) prepared).1 with
    | error error =>
      rw [replaces] at isResult
      cases isResult
    | ok =>
      rw [replaces] at isResult
      cases isResult
      rw [isLast, packageSpecAt_of_replaced isPrepared.names aside.apart isPrepared.below replaces]
      exact ⟨isPrepared.names, isPrepared.isSpec⟩

/-! ## Extracting -/

theorem calls_extractedBase_packages {path : Path} (aside : UnpacksAside env archive tmpPath) (names : HasNames spec)
    (inTree : InPackageTree env path) :
    Calls (fun request => ¬ request.mayChange path) (extractedBase env spec archive tmpPath) :=
  calls_extractedBase (fun _ => not_false) (calls_unzip_packages aside inTree)
    fun station member => not_createsPackage (not_inPackageTree_parent names.package names.version station member) inTree

/-- Nothing is extracted over what is there. -/
theorem hasEntry_of_extractedBase (names : HasNames spec)
    (returns : (run outcomes (extractedBase env spec archive tmpPath) ⟨disk, []⟩).1 = .ok base) :
    disk.hasEntry (packageTree env spec.package spec.version) = false := by
  simp only [extractedBase, makeRoom] at returns
  split at returns
  · cases returns
  · rw [hasEntry, lookUp, bind_assoc, bind_assoc, run_require_bind] at returns
    split at returns
    · rw [Bool.eq_false_iff]
      intro present
      rw [run_see_bind, FileState.disk_access, isOn_of_plain (isPlain_destPath names.package names.version),
        leadsTo_destPath names.package names.version, present, if_pos rfl] at returns
      cases returns
    · cases returns

/-- Either nothing becomes of the packages, or what has been extracted is placed where nothing is. -/
theorem extractPackage_cases {result : Except StoreError Unit} {last : FileState} (aside : UnpacksAside env archive tmpPath)
    (names : HasNames spec) (runs : run outcomes (extractPackage env spec archive tmpPath) ⟨disk, []⟩ = (result, last)) :
    (result ≠ .ok () ∧ ∀ path, InPackageTree env path → last.disk.entry path = disk.entry path) ∨
      ∃ base unpacked, run outcomes (extractedBase env spec archive tmpPath) ⟨disk, []⟩ = (.ok base, unpacked) ∧
        (∀ path, InPackageTree env path → unpacked.disk.entry path = disk.entry path) ∧
        run outcomes (placePackage env base spec) unpacked = (result, last) := by
  have kept (path : Path) (inTree : InPackageTree env path) :
      (run outcomes (extractedBase env spec archive tmpPath) ⟨disk, []⟩).2.disk.entry path = disk.entry path :=
    run_entry (calls_extractedBase_packages aside names inTree) _
  rw [extractPackage_eq, run_bind] at runs
  rcases extracts : run outcomes (extractedBase env spec archive tmpPath) ⟨disk, []⟩ with ⟨failed | base, unpacked⟩ <;>
    simp only [extracts] at kept runs
  · obtain ⟨rfl, rfl⟩ := Prod.mk.inj runs
    exact .inl ⟨fun same => (by cases same), kept⟩
  · exact .inr ⟨base, unpacked, rfl, kept, runs⟩

theorem matches_extractPackage (aside : UnpacksAside env archive tmpPath) (names : HasNames spec)
    (areSame : Matches library env disk name version) (present : disk.hasEntry (packageTree env name version) = true) :
    Matches library env (run outcomes (extractPackage env spec archive tmpPath) ⟨disk, []⟩).2.disk name version := by
  rcases extractPackage_cases aside names rfl with ⟨_, kept⟩ | ⟨base, unpacked, extracts, kept, places⟩
  · exact areSame.kept fun path inTree => kept path ⟨name, version, inTree⟩
  · have unpackedSame := areSame.kept fun path inTree => kept path ⟨name, version, inTree⟩
    have below := run_ensures (ensures_extractedBase spec archive tmpPath) _ (congrArg Prod.fst extracts)
    rw [← congrArg Prod.snd places]
    -- A package that is there is not the one that is extracted.
    refine unpackedSame.placePackage_other names aside.apart below ?_
    rintro ⟨rfl, rfl⟩
    rw [hasEntry_of_extractedBase names (congrArg Prod.fst extracts)] at present
    cases present

/-- Once there is a base, the package is placed. -/
theorem run_extractPackage {unpacked : FileState}
    (extracts : run outcomes (extractedBase env spec archive tmpPath) ⟨disk, []⟩ = (.ok base, unpacked)) :
    run outcomes (extractPackage env spec archive tmpPath) ⟨disk, []⟩ = run outcomes (placePackage env base spec) unpacked := by
  rw [extractPackage_eq, run_bind, extracts]

/-! ## Removing -/

/-- No `package.yaml` of a package is removed without its directory. -/
def SparesSpecs (env : StoreEnvironment) : FileCall → Prop
  | .removeAll dir => ∀ name version, dir ≠ packageTree env name version ++ ["package.yaml"]
  | .access _ | .createDirectories _ | .write _ _ | .rename _ _ => True

/-- What a removal removes. -/
def removedDirs (env : StoreEnvironment) (name version : String) : List SpelledPath :=
  destPath env name version :: mirroredFolders.map fun folder => versionDir (mirroredPkg env folder name) version

def RemovesDirectories (env : StoreEnvironment) (dirs : List SpelledPath) : Prop :=
  ∀ dir ∈ dirs, RemovalAllowed (SparesSpecs env) dir

theorem Matches.removes {dirs : List SpelledPath} (whole : WholeRemovals env outcomes) (removes : RemovesDirectories env dirs)
    (path : SpelledPath) (isRemoved : path ∈ dirs) :
    RemovalAllowed (fun request => ∀ state : FileState, Matches library env state.disk name version →
      Matches library env (state.make outcomes request).2.disk name version) path :=
  (removes path isRemoved).imp fun _ spares _ same => same.removeAll whole (spares name version)

theorem matches_removePackage {package packageVersion : String} (whole : WholeRemovals env outcomes)
    (removes : RemovesDirectories env (removedDirs env package packageVersion))
    (areSame : Matches library env disk name version) :
    Matches library env (run outcomes (removePackage env package packageVersion) ⟨disk, []⟩).2.disk name version := by
  refine run_keeps (fun disk => Matches library env disk name version) (calls_removePackage ?_ ?_ ?_) _ areSame
  · intro path state same
    rwa [FileState.disk_access]
  · exact Matches.removes whole removes _ List.mem_cons_self
  · exact fun folder mirrored => Matches.removes whole removes _ (List.mem_cons_of_mem _ (List.mem_map_of_mem mirrored))

theorem matches_taskRemovePackage {package packageVersion : String} (whole : WholeRemovals env outcomes)
    (removes : RemovesDirectories env [versionDir (SpelledPath.slash (packagesPath env) package) packageVersion])
    (areSame : Matches library env disk name version) :
    Matches library env (run outcomes (taskRemovePackage env package packageVersion) ⟨disk, []⟩).2.disk name version :=
  run_keeps (fun disk => Matches library env disk name version)
    (calls_taskRemovePackage (Matches.removes whole removes _ List.mem_cons_self)) _ areSame

end Specs

/-! ## Steps -/

namespace InstalledPackages

/-- Names are names, archives are unpacked beside the packages, and what is removed are whole directories. -/
def StaysInPlace (library : YamlLibrary) (env : StoreEnvironment) (store : InstalledPackages)
    (request : PackageRequest × Outcomes) : Prop :=
  match request.1 with
  | .addPackage _ archive tmpPath _ =>
    UnpacksAside env archive tmpPath ∧ WholeRemovals env request.2 ∧
      ∀ spec, foundSpec library request.2 archive tmpPath store.disk = .ok spec → HasNames spec
  | .extractPackage spec archive tmpPath => UnpacksAside env archive tmpPath ∧ HasNames spec
  | .removePackage package version =>
    WholeRemovals env request.2 ∧ RemovesDirectories env (removedDirs env package version)
  | .taskRemovePackage package version =>
    WholeRemovals env request.2 ∧
      RemovesDirectories env [versionDir (SpelledPath.slash (packagesPath env) package) version]

/-- What is extracted successfully holds the spec that it is requested as, for this host. -/
def ExtractsMatching (library : YamlLibrary) (env : StoreEnvironment) (store : InstalledPackages)
    (request : PackageRequest × Outcomes) : Prop :=
  match request.1 with
  | .extractPackage spec archive tmpPath =>
    (run request.2 (extractPackage env spec archive tmpPath) ⟨store.disk, []⟩).1 = .ok () →
      ∀ base unpacked, run request.2 (extractedBase env spec archive tmpPath) ⟨store.disk, []⟩ = (.ok base, unpacked) →
        packageSpecAt library unpacked.disk base = some ⟨spec.package, spec.version, env.arch⟩
  | .addPackage _ _ _ _ | .removePackage _ _ | .taskRemovePackage _ _ => True

variable {library : YamlLibrary} {env : StoreEnvironment} {store : InstalledPackages} {request : PackageRequest × Outcomes}
  {name version : String}

/-- The directories that count as installed are there, and each holds the spec that it is named after. -/
structure Sound (library : YamlLibrary) (env : StoreEnvironment) (store : InstalledPackages) : Prop where
  names : ∀ name version, (name, version) ∈ store.installed → Path.IsName name ∧ Path.IsName version
  present : ∀ name version, (name, version) ∈ store.installed → store.disk.hasEntry (packageTree env name version) = true
  areSame : ∀ name version, (name, version) ∈ store.installed → Matches library env store.disk name version

theorem Sound.specsMatch (sound : Sound library env store) : SpecsMatch library env store := by
  intro name version isInstalled
  obtain ⟨isName, isVersion⟩ := sound.names name version isInstalled
  rw [leadsTo_destPath isName isVersion]
  exact sound.areSame name version isInstalled (sound.present name version isInstalled)

theorem mem_installed_step :
    (name, version) ∈ (step library env store request).installed ↔
      ((request.1.operation library request.2 store.disk).installs env request.2 store.disk = some (name, version) ∨
        (name, version) ∈ store.installed) ∧
      isOn (destPath env name version) (step library env store request).disk = true := by
  simp only [step, List.mem_filter, List.mem_append, Option.mem_toList]

theorem run_discard {α : Type} (program : StoreProgram α) (outcomes : Outcomes) (state : FileState) :
    (run outcomes (program >>= fun _ => pure ()) state).2 = (run outcomes program state).2 :=
  congrArg Prod.snd (run_bind_pure program (fun _ => ()) state)

theorem disk_addPackage {fileType : String} {archive : ZipArchive} {tmpPath : Path} {force : Bool} {outcomes : Outcomes} :
    (step library env store (.addPackage fileType archive tmpPath force, outcomes)).disk =
      (run outcomes (addPackage env (foundSpec library outcomes archive tmpPath store.disk) fileType archive tmpPath force)
        ⟨store.disk, []⟩).2.disk :=
  congrArg FileState.disk (run_discard _ _ _)

theorem disk_extractPackage {spec : PackageSpec} {archive : ZipArchive} {tmpPath : Path} {outcomes : Outcomes} :
    (step library env store (.extractPackage spec archive tmpPath, outcomes)).disk =
      (run outcomes (extractPackage env spec archive tmpPath) ⟨store.disk, []⟩).2.disk := rfl

theorem disk_removePackage {package packageVersion : String} {outcomes : Outcomes} :
    (step library env store (.removePackage package packageVersion, outcomes)).disk =
      (run outcomes (removePackage env package packageVersion) ⟨store.disk, []⟩).2.disk :=
  congrArg FileState.disk (run_discard _ _ _)

theorem matches_step (inPlace : StaysInPlace library env store request) (areSame : Matches library env store.disk name version)
    (present : store.disk.hasEntry (packageTree env name version) = true) :
    Matches library env (step library env store request).disk name version := by
  obtain ⟨request, outcomes⟩ := request
  cases request with
  | addPackage fileType archive tmpPath force =>
    obtain ⟨aside, whole, names⟩ := inPlace
    rw [disk_addPackage]
    exact matches_addPackage aside names whole areSame
  | extractPackage spec archive tmpPath => exact matches_extractPackage inPlace.1 inPlace.2 areSame present
  | removePackage package packageVersion =>
    obtain ⟨whole, removes⟩ := inPlace
    rw [disk_removePackage]
    exact matches_removePackage whole removes areSame
  | taskRemovePackage package packageVersion =>
    obtain ⟨whole, removes⟩ := inPlace
    exact matches_taskRemovePackage whole removes areSame

theorem installs_step (inPlace : StaysInPlace library env store request) (matching : ExtractsMatching library env store request)
    (installs : (request.1.operation library request.2 store.disk).installs env request.2 store.disk = some (name, version)) :
    (Path.IsName name ∧ Path.IsName version) ∧
      packageSpecAt library (step library env store request).disk (packageTree env name version) =
        some ⟨name, version, env.arch⟩ := by
  obtain ⟨request, outcomes⟩ := request
  cases request with
  | addPackage fileType archive tmpPath force =>
    obtain ⟨aside, whole, names⟩ := inPlace
    simp only [PackageRequest.operation, PackageOperation.installs] at installs
    split at installs
    · rename_i spec returns
      obtain ⟨rfl, rfl⟩ := Prod.mk.inj (Option.some.inj installs)
      obtain ⟨areNames, isSpec⟩ := packageSpecAt_addPackage aside names returns
      rw [disk_addPackage]
      exact ⟨⟨areNames.package, areNames.version⟩, isSpec⟩
    · cases installs
    · cases installs
  | extractPackage spec archive tmpPath =>
    obtain ⟨aside, names⟩ := inPlace
    simp only [PackageRequest.operation, PackageOperation.installs] at installs
    split at installs
    · -- Only here the condition on extractions is needed: nothing is read of what is placed.
      rename_i returns
      obtain ⟨rfl, rfl⟩ := Prod.mk.inj (Option.some.inj installs)
      obtain ⟨fails, _⟩ | ⟨base, unpacked, extracts, _, _⟩ := extractPackage_cases aside names rfl
      · exact absurd returns fails
      · have isSpec := matching returns base unpacked extracts
        rw [run_extractPackage extracts] at returns
        refine ⟨⟨names.package, names.version⟩, ?_⟩
        rw [disk_extractPackage, run_extractPackage extracts, packageSpecAt_of_placed names returns, isSpec]
    · cases installs
  | removePackage | taskRemovePackage => cases installs

theorem sound_step (sound : Sound library env store) (inPlace : StaysInPlace library env store request)
    (matching : ExtractsMatching library env store request) : Sound library env (step library env store request) := by
  have names (name version : String) (isInstalled : (name, version) ∈ (step library env store request).installed) :
      Path.IsName name ∧ Path.IsName version := by
    rcases (mem_installed_step.mp isInstalled).1 with installs | wasInstalled
    · exact (installs_step inPlace matching installs).1
    · exact sound.names name version wasInstalled
  refine ⟨names, fun name version isInstalled => ?_, fun name version isInstalled => ?_⟩
  · obtain ⟨isName, isVersion⟩ := names name version isInstalled
    rw [← leadsTo_destPath isName isVersion, ← isOn_of_plain (isPlain_destPath isName isVersion)]
    exact (mem_installed_step.mp isInstalled).2
  · rcases (mem_installed_step.mp isInstalled).1 with installs | wasInstalled
    · exact fun _ => (installs_step inPlace matching installs).2
    · exact matches_step inPlace (sound.areSame name version wasInstalled) (sound.present name version wasInstalled)

/-- What has been extracted successfully is installed, and so has to match. -/
theorem extractsMatching_of_specsMatch (inPlace : StaysInPlace library env store request)
    (matching : SpecsMatch library env (step library env store request)) : ExtractsMatching library env store request := by
  obtain ⟨request, outcomes⟩ := request
  cases request with
  | extractPackage spec archive tmpPath =>
    intro returns base unpacked extracts
    obtain ⟨aside, names⟩ := inPlace
    have installs : (PackageOperation.extractPackage spec archive tmpPath).installs env outcomes store.disk =
        some (spec.package, spec.version) := by
      rw [PackageOperation.installs, returns]
    rw [run_extractPackage extracts] at returns
    -- It counts as installed only because the base that has been moved is there.
    have isSpec := matching spec.package spec.version (mem_installed_step.mpr ⟨.inl installs, ?_⟩)
    · rwa [leadsTo_destPath names.package names.version, disk_extractPackage, run_extractPackage extracts,
        packageSpecAt_of_placed names returns] at isSpec
    · rw [isOn_of_plain (isPlain_destPath names.package names.version), leadsTo_destPath names.package names.version,
        disk_extractPackage, run_extractPackage extracts]
      exact hasEntry_of_placed names returns
  | addPackage | removePackage | taskRemovePackage => trivial

def specYaml (name version arch : String) : Yaml :=
  .map [("name", .scalar name), ("version", .scalar version), ("arch", .scalar arch)]

def twoFiles : YamlLibrary where
  loadFile content :=
    if content = "name: nav\nversion: 1.0\narch: x86_64" then some (specYaml "nav" "1.0" "x86_64")
    else if content = "name: radar\nversion: 2.0\narch: arm64" then some (specYaml "radar" "2.0" "arm64")
    else none
  what _ := "bad file"

/-- An archive with this `package.yaml` is extracted as version 1.0 of "nav". -/
def extractAsNav (packageYaml : String) : PackageRequest × Outcomes :=
  (.extractPackage ⟨"nav", "1.0", "x86_64"⟩ (some [.file "package.yaml" (some packageYaml)]) ["tmp", "unpack"], fun _ _ => {})

def thenRemoveNav : PackageRequest × Outcomes := (.removePackage "nav" "1.0", fun _ _ => {})

theorem unpacksAside_package (content : String) :
    UnpacksAside navStore (some [.file "package.yaml" (some content)]) ["tmp", "unpack"] := by
  refine ⟨⟨by decide, by decide⟩, fun entry member => ?_⟩
  obtain rfl := List.mem_singleton.mp member
  refine ⟨fun station isStation inTree => ?_, fun _ inTree => absurd (packagesPath_isPrefix inTree) (by decide)⟩
  obtain rfl := List.mem_singleton.mp isStation
  exact absurd (packagesPath_isPrefix inTree) (by decide)

end InstalledPackages

end StoreManager

end AbilityFramework.ResourceMgr
