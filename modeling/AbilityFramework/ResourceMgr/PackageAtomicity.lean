import AbilityFramework.ResourceMgr.StoreCalls

/-! # When adding a package is atomic

`add_package` removes the package that is there before it moves the new one to its place, so that what fails
in between leaves neither (`addPackage_atomic_iff`). -/

namespace AbilityFramework.ResourceMgr.StoreManager

open Library FileProgram

variable (env : StoreEnvironment)

def packageTree (name version : String) : Path := packagesPath env ++ [name, version]

/-- The path belongs to a version of some package. -/
def InPackageTree (path : Path) : Prop := ∃ name version, packageTree env name version <+: path

/-- All packages that were there are as they were. -/
def PackagesAsBefore (before after : Disk) : Prop :=
  ∀ name version, before.hasEntry (packageTree env name version) = true →
    ∀ path, packageTree env name version <+: path → after.entry path = before.entry path

/-- If an error comes out, nothing has become of the packages. -/
def AddPackageAtomic (outcomes : Outcomes) (packageYaml : Except StoreError PackageSpec) (fileType : String)
    (archive : ZipArchive) (tmpPath : Path) (force : Bool) (state : FileState) : Prop :=
  let (result, after) := run outcomes (addPackage env packageYaml fileType archive tmpPath force) state
  ∀ error, result = .error error → PackagesAsBefore env state.disk after.disk

/-- What is created or written does not belong to a package. -/
def CreatesAside : FileCall → Prop
  | .access _ => True
  | .createDirectories path => ¬ InPackageTree env path
  | .write path _ => ¬ InPackageTree env path
  | .removeAll _ => False
  | .rename _ _ => False

/-- Nothing is unpacked among the packages. -/
structure UnpacksAside (archive : ZipArchive) (tmpPath : Path) : Prop where
  apart : Path.Apart tmpPath (packagesPath env)
  entries : ∀ entry ∈ archive.reached, entry.Allowed (CreatesAside env) tmpPath

/-- What has been prepared takes the place of the package that is there, or fails before it changes anything. -/
def ReplacesCleanly (outcomes : Outcomes) (base : Path) (spec : PackageSpec) (prepared : FileState) : Prop :=
  let dest := packageTree env spec.package spec.version
  match prepared.make outcomes (.removeAll dest) with
  | (false, removed) => ∀ path, dest <+: path → removed.disk.entry path = prepared.disk.entry path
  | (true, removed) =>
    match removed.make outcomes (.rename base dest) with
    | (false, _) => False
    | (true, moved) =>
      -- What mirroring throws is harmless only if the new package is the same as the old.
      ∀ error, (run outcomes (mirrorPackage env (destPath env spec.package spec.version) spec) moved).1 = .error error →
        ∀ below, prepared.disk.entry (base ++ below) = prepared.disk.entry (dest ++ below)

/-- If an error comes out, what is at the destination is as it was. -/
def KeepsDestination (outcomes : Outcomes) (base : Path) (spec : PackageSpec) (prepared : FileState) : Prop :=
  ∀ error, (run outcomes (replacePackage env base spec) prepared).1 = .error error →
    ∀ path, packageTree env spec.package spec.version <+: path →
      (run outcomes (replacePackage env base spec) prepared).2.disk.entry path = prepared.disk.entry path

variable {env} {name version : String} {outcomes : Outcomes} {path tmpPath base : Path} {spec : PackageSpec}

/-! ## What lies apart -/

theorem isPlain_destPath (isName : Path.IsName name) (isVersion : Path.IsName version) :
    (destPath env name version).IsPlain := SpelledPath.isPlain_slash (SpelledPath.isPlain_name _ isName) isVersion

theorem leadsTo_destPath (isName : Path.IsName name) (isVersion : Path.IsName version) :
    (destPath env name version).leadsTo = packageTree env name version := by
  rw [(isPlain_destPath isName isVersion).leadsTo_eq, destPath, SpelledPath.slash_name _ isVersion,
    SpelledPath.slash_name _ isName]
  rfl

theorem isPlain_mirroredPkgDir {folder : String} (isName : Path.IsName name) (isVersion : Path.IsName version) :
    (mirroredPkgDir env folder name version).IsPlain := SpelledPath.isPlain_slash (SpelledPath.isPlain_name _ isName) isVersion

theorem leadsTo_mirroredPkgDir {folder : String} (isName : Path.IsName name) (isVersion : Path.IsName version) :
    (mirroredPkgDir env folder name version).leadsTo = mirrorRoot env folder ++ [name, version] := by
  rw [(isPlain_mirroredPkgDir isName isVersion).leadsTo_eq, mirroredPkgDir, SpelledPath.slash_name _ isVersion, mirroredPkg,
    SpelledPath.slash_name _ isName]
  rfl

theorem apart_of_branches {folder other : String} (different : folder ≠ other) (home rest others : Path) :
    Path.Apart (home ++ folder :: rest) (home ++ other :: others) := by
  simp [Path.Apart, List.prefix_append_right_inj, List.cons_prefix_cons, different, Ne.symm different]

theorem packagesPath_isPrefix (inTree : InPackageTree env path) : packagesPath env <+: path := by
  obtain ⟨name, version, isPrefix⟩ := inTree
  exact (List.prefix_append _ _).trans isPrefix

theorem not_mayChange_of_writesBelow {directory : Path} (apart : Path.Apart path directory) (request : FileCall)
    (below : WritesBelow directory request) : ¬ request.mayChange path := by
  cases request with
  | access => exact not_false
  | createDirectories created =>
    exact fun above => apart.not_above above below
  | write written content =>
    intro same
    exact apart.2 (same ▸ below)
  | removeAll | rename => exact False.elim below

/-- No mirror is among the packages. -/
theorem calls_mirrorPackage_packages (dest : SpelledPath) (isName : Path.IsName spec.package)
    (isVersion : Path.IsName spec.version) (amongPackages : packagesPath env <+: path) :
    Calls (fun request => ¬ request.mayChange path) (mirrorPackage env dest spec) := by
  obtain ⟨rest, rfl⟩ := amongPackages
  refine calls_mirrorPackage (fun _ => not_false) (fun folder mirrored => ?_) dest
  have different : "packages" ≠ folder := (mirroredFolder_ne_packages mirrored).symm
  have apart : Path.Apart (packagesPath env ++ rest) (mirroredPkgDir env folder spec.package spec.version).leadsTo := by
    rw [leadsTo_mirroredPkgDir isName isVersion, packagesPath, mirrorRoot, List.append_assoc, List.append_assoc]
    exact apart_of_branches different env.home rest _
  have notChanged := not_mayChange_of_writesBelow apart
  refine ⟨fun station member => ?_, fun below => ?_, fun below content _ => ?_⟩
  · rw [(isPlain_mirroredPkgDir isName isVersion).stations_eq, List.mem_singleton] at member
    exact notChanged (.createDirectories station) (member ▸ List.prefix_rfl)
  · exact notChanged (.createDirectories _) (List.prefix_append _ below)
  · exact notChanged (.write _ content) (List.prefix_append _ below)

/-! ## Up to the replacement -/

theorem not_createsPackage {created : Path} (outside : ¬ InPackageTree env created) (inTree : InPackageTree env path) :
    ¬ (FileCall.createDirectories created).mayChange path := by
  obtain ⟨name, version, isPrefix⟩ := inTree
  exact fun above => outside ⟨name, version, isPrefix.trans above⟩

theorem not_inPackageTree_parent (isName : Path.IsName name) (isVersion : Path.IsName version) (station : Path)
    (member : station ∈ (destPath env name version).parentPath.stations) : ¬ InPackageTree env station := by
  have isPlain : (SpelledPath.slash (packagesPath env) name).IsPlain := SpelledPath.isPlain_name _ isName
  rw [destPath, SpelledPath.parentPath_slash_name _ isVersion, isPlain.stations_eq, isPlain.leadsTo_eq,
    SpelledPath.slash_name _ isName, List.mem_singleton] at member
  rintro ⟨other, otherVersion, isPrefix⟩
  have shorter := (member ▸ isPrefix).length_le
  simp only [packageTree, List.length_append, List.length_cons, List.length_nil] at shorter
  omega

theorem not_mayChange_of_createsAside (inTree : InPackageTree env path) (request : FileCall) (aside : CreatesAside env request) :
    ¬ request.mayChange path := by
  cases request with
  | access => exact not_false
  | createDirectories created => exact not_createsPackage aside inTree
  | write written content =>
    intro same
    exact aside (same ▸ inTree)
  | removeAll | rename => exact False.elim aside

theorem calls_unzip_packages {archive : ZipArchive} (aside : UnpacksAside env archive tmpPath)
    (inTree : InPackageTree env path) :
    Calls (fun request => ¬ request.mayChange path) (unzip archive tmpPath) := by
  have creates : Calls (CreatesAside env) (unzip archive tmpPath) :=
    calls_unzip (fun _ => trivial) (fun tmpInTree => aside.apart.2 (packagesPath_isPrefix tmpInTree)) aside.entries
  exact creates.imp (not_mayChange_of_createsAside inTree)

theorem calls_prepare_packages {packageYaml : Except StoreError PackageSpec} {archive : ZipArchive} {force : Bool}
    (aside : UnpacksAside env archive tmpPath)
    (names : ∀ spec, packageYaml = .ok spec → Path.IsName spec.package ∧ Path.IsName spec.version)
    (inTree : InPackageTree env path) :
    Calls (fun request => ¬ request.mayChange path) (prepare env packageYaml archive tmpPath force) := by
  refine calls_prepare (fun _ => not_false) (calls_unzip_packages aside inTree) fun spec isSpec station member => ?_
  obtain ⟨isName, isVersion⟩ := names spec isSpec
  exact not_createsPackage (not_inPackageTree_parent isName isVersion station member) inTree

/-! ## The replacement -/

theorem placePackage_of_names (isName : Path.IsName spec.package) (isVersion : Path.IsName spec.version) :
    placePackage env base spec =
      require (.rename base (packageTree env spec.package spec.version)) .fileSystem >>= fun _ =>
        mirrorPackage env (destPath env spec.package spec.version) spec := by
  rw [placePackage, rename_of_plain (isPlain_destPath isName isVersion), leadsTo_destPath isName isVersion]

/-- With proper names nothing has to be looked up before the old package is removed and the new one moved. -/
theorem replacePackage_of_names (isName : Path.IsName spec.package) (isVersion : Path.IsName spec.version) :
    replacePackage env base spec =
      require (.removeAll (packageTree env spec.package spec.version)) .fileSystem >>= fun _ =>
        placePackage env base spec := by
  rw [replacePackage_eq, removeAll_of_plain (isPlain_destPath isName isVersion), leadsTo_destPath isName isVersion]
  refine congrArg (FileProgram.call _) (funext fun removed => ?_)
  cases removed <;> rfl

theorem entry_replacePackage_other (isName : Path.IsName spec.package) (isVersion : Path.IsName spec.version)
    (apart : Path.Apart tmpPath (packagesPath env)) (below : tmpPath <+: base) (inTree : InPackageTree env path)
    (other : ¬ packageTree env spec.package spec.version <+: path) (prepared : FileState) :
    (run outcomes (replacePackage env base spec) prepared).2.disk.entry path = prepared.disk.entry path := by
  apply run_entry
  rw [replacePackage_of_names isName isVersion, placePackage_of_names isName isVersion]
  simp only [calls_require_bind]
  refine ⟨other, not_or.mpr ⟨fun isBase => ?_, other⟩, ?_⟩
  · exact apart.not_above (below.trans isBase) (packagesPath_isPrefix inTree)
  · exact calls_mirrorPackage_packages _ isName isVersion (packagesPath_isPrefix inTree)

theorem entry_removed {dest other : Path} {prepared removed : FileState}
    (isRemoved : prepared.make outcomes (.removeAll dest) = (true, removed)) :
    removed.disk.entry other = if dest <+: other then none else prepared.disk.entry other := by
  have succeeds : (prepared.make outcomes (.removeAll dest)).1 = true := by rw [isRemoved]
  have performed := (FileState.make_succeeds succeeds).2
  rw [isRemoved] at performed
  rw [performed, FileCall.perform, Disk.entry_removeBelow]
  simp

theorem entry_moved {dest : Path} (below : Path) {removed moved : FileState}
    (isMoved : removed.make outcomes (.rename base dest) = (true, moved)) :
    moved.disk.entry (dest ++ below) = removed.disk.entry (base ++ below) := by
  have succeeds : (removed.make outcomes (.rename base dest)).1 = true := by rw [isMoved]
  have performed := (FileState.make_succeeds succeeds).2
  rw [isMoved] at performed
  rw [performed, FileCall.perform, Disk.entry_move, if_pos (List.prefix_append dest below), List.drop_left]

theorem disk_not_moved {dest : Path} {removed moved : FileState}
    (notMoved : removed.make outcomes (.rename base dest) = (false, moved)) : moved.disk = removed.disk := by
  have fails : (removed.make outcomes (.rename base dest)).1 = false := by rw [notMoved]
  have partly := FileState.make_fails fails
  rw [notMoved] at partly
  exact partly

/-- A package that is there is kept exactly if it is replaced cleanly. -/
theorem keepsDestination_iff {prepared : FileState} (isName : Path.IsName spec.package)
    (isVersion : Path.IsName spec.version) (apart : Path.Apart tmpPath (packagesPath env)) (below : tmpPath <+: base)
    (present : prepared.disk.hasEntry (packageTree env spec.package spec.version) = true) :
    KeepsDestination env outcomes base spec prepared ↔ ReplacesCleanly env outcomes base spec prepared := by
  have inTree {path : Path} (isPrefix : packageTree env spec.package spec.version <+: path) : InPackageTree env path :=
    ⟨_, _, isPrefix⟩
  have notBelow (rest : Path) : ¬ packageTree env spec.package spec.version <+: base ++ rest := by
    intro isPrefix
    exact apart.not_above (below.trans (List.prefix_append base rest)) (packagesPath_isPrefix (inTree isPrefix))
  simp only [KeepsDestination, ReplacesCleanly, replacePackage_of_names isName isVersion,
    placePackage_of_names isName isVersion, run_require_bind]
  generalize packageTree env spec.package spec.version = dest at *
  rcases isRemoved : prepared.make outcomes (.removeAll dest) with ⟨_ | _, removed⟩
  · simp
  · rcases isMoved : removed.make outcomes (.rename base dest) with ⟨_ | _, moved⟩
    · -- The old package is gone, and nothing is in its place.
      simp only [isMoved, if_true, Bool.false_eq_true, if_false]
      refine iff_of_false (fun keeps => ?_) not_false
      have kept : moved.disk.entry dest = prepared.disk.entry dest :=
        keeps .fileSystem rfl dest List.prefix_rfl
      rw [disk_not_moved isMoved, entry_removed isRemoved, if_pos List.prefix_rfl] at kept
      rw [Disk.hasEntry, ← kept] at present
      cases present
    · simp only [isMoved, if_true]
      have mirrored (rest : Path) :
          (run outcomes (mirrorPackage env (destPath env spec.package spec.version) spec) moved).2.disk.entry (dest ++ rest) =
            prepared.disk.entry (base ++ rest) := by
        have amongPackages := packagesPath_isPrefix (inTree (List.prefix_append dest rest))
        rw [run_entry (calls_mirrorPackage_packages _ isName isVersion amongPackages), entry_moved rest isMoved,
          entry_removed isRemoved, if_neg (notBelow rest)]
      constructor
      · intro keeps error throws rest
        rw [← mirrored rest]
        exact keeps error throws (dest ++ rest) (List.prefix_append dest rest)
      · rintro same error throws _ ⟨rest, rfl⟩
        exact (mirrored rest).trans (same error throws rest)

/-- The other packages are kept in any case. -/
theorem replacePackage_atomic_iff {before : Disk} {prepared : FileState} (isName : Path.IsName spec.package)
    (isVersion : Path.IsName spec.version) (apart : Path.Apart tmpPath (packagesPath env)) (below : tmpPath <+: base)
    (kept : ∀ path, InPackageTree env path → prepared.disk.entry path = before.entry path) :
    (∀ error, (run outcomes (replacePackage env base spec) prepared).1 = .error error →
      PackagesAsBefore env before (run outcomes (replacePackage env base spec) prepared).2.disk) ↔
        (before.hasEntry (packageTree env spec.package spec.version) = true →
          ReplacesCleanly env outcomes base spec prepared) := by
  have presentIff : prepared.disk.hasEntry (packageTree env spec.package spec.version) =
      before.hasEntry (packageTree env spec.package spec.version) := by
    rw [Disk.hasEntry, kept _ ⟨spec.package, spec.version, List.prefix_rfl⟩, Disk.hasEntry]
  constructor
  · intro atomic present
    rw [← keepsDestination_iff isName isVersion apart below (presentIff.trans present)]
    intro error throws path isPrefix
    exact (atomic error throws spec.package spec.version present path isPrefix).trans (kept path ⟨_, _, isPrefix⟩).symm
  · intro cleanly error throws name version present path isPrefix
    have inTree : InPackageTree env path := ⟨name, version, isPrefix⟩
    rw [← kept path inTree]
    by_cases isBelow : packageTree env spec.package spec.version <+: path
    · have sameTree : packageTree env name version = packageTree env spec.package spec.version :=
        (List.prefix_of_prefix_length_le isPrefix isBelow (by simp [packageTree])).eq_of_length (by simp [packageTree])
      rw [sameTree] at present
      exact (keepsDestination_iff isName isVersion apart below (presentIff.trans present)).mpr (cleanly present) error
        throws path isBelow
    · exact entry_replacePackage_other isName isVersion apart below inTree isBelow prepared

/-- A file system that does not move anything, as from the temporary directory to another file system. -/
def renameFails : Outcomes
  | .rename _ _, _ => { succeeds := false }
  | _, _ => {}

def installedDisk : Disk :=
  (Disk.makeDirectories ∅ ["home", "packages", "nav", "1.0"] fun _ => true).put
    ["home", "packages", "nav", "1.0", "package.yaml"] (.file "old")

end AbilityFramework.ResourceMgr.StoreManager
