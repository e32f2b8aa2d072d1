import AbilityFramework.Library.CleanRuns
import AbilityFramework.Library.Runs
import AbilityFramework.ResourceMgr.PackageAtomicity

/-! # When the mirrors are exact

The CRs and skills of a package are copied over what is mirrored already, and the uninstall task removes a
package without its mirrors.  Mirrors stay exact as long as nothing that is mirrored has to go for either
(`mirrors_exact`). -/

namespace AbilityFramework.ResourceMgr.StoreManager

open Library FileProgram

variable (env : StoreEnvironment)

/-- The mirrored files of every version of every package are those of the package, if it is installed. -/
def MirrorsExact (disk : Disk) : Prop :=
  ∀ folder ∈ mirroredFolders, ∀ name version below, below ≠ [] →
    disk.fileAt (mirrorRoot env folder ++ name :: version :: below) =
      if disk.hasEntry (packageTree env name version) then disk.fileAt (packageTree env name version ++ folder :: below)
      else none

inductive PackageOperation where
  /-- With what `read_package_spec_from_yaml` makes of the `package.yaml` that is found. -/
  | addPackage (packageYaml : Except StoreError PackageSpec) (fileType : String) (archive : ZipArchive) (tmpPath : Path)
    (force : Bool)
  | extractPackage (spec : PackageSpec) (archive : ZipArchive) (tmpPath : Path)
  | removePackage (package version : String)
  | taskRemovePackage (package version : String)

def PackageOperation.program : PackageOperation → StoreProgram Unit
  | addPackage packageYaml fileType archive tmpPath force => do
    let _ ← StoreManager.addPackage env packageYaml fileType archive tmpPath force
  | extractPackage spec archive tmpPath => StoreManager.extractPackage env spec archive tmpPath
  | removePackage package version => do
    let _ ← StoreManager.removePackage env package version
  | taskRemovePackage package version => StoreManager.taskRemovePackage env package version

/-- An operation, and how the file system answers its calls. -/
abbrev PackageEvent := PackageOperation × Outcomes

def operate (disk : Disk) (event : PackageEvent) : Disk := (run event.2 (event.1.program env) ⟨disk, []⟩).2.disk

/-- Every call of the operation succeeds. -/
def WithoutErrors (disk : Disk) (event : PackageEvent) : Prop :=
  ∀ made ∈ (run event.2 (event.1.program env) ⟨disk, []⟩).2.calls, made.2 = true

/-- The archive is unpacked into its temporary directory, which is beside the packages and the mirrors. -/
structure UnpacksBelow (archive : ZipArchive) (tmpPath : Path) : Prop where
  entries : ∀ entry ∈ archive.reached, entry.StaysBelow tmpPath
  packages : Path.Apart tmpPath (packagesPath env)
  mirrors : ∀ folder ∈ mirroredFolders, Path.Apart tmpPath (mirrorRoot env folder)

structure HasNames (spec : PackageSpec) : Prop where
  package : Path.IsName spec.package
  version : Path.IsName spec.version

/-- Nothing that is mirrored would have to go without being removed. -/
def LeavesNothingStale (disk : Disk) : PackageOperation → Prop
  | .addPackage packageYaml _ archive tmpPath force =>
    UnpacksBelow env archive tmpPath ∧ ∀ spec base prepared,
      cleanly (prepare env packageYaml archive tmpPath force) disk = some (.ok (spec, some base), prepared) →
        HasNames spec ∧
        -- The package keeps the paths of the one that it replaces.
        ∀ folder ∈ mirroredFolders, ∀ below ≠ [],
          (disk.fileAt (packageTree env spec.package spec.version ++ folder :: below)).isSome = true →
            (prepared.fileAt (base ++ folder :: below)).isSome = true
  | .extractPackage spec archive tmpPath => UnpacksBelow env archive tmpPath ∧ HasNames spec
  | .removePackage package version => Path.IsName package ∧ (version = "" ∨ Path.IsName version)
  | .taskRemovePackage package version =>
    Path.IsName package ∧ (version = "" ∨ Path.IsName version) ∧
      -- What is uninstalled has nothing that is mirrored.
      ∀ folder ∈ mirroredFolders, ∀ other below, below ≠ [] → (version = "" ∨ other = version) →
        disk.fileAt (packageTree env package other ++ folder :: below) = none

variable {env} {disk after : Disk} {name version folder : String} {path tmpPath base : Path} {α β : Type}

/-! ## Look-ups -/

@[simp] theorem cleanly_lookUp_bind (path : SpelledPath) (get : Disk → α) (next : α → StoreProgram β) (disk : Disk) :
    cleanly (lookUp path get >>= next) disk = cleanly (next (get disk)) disk := rfl

@[simp] theorem cleanly_hasEntry_bind (path : SpelledPath) (next : Bool → StoreProgram β) (disk : Disk) :
    cleanly (hasEntry path >>= next) disk = cleanly (next (isOn path disk)) disk := rfl

theorem cleanly_locate_bind (path : SpelledPath) (next : Option Path → StoreProgram β) (disk : Disk) :
    cleanly (locate path path.seen >>= next) disk = cleanly (next (foundOn path disk)) disk := by
  rw [locate]
  split
  · rename_i isPlain
    rw [foundOn_of_plain isPlain, pure_bind]
  · rfl

theorem cleanly_removeAll_bind {path : SpelledPath} {place : Path} (found : foundOn path disk = some place)
    (down : path.endsInDots = false) (next : Bool → StoreProgram β) :
    cleanly (removeAll path >>= next) disk = cleanly (next true) (disk.removeBelow place fun _ => true) := by
  rw [removeAll, bind_assoc, cleanly_locate_bind, found, down]
  rfl

theorem filesBelow_iff {below : Path} {content : String} :
    (below, content) ∈ filesBelow path disk ↔ below ≠ [] ∧ disk.fileAt (path ++ below) = some content := by
  rw [filesBelow, List.mem_filterMap, Disk.fileAt_eq_some, Disk.entry_eq_some]
  constructor
  · rintro ⟨⟨file, _ | written⟩, member, found⟩
    · cases found
    · simp only [Option.ite_none_right_eq_some, Option.some.injEq, Prod.mk.injEq] at found
      obtain ⟨⟨⟨rest, rfl⟩, different⟩, rfl, rfl⟩ := found
      rw [List.drop_left]
      exact ⟨fun same => different (by rw [same, List.append_nil]), member⟩
  · rintro ⟨nonempty, member⟩
    exact ⟨(path ++ below, .file content), member, by simp [nonempty]⟩

/-! ## Copies -/

theorem fileAt_copyFiles_other {destDir : Path} {count : Nat} {files : List (Path × String)} {result : Except StoreError Nat}
    (notCopied : ∀ file ∈ files, path ≠ destDir ++ file.1)
    (runs : cleanly (copyFiles destDir count files) disk = some (result, after)) : after.fileAt path = disk.fileAt path := by
  refine fileAt_cleanly ?_ runs
  clear runs
  induction files generalizing count with
  | nil => trivial
  | cons file files inductionHypothesis =>
    obtain ⟨notFirst, notLater⟩ := List.forall_mem_cons.mp notCopied
    rw [copyFiles, calls_require_bind, calls_attempt_bind]
    refine ⟨trivial, trivial, fun _ => ?_⟩
    rw [calls_attempt_bind]
    exact ⟨notFirst.symm, fun _ => inductionHypothesis notLater⟩

theorem fileAt_copyFiles {destDir below : Path} {content : String} {count : Nat} {files : List (Path × String)}
    {result : Except StoreError Nat} (member : (below, content) ∈ files)
    (functional : ∀ other, (below, other) ∈ files → other = content)
    (runs : cleanly (copyFiles destDir count files) disk = some (result, after)) :
    after.fileAt (destDir ++ below) = some content := by
  induction files generalizing count disk with
  | nil => cases member
  | cons file files inductionHypothesis =>
    rw [copyFiles, cleanly_require_bind] at runs
    simp only [FileCall.feasible, FileCall.perform, if_true, cleanly_attempt_bind] at runs
    split at runs
    · split at runs
      · by_cases later : ∃ other, (below, other) ∈ files
        · obtain ⟨other, isLater⟩ := later
          obtain rfl := functional other (List.mem_cons_of_mem file isLater)
          exact inductionHypothesis isLater (fun other member => functional other (List.mem_cons_of_mem file member)) runs
        · -- The last file of this path.
          have isFirst := (List.mem_cons.mp member).resolve_right fun isLater => later ⟨content, isLater⟩
          rw [fileAt_copyFiles_other ?_ runs, ← isFirst, Disk.fileAt_put, if_pos rfl]
          intro file isLater same
          exact later ⟨file.2, List.append_cancel_left same ▸ isLater⟩
      · cases runs
    · cases runs

theorem cleanly_copyFiles_ok {destDir : Path} {count : Nat} {files : List (Path × String)} {result : Except StoreError Nat}
    (runs : cleanly (copyFiles destDir count files) disk = some (result, after)) : ∃ copied, result = .ok copied := by
  induction files generalizing count disk with
  | nil =>
    obtain ⟨rfl, -⟩ := Prod.mk.inj (Option.some.inj runs)
    exact ⟨count, rfl⟩
  | cons file files inductionHypothesis =>
    rw [copyFiles, cleanly_require_bind] at runs
    simp only [FileCall.feasible, FileCall.perform, if_true, cleanly_attempt_bind] at runs
    split at runs
    · split at runs
      · exact inductionHypothesis runs
      · cases runs
    · cases runs

/-- What is mirrored is a folder that is there; its files are looked up once there is a directory for them. -/
theorem mirrorFolder_cases {result : Except StoreError Nat} (isName : Path.IsName name) (isVersion : Path.IsName version)
    (mirrored : folder ∈ mirroredFolders)
    (runs : cleanly (mirrorFolder env folder (destPath env name version) name version) disk = some (result, after)) :
    (disk.isDirectory (packageTree env name version ++ [folder]) = false ∧ result = .ok 0 ∧ after = disk) ∨
      ∃ made, (∀ path, made.fileAt path = disk.fileAt path) ∧
        cleanly (copyFiles (mirrorRoot env folder ++ [name, version]) 0
          (filesBelow (packageTree env name version ++ [folder]) made)) made = some (result, after) := by
  have isFolder : Path.IsName folder := isName_mirroredFolder mirrored
  have isPlain : ((destPath env name version).slash folder).IsPlain :=
    SpelledPath.isPlain_slash (isPlain_destPath isName isVersion) isFolder
  have leads : ((destPath env name version).slash folder).leadsTo = packageTree env name version ++ [folder] := by
    rw [isPlain.leadsTo_eq, SpelledPath.slash_name _ isFolder, ← leadsTo_destPath isName isVersion,
      (isPlain_destPath isName isVersion).leadsTo_eq, List.append_assoc]
  rw [mirrorFolder, cleanly_hasEntry_bind, isOn_of_plain isPlain, leads] at runs
  simp only [StoreManager.isDirectory, foundOn_of_plain isPlain, leads, Option.any_some,
    attemptDirectories_of_plain (isPlain_mirroredPkgDir isName isVersion), leadsTo_mirroredPkgDir isName isVersion] at runs
  by_cases isDirectory : disk.isDirectory (packageTree env name version ++ [folder]) = true
  · simp only [Disk.hasEntry_of_isDirectory isDirectory, Bool.not_true, Bool.false_eq_true, if_false,
      cleanly_lookUp_bind, isDirectory, cleanly_attempt_bind] at runs
    split at runs
    · refine .inr ⟨disk.makeDirectories (mirrorRoot env folder ++ [name, version]) fun _ => true, ?_, runs⟩
      exact Disk.fileAt_makeDirectories _
    · cases runs
  · rw [Bool.not_eq_true] at isDirectory
    refine .inl ⟨isDirectory, ?_⟩
    cases present : disk.hasEntry (packageTree env name version ++ [folder]) <;>
      simp only [present, Bool.not_false, Bool.not_true, Bool.false_eq_true, if_false, if_true,
        cleanly_lookUp_bind, isDirectory] at runs <;>
      obtain ⟨rfl, rfl⟩ := Prod.mk.inj (Option.some.inj runs) <;> exact ⟨rfl, rfl⟩

theorem cleanly_mirrorFolder_ok {result : Except StoreError Nat} (isName : Path.IsName name) (isVersion : Path.IsName version)
    (mirrored : folder ∈ mirroredFolders)
    (runs : cleanly (mirrorFolder env folder (destPath env name version) name version) disk = some (result, after)) :
    ∃ copied, result = .ok copied := by
  rcases mirrorFolder_cases isName isVersion mirrored runs with ⟨_, rfl, _⟩ | ⟨made, _, copies⟩
  · exact ⟨0, rfl⟩
  · exact cleanly_copyFiles_ok copies

/-- After a folder has been mirrored, its files are in the mirror beside those that were there. -/
theorem fileAt_mirrorFolder {below : Path} {result : Except StoreError Nat} (closed : disk.Closed) (nonempty : below ≠ [])
    (isName : Path.IsName name) (isVersion : Path.IsName version) (mirrored : folder ∈ mirroredFolders)
    (runs : cleanly (mirrorFolder env folder (destPath env name version) name version) disk = some (result, after)) :
    after.fileAt (mirrorRoot env folder ++ name :: version :: below) =
      (disk.fileAt (packageTree env name version ++ folder :: below)).or
        (disk.fileAt (mirrorRoot env folder ++ name :: version :: below)) := by
  have sameFile : packageTree env name version ++ folder :: below = (packageTree env name version ++ [folder]) ++ below := by
    simp
  have sameMirror : mirrorRoot env folder ++ name :: version :: below = (mirrorRoot env folder ++ [name, version]) ++ below := by
    simp
  rw [sameFile, sameMirror]
  rcases mirrorFolder_cases isName isVersion mirrored runs with ⟨noDirectory, -, rfl⟩ | ⟨made, sameFiles, copies⟩
  · rw [Disk.fileAt_below_none closed nonempty noDirectory, Option.none_or]
  · cases isFile : disk.fileAt (packageTree env name version ++ [folder] ++ below) with
    | some content =>
      refine fileAt_copyFiles (filesBelow_iff.mpr ⟨nonempty, (sameFiles _).trans isFile⟩) (fun other member => ?_) copies
      have found := (filesBelow_iff.mp member).2
      rw [sameFiles, isFile] at found
      exact (Option.some.inj found).symm
    | none =>
      refine (fileAt_copyFiles_other (fun file member same => ?_) copies).trans (sameFiles _)
      have found := (filesBelow_iff.mp (Prod.eta file ▸ member)).2
      rw [sameFiles, ← List.append_cancel_left same, isFile] at found
      cases found

/-! ## What is mirrored where -/

theorem leavesFile_of_writesBelow {directory : Path} (outside : ¬ directory <+: path) (request : FileCall)
    (below : WritesBelow directory request) : request.LeavesFile path := by
  cases request with
  | access | createDirectories => trivial
  | write written content =>
    rintro rfl
    exact outside below
  | removeAll | rename => exact False.elim below

theorem fileAt_mirrorFolder_other {dest : SpelledPath} {result : Except StoreError Nat} (isName : Path.IsName name)
    (isVersion : Path.IsName version) (outside : ¬ mirrorRoot env folder ++ [name, version] <+: path)
    (runs : cleanly (mirrorFolder env folder dest name version) disk = some (result, after)) :
    after.fileAt path = disk.fileAt path := by
  refine fileAt_cleanly (calls_mirrorFolder (fun _ => trivial) ⟨fun _ _ => trivial, fun _ => trivial, ?_⟩ dest) runs
  intro rest content _
  rw [leadsTo_mirroredPkgDir isName isVersion]
  exact leavesFile_of_writesBelow outside (.write _ content) (List.prefix_append _ rest)

theorem mirror_prefix_mirror {other : String} (above below : Path) :
    mirrorRoot env folder ++ above <+: mirrorRoot env other ++ below ↔ folder = other ∧ above <+: below := by
  rw [mirrorRoot, mirrorRoot, List.append_assoc, List.append_assoc, List.prefix_append_right_inj]
  simp [List.cons_prefix_cons]

theorem mirror_not_prefix_packages (mirrored : folder ∈ mirroredFolders) (above below : Path) :
    ¬ mirrorRoot env folder ++ above <+: packagesPath env ++ below := by
  rw [packagesPath, mirrorRoot, List.append_assoc, List.append_assoc, List.prefix_append_right_inj]
  simp [List.cons_prefix_cons, mirroredFolder_ne_packages mirrored]

theorem mirror_isPrefix {other otherName otherVersion : String} (below : Path) :
    mirrorRoot env folder ++ [name, version] <+: mirrorRoot env other ++ otherName :: otherVersion :: below ↔
      folder = other ∧ name = otherName ∧ version = otherVersion := by
  rw [mirror_prefix_mirror]
  simp [List.cons_prefix_cons]

variable {spec : PackageSpec} {result : Except StoreError Unit}

theorem mirrorPackage_cases (names : HasNames spec)
    (runs : cleanly (mirrorPackage env (destPath env spec.package spec.version) spec) disk = some (result, after)) :
    ∃ copied between, cleanly (mirrorFolder env "crs" (destPath env spec.package spec.version) spec.package spec.version) disk =
        some (.ok copied, between) ∧
      ∃ copied, cleanly (mirrorFolder env "skills" (destPath env spec.package spec.version) spec.package spec.version) between =
        some (.ok copied, after) := by
  rw [mirrorPackage, mirrorPackageCrs, cleanly_bind] at runs
  split at runs
  · rename_i copied between mirrorsCrs
    refine ⟨copied, between, mirrorsCrs, ?_⟩
    rw [mirrorPackageSkills, cleanly_bind] at runs
    split at runs
    · rename_i copied last mirrorsSkills
      obtain ⟨-, rfl⟩ := Prod.mk.inj (Option.some.inj runs)
      exact ⟨copied, mirrorsSkills⟩
    · rename_i error last mirrorsSkills
      obtain ⟨copied, impossible⟩ := cleanly_mirrorFolder_ok names.package names.version (by decide) mirrorsSkills
      cases impossible
    · cases runs
  · rename_i error between mirrorsCrs
    obtain ⟨copied, impossible⟩ := cleanly_mirrorFolder_ok names.package names.version (by decide) mirrorsCrs
    cases impossible
  · cases runs

theorem fileAt_mirrorPackage_other (names : HasNames spec)
    (outside : ∀ folder ∈ mirroredFolders, ¬ mirrorRoot env folder ++ [spec.package, spec.version] <+: path)
    (runs : cleanly (mirrorPackage env (destPath env spec.package spec.version) spec) disk = some (result, after)) :
    after.fileAt path = disk.fileAt path := by
  obtain ⟨_, between, mirrorsCrs, _, mirrorsSkills⟩ := mirrorPackage_cases names runs
  rw [fileAt_mirrorFolder_other names.package names.version (outside "skills" (by decide)) mirrorsSkills,
    fileAt_mirrorFolder_other names.package names.version (outside "crs" (by decide)) mirrorsCrs]

theorem fileAt_mirrorPackage {below : Path} (closed : disk.Closed) (names : HasNames spec) (mirrored : folder ∈ mirroredFolders)
    (nonempty : below ≠ [])
    (runs : cleanly (mirrorPackage env (destPath env spec.package spec.version) spec) disk = some (result, after)) :
    after.fileAt (mirrorRoot env folder ++ spec.package :: spec.version :: below) =
      (disk.fileAt (packageTree env spec.package spec.version ++ folder :: below)).or
        (disk.fileAt (mirrorRoot env folder ++ spec.package :: spec.version :: below)) := by
  obtain ⟨_, between, mirrorsCrs, _, mirrorsSkills⟩ := mirrorPackage_cases names runs
  have apart {first second : String} (different : first ≠ second) :
      ¬ mirrorRoot env first ++ [spec.package, spec.version] <+:
        mirrorRoot env second ++ spec.package :: spec.version :: below := by
    rw [mirror_isPrefix]
    exact fun same => different same.1
  simp only [mirroredFolders, List.mem_cons, List.not_mem_nil, or_false] at mirrored
  rcases mirrored with rfl | rfl
  · rw [fileAt_mirrorFolder_other names.package names.version (apart (by decide)) mirrorsSkills]
    exact fileAt_mirrorFolder closed nonempty names.package names.version (by decide) mirrorsCrs
  · have stillThere : ¬ mirrorRoot env "crs" ++ [spec.package, spec.version] <+:
        packageTree env spec.package spec.version ++ "skills" :: below := by
      rw [packageTree, List.append_assoc]
      exact mirror_not_prefix_packages (by decide) _ _
    rw [fileAt_mirrorFolder (closed_cleanly closed mirrorsCrs) nonempty names.package names.version (by decide) mirrorsSkills,
      fileAt_mirrorFolder_other names.package names.version stillThere mirrorsCrs,
      fileAt_mirrorFolder_other names.package names.version (apart (by decide)) mirrorsCrs]

/-! ## Placing a package -/

/-- The mirrored files are those of the packages. -/
def MirrorsMatch (env : StoreEnvironment) (disk : Disk) : Prop :=
  ∀ folder ∈ mirroredFolders, ∀ name version below, below ≠ [] →
    disk.fileAt (mirrorRoot env folder ++ name :: version :: below) =
      disk.fileAt (packageTree env name version ++ folder :: below)

/-- The same for all packages but this one. -/
def OthersMatch (env : StoreEnvironment) (spec : PackageSpec) (disk : Disk) : Prop :=
  ∀ folder ∈ mirroredFolders, ∀ name version below, below ≠ [] → ¬ (name = spec.package ∧ version = spec.version) →
    disk.fileAt (mirrorRoot env folder ++ name :: version :: below) =
      disk.fileAt (packageTree env name version ++ folder :: below)

theorem MirrorsMatch.others (areSame : MirrorsMatch env disk) : OthersMatch env spec disk :=
  fun folder mirrored name version below nonempty _ => areSame folder mirrored name version below nonempty

/-- What is not installed has no files. -/
theorem mirrorsExact_iff (closed : disk.Closed) : MirrorsExact env disk ↔ MirrorsMatch env disk := by
  refine forall₂_congr fun folder _ => forall₃_congr fun name version below => forall_congr' fun _ => ?_
  split
  · rfl
  · rename_i notInstalled
    have noDirectory : disk.isDirectory (packageTree env name version) = false :=
      Bool.eq_false_iff.mpr fun isDirectory => notInstalled (Disk.hasEntry_of_isDirectory isDirectory)
    rw [Disk.fileAt_below_none closed (by simp) noDirectory]

theorem mirrorsMatch_mirrorPackage (closed : disk.Closed) (names : HasNames spec)
    (others : OthersMatch env spec disk)
    (kept : ∀ folder ∈ mirroredFolders, ∀ below ≠ [],
      (disk.fileAt (mirrorRoot env folder ++ spec.package :: spec.version :: below)).isSome = true →
        (disk.fileAt (packageTree env spec.package spec.version ++ folder :: below)).isSome = true)
    (runs : cleanly (mirrorPackage env (destPath env spec.package spec.version) spec) disk = some (result, after)) :
    MirrorsMatch env after := by
  intro folder mirrored name version below nonempty
  have treeKept : after.fileAt (packageTree env name version ++ folder :: below) =
      disk.fileAt (packageTree env name version ++ folder :: below) := by
    refine fileAt_mirrorPackage_other names (fun other isMirrored => ?_) runs
    rw [packageTree, List.append_assoc]
    exact mirror_not_prefix_packages isMirrored _ _
  rw [treeKept]
  by_cases same : name = spec.package ∧ version = spec.version
  · obtain ⟨rfl, rfl⟩ := same
    rw [fileAt_mirrorPackage closed names mirrored nonempty runs]
    cases isFile : disk.fileAt (packageTree env spec.package spec.version ++ folder :: below) with
    | some content => rw [Option.some_or]
    | none =>
      -- Nothing stale is in the mirror.
      have clean := mt (kept folder mirrored below nonempty)
      rw [isFile] at clean
      rw [Option.none_or]
      simpa using clean
  · rw [← others folder mirrored name version below nonempty same]
    refine fileAt_mirrorPackage_other names (fun other _ isPrefix => same ?_) runs
    obtain ⟨-, sameName, sameVersion⟩ := (mirror_isPrefix below).mp isPrefix
    exact ⟨sameName.symm, sameVersion.symm⟩

/-- The directory of the mirrors or of the packages lies apart from the temporary directory. -/
theorem UnpacksBelow.tree {archive : ZipArchive} (unpacks : UnpacksBelow env archive tmpPath) (rest : Path) :
    ¬ tmpPath <+: packageTree env name version ++ rest := by
  rw [packageTree, List.append_assoc]
  exact fun above => unpacks.packages.not_above above (List.prefix_append _ _)

theorem UnpacksBelow.mirror {archive : ZipArchive} (unpacks : UnpacksBelow env archive tmpPath)
    (mirrored : folder ∈ mirroredFolders) (rest : Path) : ¬ tmpPath <+: mirrorRoot env folder ++ rest :=
  fun above => (unpacks.mirrors folder mirrored).not_above above (List.prefix_append _ _)

theorem UnpacksBelow.leavesFile {archive : ZipArchive} (unpacks : UnpacksBelow env archive tmpPath)
    (outside : ¬ tmpPath <+: path) : Calls (FileCall.LeavesFile path) (unzip archive tmpPath) :=
  (calls_unzip_writesBelow unpacks.entries).imp (leavesFile_of_writesBelow outside)

theorem packageTree_isPrefix {otherName otherVersion : String} (rest : Path) :
    packageTree env name version <+: packageTree env otherName otherVersion ++ rest ↔
      name = otherName ∧ version = otherVersion := by
  rw [packageTree, packageTree, List.append_assoc, List.prefix_append_right_inj]
  simp [List.cons_prefix_cons]

theorem packages_not_prefix_mirror (mirrored : folder ∈ mirroredFolders) (above below : Path) :
    ¬ packagesPath env ++ above <+: mirrorRoot env folder ++ below := by
  rw [packagesPath, mirrorRoot, List.append_assoc, List.append_assoc, List.prefix_append_right_inj]
  simp [List.cons_prefix_cons, (mirroredFolder_ne_packages mirrored).symm]

theorem not_packageTree_prefix_mirror (mirrored : folder ∈ mirroredFolders) (rest : Path) :
    ¬ packageTree env name version <+: mirrorRoot env folder ++ rest := packages_not_prefix_mirror mirrored _ rest

/-- A package is moved to its place and then mirrored. -/
theorem mirrorsMatch_placed {archive : ZipArchive} (closed : disk.Closed) (names : HasNames spec)
    (unpacks : UnpacksBelow env archive tmpPath) (isBase : tmpPath <+: base)
    (others : OthersMatch env spec disk)
    (kept : ∀ folder ∈ mirroredFolders, ∀ below ≠ [],
      (disk.fileAt (mirrorRoot env folder ++ spec.package :: spec.version :: below)).isSome = true →
        (disk.fileAt (base ++ folder :: below)).isSome = true)
    (runs : cleanly (placePackage env base spec) disk = some (result, after)) : MirrorsMatch env after := by
  rw [placePackage_of_names names.package names.version, cleanly_require_bind] at runs
  split at runs
  · rename_i feasible
    have mirrorKept {folder : String} (mirrored : folder ∈ mirroredFolders) (rest : Path) :
        (disk.move base (packageTree env spec.package spec.version)).fileAt (mirrorRoot env folder ++ rest) =
          disk.fileAt (mirrorRoot env folder ++ rest) := by
      rw [Disk.fileAt_move, if_neg (not_packageTree_prefix_mirror mirrored rest),
        if_neg fun above => unpacks.mirror mirrored rest (isBase.trans above)]
    refine mirrorsMatch_mirrorPackage (FileCall.closed_perform closed feasible) names ?_ ?_ runs
    · intro folder mirrored name version below nonempty different
      rw [FileCall.perform, mirrorKept mirrored, others folder mirrored name version below nonempty different,
        Disk.fileAt_move, if_neg, if_neg fun above => unpacks.tree _ (isBase.trans above)]
      rw [packageTree_isPrefix]
      exact fun same => different ⟨same.1.symm, same.2.symm⟩
    · intro folder mirrored below nonempty
      rw [FileCall.perform, mirrorKept mirrored, Disk.fileAt_move, if_pos (List.prefix_append _ _), List.drop_left]
      exact kept folder mirrored below nonempty
  · cases runs

/-! ## Operations -/

theorem MirrorsMatch.unpacked {archive : ZipArchive} (areSame : MirrorsMatch env disk) (unpacks : UnpacksBelow env archive tmpPath)
    (kept : ∀ path, ¬ tmpPath <+: path → after.fileAt path = disk.fileAt path) : MirrorsMatch env after := by
  intro folder mirrored name version below nonempty
  rw [kept _ (unpacks.mirror mirrored _), kept _ (unpacks.tree _)]
  exact areSame folder mirrored name version below nonempty

theorem fileAt_prepare {packageYaml : Except StoreError PackageSpec} {archive : ZipArchive} {force : Bool}
    {result : Except StoreError (PackageSpec × Option Path)} (unpacks : UnpacksBelow env archive tmpPath)
    (runs : cleanly (prepare env packageYaml archive tmpPath force) disk = some (result, after))
    (outside : ¬ tmpPath <+: path) : after.fileAt path = disk.fileAt path :=
  fileAt_cleanly (calls_prepare (fun _ => trivial) (unpacks.leavesFile outside) fun _ _ _ _ => trivial) runs

theorem mirrorsMatch_replacePackage {archive : ZipArchive} {prepared : Disk} (closed : prepared.Closed) (names : HasNames spec)
    (unpacks : UnpacksBelow env archive tmpPath) (isBase : tmpPath <+: base) (areSame : MirrorsMatch env prepared)
    (kept : ∀ folder ∈ mirroredFolders, ∀ below ≠ [],
      (prepared.fileAt (packageTree env spec.package spec.version ++ folder :: below)).isSome = true →
        (prepared.fileAt (base ++ folder :: below)).isSome = true)
    (runs : cleanly (replacePackage env base spec) prepared = some (result, after)) : MirrorsMatch env after := by
  rw [replacePackage_of_names names.package names.version, cleanly_require_bind, if_pos (by rfl)] at runs
  refine mirrorsMatch_placed (FileCall.closed_perform closed (by rfl)) names unpacks isBase ?_ ?_ runs
  · intro folder mirrored name version below nonempty different
    rw [FileCall.perform, Disk.fileAt_removeBelow, Disk.fileAt_removeBelow,
      if_neg (not_packageTree_prefix_mirror mirrored _), if_neg, areSame folder mirrored name version below nonempty]
    rw [packageTree_isPrefix]
    exact fun same => different ⟨same.1.symm, same.2.symm⟩
  · intro folder mirrored below nonempty
    have baseOutside : ¬ packageTree env spec.package spec.version <+: base ++ folder :: below := by
      intro above
      exact unpacks.packages.not_above (isBase.trans (List.prefix_append base _))
        ((List.prefix_append (packagesPath env) _).trans above)
    rw [FileCall.perform, Disk.fileAt_removeBelow, Disk.fileAt_removeBelow,
      if_neg (not_packageTree_prefix_mirror mirrored _), if_neg baseOutside,
      areSame folder mirrored _ _ below nonempty]
    exact kept folder mirrored below nonempty

theorem mirrorsMatch_addPackage {packageYaml : Except StoreError PackageSpec} {fileType : String} {archive : ZipArchive}
    {force : Bool} {result : Except StoreError AddPackageRes} (closed : disk.Closed) (areSame : MirrorsMatch env disk)
    (leaves : LeavesNothingStale env disk (.addPackage packageYaml fileType archive tmpPath force))
    (runs : cleanly (addPackage env packageYaml fileType archive tmpPath force) disk = some (result, after)) :
    MirrorsMatch env after := by
  obtain ⟨unpacks, keepsPaths⟩ := leaves
  rw [addPackage] at runs
  split at runs
  · obtain ⟨-, rfl⟩ := Prod.mk.inj (Option.some.inj runs)
    exact areSame
  · rw [cleanly_bind] at runs
    rcases prepares : cleanly (prepare env packageYaml archive tmpPath force) disk with _ | ⟨failed | ⟨spec, _ | base⟩, prepared⟩ <;>
      simp only [prepares] at runs
    · cases runs
    · obtain ⟨-, rfl⟩ := Prod.mk.inj (Option.some.inj runs)
      exact areSame.unpacked unpacks fun path => fileAt_prepare unpacks prepares
    · obtain ⟨-, rfl⟩ := Prod.mk.inj (Option.some.inj runs)
      exact areSame.unpacked unpacks fun path => fileAt_prepare unpacks prepares
    · obtain ⟨names, keepsFiles⟩ := keepsPaths spec base prepared prepares
      have isBase := (cleanly_ensures (ensures_prepare packageYaml archive tmpPath force) prepares).2 base rfl
      have kept {path : Path} (outside : ¬ tmpPath <+: path) : prepared.fileAt path = disk.fileAt path :=
        fileAt_prepare unpacks prepares outside
      have replaced {result : Except StoreError Unit} {last : Disk}
          (replaces : cleanly (replacePackage env base spec) prepared = some (result, last)) : MirrorsMatch env last := by
        refine mirrorsMatch_replacePackage (closed_cleanly closed prepares) names unpacks isBase
          (areSame.unpacked unpacks fun path => kept) (fun folder mirrored below nonempty isFile => ?_) replaces
        rw [kept (unpacks.tree _)] at isFile
        exact keepsFiles folder mirrored below nonempty isFile
      rw [cleanly_bind] at runs
      split at runs
      · rename_i replaces
        obtain ⟨-, rfl⟩ := Prod.mk.inj (Option.some.inj runs)
        exact replaced replaces
      · rename_i replaces
        obtain ⟨-, rfl⟩ := Prod.mk.inj (Option.some.inj runs)
        exact replaced replaces
      · cases runs

/-- Nothing is extracted over what is there. -/
theorem hasEntry_of_cleanly_extractedBase {archive : ZipArchive} (names : HasNames spec)
    (extracts : cleanly (extractedBase env spec archive tmpPath) disk = some (.ok base, after)) :
    disk.hasEntry (packageTree env spec.package spec.version) = false := by
  simp only [extractedBase, makeRoom] at extracts
  split at extracts
  · cases extracts
  · rw [bind_assoc, cleanly_hasEntry_bind, isOn_of_plain (isPlain_destPath names.package names.version),
      leadsTo_destPath names.package names.version] at extracts
    split at extracts
    · cases extracts
    · exact Bool.eq_false_iff.mpr ‹_›

theorem mirrorsMatch_extractPackage {archive : ZipArchive} (closed : disk.Closed) (areSame : MirrorsMatch env disk)
    (unpacks : UnpacksBelow env archive tmpPath) (names : HasNames spec)
    (runs : cleanly (extractPackage env spec archive tmpPath) disk = some (result, after)) : MirrorsMatch env after := by
  rw [extractPackage_eq, cleanly_bind] at runs
  rcases extracts : cleanly (extractedBase env spec archive tmpPath) disk with _ | ⟨failed | base, extracted⟩ <;>
    simp only [extracts] at runs
  · cases runs
  · obtain ⟨-, rfl⟩ := Prod.mk.inj (Option.some.inj runs)
    exact areSame.unpacked unpacks fun path outside =>
      fileAt_cleanly (calls_extractedBase (fun _ => trivial) (unpacks.leavesFile outside) fun _ _ => trivial) extracts
  · have kept {path : Path} (outside : ¬ tmpPath <+: path) : extracted.fileAt path = disk.fileAt path :=
      fileAt_cleanly (calls_extractedBase (fun _ => trivial) (unpacks.leavesFile outside) fun _ _ => trivial) extracts
    have extractedSame := areSame.unpacked unpacks fun path => kept
    have isBase := cleanly_ensures (ensures_extractedBase spec archive tmpPath) extracts
    refine mirrorsMatch_placed (closed_cleanly closed extracts) names unpacks isBase extractedSame.others ?_ runs
    -- What is not installed has no mirrors yet.
    intro folder mirrored below nonempty isFile
    have absent := hasEntry_of_cleanly_extractedBase names extracts
    have noDirectory : disk.isDirectory (packageTree env spec.package spec.version) = false := by
      rw [Bool.eq_false_iff] at absent ⊢
      exact fun isDirectory => absent (Disk.hasEntry_of_isDirectory isDirectory)
    rw [extractedSame folder mirrored _ _ below nonempty, kept (unpacks.tree _),
      Disk.fileAt_below_none closed (by simp) noDirectory] at isFile
    cases isFile

/-- Below a root, what is removed for a version, or for all versions if it is empty. -/
def versionNames (name version : String) : Path := if version = "" then [name] else [name, version]

theorem isPlain_versionDir (root : Path) (isName : Path.IsName name) (isVersion : version = "" ∨ Path.IsName version) :
    (versionDir (SpelledPath.slash root name) version).IsPlain ∧
      (versionDir (SpelledPath.slash root name) version).leadsTo = root ++ versionNames name version := by
  have isPlain : (SpelledPath.slash root name).IsPlain := SpelledPath.isPlain_name root isName
  rcases isVersion with rfl | isVersion
  · refine ⟨isPlain, ?_⟩
    rw [versionDir, if_pos (by decide), isPlain.leadsTo_eq, SpelledPath.slash_name _ isName, versionNames, if_pos rfl]
    rfl
  · have notEmpty : version ≠ "" := by
      rintro rfl
      exact absurd isVersion (by decide)
    rw [versionDir, if_neg (by simpa using notEmpty)]
    refine ⟨SpelledPath.isPlain_slash isPlain isVersion, ?_⟩
    rw [(SpelledPath.isPlain_slash isPlain isVersion).leadsTo_eq, SpelledPath.slash_name _ isVersion,
      SpelledPath.slash_name _ isName, versionNames, if_neg notEmpty]
    rfl

theorem versionNames_isPrefix {otherName otherVersion : String} (below : Path) :
    versionNames name version <+: otherName :: otherVersion :: below ↔
      name = otherName ∧ (version = "" ∨ version = otherVersion) := by
  rw [versionNames]
  split <;> simp_all [List.cons_prefix_cons]

/-- Whether or not there is a mirror, no files are left of it. -/
theorem fileAt_unmirrorFolder (closed : disk.Closed) (isName : Path.IsName name) (isVersion : version = "" ∨ Path.IsName version)
    (runs : cleanly (unmirrorFolder env folder name version) disk = some (result, after)) :
    result = .ok () ∧ ∀ path, after.fileAt path =
      if mirrorRoot env folder ++ versionNames name version <+: path then none else disk.fileAt path := by
  obtain ⟨isPlain, leads⟩ := isPlain_versionDir (mirrorRoot env folder) isName isVersion
  rw [unmirrorFolder_eq, cleanly_hasEntry_bind, mirroredPkg, isOn_of_plain isPlain, leads] at runs
  split at runs
  · rw [removeAll_of_plain isPlain, leads, cleanly_attempt_bind, if_pos (by rfl)] at runs
    obtain ⟨rfl, rfl⟩ := Prod.mk.inj (Option.some.inj runs)
    exact ⟨rfl, Disk.fileAt_removeBelow⟩
  · rename_i absent
    obtain ⟨rfl, rfl⟩ := Prod.mk.inj (Option.some.inj runs)
    refine ⟨rfl, fun path => ?_⟩
    split
    · rename_i above
      obtain ⟨rest, rfl⟩ := above
      by_cases direct : rest = []
      · rw [direct, List.append_nil, Option.eq_none_iff_forall_ne_some]
        exact fun content isFile => absent (Disk.hasEntry_of_fileAt isFile)
      · refine Disk.fileAt_below_none closed direct (Bool.eq_false_iff.mpr fun isDirectory => ?_)
        exact absent (Disk.hasEntry_of_isDirectory isDirectory)
    · rfl

/-- What is taken to be installed is there. -/
theorem cleanly_packageAlreadyExists_bind (dest : SpelledPath) (next : Bool → StoreProgram β) (disk : Disk) :
    ∃ present, (present = true → isOn dest disk = true) ∧
      cleanly (packageAlreadyExists dest >>= next) disk = cleanly (next present) disk := by
  rw [packageAlreadyExists, bind_assoc, cleanly_hasEntry_bind]
  split
  · rename_i isThere
    exact ⟨_, fun _ => isThere, cleanly_hasEntry_bind _ next disk⟩
  · exact ⟨false, fun impossible => Bool.noConfusion impossible, rfl⟩

theorem fileAt_unmirrorFolder_bind {next : Unit → StoreProgram β} {result : Except StoreError β} (closed : disk.Closed)
    (isName : Path.IsName name) (isVersion : version = "" ∨ Path.IsName version)
    (runs : cleanly (unmirrorFolder env folder name version >>= next) disk = some (result, after)) :
    ∃ unmirrored : Disk, unmirrored.Closed ∧ cleanly (next ()) unmirrored = some (result, after) ∧
      ∀ path, unmirrored.fileAt path =
        if mirrorRoot env folder ++ versionNames name version <+: path then none else disk.fileAt path := by
  rw [cleanly_bind] at runs
  rcases unmirrors : cleanly (unmirrorFolder env folder name version) disk with _ | ⟨failed | ⟨⟩, unmirrored⟩ <;>
    simp only [unmirrors] at runs
  · cases runs
  · cases (fileAt_unmirrorFolder closed isName isVersion unmirrors).1
  · exact ⟨unmirrored, closed_cleanly closed unmirrors, runs, (fileAt_unmirrorFolder closed isName isVersion unmirrors).2⟩

theorem removePackage_cases {result : Except StoreError String} (closed : disk.Closed)
    (isName : Path.IsName name) (isVersion : version = "" ∨ Path.IsName version)
    (runs : cleanly (removePackage env name version) disk = some (result, after)) :
    after = disk ∨ ∀ path, after.fileAt path =
      if packagesPath env ++ versionNames name version <+: path ∨
          ∃ folder ∈ mirroredFolders, mirrorRoot env folder ++ versionNames name version <+: path then none
      else disk.fileAt path := by
  rw [removePackage] at runs
  obtain ⟨present, isThere, sameRun⟩ := cleanly_packageAlreadyExists_bind (destPath env name version) _ disk
  rw [sameRun] at runs
  cases present with
  | false =>
    obtain ⟨-, rfl⟩ := Prod.mk.inj (Option.some.inj runs)
    exact .inl rfl
  | true =>
    obtain ⟨isPlain, leads⟩ := isPlain_versionDir (packagesPath env) isName isVersion
    obtain ⟨sameLead, sameEnd⟩ := leadsTo_versionDir (SpelledPath.slash (packagesPath env) name) version
    obtain ⟨place, found⟩ : ∃ place, foundOn (destPath env name version) disk = some place := by
      have isOn := isThere rfl
      rw [StoreManager.isOn, Option.any_eq_true] at isOn
      exact isOn.imp fun place => And.left
    have isPlace : place = packagesPath env ++ versionNames name version := by
      rw [← leads, sameLead]
      exact SpelledPath.eq_of_follow found
    have down : (destPath env name version).endsInDots = false := by
      rw [destPath, ← sameEnd, isPlain.endsInDots_eq]
    rw [isPlace] at found
    simp only [Bool.not_true, Bool.false_eq_true, if_false] at runs
    rw [cleanly_removeAll_bind found down] at runs
    have closedRemoved : ((FileCall.removeAll (packagesPath env ++ versionNames name version)).perform disk).Closed :=
      FileCall.closed_perform closed rfl
    obtain ⟨withoutCrs, closedCrs, runs, crsRemoved⟩ := fileAt_unmirrorFolder_bind closedRemoved isName isVersion runs
    obtain ⟨withoutSkills, _, runs, skillsRemoved⟩ := fileAt_unmirrorFolder_bind closedCrs isName isVersion runs
    obtain ⟨-, rfl⟩ := Prod.mk.inj (Option.some.inj runs)
    refine .inr fun path => ?_
    rw [skillsRemoved, crsRemoved, FileCall.perform, Disk.fileAt_removeBelow]
    simp only [mirroredFolders, List.mem_cons, List.not_mem_nil, or_false, exists_eq_or_imp, exists_eq_left]
    split_ifs <;> simp_all

theorem mirrorsMatch_removePackage {result : Except StoreError String} (closed : disk.Closed) (areSame : MirrorsMatch env disk)
    (isName : Path.IsName name) (isVersion : version = "" ∨ Path.IsName version)
    (runs : cleanly (removePackage env name version) disk = some (result, after)) : MirrorsMatch env after := by
  rcases removePackage_cases closed isName isVersion runs with rfl | removed
  · exact areSame
  · intro folder mirrored other otherVersion below nonempty
    have removedTree : packagesPath env ++ versionNames name version <+:
        packageTree env other otherVersion ++ folder :: below ↔ name = other ∧ (version = "" ∨ version = otherVersion) := by
      rw [packageTree, List.append_assoc, List.prefix_append_right_inj]
      exact versionNames_isPrefix _
    have noMirror (above : Path) : ¬ ∃ kind ∈ mirroredFolders,
        mirrorRoot env kind ++ above <+: packageTree env other otherVersion ++ folder :: below := by
      rintro ⟨kind, isKind, isPrefix⟩
      rw [packageTree, List.append_assoc] at isPrefix
      exact mirror_not_prefix_packages isKind above _ isPrefix
    rw [removed, removed]
    simp only [packages_not_prefix_mirror mirrored, mirror_prefix_mirror, false_or, removedTree, noMirror, or_false,
      versionNames_isPrefix]
    have someFolder (condition : Prop) : (∃ kind ∈ mirroredFolders, kind = folder ∧ condition) ↔ condition := by
      constructor
      · rintro ⟨kind, isKind, same, holds⟩
        exact holds
      · exact fun holds => ⟨folder, mirrored, rfl, holds⟩
    rw [areSame folder mirrored other otherVersion below nonempty]
    simp only [someFolder]

theorem mirrorsMatch_taskRemovePackage (areSame : MirrorsMatch env disk)
    (isName : Path.IsName name) (isVersion : version = "" ∨ Path.IsName version)
    (nothing : ∀ folder ∈ mirroredFolders, ∀ other below, below ≠ [] → (version = "" ∨ other = version) →
      disk.fileAt (packageTree env name other ++ folder :: below) = none)
    (runs : cleanly (taskRemovePackage env name version) disk = some (result, after)) : MirrorsMatch env after := by
  obtain ⟨isPlain, leads⟩ := isPlain_versionDir (packagesPath env) isName isVersion
  rw [taskRemovePackage_eq, removeAll_of_plain isPlain, leads, cleanly_attempt_bind, if_pos (by rfl)] at runs
  obtain ⟨-, rfl⟩ := Prod.mk.inj (Option.some.inj runs)
  intro folder mirrored other otherVersion below nonempty
  rw [FileCall.perform, Disk.fileAt_removeBelow, Disk.fileAt_removeBelow,
    if_neg (packages_not_prefix_mirror mirrored _ _), areSame folder mirrored other otherVersion below nonempty]
  split
  · rename_i isPrefix
    rw [packageTree, List.append_assoc, List.prefix_append_right_inj] at isPrefix
    obtain ⟨rfl, isRemoved⟩ := (versionNames_isPrefix _).mp isPrefix
    exact nothing folder mirrored otherVersion below nonempty (isRemoved.imp id Eq.symm)
  · rfl

/-! ## Runs -/

/-- Errors of an operation that has been run to the end come from its answers, not from its calls. -/
theorem operate_cases {event : PackageEvent} (withoutErrors : WithoutErrors env disk event) :
    ∃ result, cleanly (event.1.program env) disk = some (result, operate env disk event) :=
  ⟨_, cleanly_of_run (event.1.program env) ⟨disk, []⟩ withoutErrors⟩

theorem cleanly_discard {program : StoreProgram α} {result : Except StoreError Unit}
    (runs : cleanly (program >>= fun _ => pure ()) disk = some (result, after)) :
    ∃ result, cleanly program disk = some (result, after) := by
  rw [cleanly_bind] at runs
  split at runs
  · rename_i value last finishes
    obtain ⟨-, rfl⟩ := Prod.mk.inj (Option.some.inj runs)
    exact ⟨.ok value, finishes⟩
  · rename_i error last finishes
    obtain ⟨-, rfl⟩ := Prod.mk.inj (Option.some.inj runs)
    exact ⟨.error error, finishes⟩
  · cases runs

theorem mirrorsMatch_operate {event : PackageEvent} (closed : disk.Closed) (areSame : MirrorsMatch env disk)
    (withoutErrors : WithoutErrors env disk event) (leaves : LeavesNothingStale env disk event.1) :
    (operate env disk event).Closed ∧ MirrorsMatch env (operate env disk event) := by
  obtain ⟨result, runs⟩ := operate_cases withoutErrors
  refine ⟨closed_cleanly closed runs, ?_⟩
  rcases event with ⟨operation, outcomes⟩
  cases operation with
  | addPackage packageYaml fileType archive tmpPath force =>
    obtain ⟨result, adds⟩ := cleanly_discard runs
    exact mirrorsMatch_addPackage closed areSame leaves adds
  | extractPackage spec archive tmpPath => exact mirrorsMatch_extractPackage closed areSame leaves.1 leaves.2 runs
  | removePackage package version =>
    obtain ⟨result, removes⟩ := cleanly_discard runs
    exact mirrorsMatch_removePackage closed areSame leaves.1 leaves.2 removes
  | taskRemovePackage package version =>
    exact mirrorsMatch_taskRemovePackage areSame leaves.1 leaves.2.1 leaves.2.2 runs

/-- In every run without errors in which nothing that is mirrored would have to go without being removed, the
mirrors are exact after every operation. -/
theorem mirrors_exact (env : StoreEnvironment) (disk : Disk) (closed : disk.Closed) (initially : MirrorsExact env disk)
    (events : List PackageEvent)
    (eachStep : Runs.EachStep (operate env) (fun disk event => WithoutErrors env disk event ∧ LeavesNothingStale env disk event.1)
      disk events) :
    Runs.Always (operate env) (MirrorsExact env) disk events := by
  refine Runs.always_of_guarded (fun disk => disk.Closed ∧ MirrorsMatch env disk) ?_ ?_ disk
    ⟨closed, (mirrorsExact_iff closed).mp initially⟩ events eachStep
  · rintro disk ⟨closed, areSame⟩
    exact (mirrorsExact_iff closed).mpr areSame
  · rintro disk event ⟨closed, areSame⟩ ⟨withoutErrors, leaves⟩
    exact mirrorsMatch_operate closed areSame withoutErrors leaves

def navStore : StoreEnvironment := ⟨["home"], "x86_64"⟩

def installNav : PackageEvent :=
  (.extractPackage ⟨"nav", "1.0", "x86_64"⟩
    (some [.file "package.yaml" (some "name: nav"), .file "crs/camera.yaml" (some "kind: Device")]) ["tmp", "unpack"],
    fun _ _ => {})

def uninstallNav : PackageEvent := (.taskRemovePackage "nav" "1.0", fun _ _ => {})

def removeNav : PackageEvent := (.removePackage "nav" "1.0", fun _ _ => {})

theorem mirrorsExact_empty (env : StoreEnvironment) : MirrorsExact env ∅ := by
  intro folder _ name version below _
  rfl

/-- A package that comes and goes with its mirrors. -/
theorem removedPackage_exact :
    Runs.Always (operate navStore) (MirrorsExact navStore) ∅ [installNav, removeNav] := by
  refine mirrors_exact navStore ∅ Disk.closed_empty (mirrorsExact_empty _) _ ⟨⟨?_, ?_, ?_⟩, ⟨?_, ?_⟩, trivial⟩
  · unfold WithoutErrors
    decide
  · refine ⟨fun entry member => ?_, ⟨by decide, by decide⟩, fun folder mirrored => ?_⟩
    · rcases List.mem_cons.mp member with rfl | later
      · exact ⟨by simp only [WritesBelow]; decide, fun _ => by simp only [WritesBelow]; decide⟩
      · obtain rfl := List.mem_singleton.mp later
        exact ⟨by simp only [WritesBelow]; decide, fun _ => by simp only [WritesBelow]; decide⟩
    · simp only [mirroredFolders, List.mem_cons, List.not_mem_nil, or_false] at mirrored
      rcases mirrored with rfl | rfl <;> exact ⟨by decide, by decide⟩
  · exact ⟨by decide, by decide⟩
  · unfold WithoutErrors
    decide
  · exact ⟨by decide, .inr (by decide)⟩

/-- The uninstall task leaves the mirrors of the package. -/
theorem uninstalled_stays_mirrored :
    Runs.EachStep (operate navStore) (WithoutErrors navStore) ∅ [installNav, uninstallNav] ∧
      ¬ Runs.Always (operate navStore) (MirrorsExact navStore) ∅ [installNav, uninstallNav] := by
  constructor
  · refine ⟨?_, ?_, trivial⟩
    · unfold WithoutErrors
      decide
    · unfold WithoutErrors
      decide
  · rintro ⟨_, _, exactly⟩
    have stale := exactly "crs" (by decide) "nav" "1.0" ["camera.yaml"] (by decide)
    exact absurd stale (by decide)

end AbilityFramework.ResourceMgr.StoreManager
