import AbilityFramework.ResourceMgr.StoreManager

/-! # What the package store calls

For each function of the package store the calls that it can make, in terms of where the paths lead that it
is given. -/

namespace AbilityFramework.ResourceMgr.StoreManager

open Library FileProgram

variable {allowed : FileCall → Prop} {α β : Type}

/-! ## Archives -/

/-- Nothing is removed or moved, and what is created or written lies at or below the directory. -/
def WritesBelow (directory : Path) : FileCall → Prop
  | .access _ => True
  | .createDirectories path => directory <+: path
  | .write path _ => directory <+: path
  | .removeAll _ => False
  | .rename _ _ => False

def ZipEntry.isReadable : ZipEntry → Bool
  | .unreadable => false
  | .directory _ => true
  | .file _ content => content.isSome

/-- The entries before the first that cannot be read, where `unzip` stops. -/
def ZipArchive.reached (archive : ZipArchive) : List ZipEntry := (archive.getD []).takeWhile ZipEntry.isReadable

/-- What is called for an entry is allowed. -/
def ZipEntry.Allowed (allowed : FileCall → Prop) (directory : Path) : ZipEntry → Prop
  | .unreadable => True
  | .directory name => ∀ station ∈ (SpelledPath.slash directory name).stations, allowed (.createDirectories station)
  | .file name _ =>
    (∀ station ∈ (SpelledPath.slash directory name).parentPath.stations, allowed (.createDirectories station)) ∧
      ∀ text, allowed (.write (SpelledPath.slash directory name).leadsTo text)

/-- Whatever the name of the entry leads through lies at or below the directory. -/
abbrev ZipEntry.StaysBelow (directory : Path) : ZipEntry → Prop := ZipEntry.Allowed (WritesBelow directory) directory

variable {directory : Path}

theorem calls_unzipFile (lookUps : AllowsLookUps allowed) {name content : String} {readable : Option String}
    (isAllowed : (ZipEntry.file name readable).Allowed allowed directory) :
    Calls allowed (unzipFile directory name content) := by
  refine calls_bind (calls_createDirectories isAllowed.1) fun _ => ?_
  rw [calls_require_bind, calls_attempt_bind, calls_require]
  exact ⟨isAllowed.2 "", isAllowed.2 content, fun _ => lookUps _⟩

theorem calls_unzipEntries (lookUps : AllowsLookUps allowed) (index : Nat) (entries : List ZipEntry)
    (areAllowed : ∀ entry ∈ entries.takeWhile ZipEntry.isReadable, entry.Allowed allowed directory) :
    Calls allowed (unzipEntries directory index entries) := by
  induction entries generalizing index with
  | nil => trivial
  | cons entry entries inductionHypothesis =>
    cases entry with
    | unreadable => trivial
    | directory name =>
      rw [List.takeWhile_cons_of_pos rfl, List.forall_mem_cons] at areAllowed
      have later := inductionHypothesis (index + 1) areAllowed.2
      refine calls_hasEntry_bind lookUps fun present => ?_
      cases present with
      | true => exact later
      | false =>
        refine calls_bind (calls_createDirectories areAllowed.1) fun isNew => ?_
        cases isNew with
        | true => exact later
        | false => trivial
    | file name content =>
      cases content with
      | none => trivial
      | some content =>
        rw [List.takeWhile_cons_of_pos rfl, List.forall_mem_cons] at areAllowed
        exact calls_bind (calls_unzipFile lookUps areAllowed.1) fun _ => inductionHypothesis (index + 1) areAllowed.2

theorem calls_unzip (lookUps : AllowsLookUps allowed) {archive : ZipArchive} (creates : allowed (.createDirectories directory))
    (areAllowed : ∀ entry ∈ archive.reached, entry.Allowed allowed directory) : Calls allowed (unzip archive directory) := by
  have makesDirectory : Calls allowed (createDirectories directory) := by
    refine calls_createDirectories fun station member => ?_
    obtain rfl := List.mem_singleton.mp member
    exact creates
  refine calls_hasEntry_bind lookUps fun present => ?_
  cases archive with
  | none =>
    cases present with
    | true => trivial
    | false => exact calls_bind makesDirectory fun isNew => by cases isNew <;> trivial
  | some entries =>
    have unpacks : Calls allowed (unzipEntries directory 0 entries) := calls_unzipEntries lookUps 0 entries areAllowed
    cases present with
    | true => exact unpacks
    | false =>
      refine calls_bind makesDirectory fun isNew => ?_
      cases isNew with
      | true => exact unpacks
      | false => trivial

theorem calls_unzip_writesBelow {archive : ZipArchive} (stays : ∀ entry ∈ archive.reached, entry.StaysBelow directory) :
    Calls (WritesBelow directory) (unzip archive directory) := calls_unzip (fun _ => trivial) List.prefix_rfl stays

variable {env : StoreEnvironment} {name version folder : String} {path : Path}

/-! ## Mirrors -/

theorem isName_mirroredFolder (mirrored : folder ∈ mirroredFolders) : Path.IsName folder := by
  revert folder
  decide

theorem mirroredFolder_ne_packages (mirrored : folder ∈ mirroredFolders) : folder ≠ "packages" := by
  rintro rfl
  exact absurd mirrored (by decide)

theorem mem_filesBelow {disk : Disk} {rel : Path} {content : String} (member : (rel, content) ∈ filesBelow path disk) :
    rel ≠ [] := by
  obtain ⟨⟨file, entry⟩, _, found⟩ := List.mem_filterMap.mp member
  cases entry with
  | directory => cases found
  | file text =>
    dsimp only at found
    split_ifs at found with below
    · obtain ⟨⟨rest, rfl⟩, different⟩ := below
      obtain ⟨rfl, -⟩ := Prod.mk.inj (Option.some.inj found)
      rw [List.drop_left]
      rintro rfl
      exact different (List.append_nil path)

/-- What is called for a mirror is allowed. -/
structure MirrorAllowed (allowed : FileCall → Prop) (destDir : SpelledPath) : Prop where
  stations : ∀ station ∈ destDir.stations, allowed (.createDirectories station)
  directories : ∀ rest, allowed (.createDirectories (destDir.leadsTo ++ rest))
  files : ∀ rest content, rest ≠ [] → allowed (.write (destDir.leadsTo ++ rest) content)

theorem calls_copyFiles (lookUps : AllowsLookUps allowed) {destDir : SpelledPath} (mirror : MirrorAllowed allowed destDir)
    (count : Nat) {files : List (Path × String)} (below : ∀ file ∈ files, file.1 ≠ []) :
    Calls allowed (copyFiles destDir.leadsTo count files) := by
  induction files generalizing count with
  | nil => trivial
  | cons file files inductionHypothesis =>
    rw [List.forall_mem_cons] at below
    rw [copyFiles, calls_require_bind, calls_attempt_bind]
    refine ⟨lookUps _, mirror.directories _, fun _ => ?_⟩
    rw [calls_attempt_bind]
    exact ⟨mirror.files _ _ below.1, fun _ => inductionHypothesis _ below.2⟩

theorem calls_mirrorFolder (lookUps : AllowsLookUps allowed)
    (mirror : MirrorAllowed allowed (mirroredPkgDir env folder name version)) (dest : SpelledPath) :
    Calls allowed (mirrorFolder env folder dest name version) := by
  refine calls_hasEntry_bind lookUps fun present => ?_
  cases present with
  | false => trivial
  | true =>
    refine calls_lookUp_bind lookUps fun disk => ?_
    split
    · trivial
    · refine calls_bind (calls_attemptDirectories mirror.stations) fun made => ?_
      cases made with
      | false => trivial
      | true =>
        exact calls_lookUp_bind lookUps fun disk => calls_copyFiles lookUps mirror 0 fun file member => mem_filesBelow member

theorem calls_mirrorPackage {arch : String} (lookUps : AllowsLookUps allowed)
    (mirrors : ∀ folder ∈ mirroredFolders, MirrorAllowed allowed (mirroredPkgDir env folder name version)) (dest : SpelledPath) :
    Calls allowed (mirrorPackage env dest ⟨name, version, arch⟩) := by
  rw [mirrorPackage]
  refine calls_bind (calls_mirrorFolder lookUps (mirrors "crs" (by decide)) dest) fun _ => ?_
  exact calls_bind (calls_mirrorFolder lookUps (mirrors "skills" (by decide)) dest) fun _ => trivial

/-! ## Removals -/

/-- Without a version the directory is that of all versions. -/
def versionDir (packageDir : SpelledPath) (version : String) : SpelledPath :=
  if version.isEmpty then packageDir else packageDir.slash version

/-- An empty version leads nowhere else. -/
theorem leadsTo_versionDir (packageDir : SpelledPath) (version : String) :
    (versionDir packageDir version).leadsTo = (packageDir.slash version).leadsTo ∧
      (versionDir packageDir version).endsInDots = (packageDir.slash version).endsInDots := by
  rw [versionDir]
  split
  · rename_i isEmpty
    rw [String.isEmpty_iff.mp isEmpty, SpelledPath.leadsTo_slash_empty, SpelledPath.endsInDots, SpelledPath.endsInDots,
      SpelledPath.trimmed_slash_empty]
    exact ⟨rfl, rfl⟩
  · exact ⟨rfl, rfl⟩

theorem unmirrorFolder_eq : unmirrorFolder env folder name version =
    hasEntry (versionDir (mirroredPkg env folder name) version) >>= fun present =>
      if present then removeAll (versionDir (mirroredPkg env folder name) version) >>= fun _ => pure () else pure () := rfl

theorem calls_unmirrorFolder (lookUps : AllowsLookUps allowed)
    (removal : RemovalAllowed allowed (versionDir (mirroredPkg env folder name) version)) :
    Calls allowed (unmirrorFolder env folder name version) := by
  refine calls_hasEntry_bind lookUps fun present => ?_
  cases present with
  | false => trivial
  | true => exact calls_bind (calls_removeAll removal) fun _ => trivial

theorem calls_packageAlreadyExists (lookUps : AllowsLookUps allowed) (dest : SpelledPath) :
    Calls allowed (packageAlreadyExists dest) := by
  refine calls_hasEntry_bind lookUps fun present => ?_
  cases present with
  | false => trivial
  | true => exact calls_lookUp lookUps _ _

theorem calls_removePackage (lookUps : AllowsLookUps allowed) (dest : RemovalAllowed allowed (destPath env name version))
    (mirrors : ∀ folder ∈ mirroredFolders,
      RemovalAllowed allowed (versionDir (mirroredPkg env folder name) version)) :
    Calls allowed (removePackage env name version) := by
  refine calls_bind (calls_packageAlreadyExists lookUps _) fun present => ?_
  cases present with
  | false => trivial
  | true =>
    refine calls_bind (calls_removeAll dest) fun removed => ?_
    cases removed with
    | false => trivial
    | true =>
      refine calls_bind (calls_unmirrorFolder lookUps (mirrors "crs" (by decide))) fun _ => ?_
      exact calls_bind (calls_unmirrorFolder lookUps (mirrors "skills" (by decide))) fun _ => trivial

theorem taskRemovePackage_eq (name version : String) :
    taskRemovePackage env name version = removeAll (versionDir (SpelledPath.slash (packagesPath env) name) version) >>=
      fun removed => if !removed then fails .fileSystem else pure () := by
  rw [taskRemovePackage, versionDir]
  cases version.isEmpty <;> rfl

theorem calls_taskRemovePackage
    (removal : RemovalAllowed allowed (versionDir (SpelledPath.slash (packagesPath env) name) version)) :
    Calls allowed (taskRemovePackage env name version) := by
  rw [taskRemovePackage_eq]
  refine calls_bind (calls_removeAll removal) fun removed => ?_
  cases removed <;> trivial

/-! ## Where a package is unpacked -/

theorem ensures_lookUp {good : α → Prop} {path : Path} {get : Disk → α} (areGood : ∀ disk, good (get disk)) :
    Ensures good (lookUp path get) := ensures_bind (ensures_true _) fun _ _ => ensures_see areGood

theorem ensures_firstWithPackageYaml (paths : List Path) :
    Ensures (fun found => ∀ path, found = some path → path ∈ paths) (firstWithPackageYaml paths) := by
  induction paths with
  | nil => exact ensures_pure (by simp)
  | cons first paths inductionHypothesis =>
    rw [firstWithPackageYaml]
    refine ensures_bind (ensures_true _) fun present _ => ?_
    split
    · exact ensures_pure fun path same => Option.some.inj same ▸ List.mem_cons_self
    · exact inductionHypothesis.imp fun found among path same => List.mem_cons_of_mem first (among path same)

theorem prefix_of_subdirectory {path below : Path} {disk : Disk} (member : below ∈ subdirectories path disk) :
    path <+: below := by
  obtain ⟨row, isRow, rfl⟩ := List.mem_map.mp member
  have meets := (List.mem_filter.mp isRow).2
  simp only [Bool.and_eq_true, decide_eq_true_eq] at meets
  rw [← meets.2]
  exact List.dropLast_prefix row.1

theorem ensures_findPackageYamlInDeeper (path : Path) :
    Ensures (fun found => ∀ below, found = some below → path <+: below) (findPackageYamlInDeeper path) := by
  rw [findPackageYamlInDeeper]
  refine ensures_bind (ensures_true _) fun isDirectory _ => ?_
  split
  · exact ensures_pure (by simp)
  · have listed : Ensures (fun paths => ∀ below ∈ paths, path <+: below) (lookUp path (subdirectories path)) :=
      ensures_lookUp fun disk below => prefix_of_subdirectory
    refine ensures_bind listed fun paths areBelow => ?_
    exact (ensures_firstWithPackageYaml paths).imp fun found among below same => areBelow below (among below same)

theorem ensures_findPackageBaseDir (start : Path) :
    Ensures (fun found => ∀ base, found = some base → start <+: base) (findPackageBaseDir start) := by
  refine ensures_lookUp fun disk base found => ?_
  obtain ⟨file, _, rfl⟩ := Option.map_eq_some_iff.mp found
  exact List.prefix_append start _

theorem calls_firstWithPackageYaml (lookUps : AllowsLookUps allowed) (paths : List Path) :
    Calls allowed (firstWithPackageYaml paths) := by
  induction paths with
  | nil => trivial
  | cons first paths inductionHypothesis =>
    refine calls_hasEntry_bind lookUps fun present => ?_
    cases present with
    | true => trivial
    | false => exact inductionHypothesis

theorem calls_findPackageYamlInDeeper (lookUps : AllowsLookUps allowed) (path : Path) :
    Calls allowed (findPackageYamlInDeeper path) := by
  refine calls_lookUp_bind lookUps fun disk => ?_
  split
  · trivial
  · exact calls_lookUp_bind lookUps fun _ => calls_firstWithPackageYaml lookUps _

/-- What of `unpackedBase` comes after the archive is unpacked. -/
def findBase (tmpPath : Path) : StoreProgram Path := do
  if ← hasEntry (tmpPath ++ ["package.yaml"]) then return tmpPath
  match ← findPackageYamlInDeeper tmpPath with
  | none => fails (.message "need /package.yaml in package")
  | some deepPath => return deepPath

theorem ensures_findBase (tmpPath : Path) : Ensures (tmpPath <+: ·) (findBase tmpPath) := by
  rw [findBase]
  refine ensures_bind (ensures_true _) fun present _ => ?_
  split
  · exact ensures_pure List.prefix_rfl
  · refine ensures_bind (ensures_findPackageYamlInDeeper tmpPath) fun found below => ?_
    cases found with
    | none => exact ensures_fails _
    | some deepPath => exact ensures_pure (below deepPath rfl)

theorem ensures_unpackedBase (archive : ZipArchive) (tmpPath : Path) :
    Ensures (tmpPath <+: ·) (unpackedBase archive tmpPath) :=
  ensures_bind (ensures_true _) fun _ _ => ensures_findBase tmpPath

theorem calls_findBase (lookUps : AllowsLookUps allowed) (tmpPath : Path) : Calls allowed (findBase tmpPath) := by
  refine calls_hasEntry_bind lookUps fun present => ?_
  cases present with
  | true => trivial
  | false =>
    refine calls_bind (calls_findPackageYamlInDeeper lookUps tmpPath) fun found => ?_
    cases found <;> trivial

/-! ## Adding a package -/

/-- What is left of an installation once there is nothing at the destination. -/
def placePackage (env : StoreEnvironment) (base : Path) (spec : PackageSpec) : StoreProgram Unit := do
  let dest := destPath env spec.package spec.version
  rename base dest
  mirrorPackage env dest spec

theorem replacePackage_eq (base : Path) (spec : PackageSpec) :
    replacePackage env base spec = removeAll (destPath env spec.package spec.version) >>= fun removed =>
      if !removed then fails .fileSystem else placePackage env base spec := by
  refine congrArg (FileProgram.bind _) (funext fun removed => ?_)
  cases removed <;> rfl

theorem ensures_prepareUnpacked (spec : PackageSpec) (base : Path) (force : Bool) :
    Ensures (fun found => found.1 = spec ∧ spec.arch = env.arch ∧ ∀ path, found.2 = some path → path = base)
      (prepareUnpacked env spec base force) := by
  rw [prepareUnpacked]
  split
  · exact ensures_fails _
  · rename_i sameArch
    refine ensures_bind (ensures_true _) fun present _ => ?_
    split
    · exact ensures_pure ⟨rfl, not_not.mp sameArch, by simp⟩
    · exact ensures_bind (ensures_true _) fun _ _ => ensures_pure ⟨rfl, not_not.mp sameArch, by simp⟩

/-- What is prepared is the package itself, unpacked in the temporary directory. -/
theorem ensures_prepare (packageYaml : Except StoreError PackageSpec) (archive : ZipArchive) (tmpPath : Path) (force : Bool) :
    Ensures (fun found => packageYaml = .ok found.1 ∧ ∀ base, found.2 = some base → tmpPath <+: base)
      (prepare env packageYaml archive tmpPath force) := by
  rw [prepare]
  refine ensures_bind (ensures_unpackedBase archive tmpPath) fun base below => ?_
  cases packageYaml with
  | error error => exact ensures_fails error
  | ok spec =>
    refine (ensures_prepareUnpacked spec base force).imp fun found isFound => ?_
    obtain ⟨isSpec, -, isBase⟩ := isFound
    exact ⟨congrArg Except.ok isSpec.symm, fun path same => isBase path same ▸ below⟩

theorem calls_prepareUnpacked (lookUps : AllowsLookUps allowed) {spec : PackageSpec} {base : Path} {force : Bool}
    (creates : ∀ station ∈ (destPath env spec.package spec.version).parentPath.stations, allowed (.createDirectories station)) :
    Calls allowed (prepareUnpacked env spec base force) := by
  rw [prepareUnpacked]
  split
  · trivial
  · refine calls_bind (calls_packageAlreadyExists lookUps _) fun present => ?_
    split
    · trivial
    · exact calls_bind (calls_createDirectories creates) fun _ => trivial

theorem calls_prepare (lookUps : AllowsLookUps allowed) {packageYaml : Except StoreError PackageSpec}
    {archive : ZipArchive} {tmpPath : Path} {force : Bool} (unzips : Calls allowed (unzip archive tmpPath))
    (creates : ∀ spec, packageYaml = .ok spec →
      ∀ station ∈ (destPath env spec.package spec.version).parentPath.stations, allowed (.createDirectories station)) :
    Calls allowed (prepare env packageYaml archive tmpPath force) := by
  refine calls_bind (calls_bind unzips fun _ => calls_findBase lookUps tmpPath) fun base => ?_
  cases packageYaml with
  | error error => trivial
  | ok spec => exact calls_prepareUnpacked lookUps (creates spec rfl)

theorem calls_placePackage (lookUps : AllowsLookUps allowed) {base : Path} {spec : PackageSpec}
    (renames : (destPath env spec.package spec.version).endsInDots = false →
      allowed (.rename base (destPath env spec.package spec.version).leadsTo))
    (mirrors : ∀ folder ∈ mirroredFolders, MirrorAllowed allowed (mirroredPkgDir env folder spec.package spec.version)) :
    Calls allowed (placePackage env base spec) :=
  calls_bind (calls_rename renames) fun _ => calls_mirrorPackage lookUps mirrors _

/-! ## Extracting a package -/

/-- What of `extract_package` comes before the archive is unpacked. -/
def makeRoom (env : StoreEnvironment) (spec : PackageSpec) : StoreProgram Unit := do
  if !spec.isComplete then fails (.invalidArgument "spec is not complete")
  let dest := destPath env spec.package spec.version
  if ← hasEntry dest then fails (.messageAt "already exists path " dest)
  let _ ← createDirectories dest.parentPath

/-- Where the package is extracted. -/
def foundBase (tmpPath : Path) : StoreProgram Path := do
  match ← findPackageBaseDir tmpPath with
  | none => fails (.message "no \"package.yaml\" found at package content")
  | some base => return base

/-- What of `extract_package` comes before the package is placed. -/
def extractedBase (env : StoreEnvironment) (spec : PackageSpec) (archive : ZipArchive) (tmpPath : Path) : StoreProgram Path := do
  makeRoom env spec
  unzip archive tmpPath
  foundBase tmpPath

theorem extractPackage_eq (spec : PackageSpec) (archive : ZipArchive) (tmpPath : Path) :
    extractPackage env spec archive tmpPath = extractedBase env spec archive tmpPath >>= fun base =>
      placePackage env base spec := by
  simp only [extractPackage, extractedBase, makeRoom]
  split
  · rfl
  · simp only [bind_assoc]
    refine congrArg (FileProgram.bind (hasEntry _)) (funext fun present => ?_)
    cases present with
    | true => rfl
    | false =>
      simp only [Bool.false_eq_true, if_false, bind_assoc, pure_bind, foundBase]
      refine congrArg (FileProgram.bind _) (funext fun _ => congrArg (FileProgram.bind _) (funext fun _ => ?_))
      refine congrArg (FileProgram.bind _) (funext fun found => ?_)
      cases found with
      | none => rfl
      | some base => rfl

theorem ensures_foundBase (tmpPath : Path) : Ensures (tmpPath <+: ·) (foundBase tmpPath) := by
  refine ensures_bind (ensures_findPackageBaseDir tmpPath) fun found below => ?_
  cases found with
  | none => exact ensures_fails _
  | some base => exact ensures_pure (below base rfl)

/-- What has been extracted lies in the temporary directory. -/
theorem ensures_extractedBase (spec : PackageSpec) (archive : ZipArchive) (tmpPath : Path) :
    Ensures (tmpPath <+: ·) (extractedBase env spec archive tmpPath) :=
  ensures_bind (ensures_true _) fun _ _ => ensures_bind (ensures_true _) fun _ _ => ensures_foundBase tmpPath

theorem calls_makeRoom (lookUps : AllowsLookUps allowed) {spec : PackageSpec}
    (creates : ∀ station ∈ (destPath env spec.package spec.version).parentPath.stations, allowed (.createDirectories station)) :
    Calls allowed (makeRoom env spec) := by
  simp only [makeRoom]
  split
  · trivial
  · refine calls_hasEntry_bind lookUps fun present => ?_
    cases present with
    | true => trivial
    | false => exact calls_bind (calls_createDirectories creates) fun _ => trivial

theorem calls_extractedBase (lookUps : AllowsLookUps allowed) {spec : PackageSpec} {archive : ZipArchive} {tmpPath : Path}
    (unzips : Calls allowed (unzip archive tmpPath))
    (creates : ∀ station ∈ (destPath env spec.package spec.version).parentPath.stations, allowed (.createDirectories station)) :
    Calls allowed (extractedBase env spec archive tmpPath) := by
  refine calls_bind (calls_makeRoom lookUps creates) fun _ => calls_bind unzips fun _ => ?_
  refine calls_bind (calls_lookUp lookUps _ _) fun found => ?_
  cases found <;> trivial

end AbilityFramework.ResourceMgr.StoreManager
