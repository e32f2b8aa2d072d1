import AbilityFramework.ResourceMgr.ArchiveContainment
import AbilityFramework.ResourceMgr.StoreCalls
import Mathlib.Data.Fintype.EquivFin

/-! # Where package operations reach

The operations on packages join name and version to the directory of the packages and to those of the mirrors.
What they create, move or delete is where these names lead (`packageOperations_contained_iff`). -/

namespace AbilityFramework.ResourceMgr.StoreManager

open Library FileProgram

variable (env : StoreEnvironment)

/-- Where the package of this name is, and where its CRs and its skills are mirrored. -/
def packageDirs (name : String) : List Path :=
  (packagesPath env :: mirroredFolders.map (mirrorRoot env)).map (· ++ [name])

def InsidePackage (name : String) (path : Path) : Prop := ∃ dir ∈ packageDirs env name, path.StrictlyInside dir

/-- The directories of the package themselves and those above. -/
def AbovePackage (name : String) (path : Path) : Prop := ∃ dir ∈ packageDirs env name, path <+: dir

def NearPackage (name : String) (path : Path) : Prop := ∃ dir ∈ packageDirs env name, path.Aligned dir

/-- What changes is strictly inside the directories of the package; these directories may be made. -/
abbrev WithinPackage (name : String) : Disk → Disk → Prop := ChangesOnly (InsidePackage env name) (AbovePackage env name)

/-- As above, and the temporary directory is filled and moved. -/
abbrev WithinPackageOr (unpacked : Path) (name : String) : Disk → Disk → Prop :=
  ChangesOnly (fun path => unpacked <+: path ∨ InsidePackage env name path) (AbovePackage env name)

/-- A new temporary directory, apart from the packages, into which the archive is unpacked as it should be. -/
structure UnpacksFor (name : String) (archive : ZipArchive) (temporary : Path) (id : String) (disk : Disk) : Prop where
  isFresh : IsFresh temporary id disk
  apart : ∀ dir ∈ packageDirs env name, Path.Apart (makeTempPath temporary id) dir
  contained : UnzipContained archive temporary id

/-- In every run of the operations on a package, whose name is a single name, each call changes only what
belongs to the package.  Mirrors are made and removed by operations of their own. -/
structure OperationsContained (name version : String) : Prop where
  isName : Path.IsName name
  add : ∀ archive temporary id arch fileType force disk, UnpacksFor env name archive temporary id disk →
    Confined (WithinPackageOr env (makeTempPath temporary id) name)
      (addPackage env (.ok ⟨name, version, arch⟩) fileType archive (makeTempPath temporary id) force) disk
  extract : ∀ archive temporary id arch disk, UnpacksFor env name archive temporary id disk →
    Confined (WithinPackageOr env (makeTempPath temporary id) name)
      (extractPackage env ⟨name, version, arch⟩ archive (makeTempPath temporary id)) disk
  remove : ∀ disk, disk.Closed → Confined (WithinPackage env name) (removePackage env name version) disk
  task : ∀ disk, disk.Closed → Confined (WithinPackage env name) (taskRemovePackage env name version) disk
  mirror : ∀ folder ∈ mirroredFolders, ∀ disk, disk.Closed →
    Confined (WithinPackage env name) (mirrorFolder env folder (destPath env name version) name version) disk
  unmirror : ∀ folder ∈ mirroredFolders, ∀ disk, disk.Closed →
    Confined (WithinPackage env name) (unmirrorFolder env folder name version) disk

/-- What is removed at the path belongs to the package: by `.` and `..` at the end only what is in the directory. -/
def RemovesInside (name : String) (path : SpelledPath) : Prop :=
  if path.endsInDots then ∃ dir ∈ packageDirs env name, dir <+: path.leadsTo else InsidePackage env name path.leadsTo

/-- The directories that are made for the path are on the way to those of the package, or in them. -/
def MakesNear (name : String) (path : SpelledPath) : Prop := ∀ station ∈ path.stations, NearPackage env name station

/-- Name and version lead into the directories of the package, and through nothing else. -/
structure LeadsInside (name version : String) : Prop where
  isName : Path.IsName name
  dest : RemovesInside env name (destPath env name version)
  destParent : MakesNear env name (destPath env name version).parentPath
  mirrors : ∀ folder ∈ mirroredFolders, RemovesInside env name (mirroredPkgDir env folder name version)
  mirrorsMade : ∀ folder ∈ mirroredFolders, MakesNear env name (mirroredPkgDir env folder name version)

variable {env} {name version folder : String} {directory path : Path} {spelled : SpelledPath}

/-! ## What belongs to a package -/

theorem NearPackage.above {above : Path} (near : NearPackage env name path) (isAbove : above <+: path) :
    NearPackage env name above := by
  obtain ⟨dir, isDir, aligned⟩ := near
  exact ⟨dir, isDir, aligned.above isAbove⟩

theorem NearPackage.inside_or_above (near : NearPackage env name path) :
    InsidePackage env name path ∨ AbovePackage env name path := by
  obtain ⟨dir, isDir, isAbove | below⟩ := near
  · exact .inr ⟨dir, isDir, isAbove⟩
  · by_cases same : path = dir
    · exact .inr ⟨dir, isDir, same ▸ List.prefix_rfl⟩
    · exact .inl ⟨dir, isDir, below, same⟩

theorem InsidePackage.below {below : Path} (inside : InsidePackage env name path) (isBelow : path <+: below) :
    InsidePackage env name below := by
  obtain ⟨dir, isDir, isPrefix, different⟩ := inside
  refine ⟨dir, isDir, isPrefix.trans isBelow, fun same => different ?_⟩
  exact (isPrefix.eq_of_length_le (same ▸ isBelow.length_le)).symm

/-- What is in a directory of the package, or below it, is inside the package. -/
theorem insidePackage_of_below {dir rest : Path} (isDir : dir ∈ packageDirs env name) (isPrefix : dir <+: path)
    (nonempty : rest ≠ []) : InsidePackage env name (path ++ rest) := by
  refine ⟨dir, isDir, isPrefix.trans (List.prefix_append path rest), fun same => nonempty ?_⟩
  have shorter := isPrefix.length_le
  rw [← same, List.length_append] at shorter
  exact List.eq_nil_of_length_eq_zero (by omega)

/-- Calls that only touch what belongs to the package. -/
abbrev StaysWithinPackage (env : StoreEnvironment) (name : String) : FileCall → Prop :=
  StaysWithin (InsidePackage env name) (AbovePackage env name)

theorem stays_createDirectories (near : NearPackage env name path) : StaysWithinPackage env name (.createDirectories path) :=
  fun _ isAbove => (near.above isAbove).inside_or_above

theorem removalAllowed_of_removesInside (removes : RemovesInside env name spelled) :
    RemovalAllowed (StaysWithinPackage env name) spelled := by
  rw [RemovesInside] at removes
  rw [RemovalAllowed]
  split at removes
  · rename_i endsInDots
    rw [if_pos endsInDots]
    obtain ⟨dir, isDir, isPrefix⟩ := removes
    intro entry nonempty parent
    rw [← List.dropLast_append_getLast nonempty, parent]
    exact fun other => (insidePackage_of_below isDir isPrefix (List.cons_ne_nil _ _)).below
  · rename_i down
    rw [if_neg down]
    exact fun other => removes.below

theorem below_of_removesInside (removes : RemovesInside env name spelled) :
    ∃ dir ∈ packageDirs env name, dir <+: spelled.leadsTo := by
  rw [RemovesInside] at removes
  split at removes
  · exact removes
  · obtain ⟨dir, isDir, isPrefix, _⟩ := removes
    exact ⟨dir, isDir, isPrefix⟩

theorem mirrorAllowed_of_leadsInside (leads : LeadsInside env name version) (mirrored : folder ∈ mirroredFolders) :
    MirrorAllowed (StaysWithinPackage env name) (mirroredPkgDir env folder name version) := by
  obtain ⟨dir, isDir, isPrefix⟩ := below_of_removesInside (leads.mirrors folder mirrored)
  refine ⟨fun station member => ?_, fun rest => ?_, fun rest content nonempty path same => ?_⟩
  · exact stays_createDirectories (leads.mirrorsMade folder mirrored station member)
  · exact stays_createDirectories ⟨dir, isDir, .inr (isPrefix.trans (List.prefix_append _ rest))⟩
  · exact (same : path = _) ▸ insidePackage_of_below isDir isPrefix nonempty

theorem removesInside_versionDir {packageDir : SpelledPath} :
    RemovesInside env name (versionDir packageDir version) ↔ RemovesInside env name (packageDir.slash version) := by
  rw [RemovesInside, RemovesInside, (leadsTo_versionDir packageDir version).1, (leadsTo_versionDir packageDir version).2]

/-! ## Operations that stay within the package -/

variable {temporary tmpPath base : Path} {id arch : String} {archive : ZipArchive} {disk : Disk}

theorem confined_placePackage (leads : LeadsInside env name version) (below : tmpPath <+: base) (disk : Disk) :
    Confined (WithinPackageOr env tmpPath name) (placePackage env base ⟨name, version, arch⟩) disk := by
  refine confined_of_staysWithin (calls_placePackage staysWithin_access (fun down => ?_) fun folder mirrored => ?_) disk
  · have dest := leads.dest
    rw [RemovesInside, down] at dest
    exact fun path touched => touched.imp below.trans dest.below
  · have mirror := mirrorAllowed_of_leadsInside leads mirrored
    exact ⟨fun station member => (mirror.stations station member).imp fun _ => .inr,
      fun rest => (mirror.directories rest).imp fun _ => .inr,
      fun rest content nonempty => (mirror.files rest content nonempty).imp fun _ => .inr⟩

theorem confined_replacePackage (leads : LeadsInside env name version) (below : tmpPath <+: base) (disk : Disk) :
    Confined (WithinPackageOr env tmpPath name) (replacePackage env base ⟨name, version, arch⟩) disk := by
  rw [replacePackage_eq]
  have removes : Calls (StaysWithinPackage env name) (removeAll (destPath env name version)) :=
    calls_removeAll (removalAllowed_of_removesInside leads.dest)
  refine confined_bind (confined_of_staysWithin (removes.imp fun _ stays => stays.imp fun _ => .inr) disk) (ensures_true _)
    fun removed _ after => ?_
  cases removed with
  | false => trivial
  | true => exact confined_placePackage leads below after

theorem stays_destParent (leads : LeadsInside env name version) (station : Path)
    (member : station ∈ (destPath env name version).parentPath.stations) :
    StaysWithin (fun path => tmpPath <+: path ∨ InsidePackage env name path) (AbovePackage env name)
      (.createDirectories station) :=
  (stays_createDirectories (leads.destParent station member)).imp fun _ => .inr

theorem confined_unzip (contained : UnzipContained archive temporary id) (isFresh : IsFresh temporary id disk) :
    Confined (WithinPackageOr env (makeTempPath temporary id) name) (unzip archive (makeTempPath temporary id)) disk :=
  (contained disk isFresh).imp
    (fun _ _ only => only.imp (fun _ inside => .inl inside.1) fun _ same => .inl (.inl (same ▸ List.prefix_rfl)))
    fun _ _ ends => ends

theorem confined_addPackage {fileType : String} {force : Bool} (leads : LeadsInside env name version)
    (unpacks : UnpacksFor env name archive temporary id disk) :
    Confined (WithinPackageOr env (makeTempPath temporary id) name)
      (addPackage env (.ok ⟨name, version, arch⟩) fileType archive (makeTempPath temporary id) force) disk := by
  rw [addPackage]
  split
  · trivial
  · have makesParent (base : Path) :
        Calls (StaysWithin (fun path => makeTempPath temporary id <+: path ∨ InsidePackage env name path)
          (AbovePackage env name)) (prepareUnpacked env ⟨name, version, arch⟩ base force) :=
      calls_prepareUnpacked staysWithin_access (stays_destParent leads)
    have prepares : Confined (WithinPackageOr env (makeTempPath temporary id) name)
        (prepare env (.ok ⟨name, version, arch⟩) archive (makeTempPath temporary id) force) disk := by
      refine confined_bind
        (confined_bind (confined_unzip unpacks.contained unpacks.isFresh) (ensures_true _) fun _ _ after => ?_)
        (ensures_true _) fun base _ after => ?_
      · exact confined_of_staysWithin (calls_findBase staysWithin_access _) after
      · exact confined_of_staysWithin (makesParent base) after
    refine confined_bind prepares (ensures_prepare _ archive _ force) fun found isFound after => ?_
    obtain ⟨spec, base⟩ := found
    obtain ⟨isSpec, below⟩ := isFound
    obtain rfl := Except.ok.inj isSpec
    cases base with
    | none => trivial
    | some base =>
      exact confined_bind (confined_replacePackage leads (below base rfl) after) (ensures_true _) fun _ _ _ => trivial

/-- What is made near the package leaves the temporary directory alone. -/
theorem IsFresh.makeNear (isFresh : IsFresh temporary id disk) (near : NearPackage env name path)
    (apart : ∀ dir ∈ packageDirs env name, Path.Apart (makeTempPath temporary id) dir)
    (feasible : (FileCall.createDirectories path).feasible disk = true) :
    IsFresh temporary id ((FileCall.createDirectories path).perform disk) where
  closed := FileCall.closed_perform isFresh.closed feasible
  isDirectory := isDirectory_perform_of_isDirectory isFresh.isDirectory
  absent below isBelow := by
    rw [FileCall.perform, Disk.hasEntry_makeAll, isFresh.absent below isBelow, Bool.false_or, decide_eq_false_iff_not]
    intro isAbove
    obtain ⟨dir, isDir, aligned⟩ := near.above (isBelow.trans isAbove)
    exact aligned.elim (apart dir isDir).1 (apart dir isDir).2

theorem along_createNear (isNew : Bool) {stations : List Path} (near : ∀ station ∈ stations, NearPackage env name station)
    (apart : ∀ dir ∈ packageDirs env name, Path.Apart (makeTempPath temporary id) dir) (isFresh : IsFresh temporary id disk) :
    Along (WithinPackageOr env (makeTempPath temporary id) name)
      (fun result after => ∀ isNew, result = .ok isNew → IsFresh temporary id after) (createEach isNew stations) disk := by
  induction stations generalizing isNew disk with
  | nil => exact fun _ _ => isFresh
  | cons station stations inductionHypothesis =>
    rw [List.forall_mem_cons] at near
    refine along_require_bind.mpr fun outcome => ⟨?_, ?_⟩
    · exact changesOnly_of_staysWithin ((stays_createDirectories near.1).imp fun _ => .inr) disk outcome
    · split
      · rename_i succeeds
        obtain ⟨feasible, performed⟩ := FileCall.attempt_succeeds succeeds
        rw [performed]
        exact inductionHypothesis _ near.2 (isFresh.makeNear near.1 apart feasible)
      · exact fun _ same => by cases same

theorem confined_extractPackage (leads : LeadsInside env name version)
    (unpacks : UnpacksFor env name archive temporary id disk) :
    Confined (WithinPackageOr env (makeTempPath temporary id) name)
      (extractPackage env ⟨name, version, arch⟩ archive (makeTempPath temporary id)) disk := by
  rw [extractPackage_eq]
  refine confined_bind ?_ (ensures_extractedBase _ archive _) fun base below after => confined_placePackage leads below after
  have goesOn (after : Disk) (isFresh : IsFresh temporary id after) :
      Confined (WithinPackageOr env (makeTempPath temporary id) name) (unzip archive (makeTempPath temporary id) >>= fun _ =>
        foundBase (makeTempPath temporary id)) after := by
    refine confined_bind (confined_unzip unpacks.contained isFresh) (ensures_true _) fun _ _ later => ?_
    refine confined_of_staysWithin (calls_bind (calls_lookUp staysWithin_access _ _) fun found => ?_) later
    cases found <;> trivial
  refine along_bind.mpr ?_
  simp only [makeRoom]
  split
  · trivial
  · refine (along_lookUp_bind changesOnly_refl trivial).mpr ?_
    split
    · trivial
    · refine along_bind.mpr
        ((along_createNear false leads.destParent unpacks.apart unpacks.isFresh).imp (fun _ _ only => only) ?_)
      rintro (error | isNew) after fresh
      · trivial
      · exact goesOn after (fresh isNew rfl)

/-! ## Operations that leave the package -/

/-- A disk with these directories and those above them. -/
def directoriesOf (paths : List Path) : Disk :=
  paths.foldl (fun disk path => (FileCall.createDirectories path).perform disk) ∅

/-- There are only directories, so that nothing is in the way of another. -/
structure OnlyDirectories (disk : Disk) : Prop where
  closed : disk.Closed
  noFile : ∀ path, disk.isFile path = false

theorem OnlyDirectories.feasible (only : OnlyDirectories disk) (path : Path) :
    (FileCall.createDirectories path).feasible disk = true := feasible_createDirectories.mpr fun above _ => only.noFile above

theorem OnlyDirectories.createDirectories (only : OnlyDirectories disk) (path : Path) :
    OnlyDirectories ((FileCall.createDirectories path).perform disk) where
  closed := FileCall.closed_perform only.closed (only.feasible path)
  noFile other := (isFile_makeDirectories path other).trans (only.noFile other)

theorem onlyDirectories_empty : OnlyDirectories ∅ := ⟨Disk.closed_empty, fun _ => rfl⟩

theorem foldl_createDirectories {paths : List Path} (only : OnlyDirectories disk) :
    OnlyDirectories (paths.foldl (fun disk path => (FileCall.createDirectories path).perform disk) disk) ∧
      ∀ other, (paths.foldl (fun disk path => (FileCall.createDirectories path).perform disk) disk).hasEntry other = true ↔
        disk.hasEntry other = true ∨ ∃ path ∈ paths, other <+: path := by
  induction paths generalizing disk with
  | nil => exact ⟨only, fun other => by simp⟩
  | cons path paths inductionHypothesis =>
    obtain ⟨onlyAfter, entries⟩ := inductionHypothesis (only.createDirectories path)
    refine ⟨onlyAfter, fun other => (entries other).trans ?_⟩
    rw [FileCall.perform, Disk.hasEntry_makeAll]
    simp [or_assoc]

theorem onlyDirectories_directoriesOf (paths : List Path) : OnlyDirectories (directoriesOf paths) :=
  (foldl_createDirectories onlyDirectories_empty).1

theorem hasEntry_directoriesOf {paths : List Path} (other : Path) :
    (directoriesOf paths).hasEntry other = true ↔ ∃ path ∈ paths, other <+: path := by
  rw [directoriesOf, (foldl_createDirectories onlyDirectories_empty).2]
  exact or_iff_right fun present => by cases present

theorem OnlyDirectories.isDirectory (only : OnlyDirectories disk) (present : disk.hasEntry path = true) :
    disk.isDirectory path = true := by
  have noFile := only.noFile path
  rwa [Disk.isFile, present, Bool.true_and, Bool.not_eq_false'] at noFile

/-- Where all stations are there, the path leads where its names lead. -/
theorem OnlyDirectories.follow (only : OnlyDirectories disk)
    (there : ∀ station ∈ spelled.stations, disk.hasEntry station = true) :
    disk.hasEntry spelled.leadsTo = true ∧ foundOn spelled disk = some spelled.leadsTo := by
  obtain ⟨isDirectory, follows⟩ :=
    SpelledPath.isDirectory_of_stationsFrom (fun _ _ => only.closed.isDirectory_above)
      (fun notAhead => Bool.noConfusion notAhead) fun station member => only.isDirectory (there station member)
  exact ⟨Disk.hasEntry_of_isDirectory isDirectory, follows⟩

theorem confined_locate_bind {β : Type} {good : Disk → Disk → Prop} {next : Option Path → StoreProgram β}
    (follows : foundOn spelled disk = some spelled.leadsTo)
    (confined : Confined good (locate spelled spelled.seen >>= next) disk) :
    Confined good (next (some spelled.leadsTo)) disk := by
  rw [locate] at confined
  split at confined
  · exact confined
  · rw [← follows]
    exact confined

/-- What is removed without leaving the package is inside. -/
theorem inside_of_removed (present : disk.hasEntry path = true)
    (within : WithinPackage env name disk ((FileCall.removeAll path).perform disk)) : InsidePackage env name path := by
  have gone : ((FileCall.removeAll path).perform disk).entry path = none := by
    rw [FileCall.perform, Disk.entry_removeBelow, if_pos ⟨List.prefix_rfl, rfl⟩]
  rcases within path with same | inside | ⟨_, absent, _⟩
  · rw [Disk.hasEntry, ← same, gone] at present
    cases present
  · exact inside
  · rw [Disk.hasEntry, absent] at present
    cases present

theorem removesInside_of_confined {β : Type} {next : Bool → StoreProgram β} (only : OnlyDirectories disk)
    (there : ∀ station ∈ spelled.stations, disk.hasEntry station = true)
    (inhabited : disk.hasEntry (spelled.leadsTo ++ ["entry"]) = true)
    (confined : Confined (WithinPackage env name) (removeAll spelled >>= next) disk) : RemovesInside env name spelled := by
  obtain ⟨present, follows⟩ := only.follow there
  rw [removeAll, bind_assoc] at confined
  have goesOn := confined_locate_bind follows confined
  rw [RemovesInside]
  dsimp only at goesOn
  split
  · rename_i endsInDots
    rw [if_pos endsInDots] at goesOn
    -- Each entry of the directory is removed, so the first is enough.
    have listed : spelled.leadsTo ++ ["entry"] ∈ entriesIn spelled.leadsTo disk := mem_entriesIn_of_hasEntry inhabited
    simp only [bind_assoc] at goesOn
    have eachGone : Confined (WithinPackage env name) (removeEach (entriesIn spelled.leadsTo disk) >>= _) disk := goesOn
    cases entries : entriesIn spelled.leadsTo disk with
    | nil =>
      rw [entries] at listed
      cases listed
    | cons first rest =>
      have member : first ∈ entriesIn spelled.leadsTo disk := entries ▸ List.mem_cons_self
      rw [entries] at eachGone
      have removed := (eachGone {}).1
      rw [FileCall.attempt_feasible rfl] at removed
      obtain ⟨dir, isDir, isPrefix, different⟩ := inside_of_removed (hasEntry_of_mem_entriesIn member) removed
      obtain ⟨nonempty, parent⟩ := mem_entriesIn member
      rw [← List.dropLast_append_getLast nonempty, parent] at isPrefix different
      exact ⟨dir, isDir, (List.prefix_concat_iff.mp isPrefix).resolve_left fun same => different same.symm⟩
  · rename_i down
    rw [if_neg down] at goesOn
    have removed := (along_attempt_bind.mp goesOn {}).1
    rw [FileCall.attempt_feasible rfl] at removed
    exact inside_of_removed present removed

/-- Only directories on the way to the package or in it are there. -/
structure OnlyNear (env : StoreEnvironment) (name : String) (disk : Disk) : Prop extends OnlyDirectories disk where
  near : ∀ path, disk.hasEntry path = true → NearPackage env name path

variable {mayChange : Path → Prop}

/-- A directory that is made without leaving the package is near it. -/
theorem OnlyNear.near_of_made (only : OnlyNear env name disk) (isInside : mayChange path → InsidePackage env name path)
    (within : ChangesOnly mayChange (AbovePackage env name) disk ((FileCall.createDirectories path).perform disk)) :
    NearPackage env name path := by
  by_cases present : disk.hasEntry path = true
  · exact only.near path present
  · rcases within path with same | changes | ⟨⟨dir, isDir, isPrefix⟩, -, -⟩
    · have made := isDirectory_perform (only.feasible path)
      rw [Disk.isDirectory_iff, same] at made
      rw [Disk.hasEntry, made] at present
      exact absurd rfl present
    · obtain ⟨dir, isDir, isPrefix, _⟩ := isInside changes
      exact ⟨dir, isDir, .inr isPrefix⟩
    · exact ⟨dir, isDir, .inl isPrefix⟩

theorem OnlyNear.makeNear (only : OnlyNear env name disk) (near : NearPackage env name path) :
    OnlyNear env name ((FileCall.createDirectories path).perform disk) where
  toOnlyDirectories := only.createDirectories path
  near other present := by
    rw [FileCall.perform, Disk.hasEntry_makeAll, Bool.or_eq_true, decide_eq_true_eq] at present
    exact present.elim (only.near other) near.above

theorem near_of_createEach {β : Type} {next : Bool → StoreProgram β} {isNew : Bool} {stations : List Path}
    (only : OnlyNear env name disk) (areInside : ∀ station ∈ stations, mayChange station → InsidePackage env name station)
    (confined : Confined (ChangesOnly mayChange (AbovePackage env name)) (createEach isNew stations >>= next) disk) :
    ∀ station ∈ stations, NearPackage env name station := by
  induction stations generalizing isNew disk with
  | nil => simp
  | cons station stations inductionHypothesis =>
    rw [List.forall_mem_cons] at areInside ⊢
    have step : Confined (ChangesOnly mayChange (AbovePackage env name))
        (require (.createDirectories station) .fileSystem >>= fun _ =>
          createEach (!disk.hasEntry station) stations >>= next) disk := by
      simp only [createEach, bind_assoc] at confined
      exact confined
    have made := along_require_bind.mp step {}
    rw [FileCall.attempt_feasible (only.feasible station), if_pos rfl] at made
    have near := only.near_of_made areInside.1 made.1
    exact ⟨near, inductionHypothesis (only.makeNear near) areInside.2 made.2⟩

theorem near_of_attemptEach {β : Type} {next : Bool → StoreProgram β} {stations : List Path} (only : OnlyNear env name disk)
    (confined : Confined (WithinPackage env name) (attemptEach stations >>= next) disk) :
    ∀ station ∈ stations, NearPackage env name station := by
  induction stations generalizing disk with
  | nil => simp
  | cons station stations inductionHypothesis =>
    rw [List.forall_mem_cons]
    have made := confined {}
    rw [FileCall.attempt_feasible (only.feasible station)] at made
    have near := only.near_of_made id made.1
    exact ⟨near, inductionHypothesis (only.makeNear near) made.2⟩

theorem packageDirs_nonempty {dir : Path} (isDir : dir ∈ packageDirs env name) : dir ≠ [] := by
  obtain ⟨root, _, rfl⟩ := List.mem_map.mp isDir
  simp

/-! ### Each part of the condition -/

/-- All that leads to the path, and something in it. -/
def inhabited (spelled : SpelledPath) : Disk := directoriesOf ((spelled.leadsTo ++ ["entry"]) :: spelled.stations)

theorem station_inhabited (spelled : SpelledPath) (station : Path) (member : station ∈ spelled.stations) :
    (inhabited spelled).hasEntry station = true :=
  (hasEntry_directoriesOf station).mpr ⟨station, List.mem_cons_of_mem _ member, List.prefix_rfl⟩

theorem entry_inhabited (spelled : SpelledPath) : (inhabited spelled).hasEntry (spelled.leadsTo ++ ["entry"]) = true :=
  (hasEntry_directoriesOf _).mpr ⟨_, List.mem_cons_self, List.prefix_rfl⟩

theorem removesInside_of_inhabited {β : Type} {next : Bool → StoreProgram β}
    (confined : Confined (WithinPackage env name) (removeAll spelled >>= next) (inhabited spelled)) :
    RemovesInside env name spelled :=
  removesInside_of_confined (onlyDirectories_directoriesOf _) (station_inhabited spelled) (entry_inhabited spelled) confined

theorem removesInside_dest (contained : OperationsContained env name version) :
    RemovesInside env name (destPath env name version) := by
  have only : OnlyDirectories (inhabited (versionDir (SpelledPath.slash (packagesPath env) name) version)) :=
    onlyDirectories_directoriesOf _
  have confined := contained.task _ only.closed
  rw [taskRemovePackage_eq] at confined
  exact removesInside_versionDir.mp (removesInside_of_inhabited confined)

theorem removesInside_mirror (contained : OperationsContained env name version) (mirrored : folder ∈ mirroredFolders) :
    RemovesInside env name (mirroredPkgDir env folder name version) := by
  have only : OnlyDirectories (inhabited (versionDir (mirroredPkg env folder name) version)) := onlyDirectories_directoriesOf _
  have confined := contained.unmirror folder mirrored _ only.closed
  rw [unmirrorFolder_eq, hasEntry, confined_lookUp_bind changesOnly_refl] at confined
  obtain ⟨present, follows⟩ := only.follow (station_inhabited _)
  rw [isOn, follows, Option.any_some, if_pos present] at confined
  exact removesInside_versionDir.mp (removesInside_of_inhabited confined)

/-- With the directory of the packages alone there is nothing at the destination. -/
theorem not_isOn_dest (removes : RemovesInside env name (destPath env name version)) :
    isOn (destPath env name version) (onlyDirectory []) = false := by
  rw [isOn, Option.any_eq_false]
  intro found follows
  rw [hasEntry_onlyDirectory, decide_eq_false_iff_not]
  intro isPrefix
  obtain ⟨dir, isDir, above⟩ := below_of_removesInside removes
  rw [foundOn] at follows
  rw [SpelledPath.leadsTo, ← SpelledPath.eq_of_follow follows] at above
  exact packageDirs_nonempty isDir (List.prefix_nil.mp (above.trans isPrefix))

theorem onlyNear_onlyDirectory (env : StoreEnvironment) (name : String) : OnlyNear env name (onlyDirectory []) where
  closed := closed_onlyDirectory []
  noFile path := by
    rw [Disk.isFile, hasEntry_onlyDirectory, isDirectory_onlyDirectory]
    cases decide (path <+: []) <;> rfl
  near path present := by
    rw [hasEntry_onlyDirectory, decide_eq_true_eq] at present
    exact ⟨_, List.mem_cons_self, .inl (present.trans (List.nil_prefix))⟩

theorem length_packageDirs {dir : Path} (isDir : dir ∈ packageDirs env name) : env.home.length + 2 ≤ dir.length := by
  simp only [packageDirs, mirroredFolders, List.map_cons, List.map_nil, List.mem_cons, List.not_mem_nil, or_false] at isDir
  rcases isDir with rfl | rfl | rfl <;> simp [packagesPath, mirrorRoot]

theorem version_ne_empty (isName : Path.IsName name) (removes : RemovesInside env name (destPath env name version)) :
    version ≠ "" := by
  rintro rfl
  have isPlain : (SpelledPath.slash (packagesPath env) name).IsPlain := SpelledPath.isPlain_name _ isName
  rw [RemovesInside, destPath, SpelledPath.leadsTo_slash_empty, SpelledPath.endsInDots, SpelledPath.trimmed_slash_empty,
    ← SpelledPath.endsInDots, isPlain.endsInDots_eq, isPlain.leadsTo_eq, SpelledPath.slash_name _ isName] at removes
  obtain ⟨dir, isDir, isPrefix, different⟩ := removes
  have longEnough := length_packageDirs isDir
  refine different (isPrefix.eq_of_length_le ?_).symm
  simp only [packagesPath, List.length_append, List.length_cons, List.length_nil]
  omega

/-- There are always other identifiers than those that are given. -/
theorem exists_other (paths : List Path) : ∃ id, ∀ path ∈ paths, id ∉ path := by
  obtain ⟨id, other⟩ := Infinite.exists_notMem_finset paths.flatten.toFinset
  exact ⟨id, fun path member isId => other (List.mem_toFinset.mpr (List.mem_flatten.mpr ⟨path, member, isId⟩))⟩

theorem makesNear_destParent (contained : OperationsContained env name version) :
    MakesNear env name (destPath env name version).parentPath := by
  have removes := removesInside_dest contained
  obtain ⟨id, other⟩ := exists_other ((destPath env name version).parentPath.stations ++ packageDirs env name)
  have notBelow {path : Path} (isOther : id ∉ path) : ¬ makeTempPath [] id <+: path :=
    fun isPrefix => isOther (isPrefix.subset (List.mem_singleton_self id))
  -- An archive that cannot be read is extracted into an empty root: only the parent of the destination is made.
  have unpacks : UnpacksFor env name none [] id (onlyDirectory []) :=
    { isFresh := isFresh_onlyDirectory [] id
      apart := fun dir isDir => by
        have isOther := other dir (List.mem_append_right _ isDir)
        refine ⟨notBelow isOther, fun isPrefix => ?_⟩
        have short := (length_packageDirs isDir).trans isPrefix.length_le
        simp [makeTempPath] at short
      contained := (unzip_contained_iff none [] id).mpr trivial }
  have confined := contained.extract none [] id "x86_64" _ unpacks
  have isComplete : (PackageSpec.mk name version "x86_64").isComplete = true := by
    have noName : name ≠ "" := fun isEmpty => contained.isName.notDots (isEmpty ▸ List.mem_cons_self)
    simp [PackageSpec.isComplete, noName, version_ne_empty contained.isName removes]
  simp only [extractPackage_eq, extractedBase, makeRoom, isComplete, Bool.not_true, Bool.false_eq_true, if_false,
    bind_assoc] at confined
  rw [hasEntry, confined_lookUp_bind changesOnly_refl, not_isOn_dest removes] at confined
  simp only [Bool.false_eq_true, if_false, bind_assoc] at confined
  exact near_of_createEach (onlyNear_onlyDirectory env name)
    (fun station member changes => changes.resolve_left (notBelow (other station (List.mem_append_left _ member)))) confined

theorem makesNear_of_parent (nonempty : spelled.names ≠ []) (parent : MakesNear env name spelled.parentPath)
    (near : NearPackage env name spelled.leadsTo) : MakesNear env name spelled := by
  intro station member
  rcases SpelledPath.mem_stations_parentPath nonempty member with earlier | rfl
  · exact parent station earlier
  · exact near

theorem makesNear_mirror (contained : OperationsContained env name version) (mirrored : folder ∈ mirroredFolders) :
    MakesNear env name (mirroredPkgDir env folder name version) := by
  have isFolder : Path.IsName folder := isName_mirroredFolder mirrored
  obtain ⟨dir, isDir, above⟩ := below_of_removesInside (removesInside_dest contained)
  have destNear : MakesNear env name (destPath env name version) :=
    makesNear_of_parent (SpelledPath.names_slash_ne_nil _ _) (makesNear_destParent contained) ⟨dir, isDir, .inr above⟩
  have sourceNear : MakesNear env name ((destPath env name version).slash folder) := by
    refine makesNear_of_parent (SpelledPath.names_slash_ne_nil _ _) ?_ ⟨dir, isDir, .inr ?_⟩
    · rwa [SpelledPath.parentPath_slash_name _ isFolder]
    · rcases SpelledPath.leadsTo_slash_name (destPath env name version) isFolder with same | same <;> rw [same]
      · exact above
      · exact above.trans (List.prefix_append _ _)
  -- On a disk on which there is nothing but what leads to the folder, its mirror is made.
  have only : OnlyNear env name (directoriesOf ((destPath env name version).slash folder).stations) :=
    { onlyDirectories_directoriesOf _ with
      near := fun path present => by
        obtain ⟨station, member, isAbove⟩ := (hasEntry_directoriesOf path).mp present
        exact (sourceNear station member).above isAbove }
  obtain ⟨present, follows⟩ :=
    only.follow fun station member => (hasEntry_directoriesOf station).mpr ⟨station, member, List.prefix_rfl⟩
  have confined := contained.mirror folder mirrored _ only.closed
  rw [mirrorFolder, hasEntry, confined_lookUp_bind changesOnly_refl, isOn, follows, Option.any_some,
    if_neg (by simp [present]), isDirectory, confined_lookUp_bind changesOnly_refl, follows, Option.any_some,
    if_neg (by simp [only.isDirectory present])] at confined
  exact near_of_attemptEach only confined

/-- The operations are contained exactly if every entry that is unpacked stays inside the temporary directory, and name
and version lead into the directories of the package. -/
theorem packageOperations_contained_iff (env : StoreEnvironment) (archive : ZipArchive) (temporary : Path)
    (id name version : String) :
    UnzipContained archive temporary id ∧ OperationsContained env name version ↔
      EntriesStay (makeTempPath temporary id) (onlyDirectory (makeTempPath temporary id)) (archive.getD []) ∧
        LeadsInside env name version := by
  refine and_congr (unzip_contained_iff archive temporary id) ⟨fun contained => ?_, fun leads => ?_⟩
  · exact
      { isName := contained.isName
        dest := removesInside_dest contained
        destParent := makesNear_destParent contained
        mirrors := fun folder mirrored => removesInside_mirror contained mirrored
        mirrorsMade := fun folder mirrored => makesNear_mirror contained mirrored }
  · have removalsOfMirrors (folder : String) (mirrored : folder ∈ mirroredFolders) :
        RemovalAllowed (StaysWithinPackage env name) (versionDir (mirroredPkg env folder name) version) :=
      removalAllowed_of_removesInside (removesInside_versionDir.mpr (leads.mirrors folder mirrored))
    have removal := removalAllowed_of_removesInside leads.dest
    have removalOfAll := removalAllowed_of_removesInside (removesInside_versionDir.mpr leads.dest)
    exact
      { isName := leads.isName
        add := fun _ _ _ _ _ _ _ unpacks => confined_addPackage leads unpacks
        extract := fun _ _ _ _ _ unpacks => confined_extractPackage leads unpacks
        remove := fun disk _ => confined_of_staysWithin (calls_removePackage staysWithin_access removal removalsOfMirrors) disk
        task := fun disk _ => confined_of_staysWithin (calls_taskRemovePackage removalOfAll) disk
        mirror := fun folder mirrored disk _ =>
          confined_of_staysWithin (calls_mirrorFolder staysWithin_access (mirrorAllowed_of_leadsInside leads mirrored) _) disk
        unmirror := fun folder mirrored disk _ =>
          confined_of_staysWithin (calls_unmirrorFolder staysWithin_access (removalsOfMirrors folder mirrored)) disk }

/-- The entry of this archive is written beside the temporary directory. -/
theorem evilArchive_not_contained :
    ¬ (UnzipContained (some [.file "../evil" (some "x")]) ["tmp"] "unpack" ∧
      OperationsContained ⟨["home"], "x86_64"⟩ "nav" "1.0") := by
  rintro ⟨contained, -⟩
  -- In the run in which every call succeeds, the file is there in the end.
  have confined : Confined _ _ (FileState.mk (onlyDirectory ["tmp"]) []).disk :=
    contained _ (isFresh_onlyDirectory ["tmp"] "unpack")
  have changed := (along_run changesOnly_refl changesOnly_trans confined fun _ _ => {}).1
  rcases changed ["tmp", "evil"] with same | inside | ⟨made, -, -⟩
  · exact absurd same (by decide)
  · exact absurd inside (by decide)
  · exact absurd made (by decide)

end AbilityFramework.ResourceMgr.StoreManager
