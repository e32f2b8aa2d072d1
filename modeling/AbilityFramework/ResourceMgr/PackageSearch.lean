import AbilityFramework.ResourceMgr.PackageAtomicity
import AbilityFramework.ResourceMgr.ResourceUpdate

/-! # The search of packages

What a search comes upon first it finds as it is on the disk (`search_head`).  Where the mirrors of packages lie apart
from the packages, it finds all that is on the disk, and each package can be the last (`foundPackages_perm`,
`found_lastAt`). -/

namespace AbilityFramework.ResourceMgr.ResourceManager

open Library

/-- As the rows of the disk are. -/
def plainEnumeration : Enumeration where
  searching := id
  mirroring := id
  scanning := id
  readAt _ := 0
  searching_same _ := .refl _
  mirroring_same _ := .refl _
  scanning_same _ := .refl _

/-- The package is read, and its CRD can be written. -/
def Loads (env : ManagerEnvironment) (found : Except CRException AbilityPackage) : Prop :=
  ∃ pkg row, found = .ok pkg ∧ pkg.crdRow env = .ok row

/-- Mirroring packages changes nothing among them. -/
def MirrorsApart (env : ManagerEnvironment) (disk : Disk) : Prop :=
  ∀ (enumeration : Enumeration) (packages : List AbilityPackage), (∀ pkg ∈ packages, .ok pkg ∈ packagesOn env disk) →
    ∀ path, packagesPath env <+: path →
      (packages.foldl (mirrorPackage env enumeration) disk).entry path = disk.entry path

variable {env : ManagerEnvironment} {enumeration : Enumeration} {disk : Disk} {crds : AbilityCRDBasic} {loading : Loading}
  {pkg : AbilityPackage} {found : Except CRException AbilityPackage} {later : List (Except CRException AbilityPackage)}

/-! ## Once something throws -/

theorem run_loadVersion_thrown (ended : loading.thrown.isSome = true) (paths : List Path) :
    Runs.run (loadVersion env enumeration) loading paths = loading :=
  Runs.run_eq_self fun _ _ => if_pos ended

theorem run_loadVersions_thrown (ended : loading.thrown.isSome = true) (paths : List Path) :
    Runs.run (loadVersions env enumeration) loading paths = loading :=
  Runs.run_eq_self fun _ _ => run_loadVersion_thrown ended _

/-! ## Packages that have been found stay -/

theorem packages_loadVersion (loading : Loading) (versionDir : Path) :
    loading.packages <+: (loadVersion env enumeration loading versionDir).packages := by
  rw [loadVersion]
  split
  · exact List.prefix_refl _
  · split
    · exact List.prefix_refl _
    · rename_i found _
      cases found with
      | error exception => exact List.prefix_refl _
      | ok pkg =>
        rw [loadFound, loadPackage]
        split <;> exact List.prefix_append _ _

theorem packages_run_loadVersion (loading : Loading) (paths : List Path) :
    loading.packages <+: (Runs.run (loadVersion env enumeration) loading paths).packages :=
  Runs.run_invariant (fun state => loading.packages <+: state.packages)
    (fun state path isPrefix => isPrefix.trans (packages_loadVersion state path)) loading (List.prefix_refl _) paths

theorem packages_run_loadVersions (loading : Loading) (paths : List Path) :
    loading.packages <+: (Runs.run (loadVersions env enumeration) loading paths).packages :=
  Runs.run_invariant (fun state => loading.packages <+: state.packages)
    (fun state _ isPrefix => isPrefix.trans (packages_run_loadVersion state _)) loading (List.prefix_refl _) paths

/-! ## The first that is found -/

theorem run_loadVersion_nothing {paths : List Path} (nothing : paths.filterMap (readVersionDirectory env loading.disk) = []) :
    Runs.run (loadVersion env enumeration) loading paths = loading := by
  refine Runs.run_eq_self fun path member => ?_
  rw [loadVersion, List.filterMap_eq_nil_iff.mp nothing path member, ite_self]

theorem run_loadVersion_head {paths : List Path} (goesOn : loading.thrown = none)
    (head : paths.filterMap (readVersionDirectory env loading.disk) = found :: later) :
    ∃ rest, Runs.run (loadVersion env enumeration) loading paths =
      Runs.run (loadVersion env enumeration) (loadFound env enumeration loading found) rest := by
  induction paths with
  | nil => cases head
  | cons path paths inductionHypothesis =>
    rw [Runs.run_cons, loadVersion, goesOn]
    cases reads : readVersionDirectory env loading.disk path with
    | none =>
      rw [List.filterMap_cons_none reads] at head
      exact inductionHypothesis head
    | some first =>
      rw [List.filterMap_cons_some reads] at head
      obtain rfl := (List.cons.inj head).1
      exact ⟨paths, rfl⟩

/-- What the directories of packages hold as long as nothing is mirrored. -/
def heldIn (env : ManagerEnvironment) (disk listed : Disk) (pkgDir : Path) : List (Except CRException AbilityPackage) :=
  (StoreManager.subdirectories pkgDir listed).filterMap (readVersionDirectory env disk)

theorem run_loadVersions_head {pkgDirs : List Path} (goesOn : loading.thrown = none)
    (head : pkgDirs.flatMap (heldIn env loading.disk (enumeration.searching loading.disk)) = found :: later) :
    ∃ paths rest, Runs.run (loadVersions env enumeration) loading pkgDirs =
      Runs.run (loadVersions env enumeration)
        (Runs.run (loadVersion env enumeration) (loadFound env enumeration loading found) paths) rest := by
  induction pkgDirs with
  | nil => cases head
  | cons pkgDir pkgDirs inductionHypothesis =>
    rw [Runs.run_cons, loadVersions]
    rw [List.flatMap_cons] at head
    cases held : heldIn env loading.disk (enumeration.searching loading.disk) pkgDir with
    | nil =>
      rw [held] at head
      rw [run_loadVersion_nothing held]
      exact inductionHypothesis head
    | cons first others =>
      rw [held] at head
      obtain rfl := (List.cons.inj head).1
      obtain ⟨paths, same⟩ := run_loadVersion_head goesOn held
      exact ⟨paths, pkgDirs, by rw [same]⟩

/-- The search does with the first what it does with it on the disk as it is. -/
theorem search_head (head : packagesOn env (enumeration.searching disk) = found :: later) (crds : AbilityCRDBasic) :
    ∃ paths rest, recursivelySearchPackages env enumeration { disk, crds } =
      Runs.run (loadVersions env enumeration)
        (Runs.run (loadVersion env enumeration) (loadFound env enumeration { disk, crds } found) paths) rest := by
  have same := enumeration.searching_same disk
  rw [packagesOn, isDirectory_congr same, readVersionDirectory_congr same] at head
  rw [recursivelySearchPackages]
  split at head
  · rename_i isDirectory
    rw [if_pos isDirectory]
    exact run_loadVersions_head rfl head
  · rename_i noDirectory
    rw [if_neg noDirectory]
    obtain rfl := (List.cons.inj head).1
    exact ⟨[], [], rfl⟩

theorem search_head_stops (head : packagesOn env (enumeration.searching disk) = found :: later)
    (stops : (loadFound env enumeration { disk, crds } found).thrown.isSome = true) :
    recursivelySearchPackages env enumeration { disk, crds } = loadFound env enumeration { disk, crds } found := by
  obtain ⟨paths, rest, same⟩ := search_head head crds
  rw [same, run_loadVersion_thrown stops, run_loadVersions_thrown stops]

theorem found_head (head : packagesOn env (enumeration.searching disk) = .ok pkg :: later) :
    ∃ more, foundPackages env enumeration disk = pkg :: more := by
  obtain ⟨paths, rest, same⟩ := search_head head ∅
  have isFirst : (loadFound env enumeration { disk, crds := ∅ } (.ok pkg)).packages = [pkg] := by
    rw [loadFound, loadPackage]
    split <;> rfl
  obtain ⟨more, isMore⟩ := (packages_run_loadVersion _ paths).trans (packages_run_loadVersions _ rest)
  rw [isFirst, ← same] at isMore
  exact ⟨more, isMore.symm⟩

theorem not_loads_iff : ¬ Loads env (.ok pkg) ↔ ∃ exception, pkg.crdRow env = .error exception := by
  rw [← not_succeeds_iff, not_iff_not]
  constructor
  · rintro ⟨_, row, same, isRow⟩
    cases same
    exact ⟨row, isRow⟩
  · rintro ⟨row, isRow⟩
    exact ⟨pkg, row, rfl, isRow⟩

/-- A package that is read first and whose CRD cannot be written is the only one. -/
theorem found_unstorable (unstorable : ¬ Loads env (.ok pkg))
    (head : packagesOn env (enumeration.searching disk) = .ok pkg :: later) :
    foundPackages env enumeration disk = [pkg] ∧ ¬ SearchCompletes env enumeration disk := by
  obtain ⟨exception, throws⟩ := not_loads_iff.mp unstorable
  have stopped : loadFound env enumeration { disk, crds := ∅ } (.ok pkg) =
      { disk, crds := ∅, packages := [pkg], thrown := some exception } := loadPackage_error throws
  have search : recursivelySearchPackages env enumeration { disk, crds := ∅ } = _ :=
    search_head_stops head (by rw [stopped]; rfl)
  rw [foundPackages, SearchCompletes, search, stopped]
  exact ⟨rfl, Option.some_ne_none _⟩

theorem crdRows_unstorable (unstorable : ¬ Loads env (.ok pkg)) : crdRows env [pkg] = [] := by
  obtain ⟨exception, throws⟩ := not_loads_iff.mp unstorable
  simp [crdRows, throws, Except.toOption]

/-- A listing of one disk is another one, the others stay. -/
theorem same_of_choice {choose : Disk → Disk} {arranged : Disk} (same : ∀ disk, (choose disk).SameEntries disk)
    (arrangedSame : arranged.SameEntries disk) (other : Disk) :
    (if other = disk then arranged else choose other).SameEntries other := by
  split
  · rename_i isDisk
    exact isDisk ▸ arrangedSame
  · exact same other

theorem exists_searching {arranged : Disk} (same : arranged.SameEntries disk) :
    ∃ enumeration : Enumeration, enumeration.searching disk = arranged := by
  refine ⟨{ plainEnumeration with
    searching := fun other => if other = disk then arranged else other
    searching_same := same_of_choice (fun _ => .refl _) same }, ?_⟩
  exact if_pos rfl

/-- Whatever is on the disk can be the first. -/
theorem exists_head (member : found ∈ packagesOn env disk) :
    ∃ (enumeration : Enumeration) (later : _), packagesOn env (enumeration.searching disk) = found :: later := by
  obtain ⟨_, same, later, isFirst⟩ := packagesOn_firstAt member
  obtain ⟨enumeration, rfl⟩ := exists_searching same
  exact ⟨enumeration, later, isFirst⟩

/-! ## Where mirrors lie apart -/

theorem readVersionDirectory_apart {other : Disk} {versionDir : Path} (below : packagesPath env <+: versionDir)
    (same : ∀ path, packagesPath env <+: path → other.entry path = disk.entry path) :
    readVersionDirectory env other versionDir = readVersionDirectory env disk versionDir := by
  have sameEntry (name : String) : other.entry (versionDir ++ [name]) = disk.entry (versionDir ++ [name]) :=
    same _ (below.trans (List.prefix_append _ _))
  have sameYaml (name : String) :
      readYamlFromPath env other (versionDir ++ [name]) = readYamlFromPath env disk (versionDir ++ [name]) := by
    rw [readYamlFromPath, readYamlFromPath, Disk.fileAt_of_entry (sameEntry name)]
  rw [readVersionDirectory, readVersionDirectory, isPackage, isPackage, Disk.hasEntry, Disk.hasEntry, Disk.hasEntry,
    Disk.hasEntry, sameEntry, sameEntry, readPackage, readPackage, sameYaml, sameYaml]

theorem subdirectories_apart {listed : Disk} {pkgDir : Path} (below : packagesPath env <+: pkgDir)
    (same : ∀ path, packagesPath env <+: path → listed.entry path = disk.entry path) :
    (StoreManager.subdirectories pkgDir listed).Perm (StoreManager.subdirectories pkgDir disk) := by
  have distinct (disk : Disk) : (StoreManager.subdirectories pkgDir disk).Nodup :=
    (List.filter_sublist.map Prod.fst).nodup disk.keyed
  refine (List.perm_ext_iff_of_nodup (distinct listed) (distinct disk)).mpr fun child => ?_
  rw [mem_subdirectories, mem_subdirectories, Disk.mem_listing, Disk.mem_listing, ← Disk.entry_eq_some,
    ← Disk.entry_eq_some]
  refine and_congr_left fun isChild => ?_
  obtain ⟨_, rfl⟩ := isChild
  rw [same _ (below.trans (List.dropLast_prefix child))]

/-- So it is where names and versions are those of files. -/
theorem mirrorsApart_of_names
    (names : ∀ pkg, .ok pkg ∈ packagesOn env disk → Path.IsName pkg.name ∧ Path.IsName pkg.version) :
    MirrorsApart env disk := by
  intro enumeration packages members path below
  have mirrored (start : Disk) : (packages.foldl (mirrorPackage env enumeration) start).entry path = start.entry path := by
    induction packages generalizing start with
    | nil => rfl
    | cons pkg packages inductionHypothesis =>
      rw [List.forall_mem_cons] at members
      obtain ⟨isName, isVersion⟩ := names pkg members.1
      have calls : FileProgram.Calls _ (StoreManager.mirrorPackage env.store pkg.path ⟨pkg.name, pkg.version, ""⟩) :=
        StoreManager.calls_mirrorPackage_packages pkg.path isName isVersion below
      rw [List.foldl_cons, inductionHypothesis members.2]
      exact (FileProgram.run_entry calls _).trans ((enumeration.mirroring_same start).entry path)
  exact mirrored disk

theorem exists_subdirectories (member : found ∈ packagesOn env disk)
    (isDirectory : disk.isDirectory (packagesPath env) = true) :
    ∃ pkgDir ∈ StoreManager.subdirectories (packagesPath env) disk,
      ∃ versionDir ∈ StoreManager.subdirectories pkgDir disk, readVersionDirectory env disk versionDir = some found := by
  rw [packagesOn, if_pos isDirectory] at member
  obtain ⟨pkgDir, isPkgDir, member⟩ := List.mem_flatMap.mp member
  obtain ⟨versionDir, isVersionDir, reads⟩ := List.mem_filterMap.mp member
  exact ⟨pkgDir, isPkgDir, versionDir, isVersionDir, reads⟩

theorem prefix_of_subdirectory {path child : Path} (member : child ∈ StoreManager.subdirectories path disk) : path <+: child :=
  Disk.prefix_of_mem_listing (mem_subdirectories.mp member)

/-- A search that has not thrown, of packages that are on the disk. -/
structure Searching (env : ManagerEnvironment) (enumeration : Enumeration) (disk : Disk) (loading : Loading) : Prop where
  goesOn : loading.thrown = none
  found : ∀ pkg ∈ loading.packages, .ok pkg ∈ packagesOn env disk
  mirrored : loading.disk = loading.packages.foldl (mirrorPackage env enumeration) disk

/-- The packages among what is found. -/
def packagesAmong (found : List (Except CRException AbilityPackage)) : List AbilityPackage := found.filterMap Except.toOption

theorem mem_packagesAmong {list : List (Except CRException AbilityPackage)} : pkg ∈ packagesAmong list ↔ .ok pkg ∈ list := by
  rw [packagesAmong, List.mem_filterMap]
  constructor
  · rintro ⟨found, member, same⟩
    cases found with
    | ok other =>
      cases same
      exact member
    | error exception => cases same
  · intro member
    exact ⟨.ok pkg, member, rfl⟩

/-- Where a package comes from. -/
structure OnDisk (env : ManagerEnvironment) (disk : Disk) (versionDir : Path) : Prop where
  below : packagesPath env <+: versionDir
  held : ∀ found, readVersionDirectory env disk versionDir = some found → found ∈ packagesOn env disk

theorem onDisk_of_mem {pkgDir versionDir : Path} (isDirectory : disk.isDirectory (packagesPath env) = true)
    (isPkgDir : pkgDir ∈ StoreManager.subdirectories (packagesPath env) disk)
    (isVersionDir : versionDir ∈ StoreManager.subdirectories pkgDir disk) : OnDisk env disk versionDir := by
  refine ⟨(prefix_of_subdirectory isPkgDir).trans (prefix_of_subdirectory isVersionDir), fun found reads => ?_⟩
  rw [packagesOn, if_pos isDirectory]
  exact List.mem_flatMap.mpr ⟨pkgDir, isPkgDir, List.mem_filterMap.mpr ⟨versionDir, isVersionDir, reads⟩⟩

theorem isDirectory_of_allLoad (allLoad : ∀ found ∈ packagesOn env disk, Loads env found) :
    disk.isDirectory (packagesPath env) = true := by
  by_contra noDirectory
  rw [packagesOn, if_neg noDirectory] at allLoad
  obtain ⟨_, _, impossible, _⟩ := allLoad _ (List.mem_singleton_self _)
  cases impossible

section Apart

variable (apart : MirrorsApart env disk) (allLoad : ∀ found ∈ packagesOn env disk, Loads env found)

include apart in
theorem entry_searching (searching : Searching env enumeration disk loading) (path : Path)
    (below : packagesPath env <+: path) : loading.disk.entry path = disk.entry path := by
  rw [searching.mirrored]
  exact apart enumeration loading.packages searching.found path below

include apart in
theorem subdirectories_searching {pkgDir : Path} (searching : Searching env enumeration disk loading)
    (below : packagesPath env <+: pkgDir) :
    (StoreManager.subdirectories pkgDir loading.disk).Perm (StoreManager.subdirectories pkgDir disk) :=
  subdirectories_apart below (entry_searching apart searching)

include apart allLoad

theorem searching_loadVersion {versionDir : Path} (searching : Searching env enumeration disk loading)
    (onDisk : OnDisk env disk versionDir) :
    Searching env enumeration disk (loadVersion env enumeration loading versionDir) ∧
      (loadVersion env enumeration loading versionDir).packages =
        loading.packages ++ packagesAmong (readVersionDirectory env disk versionDir).toList := by
  rw [loadVersion, searching.goesOn, readVersionDirectory_apart onDisk.below (entry_searching apart searching)]
  cases reads : readVersionDirectory env disk versionDir with
  | none => exact ⟨searching, (List.append_nil _).symm⟩
  | some found =>
    obtain ⟨pkg, row, rfl, isRow⟩ := allLoad found (onDisk.held found reads)
    simp only [Option.isSome_none, Bool.false_eq_true, if_false, loadFound, loadPackage_ok isRow]
    refine ⟨⟨searching.goesOn, ?_, ?_⟩, rfl⟩
    · intro other member
      obtain isEarlier | isLast := List.mem_append.mp member
      · exact searching.found other isEarlier
      · rw [List.mem_singleton.mp isLast]
        exact onDisk.held _ reads
    · rw [List.foldl_append, ← searching.mirrored]
      rfl

theorem searching_run_loadVersion {paths : List Path} (searching : Searching env enumeration disk loading)
    (onDisk : ∀ path ∈ paths, OnDisk env disk path) :
    Searching env enumeration disk (Runs.run (loadVersion env enumeration) loading paths) ∧
      (Runs.run (loadVersion env enumeration) loading paths).packages =
        loading.packages ++ packagesAmong (paths.filterMap (readVersionDirectory env disk)) := by
  induction paths generalizing loading with
  | nil => exact ⟨searching, (List.append_nil _).symm⟩
  | cons path paths inductionHypothesis =>
    rw [List.forall_mem_cons] at onDisk
    obtain ⟨stillSearching, added⟩ := searching_loadVersion apart allLoad searching onDisk.1
    obtain ⟨result, packages⟩ := inductionHypothesis stillSearching onDisk.2
    refine ⟨result, ?_⟩
    rw [Runs.run_cons, packages, added, List.append_assoc, packagesAmong, packagesAmong, ← List.filterMap_append]
    cases reads : readVersionDirectory env disk path with
    | none => rw [List.filterMap_cons_none reads]; rfl
    | some found => rw [List.filterMap_cons_some reads]; rfl

theorem searching_loadVersions {pkgDir : Path} (isDirectory : disk.isDirectory (packagesPath env) = true)
    (member : pkgDir ∈ StoreManager.subdirectories (packagesPath env) disk)
    (searching : Searching env enumeration disk loading) :
    Searching env enumeration disk (loadVersions env enumeration loading pkgDir) ∧
      ∃ added : List AbilityPackage, added.Perm (packagesAmong (heldIn env disk disk pkgDir)) ∧
        (loadVersions env enumeration loading pkgDir).packages = loading.packages ++ added := by
  have samePaths := (subdirectories_perm (enumeration.searching_same loading.disk) pkgDir).trans
    (subdirectories_searching apart searching (prefix_of_subdirectory member))
  obtain ⟨result, packages⟩ := searching_run_loadVersion apart allLoad searching fun path isPath =>
    onDisk_of_mem isDirectory member (samePaths.mem_iff.mp isPath)
  exact ⟨result, _, (samePaths.filterMap _).filterMap _, packages⟩

theorem searching_run_loadVersions {pkgDirs : List Path} (isDirectory : disk.isDirectory (packagesPath env) = true)
    (members : ∀ pkgDir ∈ pkgDirs, pkgDir ∈ StoreManager.subdirectories (packagesPath env) disk)
    (searching : Searching env enumeration disk loading) :
    Searching env enumeration disk (Runs.run (loadVersions env enumeration) loading pkgDirs) ∧
      ∃ added : List AbilityPackage, added.Perm (packagesAmong (pkgDirs.flatMap (heldIn env disk disk))) ∧
        (Runs.run (loadVersions env enumeration) loading pkgDirs).packages = loading.packages ++ added := by
  induction pkgDirs generalizing loading with
  | nil => exact ⟨searching, [], .refl _, (List.append_nil _).symm⟩
  | cons pkgDir pkgDirs inductionHypothesis =>
    rw [List.forall_mem_cons] at members
    obtain ⟨stillSearching, first, firstSame, isFirst⟩ :=
      searching_loadVersions apart allLoad isDirectory members.1 searching
    obtain ⟨result, later, laterSame, isLater⟩ := inductionHypothesis members.2 stillSearching
    refine ⟨result, first ++ later, ?_, ?_⟩
    · rw [List.flatMap_cons, packagesAmong, List.filterMap_append]
      exact firstSame.append laterSame
    · rw [Runs.run_cons, isLater, isFirst, List.append_assoc]

/-- The search finds all that is on the disk. -/
theorem searching_search (enumeration : Enumeration) :
    Searching env enumeration disk (recursivelySearchPackages env enumeration { disk, crds := ∅ }) ∧
      (foundPackages env enumeration disk).Perm (packagesAmong (packagesOn env disk)) := by
  have isDirectory := isDirectory_of_allLoad allLoad
  have samePaths := subdirectories_perm (enumeration.searching_same disk) (packagesPath env)
  have initially : Searching env enumeration disk { disk, crds := ∅ } := ⟨rfl, nofun, rfl⟩
  obtain ⟨result, added, same, packages⟩ := searching_run_loadVersions apart allLoad isDirectory
    (fun pkgDir member => samePaths.mem_iff.mp member) initially
  rw [foundPackages, recursivelySearchPackages, if_pos isDirectory, packages, packagesOn, if_pos isDirectory]
  exact ⟨result, same.trans ((samePaths.flatMap_right _).filterMap _)⟩

theorem mem_foundPackages (enumeration : Enumeration) (pkg : AbilityPackage) :
    pkg ∈ foundPackages env enumeration disk ↔ .ok pkg ∈ packagesOn env disk := by
  rw [(searching_search apart allLoad enumeration).2.mem_iff, mem_packagesAmong]

/-- Each package can be the last that is found. -/
theorem found_lastAt (member : .ok pkg ∈ packagesOn env disk) :
    ∃ (enumeration : Enumeration) (earlier : _), foundPackages env enumeration disk = earlier ++ [pkg] := by
  have isDirectory := isDirectory_of_allLoad allLoad
  obtain ⟨pkgDir, isPkgDir, versionDir, isVersionDir, reads⟩ := exists_subdirectories member isDirectory
  have leads : pkgDir <+: versionDir := prefix_of_subdirectory isVersionDir
  let enumeration : Enumeration :=
    { plainEnumeration with
      searching := Disk.arrange fun other => !other.isPrefixOf versionDir
      searching_same := Disk.sameEntries_arrange _ }
  obtain ⟨earlierDirs, dirsLast⟩ := subdirectories_lastAt isPkgDir leads
  have earlierMembers : ∀ other ∈ earlierDirs, other ∈ StoreManager.subdirectories (packagesPath env) disk := by
    intro other isEarlier
    refine (subdirectories_perm (enumeration.searching_same disk) _).mem_iff.mp ?_
    exact dirsLast ▸ List.mem_append_left _ isEarlier
  have initially : Searching env enumeration disk { disk, crds := ∅ } := ⟨rfl, nofun, rfl⟩
  obtain ⟨searching, -⟩ := searching_run_loadVersions apart allLoad isDirectory earlierMembers initially
  -- The version directory is listed last of those that are there when its package is reached.
  have samePaths := subdirectories_searching apart searching (prefix_of_subdirectory isPkgDir)
  obtain ⟨earlierVersions, versionsLast⟩ :=
    subdirectories_lastAt (samePaths.mem_iff.mpr isVersionDir) (List.prefix_refl versionDir)
  have earlierOnDisk : ∀ path ∈ earlierVersions, OnDisk env disk path := by
    intro path isEarlier
    refine onDisk_of_mem isDirectory isPkgDir (samePaths.mem_iff.mp ?_)
    refine (subdirectories_perm (enumeration.searching_same _) pkgDir).mem_iff.mp ?_
    exact versionsLast ▸ List.mem_append_left _ isEarlier
  obtain ⟨stillSearching, -⟩ := searching_run_loadVersion apart allLoad searching earlierOnDisk
  obtain ⟨-, packages⟩ :=
    searching_loadVersion apart allLoad stillSearching (onDisk_of_mem isDirectory isPkgDir isVersionDir)
  rw [reads] at packages
  refine ⟨enumeration, _, Eq.trans (congrArg Loading.packages ?_) packages⟩
  have isSearch : recursivelySearchPackages env enumeration { disk, crds := ∅ } =
      Runs.run (loadVersions env enumeration) { disk, crds := ∅ } (earlierDirs ++ [pkgDir]) := by
    rw [← dirsLast, recursivelySearchPackages, if_pos isDirectory]
  rw [isSearch, Runs.run_concat, loadVersions]
  exact (congrArg (Runs.run (loadVersion env enumeration) _) versionsLast).trans (Runs.run_concat ..)

end Apart

end AbilityFramework.ResourceMgr.ResourceManager
