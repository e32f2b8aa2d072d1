import AbilityFramework.ResourceMgr.PackageSearch
import Mathlib.Data.Finset.Basic
import Mathlib.Data.Fintype.EquivFin

/-! # The order of directory entries

Two packages may give the same ability name and version, and two files of CRs the same key.  Of such packages the
first gives the manifest and the last the CRD, and of such files the last gives the CR, so that what an update
leads to depends on the order in which the file system lists directories.  `orderIndependent_iff` says for which
directories it does not. -/

namespace AbilityFramework.ResourceMgr.ResourceManager

open Library

variable (env : ManagerEnvironment) (makeUuid : Nat → Uuid) (enumeration : Enumeration) (disk : Disk)

/-! ## What an update shows -/

structure SameView (first second : ManagerState) : Prop where
  manifests : ∀ abilityName version,
    getAbilityManifest first.packages abilityName version = getAbilityManifest second.packages abilityName version
  crds : ∀ row, row ∈ first.crds ↔ row ∈ second.crds
  abilities : abilityView first.crs.abilities = abilityView second.crs.abilities
  devices : deviceView first.crs.devices = deviceView second.crs.devices

/-- The tables of CRs as rounds leave them. -/
structure Sound (crs : CRDatabase) : Prop where
  distinct : NamesDistinct crs.abilities
  fresh : MakesFresh makeUuid crs

/-- Whatever was there before, an update shows the same for any two orders. -/
def OrderIndependent : Prop :=
  ∀ crds crs, Sound makeUuid crs → ∀ first second : Enumeration,
    SameView (update env makeUuid first crds crs disk).2 (update env makeUuid second crds crs disk).2

/-! ## What there is to read -/

/-- The entries of the directory of CRs, if there is one, when the packages have been mirrored. -/
def crFiles : List DirectoryEntry :=
  if (mirroredDisk env enumeration disk).isDirectory (crsPath env) then
    crEntries env enumeration (mirroredDisk env enumeration disk)
  else []

def crChecks : CRChecks := checks env (foundPackages env enumeration disk)

/-- There is a directory of CRs, and no file in it throws. -/
structure CrsReadable : Prop where
  isDirectory : (mirroredDisk env enumeration disk).isDirectory (crsPath env) = true
  noneThrows : ∀ entry ∈ crFiles env enumeration disk, ¬ EntryThrows env.cr (crChecks env enumeration disk) entry

def crAbilities : List AbilityCRContent :=
  acceptedAbilities env.cr (crChecks env enumeration disk) (crFiles env enumeration disk)

def crDevices : List DeviceCRContent :=
  acceptedDevices env.cr (crChecks env enumeration disk) (crFiles env enumeration disk)

/-! ## Where the order is irrelevant -/

/-- Of a package with its ability name and version. -/
def AbilityPackage.shown (env : ManagerEnvironment) (pkg : AbilityPackage) :
    Document.AbilityManifest × Except CRException AbilityCRDRow :=
  (pkg.manifest, pkg.crdRow env)

/-- In whichever order packages are read, none throws, and those with one ability name and version agree on manifest
and CRD. -/
structure PackagesAgree : Prop where
  completes : ∀ enumeration, SearchCompletes env enumeration disk
  alike : ∀ first second, ShowsAlike AbilityPackage.key (AbilityPackage.shown env) (foundPackages env first disk)
    (foundPackages env second disk)

/-- In whichever orders packages are mirrored, the directory of CRs is read to the end and has the same CRs. -/
structure CrsAgree : Prop where
  readable : ∀ enumeration, CrsReadable env enumeration disk
  abilities : ∀ first second, ShowsAlike AbilityCRContent.name AbilityCRContent.shown (crAbilities env first disk)
    (crAbilities env second disk)
  devices : ∀ first second, ShowsAlike DeviceCRContent.id DeviceCRContent.shown (crDevices env first disk)
    (crDevices env second disk)

/-- In whichever orders packages are mirrored, the directory of CRs is not read to the end and has no CRs. -/
structure NothingToRead : Prop where
  unreadable : ∀ enumeration, ¬ CrsReadable env enumeration disk
  empty : ∀ enumeration, acceptedCrs env.cr (crChecks env enumeration disk) (crFiles env enumeration disk) = []

inductive OrderIsIrrelevant : Prop where
  /-- Some package throws when it is read, and there are no others. -/
  | nothingFound {exception : CRException} (throws : .error exception ∈ packagesOn env disk)
      (noPackage : ∀ pkg, .ok pkg ∉ packagesOn env disk)
  /-- All packages have one manifest, and the CRD of none can be written. -/
  | nothingStored {pkg : AbilityPackage} (member : .ok pkg ∈ packagesOn env disk)
      (alike : ∀ found ∈ packagesOn env disk, ∃ other, found = .ok other ∧ ¬ Loads env found ∧ other.key = pkg.key ∧
        other.manifest = pkg.manifest)
  | viewsAgree (packages : PackagesAgree env disk) (crs : CrsAgree env disk ∨ NothingToRead env disk)

/-! ## Other orders -/

variable {env makeUuid enumeration disk}

theorem exists_scanning (enumeration : Enumeration) {arranged : Disk}
    (same : arranged.SameEntries (mirroredDisk env enumeration disk)) :
    ∃ other : Enumeration, foundPackages env other disk = foundPackages env enumeration disk ∧
      mirroredDisk env other disk = mirroredDisk env enumeration disk ∧ other.readAt = enumeration.readAt ∧
        other.scanning (mirroredDisk env enumeration disk) = arranged := by
  refine ⟨{ enumeration with
    scanning := fun other => if other = mirroredDisk env enumeration disk then arranged else enumeration.scanning other
    scanning_same := same_of_choice enumeration.scanning_same same }, rfl, rfl, rfl, ?_⟩
  exact if_pos rfl

/-- The same packages, with another listing of the directory of CRs. -/
theorem exists_crFiles {files : List (Path × String)} (enumeration : Enumeration)
    (isDirectory : (mirroredDisk env enumeration disk).isDirectory (crsPath env) = true) {arranged : Disk}
    (same : arranged.SameEntries (enumeration.scanning (mirroredDisk env enumeration disk)))
    (isListing : arranged.regularFiles (crsPath env) = files) :
    ∃ other, crChecks env other disk = crChecks env enumeration disk ∧
      crFiles env other disk = files.map (directoryEntry env enumeration) := by
  obtain ⟨other, samePackages, sameDisk, sameTimes, isScanned⟩ :=
    exists_scanning enumeration (same.trans (enumeration.scanning_same (mirroredDisk env enumeration disk)))
  refine ⟨other, ?_, ?_⟩
  · rw [crChecks, samePackages, crChecks]
  · have sameEntry : directoryEntry env other = directoryEntry env enumeration := by
      funext file
      rw [directoryEntry, directoryEntry, sameTimes]
    rw [crFiles, sameDisk, if_pos isDirectory, crEntries, isScanned, isListing, sameEntry]

theorem mem_crFiles {entry : DirectoryEntry} (member : entry ∈ crFiles env enumeration disk) :
    (mirroredDisk env enumeration disk).isDirectory (crsPath env) = true ∧
      ∃ file ∈ (enumeration.scanning (mirroredDisk env enumeration disk)).regularFiles (crsPath env),
        directoryEntry env enumeration file = entry := by
  rw [crFiles] at member
  split at member
  · rename_i isDirectory
    exact ⟨isDirectory, List.mem_map.mp member⟩
  · cases member

theorem crFiles_lastAt {entry : DirectoryEntry} (member : entry ∈ crFiles env enumeration disk) :
    ∃ other, crChecks env other disk = crChecks env enumeration disk ∧
      ∃ earlier, crFiles env other disk = earlier ++ [entry] := by
  obtain ⟨isDirectory, ⟨path, content⟩, isFile, rfl⟩ := mem_crFiles member
  obtain ⟨arranged, same, earlier, isLast⟩ := Disk.regularFiles_lastAt isFile
  obtain ⟨other, sameChecks, isListing⟩ := exists_crFiles enumeration isDirectory same isLast
  rw [List.map_append, List.map_singleton] at isListing
  exact ⟨other, sameChecks, _, isListing⟩

theorem crFiles_firstAt {entry : DirectoryEntry} (member : entry ∈ crFiles env enumeration disk) :
    ∃ other, crChecks env other disk = crChecks env enumeration disk ∧
      ∃ later, crFiles env other disk = entry :: later := by
  obtain ⟨isDirectory, ⟨path, content⟩, isFile, rfl⟩ := mem_crFiles member
  obtain ⟨arranged, same, later, isFirst⟩ := Disk.regularFiles_firstAt isFile
  obtain ⟨other, sameChecks, isListing⟩ := exists_crFiles enumeration isDirectory same isFirst
  rw [List.map_cons] at isListing
  exact ⟨other, sameChecks, _, isListing⟩

/-! ## What an update shows of CRs -/

variable {crds : AbilityCRDBasic} {crs : CRDatabase}

/-- The tables of CRs after an update. -/
def crsAfter (env : ManagerEnvironment) (makeUuid : Nat → Uuid) (enumeration : Enumeration) (crs : CRDatabase)
    (disk : Disk) : CRDatabase :=
  (readCrInFrameworkCrDir env makeUuid enumeration (foundPackages env enumeration disk) crs
    (mirroredDisk env enumeration disk)).2

theorem crsAfter_eq : crsAfter env makeUuid enumeration crs disk =
    if (mirroredDisk env enumeration disk).isDirectory (crsPath env) then
      (readCrsIntoDb env.cr (crChecks env enumeration disk) makeUuid crs (crFiles env enumeration disk)).2
    else crs := by
  rw [crsAfter, readCrInFrameworkCrDir, crFiles, crChecks]
  split <;> rfl

theorem readable_iff (makeUuid : Nat → Uuid) (crs : CRDatabase) : CrsReadable env enumeration disk ↔
    (mirroredDisk env enumeration disk).isDirectory (crsPath env) = true ∧
      (readCrsIntoDb env.cr (crChecks env enumeration disk) makeUuid crs (crFiles env enumeration disk)).1 = .ok () := by
  rw [readCrsIntoDb_completes_iff]
  exact ⟨fun readable => ⟨readable.isDirectory, readable.noneThrows⟩, fun readable => ⟨readable.1, readable.2⟩⟩

theorem abilityView_readable (sound : Sound makeUuid crs) (readable : CrsReadable env enumeration disk) :
    abilityView (crsAfter env makeUuid enumeration crs disk).abilities =
      lastShown AbilityCRContent.name AbilityCRContent.shown (crAbilities env enumeration disk) := by
  rw [crsAfter_eq, if_pos readable.isDirectory]
  exact abilityView_readCrsIntoDb sound.distinct sound.fresh ((readable_iff makeUuid crs).mp readable).2

theorem deviceView_readable (readable : CrsReadable env enumeration disk) :
    deviceView (crsAfter env makeUuid enumeration crs disk).devices =
      lastShown DeviceCRContent.id DeviceCRContent.shown (crDevices env enumeration disk) ∪
        leftOver crs.devices (crDevices env enumeration disk) := by
  rw [crsAfter_eq, if_pos readable.isDirectory]
  exact deviceView_readCrsIntoDb ((readable_iff makeUuid crs).mp readable).2

theorem crsAfter_unreadable (unreadable : ¬ CrsReadable env enumeration disk) :
    crsAfter env makeUuid enumeration crs disk =
      (Runs.run (readEntry env.cr (crChecks env enumeration disk) makeUuid) { db := crs }
        (crFiles env enumeration disk)).db := by
  rw [crsAfter_eq]
  split
  · rename_i isDirectory
    apply readCrsIntoDb_throws
    intro completes
    exact unreadable ((readable_iff makeUuid crs).mpr ⟨isDirectory, completes⟩)
  · rename_i noDirectory
    rw [crFiles, if_neg noDirectory, Runs.run_nil]

/-- Where the directory of CRs is not read to the end, nothing is dropped. -/
theorem loaded_unreadable (sound : Sound makeUuid crs) (unreadable : ¬ CrsReadable env enumeration disk) :
    ∃ abilities devices, Loaded makeUuid crs (crsAfter env makeUuid enumeration crs disk) abilities ∧
      DevicesLoaded crs (crsAfter env makeUuid enumeration crs disk) devices := by
  have start : Loaded makeUuid crs { db := crs : Scan }.db [] := loaded_start sound.distinct
  obtain ⟨_, _, loaded⟩ := run_loaded env.cr (crChecks env enumeration disk) sound.fresh start (devicesLoaded_start crs)
    (crFiles env enumeration disk)
  rw [crsAfter_unreadable unreadable]
  exact ⟨_, _, loaded⟩

theorem crsAfter_head_throws {entry : DirectoryEntry} {later : List DirectoryEntry}
    (isFirst : crFiles env enumeration disk = entry :: later)
    (throws : EntryThrows env.cr (crChecks env enumeration disk) entry) :
    crsAfter env makeUuid enumeration crs disk = crs := by
  rw [crsAfter_eq, isFirst]
  split
  · exact readCrsIntoDb_head_throws throws later
  · rfl

/-- A CR that is read first is there, however little is read after it. -/
theorem exists_row_of_head (sound : Sound makeUuid crs) (unreadable : ¬ CrsReadable env enumeration disk)
    {entry : DirectoryEntry} {later : List DirectoryEntry} (isFirst : crFiles env enumeration disk = entry :: later)
    {content : CRContent} (accepted : acceptedCr env.cr (crChecks env enumeration disk) entry = some content) :
    (∃ row, row ∈ (crsAfter env makeUuid enumeration crs disk).abilities.basic) ∨
      ∃ row, row ∈ (crsAfter env makeUuid enumeration crs disk).devices.basic := by
  rw [crsAfter_unreadable unreadable, isFirst, Runs.run_cons]
  have abilitiesLoaded := addCr_loaded sound.fresh (entry.readAt, content) (loaded_start sound.distinct)
  have devicesLoaded := addCr_devicesLoaded makeUuid (entry.readAt, content) (devicesLoaded_start crs)
  have isAdded : (readEntry env.cr (crChecks env enumeration disk) makeUuid { db := crs } entry).db =
      addCr makeUuid crs (entry.readAt, content) := by
    have isContent : entryContent env.cr (crChecks env enumeration disk) entry = .ok (some content) := by
      rw [acceptedCr] at accepted
      split at accepted
      · cases accepted
      · rename_i found
        rw [found, accepted]
    rw [readEntry, isContent]
    cases content <;> rfl
  rw [← isAdded] at abilitiesLoaded devicesLoaded
  obtain ⟨_, _, abilitiesThen, devicesThen⟩ :=
    run_loaded env.cr (crChecks env enumeration disk) sound.fresh abilitiesLoaded devicesLoaded later
  cases content with
  | ability cr =>
    obtain ⟨row, member, _⟩ := abilitiesThen.present cr List.mem_cons_self
    exact .inl ⟨row, member⟩
  | device cr =>
    obtain ⟨row, member, _⟩ := devicesThen.present cr List.mem_cons_self
    exact .inr ⟨row, member⟩

/-! ## If the order is irrelevant to what is shown -/

theorem sound_empty (distinct : Function.Injective makeUuid) : Sound makeUuid {} := by
  refine ⟨?_, distinct, ?_⟩
  · intro row member
    cases member
  · intro _ _ row member
    cases member

section Independent

variable (independent : OrderIndependent env makeUuid disk)

include independent in
theorem sameView_crsAfter (completes : ∀ enumeration, SearchCompletes env enumeration disk) (sound : Sound makeUuid crs)
    (first second : Enumeration) :
    abilityView (crsAfter env makeUuid first crs disk).abilities =
        abilityView (crsAfter env makeUuid second crs disk).abilities ∧
      deviceView (crsAfter env makeUuid first crs disk).devices =
        deviceView (crsAfter env makeUuid second crs disk).devices := by
  have same := independent ∅ crs sound first second
  rw [update_eq (completes first), update_eq (completes second)] at same
  exact ⟨same.abilities, same.devices⟩

variable (distinct : Function.Injective makeUuid)
include distinct independent

theorem sameManifests (first second : Enumeration) (abilityName version : String) :
    getAbilityManifest (foundPackages env first disk) abilityName version =
      getAbilityManifest (foundPackages env second disk) abilityName version := by
  have same := (independent ∅ {} (sound_empty distinct) first second).manifests abilityName version
  rwa [update_packages, update_packages] at same

theorem sameCrds (first second : Enumeration) (row : AbilityCRDRow) :
    row ∈ (crdRows env (foundPackages env first disk)).foldl Relation.replaceInto (∅ : AbilityCRDBasic) ↔
      row ∈ (crdRows env (foundPackages env second disk)).foldl Relation.replaceInto (∅ : AbilityCRDBasic) := by
  have same := (independent ∅ {} (sound_empty distinct) first second).crds row
  rwa [update_crds, update_crds] at same

/-- Of packages that throw, none is read beside others. -/
theorem nothingFound_of_independent {exception : CRException} (throws : .error exception ∈ packagesOn env disk)
    (pkg : AbilityPackage) : .ok pkg ∉ packagesOn env disk := by
  intro member
  obtain ⟨first, _, throwsFirst⟩ := exists_head throws
  obtain ⟨second, _, foundFirst⟩ := exists_head member
  have nothing : foundPackages env first disk = [] := by rw [foundPackages, search_head_stops throwsFirst rfl]; rfl
  obtain ⟨more, isMore⟩ := found_head foundFirst
  have same := sameManifests independent distinct first second pkg.manifest.abilityName pkg.version
  rw [nothing, isMore, getAbilityManifest_head] at same
  cases same

theorem nothingStored_of_independent {pkg : AbilityPackage} (member : .ok pkg ∈ packagesOn env disk)
    (unstorable : ¬ Loads env (.ok pkg)) (noneThrows : ∀ exception, .error exception ∉ packagesOn env disk) :
    OrderIsIrrelevant env disk := by
  refine .nothingStored member fun found isFound => ?_
  cases found with
  | error exception => exact absurd isFound (noneThrows exception)
  | ok other =>
    obtain ⟨first, _, isFirst⟩ := exists_head member
    obtain ⟨second, _, isSecond⟩ := exists_head isFound
    have alone := (found_unstorable unstorable isFirst).1
    have notLoads : ¬ Loads env (.ok other) := by
      rintro ⟨_, row, same, isRow⟩
      cases same
      obtain ⟨more, isMore⟩ := found_head isSecond
      obtain ⟨last, isLast⟩ := exists_lastOf AbilityCRDRow.key
        (List.mem_filterMap.mpr ⟨other, isMore ▸ List.mem_cons_self, congrArg Except.toOption isRow⟩ :
          row ∈ crdRows env (foundPackages env second disk))
      have stored : last ∈ (crdRows env (foundPackages env second disk)).foldl Relation.replaceInto (∅ : AbilityCRDBasic) := by
        refine mem_foldl_replaceInto_iff.mpr (.inl ?_)
        rw [(mem_of_lastOf isLast).2]
        exact isLast
      rw [← sameCrds independent distinct first second, alone, crdRows_unstorable unstorable] at stored
      cases stored
    refine ⟨other, rfl, notLoads, ?_⟩
    have same := sameManifests independent distinct first second pkg.manifest.abilityName pkg.version
    rw [alone, (found_unstorable notLoads isSecond).1, getAbilityManifest_head] at same
    exact getAbilityManifest_single same.symm

theorem sameManifest_of_independent {first second : AbilityPackage} (firstMember : .ok first ∈ packagesOn env disk)
    (secondMember : .ok second ∈ packagesOn env disk) (sameKey : first.key = second.key) :
    first.manifest = second.manifest := by
  obtain ⟨firstOrder, _, isFirst⟩ := exists_head firstMember
  obtain ⟨secondOrder, _, isSecond⟩ := exists_head secondMember
  obtain ⟨_, firstFound⟩ := found_head isFirst
  obtain ⟨_, secondFound⟩ := found_head isSecond
  obtain ⟨sameName, sameVersion⟩ := Prod.mk.inj sameKey
  have same := sameManifests independent distinct firstOrder secondOrder first.manifest.abilityName first.version
  rw [firstFound, secondFound, getAbilityManifest_head, sameName, sameVersion, getAbilityManifest_head] at same
  exact Option.some.inj same

section Apart

variable (apart : MirrorsApart env disk) (allLoad : ∀ found ∈ packagesOn env disk, Loads env found)
include apart allLoad

theorem sameCrd_of_independent {first second : AbilityPackage} (firstMember : .ok first ∈ packagesOn env disk)
    (secondMember : .ok second ∈ packagesOn env disk) (sameKey : first.key = second.key) :
    first.crdRow env = second.crdRow env := by
  have stored {pkg : AbilityPackage} {row : AbilityCRDRow} (isRow : pkg.crdRow env = .ok row)
      (member : .ok pkg ∈ packagesOn env disk) : ∃ enumeration : Enumeration,
        row ∈ (crdRows env (foundPackages env enumeration disk)).foldl Relation.replaceInto (∅ : AbilityCRDBasic) := by
    obtain ⟨enumeration, earlier, isLast⟩ := found_lastAt apart allLoad member
    have rows : crdRows env (earlier ++ [pkg]) = crdRows env earlier ++ [row] := by simp [crdRows, isRow, Except.toOption]
    refine ⟨enumeration, ?_⟩
    rw [isLast, rows, List.foldl_append]
    exact Relation.mem_replaceInto.mpr (.inl rfl)
  obtain ⟨_, firstRow, isFirst, firstIsRow⟩ := allLoad _ firstMember
  obtain ⟨_, secondRow, isSecond, secondIsRow⟩ := allLoad _ secondMember
  cases isFirst
  cases isSecond
  obtain ⟨firstOrder, firstStored⟩ := stored firstIsRow firstMember
  obtain ⟨secondOrder, secondStored⟩ := stored secondIsRow secondMember
  have sameRow : firstRow = secondRow := by
    refine Relation.eq_of_key ((sameCrds independent distinct firstOrder secondOrder firstRow).mp firstStored) secondStored ?_
    rw [key_crdRow firstIsRow, key_crdRow secondIsRow, sameKey]
  rw [firstIsRow, secondIsRow, sameRow]

theorem packagesAgree_of_independent : PackagesAgree env disk := by
  refine ⟨fun enumeration => (searching_search apart allLoad enumeration).1.goesOn, fun first second pkg isFound => ?_⟩
  have member := (mem_foundPackages apart allLoad first pkg).mp isFound
  refine ⟨⟨pkg, (mem_foundPackages apart allLoad second pkg).mpr member, rfl⟩, fun other isOther sameKey => ?_⟩
  have otherMember := (mem_foundPackages apart allLoad second other).mp isOther
  refine Prod.ext ?_ ?_
  · exact sameManifest_of_independent independent distinct otherMember member sameKey
  · exact sameCrd_of_independent independent distinct apart allLoad otherMember member sameKey

end Apart

theorem abilities_of_independent (completes : ∀ enumeration, SearchCompletes env enumeration disk)
    (readable : ∀ enumeration, CrsReadable env enumeration disk) (first second : Enumeration) :
    ShowsAlike AbilityCRContent.name AbilityCRContent.shown (crAbilities env first disk) (crAbilities env second disk) := by
  have empty := sound_empty distinct
  have nameShown (cr other : AbilityCRContent) (same : cr.shown = other.shown) : cr.name = other.name :=
    congrArg ShownAbility.name same
  refine showsAlike_of_lastShown (crAbilities env · disk) nameShown ?_ ?_ first second
  · intro one another
    rw [← abilityView_readable empty (readable one), ← abilityView_readable empty (readable another)]
    exact (sameView_crsAfter independent completes empty one another).1
  · intro order cr accepted
    obtain ⟨entry, member, isAccepted⟩ := mem_acceptedAbilities.mp accepted
    obtain ⟨other, sameChecks, earlier, isLast⟩ := crFiles_lastAt member
    rw [← sameChecks] at isAccepted
    refine ⟨other, acceptedAbilities env.cr (crChecks env other disk) earlier, ?_⟩
    rw [crAbilities, isLast, acceptedAbilities_lastAt isAccepted]

theorem devices_of_independent (completes : ∀ enumeration, SearchCompletes env enumeration disk)
    (readable : ∀ enumeration, CrsReadable env enumeration disk) (first second : Enumeration) :
    ShowsAlike DeviceCRContent.id DeviceCRContent.shown (crDevices env first disk) (crDevices env second disk) := by
  have view (enumeration : Enumeration) : deviceView (crsAfter env makeUuid enumeration {} disk).devices =
      lastShown DeviceCRContent.id DeviceCRContent.shown (crDevices env enumeration disk) := by
    rw [deviceView_readable (readable enumeration), Set.union_eq_left]
    rintro _ ⟨row, member, _⟩
    cases member
  have idShown (cr other : DeviceCRContent) (same : cr.shown = other.shown) : cr.id = other.id :=
    congrArg ShownDevice.id same
  refine showsAlike_of_lastShown (crDevices env · disk) idShown ?_ ?_ first second
  · intro one another
    rw [← view one, ← view another]
    exact (sameView_crsAfter independent completes (sound_empty distinct) one another).2
  · intro order cr accepted
    obtain ⟨entry, member, isAccepted⟩ := mem_acceptedDevices.mp accepted
    obtain ⟨other, sameChecks, earlier, isLast⟩ := crFiles_lastAt member
    rw [← sameChecks] at isAccepted
    refine ⟨other, acceptedDevices env.cr (crChecks env other disk) earlier, ?_⟩
    rw [crDevices, isLast, acceptedDevices_lastAt isAccepted]

/-- Rows that no file names go in an update that reads the directory of CRs to the end, and in no other. -/
theorem readable_of_independent (completes : ∀ enumeration, SearchCompletes env enumeration disk) {first : Enumeration}
    (readable : CrsReadable env first disk) (second : Enumeration) : CrsReadable env second disk := by
  by_contra unreadable
  obtain ⟨text, isFresh⟩ := Infinite.exists_notMem_finset
    ((crAbilities env first disk).map fun cr => cr.spec.abilityName).toFinset
  let stray : AbilityCRBasicRow := { AbilityCRBasicRow.new (makeUuid 0) with abilityName := text }
  let before : CRDatabase := { abilities := { basic := ⟨[stray], List.nodup_singleton _⟩ }, made := 1 }
  have sound : Sound makeUuid before := by
    refine ⟨?_, distinct, ?_⟩
    · intro row member other otherMember _
      rw [List.mem_singleton.mp member, List.mem_singleton.mp otherMember]
    · intro count later row member
      rw [List.mem_singleton.mp member]
      exact fun same => absurd (distinct same) (Nat.ne_of_lt later)
  obtain ⟨_, _, loaded, _⟩ := loaded_unreadable sound unreadable
  obtain ⟨row, member, sameName, _⟩ := loaded.kept stray List.mem_cons_self
  have inSecond : shownAbility _ row ∈ abilityView (crsAfter env makeUuid second before disk).abilities :=
    ⟨row, member, rfl⟩
  rw [← (sameView_crsAfter independent completes sound first second).1, abilityView_readable sound readable] at inSecond
  obtain ⟨cr, isLast, sameShown⟩ := inSecond
  have named : cr.spec.abilityName = text := congrArg Prod.fst ((congrArg ShownAbility.name sameShown).symm.trans sameName)
  apply isFresh
  rw [List.mem_toFinset, ← named]
  exact List.mem_map_of_mem (mem_of_lastOf isLast).1

theorem empty_of_independent (completes : ∀ enumeration, SearchCompletes env enumeration disk)
    (unreadable : ∀ enumeration, ¬ CrsReadable env enumeration disk) (enumeration : Enumeration) :
    acceptedCrs env.cr (crChecks env enumeration disk) (crFiles env enumeration disk) = [] := by
  rw [List.eq_nil_iff_forall_not_mem]
  intro accepted isAccepted
  obtain ⟨entry, member, isContent⟩ := List.mem_filterMap.mp isAccepted
  obtain ⟨content, isContent, -⟩ := Option.map_eq_some_iff.mp isContent
  have someThrows : ∃ thrower ∈ crFiles env enumeration disk,
      EntryThrows env.cr (crChecks env enumeration disk) thrower := by
    by_contra noneThrows
    refine unreadable enumeration ⟨(mem_crFiles member).1, fun other isOther throws => ?_⟩
    exact noneThrows ⟨other, isOther, throws⟩
  obtain ⟨thrower, isThrower, throws⟩ := someThrows
  obtain ⟨first, firstChecks, _, throwerFirst⟩ := crFiles_firstAt isThrower
  obtain ⟨second, secondChecks, _, contentFirst⟩ := crFiles_firstAt member
  rw [← firstChecks] at throws
  rw [← secondChecks] at isContent
  have empty := sound_empty distinct
  obtain ⟨sameAbilities, sameDevices⟩ := sameView_crsAfter independent completes empty first second
  have nothing : crsAfter env makeUuid first {} disk = {} := crsAfter_head_throws throwerFirst throws
  rcases exists_row_of_head empty (unreadable second) contentFirst isContent with ⟨row, isRow⟩ | ⟨row, isRow⟩
  · have shown : shownAbility _ row ∈ abilityView (crsAfter env makeUuid second {} disk).abilities := ⟨row, isRow, rfl⟩
    rw [← sameAbilities, nothing] at shown
    obtain ⟨_, impossible, _⟩ := shown
    cases impossible
  · have shown : shownDevice _ row ∈ deviceView (crsAfter env makeUuid second {} disk).devices := ⟨row, isRow, rfl⟩
    rw [← sameDevices, nothing] at shown
    obtain ⟨_, impossible, _⟩ := shown
    cases impossible

theorem orderIsIrrelevant_of_independent
    (apart : (∀ found ∈ packagesOn env disk, Loads env found) → MirrorsApart env disk) : OrderIsIrrelevant env disk := by
  by_cases allLoad : ∀ found ∈ packagesOn env disk, Loads env found
  · have packages := packagesAgree_of_independent independent distinct (apart allLoad) allLoad
    have completes := packages.completes
    refine .viewsAgree packages ?_
    by_cases readable : ∃ enumeration, CrsReadable env enumeration disk
    · obtain ⟨enumeration, isReadable⟩ := readable
      have allReadable := readable_of_independent independent distinct completes isReadable
      exact .inl ⟨allReadable, abilities_of_independent independent distinct completes allReadable,
        devices_of_independent independent distinct completes allReadable⟩
    · have unreadable : ∀ enumeration, ¬ CrsReadable env enumeration disk :=
        fun enumeration isReadable => readable ⟨enumeration, isReadable⟩
      exact .inr ⟨unreadable, empty_of_independent independent distinct completes unreadable⟩
  · push Not at allLoad
    obtain ⟨found, member, unloaded⟩ := allLoad
    by_cases noneThrows : ∀ exception, .error exception ∉ packagesOn env disk
    · cases found with
      | error exception => exact absurd member (noneThrows exception)
      | ok pkg => exact nothingStored_of_independent independent distinct member unloaded noneThrows
    · push Not at noneThrows
      obtain ⟨exception, throws⟩ := noneThrows
      exact .nothingFound throws (nothingFound_of_independent independent distinct throws)

end Independent

/-! ## Where the order is irrelevant, an update shows the same -/

theorem getAbilityManifest_subset {first second : List AbilityPackage}
    (alike : ShowsAlike AbilityPackage.key (AbilityPackage.shown env) first second) {abilityName version : String}
    {manifest : Document.AbilityManifest} (answers : getAbilityManifest first abilityName version = some manifest) :
    getAbilityManifest second abilityName version = some manifest := by
  obtain ⟨pkg, isFound, rfl⟩ := Option.map_eq_some_iff.mp answers
  have isKey := provides_iff.mp (List.find?_some isFound)
  obtain ⟨⟨other, isOther, otherKey⟩, same⟩ := alike pkg (List.mem_of_find?_eq_some isFound)
  rw [getAbilityManifest]
  cases search : second.find? (AbilityPackage.provides abilityName version) with
  | none => exact absurd (provides_iff.mpr (otherKey.trans isKey)) (List.find?_eq_none.mp search other isOther)
  | some found =>
    have foundKey := provides_iff.mp (List.find?_some search)
    have sameShown := same found (List.mem_of_find?_eq_some search) (foundKey.trans isKey.symm)
    exact congrArg (fun shown => some shown.1) sameShown

/-- Packages that agree have the same rows. -/
theorem crdRows_alike {first second : List AbilityPackage}
    (alike : ShowsAlike AbilityPackage.key (AbilityPackage.shown env) first second) :
    ShowsAlike AbilityCRDRow.key id (crdRows env first) (crdRows env second) := by
  have row_iff {pkg : AbilityPackage} {row : AbilityCRDRow} :
      (pkg.crdRow env).toOption = some row ↔ pkg.crdRow env = .ok row := by
    cases pkg.crdRow env <;> simp [Except.toOption]
  intro row member
  obtain ⟨pkg, isPkg, isRow⟩ := List.mem_filterMap.mp member
  rw [row_iff] at isRow
  obtain ⟨⟨other, isOther, otherKey⟩, same⟩ := alike pkg isPkg
  have otherRow : other.crdRow env = .ok row := (congrArg Prod.snd (same other isOther otherKey)).trans isRow
  refine ⟨⟨row, List.mem_filterMap.mpr ⟨other, isOther, row_iff.mpr otherRow⟩, rfl⟩, fun another isAnother sameKey => ?_⟩
  rw [id_eq, id_eq]
  obtain ⟨anotherPkg, isAnotherPkg, isAnotherRow⟩ := List.mem_filterMap.mp isAnother
  rw [row_iff] at isAnotherRow
  rw [key_crdRow isRow, key_crdRow isAnotherRow] at sameKey
  have sameRow := congrArg Prod.snd (same anotherPkg isAnotherPkg sameKey)
  exact Except.ok.inj (isAnotherRow.symm.trans (sameRow.trans isRow))

theorem run_nothing {scan : Scan} {checks : CRChecks} {entries : List DirectoryEntry}
    (nothing : acceptedCrs env.cr checks entries = []) :
    (Runs.run (readEntry env.cr checks makeUuid) scan entries).db = scan.db := by
  induction entries generalizing scan with
  | nil => rfl
  | cons entry entries inductionHypothesis =>
    rw [acceptedCrs_cons, List.append_eq_nil_iff] at nothing
    have holdsNothing : acceptedCr env.cr checks entry = none := by
      simpa [acceptedCrs] using nothing.1
    rw [Runs.run_cons, inductionHypothesis nothing.2, readEntry]
    rw [acceptedCr] at holdsNothing
    split
    · rfl
    · split at holdsNothing
      · rename_i throws
        rw [throws]
      · rename_i found
        rw [found, holdsNothing]

theorem crsAfter_nothing (nothing : NothingToRead env disk) (enumeration : Enumeration) :
    crsAfter env makeUuid enumeration crs disk = crs := by
  rw [crsAfter_unreadable (nothing.unreadable enumeration), run_nothing (nothing.empty enumeration)]

theorem leftOver_subset {devices : DeviceTables} {first second : List DeviceCRContent}
    (alike : ShowsAlike DeviceCRContent.id DeviceCRContent.shown first second)
    (back : ShowsAlike DeviceCRContent.id DeviceCRContent.shown second first) :
    leftOver devices first ⊆ leftOver devices second := by
  rintro _ ⟨row, member, untouched, ⟨cr, accepted, sameName⟩, rfl⟩
  refine ⟨row, member, ?_, ?_, rfl⟩
  · intro other isOther sameId
    obtain ⟨⟨cr, isCr, crId⟩, _⟩ := back other isOther
    exact untouched cr isCr (crId.trans sameId)
  · obtain ⟨⟨other, isOther, sameId⟩, same⟩ := alike cr accepted
    exact ⟨other, isOther, (congrArg ShownDevice.name (same other isOther sameId)).trans sameName⟩

theorem independent_of_orderIsIrrelevant (irrelevant : OrderIsIrrelevant env disk) : OrderIndependent env makeUuid disk := by
  intro crds crs sound first second
  cases irrelevant with
  | nothingFound throws noPackage =>
    have nothing (enumeration : Enumeration) : (update env makeUuid enumeration crds crs disk).2 = ⟨[], crds, crs⟩ := by
      have same : (packagesOn env _).Perm (packagesOn env disk) := packagesOn_perm (enumeration.searching_same disk)
      cases held : packagesOn env (enumeration.searching disk) with
      | nil =>
        rw [held] at same
        rw [← same.nil_eq] at throws
        cases throws
      | cons found later =>
        cases found with
        | ok pkg =>
          rw [held] at same
          exact absurd (same.mem_iff.mp List.mem_cons_self) (noPackage pkg)
        | error exception => rw [update, search_head_stops held rfl]; rfl
    rw [nothing first, nothing second]
    exact ⟨fun _ _ => rfl, fun _ => Iff.rfl, rfl, rfl⟩
  | nothingStored member alike =>
    rename_i pkg
    have alone (enumeration : Enumeration) : ∃ other, foundPackages env enumeration disk = [other] ∧
        crdRows env [other] = [] ∧ ¬ SearchCompletes env enumeration disk ∧ other.key = pkg.key ∧
          other.manifest = pkg.manifest := by
      have same : (packagesOn env _).Perm (packagesOn env disk) := packagesOn_perm (enumeration.searching_same disk)
      cases held : packagesOn env (enumeration.searching disk) with
      | nil =>
        rw [held] at same
        rw [← same.nil_eq] at member
        cases member
      | cons found later =>
        rw [held] at same
        obtain ⟨other, rfl, unstorable, sameKey, sameManifest⟩ := alike found (same.mem_iff.mp List.mem_cons_self)
        obtain ⟨isAlone, thrown⟩ := found_unstorable unstorable held
        exact ⟨other, isAlone, crdRows_unstorable unstorable, thrown, sameKey, sameManifest⟩
    obtain ⟨one, isOne, oneRows, oneThrown, oneKey, oneManifest⟩ := alone first
    obtain ⟨another, isAnother, anotherRows, anotherThrown, anotherKey, anotherManifest⟩ := alone second
    refine ⟨fun abilityName version => ?_, fun row => ?_, ?_, ?_⟩
    · rw [update_packages, update_packages, isOne, isAnother]
      have sameProvides : one.provides abilityName version = another.provides abilityName version := by
        rw [Bool.eq_iff_iff, provides_iff, provides_iff, oneKey, anotherKey]
      rw [getAbilityManifest, getAbilityManifest, List.find?_singleton, List.find?_singleton, sameProvides]
      split
      · exact congrArg some (oneManifest.trans anotherManifest.symm)
      · rfl
    · rw [update_crds, update_crds, isOne, isAnother, oneRows, anotherRows]
    · rw [update_crs_thrown oneThrown, update_crs_thrown anotherThrown]
    · rw [update_crs_thrown oneThrown, update_crs_thrown anotherThrown]
  | viewsAgree packages cr =>
    rw [update_eq (packages.completes first), update_eq (packages.completes second)]
    refine ⟨?_, ?_, ?_, ?_⟩
    · intro abilityName version
      ext manifest
      exact ⟨getAbilityManifest_subset (packages.alike first second),
        getAbilityManifest_subset (packages.alike second first)⟩
    · intro row
      have alike := crdRows_alike (packages.alike first second)
      have back := crdRows_alike (packages.alike second first)
      exact ⟨mem_foldl_replaceInto_subset alike back, mem_foldl_replaceInto_subset back alike⟩
    · change abilityView (crsAfter env makeUuid first crs disk).abilities =
        abilityView (crsAfter env makeUuid second crs disk).abilities
      rcases cr with agree | nothing
      · rw [abilityView_readable sound (agree.readable first), abilityView_readable sound (agree.readable second)]
        exact (lastShown_subset (agree.abilities first second)).antisymm (lastShown_subset (agree.abilities second first))
      · rw [crsAfter_nothing nothing, crsAfter_nothing nothing]
    · change deviceView (crsAfter env makeUuid first crs disk).devices =
        deviceView (crsAfter env makeUuid second crs disk).devices
      rcases cr with agree | nothing
      · have alike := agree.devices first second
        have back := agree.devices second first
        rw [deviceView_readable (agree.readable first), deviceView_readable (agree.readable second)]
        exact (Set.union_subset_union (lastShown_subset alike) (leftOver_subset alike back)).antisymm
          (Set.union_subset_union (lastShown_subset back) (leftOver_subset back alike))
      · rw [crsAfter_nothing nothing, crsAfter_nothing nothing]

/-- The contents of the files of two packages, the one of which is a faster version of the other. -/
def navigationYaml (content : String) : Option Yaml :=
  [("nav", .map [("name", .scalar "nav"), ("version", .scalar "1.0.0")]),
    ("fast-nav", .map [("name", .scalar "fast-nav"), ("version", .scalar "1.0.0")]),
    ("slow", .map
      [("abilityName", .scalar "Navigate"), ("kind", .scalar "AtomAbility"), ("config", .map [("speed", .scalar "slow")])]),
    ("fast", .map
      [("abilityName", .scalar "Navigate"), ("kind", .scalar "AtomAbility"),
        ("config", .map [("speed", .scalar "fast")])])].lookup content

def navigationEnvironment : ManagerEnvironment where
  store := ⟨["home"], "x86_64"⟩
  cr := { plainEnvironment with dump := fun json => .ok (Document.textOf json) }
  readYaml := navigationYaml
  isLocalCr position := position = "localhost"
  checkLevels _ _ := .ok ()
  checkRemoteAbilityCrValidity _ := .ok (.error "post error")
  checkDeviceCrValidity _ := .ok (.ok ())

def navigationDisk : Disk :=
  ⟨[(["home"], .directory), (["home", "packages"], .directory), (["home", "packages", "nav"], .directory),
    (["home", "packages", "nav", "1.0.0"], .directory),
    (["home", "packages", "nav", "1.0.0", "package.yaml"], .file "nav"),
    (["home", "packages", "nav", "1.0.0", "ability.manifest.yaml"], .file "slow"),
    (["home", "packages", "fast-nav"], .directory), (["home", "packages", "fast-nav", "1.0.0"], .directory),
    (["home", "packages", "fast-nav", "1.0.0", "package.yaml"], .file "fast-nav"),
    (["home", "packages", "fast-nav", "1.0.0", "ability.manifest.yaml"], .file "fast"),
    (["home", "crs"], .directory)], by decide⟩

def reversedEnumeration : Enumeration :=
  { plainEnumeration with
    searching := Disk.reversed
    searching_same := Disk.sameEntries_reversed }

def emptyHome : Disk :=
  ⟨[(["home"], .directory), (["home", "packages"], .directory), (["home", "crs"], .directory)], by decide⟩

theorem search_emptyHome (enumeration : Enumeration) :
    SearchCompletes navigationEnvironment enumeration emptyHome ∧
      foundPackages navigationEnvironment enumeration emptyHome = [] ∧
        mirroredDisk navigationEnvironment enumeration emptyHome = emptyHome := by
  have none : packagesOn navigationEnvironment emptyHome = [] := by decide
  have apart : MirrorsApart navigationEnvironment emptyHome := mirrorsApart_of_names (by rw [none]; nofun)
  obtain ⟨searching, same⟩ := searching_search apart (by rw [none]; nofun) enumeration
  rw [none] at same
  have noPackages : foundPackages navigationEnvironment enumeration emptyHome = [] := same.eq_nil
  refine ⟨searching.goesOn, noPackages, searching.mirrored.trans ?_⟩
  exact congrArg (List.foldl (mirrorPackage navigationEnvironment enumeration) emptyHome) noPackages

theorem crFiles_emptyHome (enumeration : Enumeration) :
    (mirroredDisk navigationEnvironment enumeration emptyHome).isDirectory (crsPath navigationEnvironment) = true ∧
      crFiles navigationEnvironment enumeration emptyHome = [] := by
  have noFiles := ((enumeration.scanning_same emptyHome).regularFiles (crsPath navigationEnvironment)).eq_nil
  rw [crFiles, (search_emptyHome enumeration).2.2, crEntries, noFiles, List.map_nil, ite_self]
  exact ⟨by rfl, rfl⟩

end AbilityFramework.ResourceMgr.ResourceManager
