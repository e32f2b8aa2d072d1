import AbilityFramework.ResourceMgr.AbilityReconcile
import AbilityFramework.ResourceMgr.DeviceReconcile
import AbilityFramework.ResourceMgr.ThrowingFiles
import Mathlib.Data.Set.Basic

/-! # What the tables show

The content of the tables of CRs without the ids that `make_uuid()` makes and without times.  After a round that
completes it is what the last accepted CRs show (`abilityView_readCrsIntoDb`, `deviceView_readCrsIntoDb`). -/

namespace AbilityFramework.ResourceMgr

open Library

/-! ## Views -/

structure ShownAbility where
  name : CRName
  autostart : Bool
  keepAlive : Bool
  singleton : Bool
  crDetail : String
  labels : Set (String × String)
  annotations : Set (String × String)

/-- The id is made of the CR's package, version, name and kind. -/
structure ShownDevice where
  id : Uuid
  name : CRName
  crDetail : String
  labels : Set (String × String)
  annotations : Set (String × String)

def textsOf (texts : CRTexts) (id : Uuid) : Set (String × String) := {entry | ⟨id, entry.1, entry.2⟩ ∈ texts}

def entriesOf (map : StringMap) : Set (String × String) := {entry | entry ∈ map}

def AbilityCRContent.shown (cr : AbilityCRContent) : ShownAbility where
  name := cr.name
  autostart := cr.spec.autoStart.getD false
  keepAlive := cr.spec.keepAlive.getD false
  singleton := cr.spec.singleton.getD true
  crDetail := cr.detail
  labels := entriesOf cr.metadata.labels
  annotations := entriesOf cr.metadata.annotations

def DeviceCRContent.shown (cr : DeviceCRContent) : ShownDevice where
  id := cr.id
  name := cr.name
  crDetail := cr.detail
  labels := entriesOf cr.metadata.labels
  annotations := entriesOf cr.metadata.annotations

def shownAbility (abilities : AbilityTables) (row : AbilityCRBasicRow) : ShownAbility where
  name := row.name
  autostart := row.autostart
  keepAlive := row.keepAlive
  singleton := row.singleton
  crDetail := row.crDetail
  labels := textsOf abilities.labels row.instanceId
  annotations := textsOf abilities.annotations row.instanceId

def shownDevice (devices : DeviceTables) (row : DeviceCRBasicRow) : ShownDevice where
  id := row.instanceId
  name := row.name
  crDetail := row.crDetail
  labels := textsOf devices.labels row.instanceId
  annotations := textsOf devices.annotations row.instanceId

def abilityView (abilities : AbilityTables) : Set ShownAbility :=
  {shown | ∃ row ∈ abilities.basic, shown = shownAbility abilities row}

def deviceView (devices : DeviceTables) : Set ShownDevice :=
  {shown | ∃ row ∈ devices.basic, shown = shownDevice devices row}

theorem textsOf_eq {texts : CRTexts} {id : Uuid} {map : StringMap} (textsAre : TextsAre texts id map) :
    textsOf texts id = entriesOf map := by
  ext entry
  constructor
  · intro isText
    obtain ⟨other, member, same⟩ := (textsAre ⟨id, entry.1, entry.2⟩).mp ⟨isText, rfl⟩
    have isOther : entry = other := Prod.ext (congrArg CRText.key same) (congrArg CRText.value same)
    rw [isOther]
    exact member
  · intro member
    exact ((textsAre ⟨id, entry.1, entry.2⟩).mpr ⟨entry, member, rfl⟩).1

theorem shownAbility_eq {abilities : AbilityTables} {cr : AbilityCRContent} {row : AbilityCRBasicRow}
    (template : IsTemplateOf abilities cr row) : shownAbility abilities row = cr.shown := by
  rw [shownAbility, AbilityCRContent.shown, template.shows.name, template.shows.autostart, template.shows.keepAlive,
    template.shows.singleton, template.shows.detail, textsOf_eq template.labels, textsOf_eq template.annotations]

/-! ## After a round -/

variable {env : CREnvironment} {checks : CRChecks} {makeUuid : Nat → Uuid} {db : CRDatabase}
  {entries : List DirectoryEntry}

/-- A round that completes shows the abilities of the last files, and nothing else. -/
theorem abilityView_readCrsIntoDb (distinct : NamesDistinct db.abilities) (fresh : MakesFresh makeUuid db)
    (completes : (readCrsIntoDb env checks makeUuid db entries).1 = .ok ()) :
    abilityView (readCrsIntoDb env checks makeUuid db entries).2.abilities =
      lastShown AbilityCRContent.name AbilityCRContent.shown (acceptedAbilities env checks entries) := by
  have exact := readCrsIntoDb_exact distinct fresh completes
  ext shown
  constructor
  · rintro ⟨row, member, rfl⟩
    obtain ⟨cr, isLast, template⟩ := exact.templates row member
    refine ⟨cr, ?_, shownAbility_eq template⟩
    rw [(mem_of_lastOf isLast).2]
    exact isLast
  · rintro ⟨cr, isLast, rfl⟩
    obtain ⟨row, member, sameName⟩ := (exact.names cr.name).mpr ⟨cr, (mem_of_lastOf isLast).1, rfl⟩
    obtain ⟨other, isOther, template⟩ := exact.templates row member
    rw [sameName, isLast, Option.some.injEq] at isOther
    subst isOther
    exact ⟨row, member, (shownAbility_eq template).symm⟩

section Devices

variable {before added : CRDatabase} {accepted : List DeviceCRContent} {row : DeviceCRBasicRow}

theorem shownDevice_written {cr : DeviceCRContent} (loaded : DevicesLoaded before added accepted)
    (texts : DeviceTextsLoaded before added accepted) (member : row ∈ added.devices.basic) (sameId : row.instanceId = cr.id)
    (isLast : lastOf DeviceCRContent.id cr.id accepted = some cr) : shownDevice added.devices row = cr.shown := by
  have shows := loaded.rows row member cr (sameId ▸ isLast)
  obtain ⟨labels, annotations⟩ := texts.written cr.id cr isLast
  rw [shownDevice, DeviceCRContent.shown, shows.name, shows.detail, sameId, textsOf_eq labels, textsOf_eq annotations]

theorem shownDevice_kept (texts : DeviceTextsLoaded before added accepted)
    (untouched : ∀ cr ∈ accepted, cr.id ≠ row.instanceId) :
    shownDevice added.devices row = shownDevice before.devices row := by
  have labels : textsOf added.devices.labels row.instanceId = textsOf before.devices.labels row.instanceId :=
    Set.ext fun entry => (texts.kept ⟨row.instanceId, entry.1, entry.2⟩ untouched).1
  have annotations : textsOf added.devices.annotations row.instanceId = textsOf before.devices.annotations row.instanceId :=
    Set.ext fun entry => (texts.kept ⟨row.instanceId, entry.1, entry.2⟩ untouched).2
  rw [shownDevice, shownDevice, labels, annotations]

theorem shownDevice_reconcile {devices : DeviceTables} {names : List CRName} (member : row ∈ devices.basic)
    (stays : row.name ∈ names) :
    shownDevice (devices.reconcile DeviceCRBasicRow.name names) row = shownDevice devices row := by
  have labels : textsOf (devices.reconcile DeviceCRBasicRow.name names).labels row.instanceId =
      textsOf devices.labels row.instanceId :=
    Set.ext fun _ => (CRTables.texts_reconcile member stays rfl).1
  have annotations : textsOf (devices.reconcile DeviceCRBasicRow.name names).annotations row.instanceId =
      textsOf devices.annotations row.instanceId :=
    Set.ext fun _ => (CRTables.texts_reconcile member stays rfl).2
  rw [shownDevice, shownDevice, labels, annotations]

/-- Devices of earlier rounds that this round does not have but whose names it has. -/
def leftOver (devices : DeviceTables) (accepted : List DeviceCRContent) : Set ShownDevice :=
  {shown | ∃ row ∈ devices.basic, (∀ cr ∈ accepted, cr.id ≠ row.instanceId) ∧
    (∃ cr ∈ accepted, cr.name = row.name) ∧ shown = shownDevice devices row}

theorem deviceView_reconcile (loaded : DevicesLoaded before added accepted)
    (texts : DeviceTextsLoaded before added accepted) :
    deviceView (added.devices.reconcile DeviceCRBasicRow.name (accepted.map DeviceCRContent.name)) =
      lastShown DeviceCRContent.id DeviceCRContent.shown accepted ∪ leftOver before.devices accepted := by
  ext shown
  constructor
  · rintro ⟨row, member, rfl⟩
    obtain ⟨member, stays⟩ := CRTables.mem_reconcile.mp member
    rw [shownDevice_reconcile member stays]
    by_cases touched : ∃ cr ∈ accepted, cr.id = row.instanceId
    · obtain ⟨cr, isAccepted, sameId⟩ := touched
      obtain ⟨last, isLast⟩ := exists_lastOf DeviceCRContent.id isAccepted
      have lastId := (mem_of_lastOf isLast).2
      rw [← lastId] at isLast
      exact .inl ⟨last, isLast, shownDevice_written loaded texts member (sameId.symm.trans lastId.symm) isLast⟩
    · have untouched : ∀ cr ∈ accepted, cr.id ≠ row.instanceId :=
        fun cr isAccepted sameId => touched ⟨cr, isAccepted, sameId⟩
      have old := (loaded.origin row member).resolve_left touched
      exact .inr ⟨row, old, untouched, List.mem_map.mp stays, shownDevice_kept texts untouched⟩
  · rintro (⟨cr, isLast, rfl⟩ | ⟨row, old, untouched, named, rfl⟩)
    · have isAccepted := (mem_of_lastOf isLast).1
      obtain ⟨row, member, sameId⟩ := loaded.present cr isAccepted
      have shows := loaded.rows row member cr (sameId ▸ isLast)
      have stays : row.name ∈ accepted.map DeviceCRContent.name := shows.name ▸ List.mem_map_of_mem isAccepted
      refine ⟨row, CRTables.mem_reconcile.mpr ⟨member, stays⟩, ?_⟩
      rw [shownDevice_reconcile member stays, shownDevice_written loaded texts member sameId isLast]
    · have member := loaded.kept row old untouched
      have stays : row.name ∈ accepted.map DeviceCRContent.name := List.mem_map.mpr named
      refine ⟨row, CRTables.mem_reconcile.mpr ⟨member, stays⟩, ?_⟩
      rw [shownDevice_reconcile member stays, shownDevice_kept texts untouched]

end Devices

/-- A round that completes shows the devices of the last files, and some that are left over. -/
theorem deviceView_readCrsIntoDb (completes : (readCrsIntoDb env checks makeUuid db entries).1 = .ok ()) :
    deviceView (readCrsIntoDb env checks makeUuid db entries).2.devices =
      lastShown DeviceCRContent.id DeviceCRContent.shown (acceptedDevices env checks entries) ∪
        leftOver db.devices (acceptedDevices env checks entries) := by
  rw [readCrsIntoDb_completed completes rfl]
  exact deviceView_reconcile (foldl_devicesLoaded makeUuid db (acceptedCrs env checks entries))
    (foldl_deviceTextsLoaded makeUuid db (acceptedCrs env checks entries))

/-! ## Accepted CRs -/

theorem mem_acceptedAbilities {cr : AbilityCRContent} :
    cr ∈ acceptedAbilities env checks entries ↔ ∃ entry ∈ entries, acceptedCr env checks entry = some (.ability cr) := by
  simp only [acceptedAbilities, abilitiesAmong, acceptedCrs, List.mem_filterMap, Option.map_eq_some_iff]
  constructor
  · rintro ⟨_, ⟨entry, member, content, accepted, rfl⟩, same⟩
    cases content with
    | ability other =>
      cases same
      exact ⟨entry, member, accepted⟩
    | device => cases same
  · rintro ⟨entry, member, accepted⟩
    exact ⟨_, ⟨entry, member, _, accepted, rfl⟩, rfl⟩

theorem mem_acceptedDevices {cr : DeviceCRContent} :
    cr ∈ acceptedDevices env checks entries ↔ ∃ entry ∈ entries, acceptedCr env checks entry = some (.device cr) := by
  simp only [acceptedDevices, devicesAmong, acceptedCrs, List.mem_filterMap, Option.map_eq_some_iff]
  constructor
  · rintro ⟨_, ⟨entry, member, content, accepted, rfl⟩, same⟩
    cases content with
    | device other =>
      cases same
      exact ⟨entry, member, accepted⟩
    | ability => cases same
  · rintro ⟨entry, member, accepted⟩
    exact ⟨_, ⟨entry, member, _, accepted, rfl⟩, rfl⟩

/-- The CR of the last entry is the last of the accepted CRs. -/
theorem acceptedCrs_lastAt {earlier : List DirectoryEntry} {entry : DirectoryEntry} {content : CRContent}
    (accepted : acceptedCr env checks entry = some content) :
    acceptedCrs env checks (earlier ++ [entry]) = acceptedCrs env checks earlier ++ [(entry.readAt, content)] := by
  rw [acceptedCrs, List.filterMap_append, acceptedCrs]
  simp [accepted]

theorem acceptedAbilities_lastAt {earlier : List DirectoryEntry} {entry : DirectoryEntry} {cr : AbilityCRContent}
    (accepted : acceptedCr env checks entry = some (.ability cr)) :
    acceptedAbilities env checks (earlier ++ [entry]) = acceptedAbilities env checks earlier ++ [cr] := by
  rw [acceptedAbilities, acceptedCrs_lastAt accepted, abilitiesAmong, List.filterMap_append]
  rfl

theorem acceptedDevices_lastAt {earlier : List DirectoryEntry} {entry : DirectoryEntry} {cr : DeviceCRContent}
    (accepted : acceptedCr env checks entry = some (.device cr)) :
    acceptedDevices env checks (earlier ++ [entry]) = acceptedDevices env checks earlier ++ [cr] := by
  rw [acceptedDevices, acceptedCrs_lastAt accepted, devicesAmong, List.filterMap_append]
  rfl

/-! ## Rounds that throw -/

theorem readEntry_db (scan : Scan) (entry : DirectoryEntry) :
    (readEntry env checks makeUuid scan entry).db = scan.db ∨
      ∃ content, (readEntry env checks makeUuid scan entry).db = addCr makeUuid scan.db (entry.readAt, content) := by
  rw [readEntry]
  split
  · exact .inl rfl
  · split
    · exact .inl rfl
    · exact .inl rfl
    · exact .inr ⟨.ability _, rfl⟩
    · exact .inr ⟨.device _, rfl⟩

/-- As far as a round gets, it adds CRs. -/
theorem run_loaded (env : CREnvironment) (checks : CRChecks) {before : CRDatabase} (fresh : MakesFresh makeUuid before) {scan : Scan}
    {abilities : List AbilityCRContent} {devices : List DeviceCRContent}
    (abilitiesLoaded : Loaded makeUuid before scan.db abilities) (devicesLoaded : DevicesLoaded before scan.db devices)
    (entries : List DirectoryEntry) :
    ∃ moreAbilities moreDevices,
      Loaded makeUuid before (Runs.run (readEntry env checks makeUuid) scan entries).db (abilities ++ moreAbilities) ∧
        DevicesLoaded before (Runs.run (readEntry env checks makeUuid) scan entries).db (devices ++ moreDevices) := by
  induction entries generalizing scan abilities devices with
  | nil => exact ⟨[], [], by simpa using abilitiesLoaded, by simpa using devicesLoaded⟩
  | cons entry entries inductionHypothesis =>
    rw [Runs.run_cons]
    obtain unchanged | ⟨content, isAdded⟩ := readEntry_db scan entry
    · exact inductionHypothesis (unchanged ▸ abilitiesLoaded) (unchanged ▸ devicesLoaded)
    · obtain ⟨moreAbilities, moreDevices, loaded⟩ := inductionHypothesis
        (isAdded ▸ addCr_loaded fresh (entry.readAt, content) abilitiesLoaded)
        (isAdded ▸ addCr_devicesLoaded makeUuid (entry.readAt, content) devicesLoaded)
      rw [List.append_assoc, List.append_assoc] at loaded
      exact ⟨_, _, loaded⟩

/-- A round that throws leaves what it has added. -/
theorem readCrsIntoDb_throws (throws : ¬ (readCrsIntoDb env checks makeUuid db entries).1 = .ok ()) :
    (readCrsIntoDb env checks makeUuid db entries).2 = (Runs.run (readEntry env checks makeUuid) { db } entries).db := by
  rw [readCrsIntoDb] at throws ⊢
  split
  · rfl
  · rename_i goesOn
    simp only [goesOn] at throws
    exact absurd trivial throws

theorem readCrsIntoDb_head_throws {entry : DirectoryEntry} (throws : EntryThrows env checks entry)
    (later : List DirectoryEntry) : (readCrsIntoDb env checks makeUuid db (entry :: later)).2 = db := by
  have incomplete : ¬ (readCrsIntoDb env checks makeUuid db (entry :: later)).1 = .ok () := by
    rw [readCrsIntoDb_completes_iff]
    intro completes
    exact completes entry List.mem_cons_self throws
  rw [readCrsIntoDb_throws incomplete, Runs.run_cons]
  obtain ⟨exception, content⟩ := not_succeeds_iff.mp ((entryThrows_iff env checks).mp throws)
  have ended : readEntry env checks makeUuid { db } entry = { db, thrown := some exception } := by
    rw [readEntry, content]
    rfl
  rw [ended, run_thrown rfl]

end AbilityFramework.ResourceMgr
