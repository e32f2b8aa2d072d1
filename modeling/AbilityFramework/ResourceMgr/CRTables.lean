import AbilityFramework.Library.Runs
import AbilityFramework.ResourceMgr.CRFiles

/-! # The tables of CRs

`add_ability_cr`, `add_device_cr` and `read_crs_into_db`, which adds the CRs of a directory one after the
other and then drops the rows whose name, version and instance name no CR of this round has.

An ability CR is found again by these three columns, a device CR by the id that is made from its package,
version, name and kind. -/

namespace AbilityFramework.ResourceMgr

open Library

/-- Name and version of a class with the name of an instance. -/
abbrev CRName := String × String × String

/-! ## Tables -/

structure AbilityCRBasicRow where
  instanceId : Uuid
  abilityName : String
  abilityVersion : String
  instanceName : String
  insertTime : Int
  updateTime : Int
  autostart : Bool
  autoStarted : Bool
  keepAlive : Bool
  singleton : Bool
  crDetail : String
  crFilepath : Option String
  deriving DecidableEq

structure DeviceCRBasicRow where
  instanceId : Uuid
  deviceName : String
  deviceVersion : String
  instanceName : String
  insertTime : Int
  updateTime : Int
  crDetail : String
  crFilepath : Option String
  deriving DecidableEq

/-- A row of a table of labels or of annotations. -/
structure CRText where
  instanceId : Uuid
  key : String
  value : String
  deriving DecidableEq

def CRText.primaryKey (text : CRText) : Uuid × String := (text.instanceId, text.key)

abbrev CRTexts := Relation CRText.primaryKey

structure CRFileInfo where
  instanceId : Uuid
  crFilePath : String
  crFileDigest : String
  crFileDetail : String
  crFileExtension : String
  deriving DecidableEq

/-- A table of CRs with the three that go with it. -/
structure CRTables {Row : Type} (instanceId : Row → Uuid) where
  basic : Relation instanceId := ∅
  labels : CRTexts := ∅
  annotations : CRTexts := ∅
  fileInfo : Relation CRFileInfo.instanceId := ∅

abbrev AbilityTables := CRTables AbilityCRBasicRow.instanceId

abbrev DeviceTables := CRTables DeviceCRBasicRow.instanceId

structure CRDatabase where
  abilities : AbilityTables := {}
  devices : DeviceTables := {}
  /-- The ids that `make_uuid()` has made so far. -/
  made : Nat := 0

def AbilityCRBasicRow.name (row : AbilityCRBasicRow) : CRName := (row.abilityName, row.abilityVersion, row.instanceName)

def DeviceCRBasicRow.name (row : DeviceCRBasicRow) : CRName := (row.deviceName, row.deviceVersion, row.instanceName)

def AbilityCRContent.name (cr : AbilityCRContent) : CRName :=
  (cr.spec.abilityName, cr.spec.version, cr.metadata.name)

def DeviceCRContent.name (cr : DeviceCRContent) : CRName :=
  (cr.spec.deviceName, cr.spec.version, cr.metadata.name)

/-! ## Adding a CR -/

/-- `db_clear_…` and then `db_write_…` for each entry. -/
def rewriteTexts (texts : CRTexts) (id : Uuid) (map : StringMap) : CRTexts :=
  (map.rows.map fun (key, value) => CRText.mk id key value).foldl Relation.replaceInto
    (texts.deleteWhere fun text => text.instanceId = id)

def CRTables.writeMetadata {Row : Type} {instanceId : Row → Uuid} (tables : CRTables instanceId) (id : Uuid)
    (metadata : CRMetadata) : CRTables instanceId :=
  { tables with
    annotations := rewriteTexts tables.annotations id metadata.annotations
    labels := rewriteTexts tables.labels id metadata.labels }

/-- The texts of an id are those of the map. -/
def TextsAre (texts : CRTexts) (id : Uuid) (map : StringMap) : Prop :=
  ∀ text, text ∈ texts ∧ text.instanceId = id ↔ ∃ entry ∈ map, text = ⟨id, entry.1, entry.2⟩

theorem mem_rewriteTexts {texts : CRTexts} {id : Uuid} {map : StringMap} {text : CRText} :
    text ∈ rewriteTexts texts id map ↔
      (∃ entry ∈ map, text = ⟨id, entry.1, entry.2⟩) ∨ text ∈ texts ∧ text.instanceId ≠ id := by
  have keys : (map.rows.map fun (key, value) => CRText.mk id key value).map CRText.primaryKey =
      (map.rows.map Prod.fst).map (Prod.mk id) := by
    rw [List.map_map, List.map_map]
    rfl
  have distinct : ((map.rows.map fun (key, value) => CRText.mk id key value).map CRText.primaryKey).Nodup := by
    rw [keys]
    exact map.keyed.map fun _ _ same => congrArg Prod.snd same
  rw [rewriteTexts, Relation.mem_foldl_replaceInto distinct, Relation.mem_deleteWhere, List.mem_map, keys]
  constructor
  · rintro (⟨entry, member, rfl⟩ | ⟨⟨member, other⟩, _⟩)
    · exact .inl ⟨entry, member, rfl⟩
    · exact .inr ⟨member, mt decide_eq_true other⟩
  · rintro (⟨entry, member, rfl⟩ | ⟨member, other⟩)
    · exact .inl ⟨entry, member, rfl⟩
    · refine .inr ⟨⟨member, mt of_decide_eq_true other⟩, ?_⟩
      -- Its id is another one, so its key is none of those written.
      rw [List.mem_map]
      rintro ⟨_, _, same⟩
      exact other (congrArg Prod.fst same).symm

theorem textsAre_rewriteTexts (texts : CRTexts) (id : Uuid) (map : StringMap) :
    TextsAre (rewriteTexts texts id map) id map := by
  intro text
  rw [mem_rewriteTexts]
  constructor
  · rintro ⟨written | ⟨_, other⟩, same⟩
    · exact written
    · exact absurd same other
  · rintro ⟨entry, member, rfl⟩
    exact ⟨.inl ⟨entry, member, rfl⟩, rfl⟩

theorem textsAre_rewriteTexts_other {texts : CRTexts} {id other : Uuid} (different : other ≠ id) (written : StringMap)
    {map : StringMap} (unchanged : TextsAre texts other map) : TextsAre (rewriteTexts texts id written) other map := by
  intro text
  rw [← unchanged text, mem_rewriteTexts]
  constructor
  · rintro ⟨⟨entry, _, rfl⟩ | ⟨member, _⟩, same⟩
    · exact absurd same.symm different
    · exact ⟨member, same⟩
  · rintro ⟨member, same⟩
    exact ⟨.inr ⟨member, same ▸ different⟩, same⟩

def dbExistsAbilityCrByName (abilities : AbilityTables) (cr : AbilityCRContent) : Option Uuid :=
  (abilities.basic.select fun row => row.name = cr.name).head?.map AbilityCRBasicRow.instanceId

/-- The columns that both statements set. -/
def AbilityCRBasicRow.show (row : AbilityCRBasicRow) (cr : AbilityCRContent) (time : Int) : AbilityCRBasicRow :=
  { row with
    abilityName := cr.spec.abilityName
    abilityVersion := cr.spec.version
    instanceName := cr.metadata.name
    insertTime := time
    updateTime := time
    autostart := cr.spec.autoStart.getD false
    keepAlive := cr.spec.keepAlive.getD false
    singleton := cr.spec.singleton.getD true
    crDetail := cr.detail }

@[simp] theorem AbilityCRBasicRow.show_instanceId (row : AbilityCRBasicRow) (cr : AbilityCRContent) (time : Int) :
    (row.show cr time).instanceId = row.instanceId := rfl

/-- A new row, with the defaults of the columns that are not set. -/
def AbilityCRBasicRow.new (instanceId : Uuid) : AbilityCRBasicRow where
  instanceId
  abilityName := ""
  abilityVersion := ""
  instanceName := ""
  insertTime := 0
  updateTime := 0
  autostart := false
  autoStarted := false
  keepAlive := false
  singleton := true
  crDetail := ""
  crFilepath := none

/-- A template that is there keeps its id, a new one gets an id from `make_uuid()`; the id that the CR
carries is not used. -/
def addAbilityCr (makeUuid : Nat → Uuid) (db : CRDatabase) (time : Int) (cr : AbilityCRContent) : CRDatabase :=
  match dbExistsAbilityCrByName db.abilities cr with
  | some id =>
    let basic := db.abilities.basic.updateWhere (fun row => row.instanceId = id) (fun row => row.show cr time)
      fun row => row.show_instanceId cr time
    { db with abilities := { db.abilities with basic }.writeMetadata id cr.metadata }
  | none =>
    let id := makeUuid db.made
    let basic := db.abilities.basic.replaceInto ((AbilityCRBasicRow.new id).show cr time)
    { db with abilities := { db.abilities with basic }.writeMetadata id cr.metadata, made := db.made + 1 }

def DeviceCRBasicRow.show (row : DeviceCRBasicRow) (cr : DeviceCRContent) (time : Int) : DeviceCRBasicRow :=
  { row with
    deviceName := cr.spec.deviceName
    deviceVersion := cr.spec.version
    instanceName := cr.metadata.name
    updateTime := time
    crDetail := cr.detail }

@[simp] theorem DeviceCRBasicRow.show_instanceId (row : DeviceCRBasicRow) (cr : DeviceCRContent) (time : Int) :
    (row.show cr time).instanceId = row.instanceId := rfl

def DeviceCRBasicRow.new (instanceId : Uuid) (insertTime : Int) : DeviceCRBasicRow where
  instanceId
  deviceName := ""
  deviceVersion := ""
  instanceName := ""
  insertTime
  updateTime := 0
  crDetail := ""
  crFilepath := none

def existsDeviceCr (devices : DeviceTables) (id : Uuid) : Bool :=
  !(devices.basic.select fun row => row.instanceId = id).isEmpty

def addDeviceCr (db : CRDatabase) (time : Int) (cr : DeviceCRContent) : CRDatabase :=
  let devices := db.devices.writeMetadata cr.id cr.metadata
  let basic :=
    if existsDeviceCr devices cr.id then
      devices.basic.updateWhere (fun row => row.instanceId = cr.id) (fun row => row.show cr time)
        fun row => row.show_instanceId cr time
    else devices.basic.replaceInto ((DeviceCRBasicRow.new cr.id time).show cr time)
  { db with devices := { devices with basic } }

/-! ## Dropping rows -/

namespace CRTables

variable {Row : Type} {instanceId : Row → Uuid}

def drop (tables : CRTables instanceId) (id : Uuid) : CRTables instanceId where
  basic := tables.basic.deleteWhere fun row => instanceId row = id
  labels := tables.labels.deleteWhere fun text => text.instanceId = id
  annotations := tables.annotations.deleteWhere fun text => text.instanceId = id
  fileInfo := tables.fileInfo.deleteWhere fun info => info.instanceId = id

/-- The rows whose name is not among these go. -/
def reconcile (tables : CRTables instanceId) (name : Row → CRName) (names : List CRName) : CRTables instanceId :=
  ((tables.basic.select fun row => name row ∉ names).map instanceId).foldl drop tables

theorem foldl_drop (ids : List Uuid) (tables : CRTables instanceId) :
    (∀ row, row ∈ (ids.foldl drop tables).basic ↔ row ∈ tables.basic ∧ instanceId row ∉ ids) ∧
      (∀ text, text ∈ (ids.foldl drop tables).labels ↔ text ∈ tables.labels ∧ text.instanceId ∉ ids) ∧
      ∀ text, text ∈ (ids.foldl drop tables).annotations ↔ text ∈ tables.annotations ∧ text.instanceId ∉ ids := by
  induction ids generalizing tables with
  | nil => simp
  | cons id ids inductionHypothesis =>
    obtain ⟨basic, labels, annotations⟩ := inductionHypothesis (tables.drop id)
    rw [List.foldl_cons]
    refine ⟨fun row => ?_, fun text => ?_, fun text => ?_⟩
    · rw [basic, drop, Relation.mem_deleteWhere, decide_eq_true_eq, List.mem_cons, not_or, and_assoc]
    · rw [labels, drop, Relation.mem_deleteWhere, decide_eq_true_eq, List.mem_cons, not_or, and_assoc]
    · rw [annotations, drop, Relation.mem_deleteWhere, decide_eq_true_eq, List.mem_cons, not_or, and_assoc]

/-- Ids are those of one row, so what is dropped for a name is no row with another. -/
theorem not_stale_iff {tables : CRTables instanceId} {name : Row → CRName} {names : List CRName} {row : Row}
    (member : row ∈ tables.basic) :
    instanceId row ∉ (tables.basic.select fun row => name row ∉ names).map instanceId ↔ name row ∈ names := by
  simp only [List.mem_map, Relation.mem_select, decide_eq_true_eq]
  constructor
  · intro notStale
    by_contra gone
    exact notStale ⟨row, ⟨member, gone⟩, rfl⟩
  · rintro stays ⟨other, ⟨otherMember, gone⟩, same⟩
    rw [Relation.eq_of_key otherMember member same] at gone
    exact gone stays

theorem mem_reconcile {tables : CRTables instanceId} {name : Row → CRName} {names : List CRName} {row : Row} :
    row ∈ (tables.reconcile name names).basic ↔ row ∈ tables.basic ∧ name row ∈ names := by
  rw [reconcile, (foldl_drop _ tables).1]
  exact and_congr_right not_stale_iff

/-- Labels and annotations of the rows that stay are left alone. -/
theorem texts_reconcile {tables : CRTables instanceId} {name : Row → CRName} {names : List CRName} {row : Row}
    (member : row ∈ tables.basic) (stays : name row ∈ names) {text : CRText} (own : text.instanceId = instanceId row) :
    (text ∈ (tables.reconcile name names).labels ↔ text ∈ tables.labels) ∧
      (text ∈ (tables.reconcile name names).annotations ↔ text ∈ tables.annotations) := by
  have notStale : text.instanceId ∉ (tables.basic.select fun row => name row ∉ names).map instanceId := by
    rw [own]
    exact (not_stale_iff member).mpr stays
  obtain ⟨_, labels, annotations⟩ := foldl_drop ((tables.basic.select fun row => name row ∉ names).map instanceId) tables
  rw [reconcile, labels, annotations]
  exact ⟨and_iff_left notStale, and_iff_left notStale⟩

/-- Every label and annotation belongs to a row. -/
def TextsBelong (tables : CRTables instanceId) : Prop :=
  ∀ text, text ∈ tables.labels ∨ text ∈ tables.annotations → ∃ row ∈ tables.basic, instanceId row = text.instanceId

theorem textsBelong_reconcile {tables : CRTables instanceId} (name : Row → CRName) (names : List CRName)
    (belong : tables.TextsBelong) : (tables.reconcile name names).TextsBelong := by
  obtain ⟨basic, labels, annotations⟩ :=
    foldl_drop ((tables.basic.select fun row => name row ∉ names).map instanceId) tables
  intro text isText
  have kept : (text ∈ tables.labels ∨ text ∈ tables.annotations) ∧
      text.instanceId ∉ (tables.basic.select fun row => name row ∉ names).map instanceId := by
    rw [reconcile, labels, annotations] at isText
    rwa [← or_and_right] at isText
  obtain ⟨row, member, same⟩ := belong text kept.1
  refine ⟨row, ?_, same⟩
  rw [reconcile, basic, same]
  exact ⟨member, kept.2⟩

end CRTables

/-! ## A scan of the CR directory -/

structure DirectoryEntry where
  isRegularFile : Bool
  extension : String
  /-- What `YAML::LoadFile` makes of the file, if it can be read. -/
  yaml : Option Yaml
  readAt : Int

/-- `extension_is_yaml` -/
def DirectoryEntry.extensionIsYaml (entry : DirectoryEntry) : Bool :=
  "yaml".toList.isSuffixOf entry.extension.toList || "yml".toList.isSuffixOf entry.extension.toList

structure Scan where
  db : CRDatabase
  abilityKeys : List CRName := []
  deviceKeys : List CRName := []
  /-- The exception that has ended the scan. -/
  thrown : Option CRException := none

section ReadCrs

variable (env : CREnvironment) (checks : CRChecks) (makeUuid : Nat → Uuid)

/-- What an entry of the directory holds; nothing if it is no regular file, no YAML or not readable. -/
def entryContent (entry : DirectoryEntry) : Except CRException (Option CRContent) :=
  if !entry.isRegularFile then .ok none
  else if !entry.extensionIsYaml then .ok none
  else match entry.yaml with
  | none => .ok none
  | some yaml => loadCr env checks yaml

def readEntry (scan : Scan) (entry : DirectoryEntry) : Scan :=
  if scan.thrown.isSome then scan
  else match entryContent env checks entry with
  | .error exception => { scan with thrown := some exception }
  | .ok none => scan
  | .ok (some (.ability cr)) =>
    { scan with
      db := addAbilityCr makeUuid scan.db entry.readAt cr, abilityKeys := scan.abilityKeys ++ [cr.name] }
  | .ok (some (.device cr)) =>
    { scan with db := addDeviceCr scan.db entry.readAt cr, deviceKeys := scan.deviceKeys ++ [cr.name] }

/-- The scan of a directory, given by its entries in the order of the iteration.  A scan that throws
leaves what has been added before. -/
def readCrsIntoDb (db : CRDatabase) (entries : List DirectoryEntry) : Except CRException Unit × CRDatabase :=
  let scan := Runs.run (readEntry env checks makeUuid) { db } entries
  match scan.thrown with
  | some exception => (.error exception, scan.db)
  | none => (.ok (), { scan.db with
      abilities := scan.db.abilities.reconcile AbilityCRBasicRow.name scan.abilityKeys
      devices := scan.db.devices.reconcile DeviceCRBasicRow.name scan.deviceKeys })

/-! ## The CRs of a round -/

/-- The CR that an entry of the directory holds, if it is accepted. -/
def acceptedCr (entry : DirectoryEntry) : Option CRContent :=
  match entryContent env checks entry with
  | .error _ => none
  | .ok content => content

/-- The accepted CRs, in the order in which they are read, with the times. -/
def acceptedCrs (entries : List DirectoryEntry) : List (Int × CRContent) :=
  entries.filterMap fun entry => (acceptedCr env checks entry).map (entry.readAt, ·)

def addCr (db : CRDatabase) : Int × CRContent → CRDatabase
  | (time, .ability cr) => addAbilityCr makeUuid db time cr
  | (time, .device cr) => addDeviceCr db time cr

def abilitiesAmong (crs : List (Int × CRContent)) : List AbilityCRContent :=
  crs.filterMap fun
    | (_, .ability cr) => some cr
    | (_, .device _) => none

def devicesAmong (crs : List (Int × CRContent)) : List DeviceCRContent :=
  crs.filterMap fun
    | (_, .ability _) => none
    | (_, .device cr) => some cr

def acceptedAbilities (entries : List DirectoryEntry) : List AbilityCRContent :=
  abilitiesAmong (acceptedCrs env checks entries)

def acceptedDevices (entries : List DirectoryEntry) : List DeviceCRContent :=
  devicesAmong (acceptedCrs env checks entries)

variable {env checks makeUuid}

theorem acceptedCrs_cons (entry : DirectoryEntry) (entries : List DirectoryEntry) :
    acceptedCrs env checks (entry :: entries) = acceptedCrs env checks [entry] ++ acceptedCrs env checks entries := by
  rw [acceptedCrs, acceptedCrs, acceptedCrs, ← List.filterMap_append, List.singleton_append]

/-- An entry that the scan goes on after has had what it holds added. -/
theorem readEntry_goesOn {scan : Scan} {entry : DirectoryEntry}
    (goesOn : (readEntry env checks makeUuid scan entry).thrown = none) :
    readEntry env checks makeUuid scan entry =
      { db := (acceptedCrs env checks [entry]).foldl (addCr makeUuid) scan.db
        abilityKeys := scan.abilityKeys ++ (acceptedAbilities env checks [entry]).map AbilityCRContent.name
        deviceKeys := scan.deviceKeys ++ (acceptedDevices env checks [entry]).map DeviceCRContent.name } := by
  obtain ⟨db, abilityKeys, deviceKeys, thrown⟩ := scan
  simp only [acceptedAbilities, acceptedDevices, acceptedCrs, List.filterMap_cons, List.filterMap_nil, acceptedCr]
  cases thrown with
  | some exception => cases goesOn
  | none =>
    cases content : entryContent env checks entry with
    | error exception => simp [readEntry, content] at goesOn
    | ok found =>
      match found with
      | none => simp [readEntry, content, abilitiesAmong, devicesAmong]
      | some (.ability cr) => simp [readEntry, content, abilitiesAmong, devicesAmong, addCr]
      | some (.device cr) => simp [readEntry, content, abilitiesAmong, devicesAmong, addCr]

theorem run_thrown {scan : Scan} (ended : scan.thrown.isSome = true) (entries : List DirectoryEntry) :
    Runs.run (readEntry env checks makeUuid) scan entries = scan := by
  induction entries with
  | nil => rfl
  | cons entry entries inductionHypothesis =>
    have unchanged : readEntry env checks makeUuid scan entry = scan := if_pos ended
    rw [Runs.run_cons, unchanged, inductionHypothesis]

theorem goesOn_of_run {scan : Scan} {entries : List DirectoryEntry}
    (goesOn : (Runs.run (readEntry env checks makeUuid) scan entries).thrown = none) : scan.thrown = none := by
  by_contra thrown
  have ended : scan.thrown.isSome = true := Option.isSome_iff_ne_none.mpr thrown
  rw [run_thrown ended] at goesOn
  exact thrown goesOn

/-- A scan that goes on to the end has added the accepted CRs one after the other. -/
theorem run_goesOn {scan : Scan} {entries : List DirectoryEntry}
    (goesOn : (Runs.run (readEntry env checks makeUuid) scan entries).thrown = none) :
    Runs.run (readEntry env checks makeUuid) scan entries =
      { db := (acceptedCrs env checks entries).foldl (addCr makeUuid) scan.db
        abilityKeys := scan.abilityKeys ++ (acceptedAbilities env checks entries).map AbilityCRContent.name
        deviceKeys := scan.deviceKeys ++ (acceptedDevices env checks entries).map DeviceCRContent.name } := by
  induction entries generalizing scan with
  | nil =>
    obtain ⟨db, abilityKeys, deviceKeys, thrown⟩ := scan
    simp only [Runs.run_nil] at goesOn
    simp [goesOn, acceptedCrs, acceptedAbilities, acceptedDevices, abilitiesAmong, devicesAmong]
  | cons entry entries inductionHypothesis =>
    rw [Runs.run_cons] at goesOn ⊢
    rw [inductionHypothesis goesOn, readEntry_goesOn (goesOn_of_run goesOn)]
    simp only [acceptedAbilities, acceptedDevices, abilitiesAmong, devicesAmong,
      acceptedCrs_cons entry entries, List.foldl_append, List.filterMap_append, List.map_append, List.append_assoc]

/-- A round that completes adds the accepted CRs and reconciles with their names. -/
theorem readCrsIntoDb_completed {db : CRDatabase} {entries : List DirectoryEntry}
    (completes : (readCrsIntoDb env checks makeUuid db entries).1 = .ok ()) {added : CRDatabase}
    (isAdded : (acceptedCrs env checks entries).foldl (addCr makeUuid) db = added) :
    (readCrsIntoDb env checks makeUuid db entries).2 = { added with
      abilities := added.abilities.reconcile AbilityCRBasicRow.name
        ((acceptedAbilities env checks entries).map AbilityCRContent.name)
      devices := added.devices.reconcile DeviceCRBasicRow.name
        ((acceptedDevices env checks entries).map DeviceCRContent.name) } := by
  have goesOn : (Runs.run (readEntry env checks makeUuid) { db } entries).thrown = none := by
    simp only [readCrsIntoDb] at completes
    split at completes
    · cases completes
    · assumption
  simp only [readCrsIntoDb, run_goesOn goesOn, isAdded, List.nil_append]

end ReadCrs

end AbilityFramework.ResourceMgr
