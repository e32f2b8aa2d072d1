import AbilityFramework.Library.LastOf
import AbilityFramework.ResourceMgr.CRTables

/-! # Device CRs after a round

`add_device_cr` writes the row of the CR's id, which is made from package, version, name and kind;
`read_crs_into_db` then keeps every row whose device name, version and instance name some accepted CR has.
A row whose id is accepted no more stays if another CR has its name, as when a CR moves to another package.
A round leaves exactly the accepted CRs if and only if there is no such row (`devicesExact_iff`). -/

namespace AbilityFramework.ResourceMgr

open Library

/-- The row has the content of the CR. -/
structure ShowsDevice (row : DeviceCRBasicRow) (cr : DeviceCRContent) : Prop where
  name : row.name = cr.name
  detail : row.crDetail = cr.detail

theorem show_showsDevice (row : DeviceCRBasicRow) (cr : DeviceCRContent) (time : Int) :
    ShowsDevice (row.show cr time) cr := ⟨rfl, rfl⟩

variable {makeUuid : Nat → Uuid} {before db : CRDatabase} {added : List DeviceCRContent}

/-- What `add_device_cr` does: the row of the CR takes the place of the row with its id, if there is one. -/
theorem addDeviceCr_spec (db : CRDatabase) (time : Int) (cr : DeviceCRContent) :
    ∃ row, row.instanceId = cr.id ∧ ShowsDevice row cr ∧ ∀ other, other ∈ (addDeviceCr db time cr).devices.basic ↔
      other = row ∨ other ∈ db.devices.basic ∧ other.instanceId ≠ cr.id := by
  simp only [addDeviceCr]
  split
  · rename_i found
    rw [existsDeviceCr, Bool.not_eq_true', List.isEmpty_eq_false_iff_exists_mem] at found
    obtain ⟨old, isFound⟩ := found
    obtain ⟨member, same⟩ := Relation.mem_select.mp isFound
    refine ⟨old.show cr time, of_decide_eq_true same, show_showsDevice old cr time, fun other => ?_⟩
    exact Relation.mem_updateWhere_key (fun row => row.show_instanceId cr time) member (of_decide_eq_true same)
  · refine ⟨(DeviceCRBasicRow.new cr.id time).show cr time, rfl, show_showsDevice _ cr time, fun other => ?_⟩
    exact Relation.mem_replaceInto

/-- What holds once these CRs have been added to the rows there were before. -/
structure DevicesLoaded (before db : CRDatabase) (added : List DeviceCRContent) : Prop where
  rows : ∀ row ∈ db.devices.basic, ∀ cr, lastOf DeviceCRContent.id row.instanceId added = some cr → ShowsDevice row cr
  present : ∀ cr ∈ added, ∃ row ∈ db.devices.basic, row.instanceId = cr.id
  origin : ∀ row ∈ db.devices.basic, (∃ cr ∈ added, cr.id = row.instanceId) ∨ row ∈ before.devices.basic
  kept : ∀ row ∈ before.devices.basic, (∀ cr ∈ added, cr.id ≠ row.instanceId) → row ∈ db.devices.basic

theorem addDeviceCr_loaded (time : Int) (cr : DeviceCRContent) (loaded : DevicesLoaded before db added) :
    DevicesLoaded before (addDeviceCr db time cr) (added ++ [cr]) := by
  obtain ⟨row, isId, shows, rows⟩ := addDeviceCr_spec db time cr
  refine ⟨?_, ?_, ?_, ?_⟩
  · intro other member last isLast
    obtain rfl | ⟨member, different⟩ := (rows other).mp member
    · rw [isId, lastOf_concat_self, Option.some.injEq] at isLast
      exact isLast ▸ shows
    · rw [lastOf_concat_other (Ne.symm different)] at isLast
      exact loaded.rows other member last isLast
  · intro some isAdded
    obtain isAdded | isNew := List.mem_append.mp isAdded
    · obtain ⟨found, member, same⟩ := loaded.present some isAdded
      by_cases taken : found.instanceId = cr.id
      · exact ⟨row, (rows row).mpr (.inl rfl), isId.trans (taken.symm.trans same)⟩
      · exact ⟨found, (rows found).mpr (.inr ⟨member, taken⟩), same⟩
    · rw [List.mem_singleton.mp isNew]
      exact ⟨row, (rows row).mpr (.inl rfl), isId⟩
  · intro other member
    obtain rfl | ⟨member, _⟩ := (rows other).mp member
    · exact .inl ⟨cr, List.mem_append_right added List.mem_cons_self, isId.symm⟩
    · refine (loaded.origin other member).imp_left ?_
      rintro ⟨some, isAdded, same⟩
      exact ⟨some, List.mem_append_left [cr] isAdded, same⟩
  · intro old member untouched
    refine (rows old).mpr (.inr ⟨?_, ?_⟩)
    · exact loaded.kept old member fun some isAdded => untouched some (List.mem_append_left [cr] isAdded)
    · exact Ne.symm (untouched cr (List.mem_append_right added List.mem_cons_self))

theorem devicesLoaded_start (db : CRDatabase) : DevicesLoaded db db [] := by
  refine ⟨?_, ?_, fun row member => .inr member, fun row member _ => member⟩
  · intro row _ cr last
    rw [lastOf_nil] at last
    cases last
  · intro cr isAdded
    cases isAdded

theorem addAbilityCr_devices (makeUuid : Nat → Uuid) (db : CRDatabase) (time : Int) (cr : AbilityCRContent) :
    (addAbilityCr makeUuid db time cr).devices = db.devices := by
  rw [addAbilityCr]
  split
  · rfl
  · rfl

theorem addCr_devicesLoaded (makeUuid : Nat → Uuid) (entry : Int × CRContent) (loaded : DevicesLoaded before db added) :
    DevicesLoaded before (addCr makeUuid db entry) (added ++ devicesAmong [entry]) := by
  obtain ⟨time, content⟩ := entry
  cases content with
  | ability cr =>
    have same : (addCr makeUuid db (time, .ability cr)).devices = db.devices := addAbilityCr_devices makeUuid db time cr
    have none : devicesAmong [(time, .ability cr)] = [] := rfl
    obtain ⟨rows, present, origin, kept⟩ := loaded
    rw [← same] at rows present origin kept
    rw [none, List.append_nil]
    exact ⟨rows, present, origin, kept⟩
  | device cr => exact addDeviceCr_loaded time cr loaded

theorem foldl_devicesLoaded (makeUuid : Nat → Uuid) (db : CRDatabase) (crs : List (Int × CRContent)) :
    DevicesLoaded db (crs.foldl (addCr makeUuid) db) (devicesAmong crs) :=
  Runs.run_collecting _ (DevicesLoaded db) (fun _ _ entry => addCr_devicesLoaded makeUuid entry)
    (devicesLoaded_start db) crs

/-- What holds of their labels and annotations. -/
structure DeviceTextsLoaded (before db : CRDatabase) (added : List DeviceCRContent) : Prop where
  written : ∀ id cr, lastOf DeviceCRContent.id id added = some cr →
    TextsAre db.devices.labels id cr.metadata.labels ∧ TextsAre db.devices.annotations id cr.metadata.annotations
  kept : ∀ text : CRText, (∀ cr ∈ added, cr.id ≠ text.instanceId) →
    (text ∈ db.devices.labels ↔ text ∈ before.devices.labels) ∧
      (text ∈ db.devices.annotations ↔ text ∈ before.devices.annotations)

theorem addDeviceCr_textsLoaded (time : Int) (cr : DeviceCRContent) (loaded : DeviceTextsLoaded before db added) :
    DeviceTextsLoaded before (addDeviceCr db time cr) (added ++ [cr]) := by
  have labels : (addDeviceCr db time cr).devices.labels = rewriteTexts db.devices.labels cr.id cr.metadata.labels := rfl
  have annotations : (addDeviceCr db time cr).devices.annotations =
      rewriteTexts db.devices.annotations cr.id cr.metadata.annotations := rfl
  refine ⟨?_, ?_⟩
  · intro id last isLast
    rw [labels, annotations]
    by_cases isId : cr.id = id
    · subst isId
      rw [lastOf_concat_self, Option.some.injEq] at isLast
      subst isLast
      exact ⟨textsAre_rewriteTexts _ _ _, textsAre_rewriteTexts _ _ _⟩
    · rw [lastOf_concat_other isId] at isLast
      obtain ⟨labelsAre, annotationsAre⟩ := loaded.written id last isLast
      exact ⟨textsAre_rewriteTexts_other (Ne.symm isId) _ labelsAre,
        textsAre_rewriteTexts_other (Ne.symm isId) _ annotationsAre⟩
  · intro text untouched
    have other : text.instanceId ≠ cr.id := Ne.symm (untouched cr (List.mem_append_right added List.mem_cons_self))
    have notWritten (map : StringMap) : ¬ ∃ entry ∈ map, text = ⟨cr.id, entry.1, entry.2⟩ := by
      rintro ⟨entry, _, rfl⟩
      exact other rfl
    obtain ⟨labelsKept, annotationsKept⟩ :=
      loaded.kept text fun some isAdded => untouched some (List.mem_append_left [cr] isAdded)
    rw [labels, annotations, mem_rewriteTexts, mem_rewriteTexts, or_iff_right (notWritten _),
      or_iff_right (notWritten _), and_iff_left other, and_iff_left other]
    exact ⟨labelsKept, annotationsKept⟩

theorem deviceTextsLoaded_start (db : CRDatabase) : DeviceTextsLoaded db db [] := by
  refine ⟨?_, fun text _ => ⟨Iff.rfl, Iff.rfl⟩⟩
  intro id cr last
  rw [lastOf_nil] at last
  cases last

theorem addCr_deviceTextsLoaded (makeUuid : Nat → Uuid) (entry : Int × CRContent)
    (loaded : DeviceTextsLoaded before db added) :
    DeviceTextsLoaded before (addCr makeUuid db entry) (added ++ devicesAmong [entry]) := by
  obtain ⟨time, content⟩ := entry
  cases content with
  | ability cr =>
    have same : (addCr makeUuid db (time, .ability cr)).devices = db.devices := addAbilityCr_devices makeUuid db time cr
    have none : devicesAmong [(time, .ability cr)] = [] := rfl
    obtain ⟨written, kept⟩ := loaded
    rw [← same] at written kept
    rw [none, List.append_nil]
    exact ⟨written, kept⟩
  | device cr => exact addDeviceCr_textsLoaded time cr loaded

theorem foldl_deviceTextsLoaded (makeUuid : Nat → Uuid) (db : CRDatabase) (crs : List (Int × CRContent)) :
    DeviceTextsLoaded db (crs.foldl (addCr makeUuid) db) (devicesAmong crs) :=
  Runs.run_collecting _ (DeviceTextsLoaded db) (fun _ _ entry => addCr_deviceTextsLoaded makeUuid entry)
    (deviceTextsLoaded_start db) crs

/-! ## Rounds -/

/-- A scan of the directory, in the circumstances of its time. -/
structure CRRound where
  env : CREnvironment
  checks : CRChecks
  entries : List DirectoryEntry

def CRRound.devices (round : CRRound) : List DeviceCRContent := acceptedDevices round.env round.checks round.entries

def crRound (makeUuid : Nat → Uuid) (db : CRDatabase) (round : CRRound) : CRDatabase :=
  (readCrsIntoDb round.env round.checks makeUuid db round.entries).2

def Completes (makeUuid : Nat → Uuid) (db : CRDatabase) (round : CRRound) : Prop :=
  (readCrsIntoDb round.env round.checks makeUuid db round.entries).1 = .ok ()

/-- There is one row for each accepted id and no other, and it has the content of the last file. -/
structure DevicesExact (devices : DeviceTables) (accepted : List DeviceCRContent) : Prop where
  ids : ∀ id, (∃ row ∈ devices.basic, row.instanceId = id) ↔ ∃ cr ∈ accepted, cr.id = id
  rows : ∀ row ∈ devices.basic, ∀ cr, lastOf DeviceCRContent.id row.instanceId accepted = some cr →
    ShowsDevice row cr

/-- Every row there is that has the name of an accepted CR has an accepted id as well. -/
def NamesKeepIds (db : CRDatabase) (accepted : List DeviceCRContent) : Prop :=
  ∀ row ∈ db.devices.basic, (∃ cr ∈ accepted, cr.name = row.name) → ∃ cr ∈ accepted, cr.id = row.instanceId

theorem devicesLoaded_reconcile (loaded : DevicesLoaded before db added) :
    DevicesExact (db.devices.reconcile DeviceCRBasicRow.name (added.map DeviceCRContent.name)) added ↔
      NamesKeepIds before added := by
  constructor
  · intro exact row member named
    obtain ⟨cr, isAdded, sameName⟩ := named
    by_contra goneId
    -- No CR has been added under the id, so the row is still there, and its name saves it.
    have untouched : row ∈ db.devices.basic :=
      loaded.kept row member fun other otherAdded same => goneId ⟨other, otherAdded, same⟩
    have stays : row ∈ (db.devices.reconcile DeviceCRBasicRow.name (added.map DeviceCRContent.name)).basic :=
      CRTables.mem_reconcile.mpr ⟨untouched, List.mem_map.mpr ⟨cr, isAdded, sameName⟩⟩
    exact goneId ((exact.ids row.instanceId).mp ⟨row, stays, rfl⟩)
  · intro keepIds
    refine ⟨fun id => ⟨?_, ?_⟩, ?_⟩
    · rintro ⟨row, member, rfl⟩
      obtain ⟨member, named⟩ := CRTables.mem_reconcile.mp member
      obtain isAdded | old := loaded.origin row member
      · exact isAdded
      · exact keepIds row old (List.mem_map.mp named)
    · rintro ⟨cr, isAdded, rfl⟩
      obtain ⟨row, member, sameId⟩ := loaded.present cr isAdded
      obtain ⟨last, isLast⟩ := exists_lastOf DeviceCRContent.id isAdded
      have shows := loaded.rows row member last (sameId ▸ isLast)
      refine ⟨row, CRTables.mem_reconcile.mpr ⟨member, ?_⟩, sameId⟩
      exact List.mem_map.mpr ⟨last, (mem_of_lastOf isLast).1, shows.name.symm⟩
    · intro row member
      exact loaded.rows row (CRTables.mem_reconcile.mp member).1

theorem crRound_exact_iff (db : CRDatabase) (round : CRRound) :
    (Completes makeUuid db round → DevicesExact (crRound makeUuid db round).devices round.devices) ↔
      (Completes makeUuid db round → NamesKeepIds db round.devices) := by
  refine forall_congr' fun completes => ?_
  have loaded := foldl_devicesLoaded makeUuid db (acceptedCrs round.env round.checks round.entries)
  rw [crRound, readCrsIntoDb_completed completes rfl]
  exact devicesLoaded_reconcile loaded

/-- In every sequence of rounds, each round that completes leaves exactly the device CRs accepted in it, if and only
if in each of them the rows of earlier rounds that have the name of an accepted CR have an accepted id. -/
theorem devicesExact_iff (makeUuid : Nat → Uuid) (rounds : List CRRound) :
    Runs.EachStep (crRound makeUuid) (fun db round => Completes makeUuid db round →
        DevicesExact (crRound makeUuid db round).devices round.devices) {} rounds ↔
      Runs.EachStep (crRound makeUuid) (fun db round => Completes makeUuid db round →
        NamesKeepIds db round.devices) {} rounds := by
  apply Runs.eachStep_exact fun _ => True
  · intro _ _ _ _
    trivial
  · intro db round _
    exact crRound_exact_iff db round
  · trivial

/-- The camera is moved to another package. -/
def movedCamera : List CRRound :=
  [⟨plainEnvironment, acceptsAll, [⟨true, ".yaml", some (crYaml "Device" "vision" "deviceName" "Camera" "camera"), 1⟩]⟩,
    ⟨plainEnvironment, acceptsAll, [⟨true, ".yaml", some (crYaml "Device" "imaging" "deviceName" "Camera" "camera"), 2⟩]⟩]

theorem movedCamera_leftOver : ¬ Runs.EachStep (crRound id) (fun db round => Completes id db round →
    DevicesExact (crRound id db round).devices round.devices) {} movedCamera := by
  intro each
  have exact := each.2.1 rfl
  obtain ⟨cr, isAccepted, isLeft⟩ :=
    (exact.ids 6).mp ⟨⟨6, "Camera", "1.0.0", "camera", 1, 1, "\"device\"", none⟩, by decide, rfl⟩
  -- What is accepted has the id of the new package.
  rw [List.mem_singleton.mp isAccepted] at isLeft
  exact absurd isLeft (by decide)

end AbilityFramework.ResourceMgr
