import AbilityFramework.Library.LastOf
import AbilityFramework.ResourceMgr.CRTables

/-! # Ability templates after a round

`add_ability_cr` looks a template up by name, version and instance name, keeps the row with its id if there
is one, and inserts a row with a fresh id if there is none.  `addAbilityCr_spec` says once what it does to
the table; `Loaded` is what holds after any number of CRs have been added.  A round that completes therefore
leaves exactly the templates of its last accepted files (`readCrsIntoDb_exact`). -/

namespace AbilityFramework.ResourceMgr

open Library

/-! ## Rows and CRs -/

/-- The row has the content of the CR. -/
structure Shows (row : AbilityCRBasicRow) (cr : AbilityCRContent) : Prop where
  name : row.name = cr.name
  autostart : row.autostart = cr.spec.autoStart.getD false
  keepAlive : row.keepAlive = cr.spec.keepAlive.getD false
  singleton : row.singleton = cr.spec.singleton.getD true
  detail : row.crDetail = cr.detail

theorem show_shows (row : AbilityCRBasicRow) (cr : AbilityCRContent) (time : Int) : Shows (row.show cr time) cr :=
  ⟨rfl, rfl, rfl, rfl, rfl⟩

/-- No two templates have the same name, version and instance name. -/
def NamesDistinct (abilities : AbilityTables) : Prop :=
  ∀ row ∈ abilities.basic, ∀ other ∈ abilities.basic, row.name = other.name → row = other

/-- Row and texts of a template are those of the CR. -/
structure IsTemplateOf (abilities : AbilityTables) (cr : AbilityCRContent) (row : AbilityCRBasicRow) : Prop where
  shows : Shows row cr
  labels : TextsAre abilities.labels row.instanceId cr.metadata.labels
  annotations : TextsAre abilities.annotations row.instanceId cr.metadata.annotations

/-- The row that is added or written over: it has the id that the template had, or a fresh one. -/
def HasIdOf (makeUuid : Nat → Uuid) (db after : CRDatabase) (cr : AbilityCRContent) (row : AbilityCRBasicRow) : Prop :=
  (∃ old ∈ db.abilities.basic, old.name = cr.name ∧ old.instanceId = row.instanceId) ∧ after.made = db.made ∨
    (∀ old ∈ db.abilities.basic, old.name ≠ cr.name) ∧ row.instanceId = makeUuid db.made ∧ after.made = db.made + 1

variable {makeUuid : Nat → Uuid} {db : CRDatabase} {cr : AbilityCRContent} {time : Int}

theorem dbExistsAbilityCrByName_some {abilities : AbilityTables} {id : Uuid}
    (found : dbExistsAbilityCrByName abilities cr = some id) :
    ∃ row ∈ abilities.basic, row.name = cr.name ∧ row.instanceId = id := by
  rw [dbExistsAbilityCrByName, Option.map_eq_some_iff] at found
  obtain ⟨row, isHead, same⟩ := found
  obtain ⟨member, sameName⟩ := Relation.mem_select.mp (List.mem_of_head? isHead)
  exact ⟨row, member, of_decide_eq_true sameName, same⟩

theorem dbExistsAbilityCrByName_none {abilities : AbilityTables}
    (missing : dbExistsAbilityCrByName abilities cr = none) : ∀ row ∈ abilities.basic, row.name ≠ cr.name := by
  rw [dbExistsAbilityCrByName, Option.map_eq_none_iff, List.head?_eq_none_iff, Relation.select_eq_nil] at missing
  intro row member sameName
  exact missing row member (decide_eq_true sameName)

/-- The row of the CR has taken the place of the row with its name, if there was one. -/
structure AddedAs (makeUuid : Nat → Uuid) (db after : CRDatabase) (cr : AbilityCRContent) (row : AbilityCRBasicRow) :
    Prop where
  shows : Shows row cr
  hasId : HasIdOf makeUuid db after cr row
  rows : ∀ other, other ∈ after.abilities.basic ↔ other = row ∨ other ∈ db.abilities.basic ∧ other.name ≠ cr.name
  labels : after.abilities.labels = rewriteTexts db.abilities.labels row.instanceId cr.metadata.labels
  annotations : after.abilities.annotations = rewriteTexts db.abilities.annotations row.instanceId cr.metadata.annotations

/-- Names and ids pick out the same rows. -/
theorem sameId_iff {abilities : AbilityTables} (distinct : NamesDistinct abilities) {row other : AbilityCRBasicRow}
    (member : row ∈ abilities.basic) (otherMember : other ∈ abilities.basic) :
    other.instanceId = row.instanceId ↔ other.name = row.name := by
  constructor
  · intro same
    rw [Relation.eq_of_key otherMember member same]
  · intro same
    rw [distinct other otherMember row member same]

/-- What `add_ability_cr` does. -/
theorem addAbilityCr_spec (distinct : NamesDistinct db.abilities)
    (fresh : ∀ row ∈ db.abilities.basic, row.instanceId ≠ makeUuid db.made) {after : CRDatabase}
    (isAfter : addAbilityCr makeUuid db time cr = after) : ∃ row, AddedAs makeUuid db after cr row := by
  rw [addAbilityCr] at isAfter
  split at isAfter
  · rename_i id found
    obtain ⟨old, member, sameName, sameId⟩ := dbExistsAbilityCrByName_some found
    refine ⟨old.show cr time, show_shows old cr time, .inl ⟨⟨old, member, sameName, rfl⟩, ?_⟩, ?_, ?_, ?_⟩
    · rw [← isAfter]
    · intro other
      rw [← isAfter]
      simp only [CRTables.writeMetadata]
      rw [Relation.mem_updateWhere_key (fun row => row.show_instanceId cr time) member sameId, ← sameId, ← sameName]
      exact or_congr_right (and_congr_right fun otherMember => not_congr (sameId_iff distinct member otherMember))
    · rw [← isAfter, ← sameId]
      rfl
    · rw [← isAfter, ← sameId]
      rfl
  · rename_i missing
    have absent := dbExistsAbilityCrByName_none missing
    refine ⟨(AbilityCRBasicRow.new (makeUuid db.made)).show cr time, show_shows _ cr time, .inr ⟨absent, rfl, ?_⟩, ?_, ?_, ?_⟩
    · rw [← isAfter]
    · intro other
      rw [← isAfter]
      simp only [CRTables.writeMetadata, Relation.mem_replaceInto]
      refine or_congr_right (and_congr_right fun otherMember => ?_)
      exact iff_of_true (fresh other otherMember) (absent other otherMember)
    · rw [← isAfter]
      rfl
    · rw [← isAfter]
      rfl

/-! ## After one CR -/

namespace AddedAs

variable {after : CRDatabase} {row other : AbilityCRBasicRow}

theorem mem_row (added : AddedAs makeUuid db after cr row) : row ∈ after.abilities.basic :=
  (added.rows row).mpr (.inl rfl)

/-- Among the rows there were, the id that the CR gets is that of the row with its name. -/
theorem sameId_iff (added : AddedAs makeUuid db after cr row) (distinct : NamesDistinct db.abilities)
    (fresh : ∀ row ∈ db.abilities.basic, row.instanceId ≠ makeUuid db.made) (member : other ∈ db.abilities.basic) :
    other.instanceId = row.instanceId ↔ other.name = cr.name := by
  obtain ⟨⟨old, oldMember, sameName, sameId⟩, _⟩ | ⟨absent, isFresh, _⟩ := added.hasId
  · rw [← sameId, ← sameName]
    exact ResourceMgr.sameId_iff distinct oldMember member
  · rw [isFresh]
    exact iff_of_false (fresh other member) (absent other member)

/-- A row there was is there under its name and its id. -/
theorem survives (added : AddedAs makeUuid db after cr row) (distinct : NamesDistinct db.abilities)
    (fresh : ∀ row ∈ db.abilities.basic, row.instanceId ≠ makeUuid db.made) (member : other ∈ db.abilities.basic) :
    ∃ found ∈ after.abilities.basic, found.name = other.name ∧ found.instanceId = other.instanceId := by
  by_cases taken : other.name = cr.name
  · have sameId := (added.sameId_iff distinct fresh member).mpr taken
    exact ⟨row, added.mem_row, added.shows.name.trans taken.symm, sameId.symm⟩
  · exact ⟨other, (added.rows other).mpr (.inr ⟨member, taken⟩), rfl, rfl⟩

theorem namesDistinct (added : AddedAs makeUuid db after cr row) (distinct : NamesDistinct db.abilities) :
    NamesDistinct after.abilities := by
  intro first firstMember second secondMember same
  obtain rfl | ⟨firstMember, firstOther⟩ := (added.rows first).mp firstMember
  · obtain rfl | ⟨_, secondOther⟩ := (added.rows second).mp secondMember
    · rfl
    · exact absurd (same.symm.trans added.shows.name) secondOther
  · obtain rfl | ⟨secondMember, _⟩ := (added.rows second).mp secondMember
    · exact absurd (same.trans added.shows.name) firstOther
    · exact distinct first firstMember second secondMember same

theorem isTemplateOf (added : AddedAs makeUuid db after cr row) : IsTemplateOf after.abilities cr row := by
  refine ⟨added.shows, ?_, ?_⟩
  · rw [added.labels]
    exact textsAre_rewriteTexts _ _ _
  · rw [added.annotations]
    exact textsAre_rewriteTexts _ _ _

theorem isTemplateOf_other (added : AddedAs makeUuid db after cr row) {shown : AbilityCRContent}
    (different : other.instanceId ≠ row.instanceId) (template : IsTemplateOf db.abilities shown other) :
    IsTemplateOf after.abilities shown other := by
  refine ⟨template.shows, ?_, ?_⟩
  · rw [added.labels]
    exact textsAre_rewriteTexts_other different _ template.labels
  · rw [added.annotations]
    exact textsAre_rewriteTexts_other different _ template.annotations

theorem made_le (added : AddedAs makeUuid db after cr row) : db.made ≤ after.made := by
  obtain ⟨_, same⟩ | ⟨_, _, more⟩ := added.hasId
  · exact Nat.le_of_eq same.symm
  · exact Nat.le_trans (Nat.le_succ db.made) (Nat.le_of_eq more.symm)

/-- A text there is belongs to the row of the CR, or to a row there was. -/
theorem texts_origin (added : AddedAs makeUuid db after cr row) {text : CRText}
    (isText : text ∈ after.abilities.labels ∨ text ∈ after.abilities.annotations) :
    text.instanceId = row.instanceId ∨ text ∈ db.abilities.labels ∨ text ∈ db.abilities.annotations := by
  rw [added.labels, added.annotations, mem_rewriteTexts, mem_rewriteTexts] at isText
  obtain (⟨_, _, rfl⟩ | ⟨member, _⟩) | ⟨_, _, rfl⟩ | ⟨member, _⟩ := isText
  · exact .inl rfl
  · exact .inr (.inl member)
  · exact .inl rfl
  · exact .inr (.inr member)

theorem textsBelong (added : AddedAs makeUuid db after cr row) (distinct : NamesDistinct db.abilities)
    (fresh : ∀ row ∈ db.abilities.basic, row.instanceId ≠ makeUuid db.made) (belong : db.abilities.TextsBelong) :
    after.abilities.TextsBelong := by
  intro text isText
  obtain own | isOld := added.texts_origin isText
  · exact ⟨row, added.mem_row, own.symm⟩
  · obtain ⟨owner, member, isOwner⟩ := belong text isOld
    obtain ⟨found, foundMember, _, sameId⟩ := added.survives distinct fresh member
    exact ⟨found, foundMember, sameId.trans isOwner⟩

end AddedAs

/-! ## After some CRs have been added -/

/-- `make_uuid()` makes no id twice, and none that a template has. -/
structure MakesFresh (makeUuid : Nat → Uuid) (db : CRDatabase) : Prop where
  distinct : Function.Injective makeUuid
  unused : ∀ count, db.made ≤ count → ∀ row ∈ db.abilities.basic, row.instanceId ≠ makeUuid count

/-- What holds once these CRs have been added to the tables there were before. -/
structure Loaded (makeUuid : Nat → Uuid) (before db : CRDatabase) (added : List AbilityCRContent) : Prop where
  distinct : NamesDistinct db.abilities
  templates : ∀ row ∈ db.abilities.basic, ∀ cr, lastOf AbilityCRContent.name row.name added = some cr →
    IsTemplateOf db.abilities cr row
  present : ∀ cr ∈ added, ∃ row ∈ db.abilities.basic, row.name = cr.name
  kept : ∀ old ∈ before.abilities.basic, ∃ row ∈ db.abilities.basic,
    row.name = old.name ∧ row.instanceId = old.instanceId
  later : before.made ≤ db.made
  origin : ∀ row ∈ db.abilities.basic, (∃ old ∈ before.abilities.basic, old.instanceId = row.instanceId) ∨
    ∃ count < db.made, row.instanceId = makeUuid count
  belong : before.abilities.TextsBelong → db.abilities.TextsBelong

variable {before : CRDatabase} {added : List AbilityCRContent}

theorem loaded_fresh (fresh : MakesFresh makeUuid before) (loaded : Loaded makeUuid before db added) :
    ∀ row ∈ db.abilities.basic, row.instanceId ≠ makeUuid db.made := by
  intro row member same
  obtain ⟨old, oldMember, sameId⟩ | ⟨count, earlier, isMade⟩ := loaded.origin row member
  · exact fresh.unused db.made loaded.later old oldMember (sameId.trans same)
  · exact absurd (fresh.distinct (isMade.symm.trans same)) (Nat.ne_of_lt earlier)

/-- Ids that were there before or that have been made go on to be such. -/
theorem origin_added {after : CRDatabase} {row : AbilityCRBasicRow} (loaded : Loaded makeUuid before db added)
    (isAdded : AddedAs makeUuid db after cr row) :
    ∀ other ∈ after.abilities.basic, (∃ old ∈ before.abilities.basic, old.instanceId = other.instanceId) ∨
      ∃ count < after.made, other.instanceId = makeUuid count := by
  have originNow : ∀ other ∈ db.abilities.basic, (∃ old ∈ before.abilities.basic, old.instanceId = other.instanceId) ∨
      ∃ count < after.made, other.instanceId = makeUuid count := by
    intro other member
    obtain old | ⟨count, earlier, isMade⟩ := loaded.origin other member
    · exact .inl old
    · exact .inr ⟨count, Nat.lt_of_lt_of_le earlier isAdded.made_le, isMade⟩
  intro other member
  obtain rfl | ⟨member, _⟩ := (isAdded.rows other).mp member
  · obtain ⟨⟨old, oldMember, _, sameId⟩, _⟩ | ⟨_, isFresh, more⟩ := isAdded.hasId
    · rw [← sameId]
      exact originNow old oldMember
    · exact .inr ⟨db.made, Nat.lt_of_lt_of_eq (Nat.lt_succ_self db.made) more.symm, isFresh⟩
  · exact originNow other member

theorem addAbilityCr_loaded (cr : AbilityCRContent) (time : Int) (fresh : MakesFresh makeUuid before)
    (loaded : Loaded makeUuid before db added) :
    Loaded makeUuid before (addAbilityCr makeUuid db time cr) (added ++ [cr]) := by
  have freshNow := loaded_fresh fresh loaded
  obtain ⟨row, isAdded⟩ := addAbilityCr_spec loaded.distinct freshNow
    (rfl : addAbilityCr makeUuid db time cr = _)
  refine ⟨isAdded.namesDistinct loaded.distinct, ?_, ?_, ?_, Nat.le_trans loaded.later isAdded.made_le,
    origin_added loaded isAdded, fun belong => isAdded.textsBelong loaded.distinct freshNow (loaded.belong belong)⟩
  · intro other member last isLast
    obtain rfl | ⟨member, different⟩ := (isAdded.rows other).mp member
    · rw [isAdded.shows.name, lastOf_concat_self, Option.some.injEq] at isLast
      subst isLast
      exact isAdded.isTemplateOf
    · rw [lastOf_concat_other (Ne.symm different)] at isLast
      have otherId := mt (isAdded.sameId_iff loaded.distinct freshNow member).mp different
      exact isAdded.isTemplateOf_other otherId (loaded.templates other member last isLast)
  · intro content isContent
    obtain isContent | isNew := List.mem_append.mp isContent
    · obtain ⟨found, member, same⟩ := loaded.present content isContent
      obtain ⟨kept, keptMember, sameName, _⟩ := isAdded.survives loaded.distinct freshNow member
      exact ⟨kept, keptMember, sameName.trans same⟩
    · rw [List.mem_singleton.mp isNew]
      exact ⟨row, isAdded.mem_row, isAdded.shows.name⟩
  · intro old oldMember
    obtain ⟨found, member, sameName, sameId⟩ := loaded.kept old oldMember
    obtain ⟨kept, keptMember, keptName, keptId⟩ := isAdded.survives loaded.distinct freshNow member
    exact ⟨kept, keptMember, keptName.trans sameName, keptId.trans sameId⟩

theorem loaded_start (distinct : NamesDistinct db.abilities) : Loaded makeUuid db db [] := by
  refine ⟨distinct, ?_, ?_, fun old member => ⟨old, member, rfl, rfl⟩, Nat.le_refl db.made, ?_, id⟩
  · intro row _ cr last
    rw [lastOf_nil] at last
    cases last
  · intro cr isAdded
    cases isAdded
  · intro row member
    exact .inl ⟨row, member, rfl⟩

/-- Device CRs leave the templates alone. -/
theorem addCr_loaded (fresh : MakesFresh makeUuid before) (entry : Int × CRContent)
    (loaded : Loaded makeUuid before db added) :
    Loaded makeUuid before (addCr makeUuid db entry) (added ++ abilitiesAmong [entry]) := by
  obtain ⟨time, content⟩ := entry
  cases content with
  | ability cr => exact addAbilityCr_loaded cr time fresh loaded
  | device cr =>
    have none : abilitiesAmong [(time, .device cr)] = [] := rfl
    rw [none, List.append_nil]
    exact ⟨loaded.distinct, loaded.templates, loaded.present, loaded.kept, loaded.later, loaded.origin, loaded.belong⟩

theorem foldl_loaded (distinct : NamesDistinct db.abilities) (fresh : MakesFresh makeUuid db)
    (crs : List (Int × CRContent)) : Loaded makeUuid db (crs.foldl (addCr makeUuid) db) (abilitiesAmong crs) :=
  Runs.run_collecting _ (Loaded makeUuid db) (fun _ _ entry => addCr_loaded fresh entry) (loaded_start distinct) crs

/-! ## After a round -/

/-- The templates are exactly those of the accepted CRs. -/
structure TemplatesExact (before after : AbilityTables) (accepted : List AbilityCRContent) : Prop where
  names : ∀ name, (∃ row ∈ after.basic, row.name = name) ↔ ∃ cr ∈ accepted, cr.name = name
  distinct : NamesDistinct after
  keepsId : ∀ row ∈ after.basic, ∀ old ∈ before.basic, old.name = row.name → row.instanceId = old.instanceId
  templates : ∀ row ∈ after.basic, ∃ cr, lastOf AbilityCRContent.name row.name accepted = some cr ∧
    IsTemplateOf after cr row
  belong : before.TextsBelong → after.TextsBelong

theorem isTemplateOf_reconcile {abilities : AbilityTables} {names : List CRName} {row : AbilityCRBasicRow}
    (template : IsTemplateOf abilities cr row) (member : row ∈ abilities.basic) (stays : row.name ∈ names) :
    IsTemplateOf (abilities.reconcile AbilityCRBasicRow.name names) cr row := by
  refine ⟨template.shows, ?_, ?_⟩
  · intro text
    rw [← template.labels text]
    exact and_congr_left fun own => (CRTables.texts_reconcile member stays own).1
  · intro text
    rw [← template.annotations text]
    exact and_congr_left fun own => (CRTables.texts_reconcile member stays own).2

/-- Reconciling with the names of the CRs that have been added. -/
theorem loaded_reconcile (loaded : Loaded makeUuid before db added) :
    TemplatesExact before.abilities
      (db.abilities.reconcile AbilityCRBasicRow.name (added.map AbilityCRContent.name)) added := by
  refine ⟨?_, ?_, ?_, ?_, ?_⟩
  · intro name
    simp only [CRTables.mem_reconcile, List.mem_map]
    constructor
    · rintro ⟨row, ⟨_, cr, isAdded, same⟩, rfl⟩
      exact ⟨cr, isAdded, same⟩
    · rintro ⟨cr, isAdded, rfl⟩
      obtain ⟨row, member, same⟩ := loaded.present cr isAdded
      exact ⟨row, ⟨member, cr, isAdded, same.symm⟩, same⟩
  · intro first firstMember second secondMember same
    exact loaded.distinct first (CRTables.mem_reconcile.mp firstMember).1 second
      (CRTables.mem_reconcile.mp secondMember).1 same
  · intro row member old oldMember same
    obtain ⟨found, foundMember, sameName, sameId⟩ := loaded.kept old oldMember
    rw [loaded.distinct row (CRTables.mem_reconcile.mp member).1 found foundMember (same.symm.trans sameName.symm),
      sameId]
  · intro row member
    obtain ⟨member, stays⟩ := CRTables.mem_reconcile.mp member
    obtain ⟨cr, isAdded, same⟩ := List.mem_map.mp stays
    obtain ⟨last, isLast⟩ := exists_lastOf AbilityCRContent.name isAdded
    rw [same] at isLast
    exact ⟨last, isLast, isTemplateOf_reconcile (loaded.templates row member last isLast) member stays⟩
  · intro belongBefore
    exact CRTables.textsBelong_reconcile AbilityCRBasicRow.name _ (loaded.belong belongBefore)

variable {env : CREnvironment} {checks : CRChecks} {entries : List DirectoryEntry}

/-- A round that completes leaves one template for each name that an accepted CR has and no other, with the id
that it had and with content, labels and annotations of the last file. -/
theorem readCrsIntoDb_exact (distinct : NamesDistinct db.abilities) (fresh : MakesFresh makeUuid db)
    (completes : (readCrsIntoDb env checks makeUuid db entries).1 = .ok ()) :
    TemplatesExact db.abilities (readCrsIntoDb env checks makeUuid db entries).2.abilities
      (acceptedAbilities env checks entries) := by
  have loaded := foldl_loaded distinct fresh (acceptedCrs env checks entries)
  rw [readCrsIntoDb_completed completes rfl]
  exact loaded_reconcile loaded

/-- The Camera template is there under id 1 and read again, from a file that does not start it any more. -/
def cameraBefore : CRDatabase where
  abilities :=
    { basic := ⟨[⟨1, "Camera", "1.0.0", "camera", 0, 0, true, true, false, true, "", none⟩], by decide⟩
      labels := ⟨[⟨1, "room", "hall"⟩], by decide⟩ }

def cameraRound : List DirectoryEntry :=
  [⟨true, ".yaml", some (crYaml "AtomAbility" "vision" "abilityName" "Camera" "camera"), 5⟩]

theorem cameraRound_exact :
    TemplatesExact cameraBefore.abilities
      (readCrsIntoDb plainEnvironment acceptsAll (· + 10) cameraBefore cameraRound).2.abilities
      (acceptedAbilities plainEnvironment acceptsAll cameraRound) := by
  refine readCrsIntoDb_exact ?_ ⟨fun _ _ same => Nat.add_right_cancel same, ?_⟩ ?_
  · intro row member other otherMember _
    rw [List.mem_singleton.mp member, List.mem_singleton.mp otherMember]
  · intro count _ row member
    rw [List.mem_singleton.mp member]
    change 1 ≠ count + 10
    omega
  · rfl

end AbilityFramework.ResourceMgr
