import AbilityFramework.ResourceMgr.PlainDocuments

/-! # Templates as they are read back

`add_ability_cr` spreads a CR over a row with its detail and two tables of texts, and `get_ability_cr` joins
them again.  A call that cannot write the detail throws out of its transaction and leaves the tables as they
were, short of the id it may have made.

A row keeps its id while CRs with its name are added, so the ids that calls return are told apart as the names
are, and what is read back for an id is the last CR with its name, as the text of its detail has it: the numbers
in its free-form members that are not finite are gone. -/

namespace AbilityFramework.ResourceMgr.Document

open Library LifecycleMgr

variable (doc : DocumentEnvironment) (makeUuid : Nat → Uuid)

/-! ## The call -/

/-- What the statements write of a CR. -/
def AbilityCR.content (cr : AbilityCR) (detail : String) : AbilityCRContent where
  id := cr.id
  kind := cr.kind
  metadata := cr.metadata
  spec :=
    { package := cr.spec.package
      version := cr.spec.version
      abilityName := cr.spec.abilityName
      position := cr.spec.position
      autoStart := cr.spec.autoStart
      keepAlive := cr.spec.keepAlive
      singleton := cr.spec.singleton }
  detail

def AbilityCR.name (cr : AbilityCR) : CRName := (cr.spec.abilityName, cr.spec.version, cr.metadata.name)

/-- The id that is returned, or the exception, and the tables after the transaction. -/
def addAbilityCrDocument (db : CRDatabase) (time : Int) (cr : AbilityCR) : Except CRException Uuid × CRDatabase :=
  let found := dbExistsAbilityCrByName db.abilities (cr.content "")
  match dumpCr doc cr with
  | .ok detail => (.ok (found.getD (makeUuid db.made)), addAbilityCr makeUuid db time (cr.content detail))
  -- The id of a new row has been made before its statement is bound.
  | .error exception => (.error exception, if found.isSome then db else { db with made := db.made + 1 })

def addStep (db : CRDatabase) (call : Int × AbilityCR) : CRDatabase :=
  (addAbilityCrDocument doc makeUuid db call.1 call.2).2

/-- What a call writes, if it does not throw. -/
def writtenContent (call : Int × AbilityCR) : Option AbilityCRContent :=
  (dumpCr doc call.2).toOption.map call.2.content

/-- The CRs of the calls that do not throw. -/
def writtenCrs (calls : List (Int × AbilityCR)) : List AbilityCR :=
  (calls.map Prod.snd).filter fun cr => (dumpCr doc cr).toOption.isSome

/-- The round trip of a CR through JSON, under the id of its template and with the columns and the texts of the
tables. -/
def AbilityCR.readBack (cr : AbilityCR) (id : Uuid) (labels annotations : StringMap) : Except CRException AbilityCR :=
  (AbilityCR.fromJson doc (cr.toJson doc)).map fun read =>
    { read with
      id
      metadata := { name := cr.metadata.name, labels, annotations }
      spec := { read.spec with
        autoStart := some (cr.spec.autoStart.getD false)
        keepAlive := some (cr.spec.keepAlive.getD false)
        singleton := some (cr.spec.singleton.getD true) } }

variable {doc makeUuid}

/-! ## One call -/

section OneCall

variable {before db : CRDatabase} {added : List AbilityCRContent} {time : Int} {cr : AbilityCR}

theorem addAbilityCrDocument_ok {detail : String} (written : dumpCr doc cr = .ok detail) :
    addAbilityCrDocument doc makeUuid db time cr =
      (.ok ((dbExistsAbilityCrByName db.abilities (cr.content detail)).getD (makeUuid db.made)),
        addAbilityCr makeUuid db time (cr.content detail)) := by
  rw [addAbilityCrDocument, written]
  rfl

/-- An id that is made and not used changes nothing that has been established. -/
theorem loaded_wastedId (loaded : Loaded makeUuid before db added) :
    Loaded makeUuid before { db with made := db.made + 1 } added := by
  refine ⟨loaded.distinct, loaded.templates, loaded.present, loaded.kept, Nat.le_succ_of_le loaded.later, ?_,
    loaded.belong⟩
  intro row member
  obtain old | ⟨count, earlier, isMade⟩ := loaded.origin row member
  · exact .inl old
  · exact .inr ⟨count, Nat.lt_succ_of_lt earlier, isMade⟩

theorem addStep_loaded (fresh : MakesFresh makeUuid before) (call : Int × AbilityCR)
    (loaded : Loaded makeUuid before db added) :
    Loaded makeUuid before (addStep doc makeUuid db call) (added ++ [call].filterMap (writtenContent doc)) := by
  cases written : dumpCr doc call.2 with
  | ok detail =>
    have content : [call].filterMap (writtenContent doc) = [call.2.content detail] := by
      simp [writtenContent, written, Except.toOption]
    rw [addStep, addAbilityCrDocument_ok written, content]
    exact addAbilityCr_loaded (call.2.content detail) call.1 fresh loaded
  | error exception =>
    have content : [call].filterMap (writtenContent doc) = [] := by
      simp [writtenContent, written, Except.toOption]
    rw [addStep, addAbilityCrDocument, written, content, List.append_nil]
    dsimp only
    split
    · exact loaded
    · exact loaded_wastedId loaded

theorem run_loaded (fresh : MakesFresh makeUuid before) (distinct : NamesDistinct before.abilities)
    (calls : List (Int × AbilityCR)) :
    Loaded makeUuid before (Runs.run (addStep doc makeUuid) before calls) (calls.filterMap (writtenContent doc)) :=
  Runs.run_collecting (writtenContent doc) (Loaded makeUuid before) (fun _ _ call => addStep_loaded fresh call)
    (loaded_start distinct) calls

/-- The id that a call returns is that of the row with the CR's name. -/
theorem addStep_returned (distinct : NamesDistinct db.abilities)
    (fresh : ∀ row ∈ db.abilities.basic, row.instanceId ≠ makeUuid db.made) {id : Uuid}
    (returned : (addAbilityCrDocument doc makeUuid db time cr).1 = .ok id) :
    ∃ row ∈ (addStep doc makeUuid db (time, cr)).abilities.basic, row.instanceId = id ∧ row.name = cr.name := by
  cases written : dumpCr doc cr with
  | error exception =>
    rw [addAbilityCrDocument, written] at returned
    cases returned
  | ok detail =>
    rw [addAbilityCrDocument_ok written] at returned
    rw [addStep, addAbilityCrDocument_ok written]
    obtain ⟨row, isAdded⟩ := addAbilityCr_spec distinct fresh
      (rfl : addAbilityCr makeUuid db time (cr.content detail) = _)
    refine ⟨row, isAdded.mem_row, ?_, isAdded.shows.name⟩
    have isId := Except.ok.inj returned
    cases found : dbExistsAbilityCrByName db.abilities (cr.content detail) with
    | some id' =>
      rw [found, Option.getD_some] at isId
      obtain ⟨old, member, sameName, sameId⟩ := dbExistsAbilityCrByName_some found
      rw [← isId, ← sameId]
      exact ((isAdded.sameId_iff distinct fresh member).mpr sameName).symm
    | none =>
      rw [found, Option.getD_none] at isId
      obtain ⟨⟨old, member, sameName, _⟩, _⟩ | ⟨_, isFresh, _⟩ := isAdded.hasId
      · exact absurd sameName (dbExistsAbilityCrByName_none found old member)
      · exact isFresh.trans isId

end OneCall

/-! ## Reading back -/

section ReadBack

variable {abilities : AbilityTables} {row : AbilityCRBasicRow} {cr : AbilityCR} {detail : String} {id : Uuid}
  {labels annotations ownLabels ownAnnotations : StringMap}

/-- The maps have the same entries. -/
def SameTexts (first second : StringMap) : Prop := ∀ entry, entry ∈ first ↔ entry ∈ second

theorem getAbilityCr_template (written : dumpCr doc cr = .ok detail) (member : row ∈ abilities.basic)
    (template : IsTemplateOf abilities (cr.content detail) row) :
    ∃ labels annotations, SameTexts labels cr.metadata.labels ∧ SameTexts annotations cr.metadata.annotations ∧
      getAbilityCr doc abilities row.instanceId =
        ((cr.readBack doc row.instanceId labels annotations).map AbilityCR.asWritten).map some := by
  refine ⟨dbGetTexts abilities.labels row.instanceId, dbGetTexts abilities.annotations row.instanceId,
    mem_dbGetTexts_iff template.labels, mem_dbGetTexts_iff template.annotations, ?_⟩
  have isName : row.instanceName = cr.metadata.name := congrArg (fun name => name.2.2) template.shows.name
  have isDetail : row.crDetail = detail := template.shows.detail
  rw [getAbilityCr, Relation.lookup_eq_some.mpr ⟨member, rfl⟩, AbilityCR.readBack]
  simp only [abilityCrFromDbBasic, isDetail, parseCr_dumpCr written]
  cases AbilityCR.fromJson doc (cr.toJson doc) with
  | error exception => rfl
  | ok read =>
    have columns : read.withColumns row =
        { read with
          id := row.instanceId
          metadata := { read.metadata with name := cr.metadata.name }
          spec := { read.spec with
            autoStart := some (cr.spec.autoStart.getD false)
            keepAlive := some (cr.spec.keepAlive.getD false)
            singleton := some (cr.spec.singleton.getD true) } } := by
      rw [AbilityCR.withColumns, isName, template.shows.autostart, template.shows.keepAlive, template.shows.singleton]
      rfl
    show Except.ok (some ((read.asWritten.withColumns row).withTexts _ _)) = _
    rw [← AbilityCR.asWritten_withColumns, ← AbilityCR.asWritten_withTexts, columns]
    rfl

/-- Its numbers are finite, or its document cannot be read in the first place. -/
def AbilityCR.SurvivesText (doc : DocumentEnvironment) (cr : AbilityCR) : Prop :=
  cr.Writable ∨ ∃ exception, AbilityCR.fromJson doc (cr.toJson doc) = .error exception

/-- The columns are no free-form members. -/
theorem writable_columns (spec : AbilitySpec) (autoStart keepAlive singleton : Option Bool) :
    ({ spec with autoStart, keepAlive, singleton } : AbilitySpec).Writable ↔ spec.Writable := by
  constructor
  all_goals
    rintro ⟨status, condition, config, option, subabilities⟩
    exact .intro status condition config option subabilities

theorem readBack_asWritten (survives : cr.SurvivesText doc) :
    (cr.readBack doc id labels annotations).map AbilityCR.asWritten = cr.readBack doc id labels annotations := by
  rw [AbilityCR.readBack]
  obtain writable | ⟨exception, thrown⟩ := survives
  · cases isRead : AbilityCR.fromJson doc (cr.toJson doc) with
    | error exception => rfl
    | ok read =>
      obtain ⟨status, spec⟩ := (cr_writable_iff isRead).mpr writable
      exact congrArg Except.ok ((AbilityCR.asWritten_eq_self_iff _).mpr ⟨status, (writable_columns read.spec _ _ _).mpr spec⟩)
  · rw [thrown]
    rfl

theorem survivesText_of_readBack (same : (cr.readBack doc id labels annotations).map AbilityCR.asWritten =
    cr.readBack doc id ownLabels ownAnnotations) : cr.SurvivesText doc := by
  rw [AbilityCR.readBack, AbilityCR.readBack] at same
  cases isRead : AbilityCR.fromJson doc (cr.toJson doc) with
  | error exception => exact .inr ⟨exception, isRead⟩
  | ok read =>
    rw [isRead] at same
    have status : read.status.asWritten = read.status := congrArg AbilityCR.status (Except.ok.inj same)
    have spec := congrArg AbilityCR.spec (Except.ok.inj same)
    have writableSpec := (writable_columns read.spec _ _ _).mp ((AbilitySpec.asWritten_eq_self_iff _).mp spec)
    exact .inl ((cr_writable_iff isRead).mp ⟨(Json.asWritten_eq_self_iff _).mp status, writableSpec⟩)

end ReadBack

/-! ## Runs -/

section Calls

variable (doc makeUuid)

/-- The tables after these calls, of which there were none before. -/
def tablesAfter (calls : List (Int × AbilityCR)) : CRDatabase := Runs.run (addStep doc makeUuid) {} calls

/-- What a call returns that these calls precede. -/
def returnedAfter (before : List (Int × AbilityCR)) (call : Int × AbilityCR) : Except CRException Uuid :=
  (addAbilityCrDocument doc makeUuid (tablesAfter doc makeUuid before) call.1 call.2).1

variable {doc makeUuid} {before after : List (Int × AbilityCR)} {call : Int × AbilityCR} {id : Uuid}

theorem makesFresh_empty (distinct : Function.Injective makeUuid) : MakesFresh makeUuid {} :=
  ⟨distinct, fun _ _ _ member => absurd member (Relation.not_mem_empty _)⟩

theorem tablesAfter_loaded (distinct : Function.Injective makeUuid) (calls : List (Int × AbilityCR)) :
    Loaded makeUuid {} (tablesAfter doc makeUuid calls) (calls.filterMap (writtenContent doc)) :=
  run_loaded (makesFresh_empty distinct) (fun _ member => absurd member (Relation.not_mem_empty _)) calls

/-- Whatever ids there are have been made, so the next ones are fresh. -/
theorem tablesAfter_fresh (distinct : Function.Injective makeUuid) (calls : List (Int × AbilityCR)) :
    MakesFresh makeUuid (tablesAfter doc makeUuid calls) := by
  refine ⟨distinct, fun count notMade row member same => ?_⟩
  obtain ⟨old, isOld, _⟩ | ⟨other, isMade, isId⟩ := (tablesAfter_loaded distinct calls).origin row member
  · exact absurd isOld (Relation.not_mem_empty old)
  · have sameCount : other = count := distinct (isId.symm.trans same)
    omega

/-- A returned id stays that of the template with the CR's name. -/
theorem returned_row (distinct : Function.Injective makeUuid) (after : List (Int × AbilityCR))
    (returned : returnedAfter doc makeUuid before call = .ok id) :
    ∃ row ∈ (tablesAfter doc makeUuid (before ++ call :: after)).abilities.basic,
      row.instanceId = id ∧ row.name = call.2.name := by
  have loaded : Loaded makeUuid {} (tablesAfter doc makeUuid before) _ := tablesAfter_loaded distinct before
  have fresh := loaded_fresh (makesFresh_empty distinct) loaded
  obtain ⟨row, member, isId, isName⟩ := addStep_returned loaded.distinct fresh returned
  have next : addStep doc makeUuid (tablesAfter doc makeUuid before) call = tablesAfter doc makeUuid (before ++ [call]) :=
    (Runs.run_concat _ before call).symm
  have rest : tablesAfter doc makeUuid (before ++ call :: after) =
      Runs.run (addStep doc makeUuid) (tablesAfter doc makeUuid (before ++ [call])) after := by
    rw [tablesAfter, tablesAfter, ← Runs.run_append, List.append_assoc, List.singleton_append]
  rw [next] at member
  have loadedNext : Loaded makeUuid {} (tablesAfter doc makeUuid (before ++ [call])) _ := tablesAfter_loaded distinct _
  have later : Loaded makeUuid (tablesAfter doc makeUuid (before ++ [call]))
      (Runs.run (addStep doc makeUuid) (tablesAfter doc makeUuid (before ++ [call])) after)
      (after.filterMap (writtenContent doc)) :=
    run_loaded (tablesAfter_fresh distinct (before ++ [call])) loadedNext.distinct after
  obtain ⟨kept, keptMember, keptName, keptId⟩ := later.kept row member
  rw [rest]
  exact ⟨kept, keptMember, keptId.trans isId, keptName.trans isName⟩

/-- Contents are those of the CRs, each with its detail. -/
theorem filterMap_writtenContent (calls : List (Int × AbilityCR)) :
    calls.filterMap (writtenContent doc) =
      (writtenCrs doc calls).map fun cr => cr.content ((dumpCr doc cr).toOption.getD "") := by
  induction calls with
  | nil => rfl
  | cons call calls inductionHypothesis =>
    rw [writtenCrs, List.map_cons]
    cases written : (dumpCr doc call.2).toOption with
    | none =>
      rw [List.filterMap_cons_none (by rw [writtenContent, written, Option.map_none]), inductionHypothesis,
        List.filter_cons_of_neg (by simp [written])]
      rfl
    | some detail =>
      rw [List.filterMap_cons_some (by rw [writtenContent, written, Option.map_some]), inductionHypothesis,
        List.filter_cons_of_pos (by simp [written]), List.map_cons, written]
      rfl

theorem lastOf_writtenContent {name : CRName} {last : AbilityCR} {calls : List (Int × AbilityCR)}
    (isLast : lastOf AbilityCR.name name (writtenCrs doc calls) = some last) :
    ∃ detail, dumpCr doc last = .ok detail ∧
      lastOf AbilityCRContent.name name (calls.filterMap (writtenContent doc)) = some (last.content detail) := by
  have member := (mem_of_lastOf isLast).1
  have dumps := (List.mem_filter.mp member).2
  cases written : dumpCr doc last with
  | error exception =>
    rw [written] at dumps
    cases dumps
  | ok detail =>
    refine ⟨detail, rfl, ?_⟩
    have moved : lastOf AbilityCRContent.name name
        ((writtenCrs doc calls).map fun cr => cr.content ((dumpCr doc cr).toOption.getD "")) =
        (lastOf AbilityCR.name name (writtenCrs doc calls)).map
          fun cr => cr.content ((dumpCr doc cr).toOption.getD "") := lastOf_map fun cr => Iff.rfl
    rw [filterMap_writtenContent, moved, isLast, Option.map_some, written]
    rfl

theorem mem_writtenCrs (before after : List (Int × AbilityCR))
    (returned : returnedAfter doc makeUuid before call = .ok id) :
    call.2 ∈ writtenCrs doc (before ++ call :: after) := by
  refine List.mem_filter.mpr ⟨List.mem_map_of_mem (List.mem_append_right _ List.mem_cons_self), ?_⟩
  cases written : dumpCr doc call.2 with
  | ok detail => rfl
  | error exception =>
    rw [returnedAfter, addAbilityCrDocument, written] at returned
    cases returned

/-- Two calls return the same id if and only if their CRs have the same name, and under a returned id there is the
last CR with its name as the text of its document has it. -/
theorem returned_template (distinct : Function.Injective makeUuid) (before after : List (Int × AbilityCR))
    (call : Int × AbilityCR) (id : Uuid) (returned : returnedAfter doc makeUuid before call = .ok id) :
    (∀ other rest otherCall otherId, before ++ call :: after = other ++ otherCall :: rest →
      returnedAfter doc makeUuid other otherCall = .ok otherId →
      (otherId = id ↔ otherCall.2.name = call.2.name)) ∧
    ∃ last labels annotations,
      lastOf AbilityCR.name call.2.name (writtenCrs doc (before ++ call :: after)) = some last ∧
      SameTexts labels last.metadata.labels ∧ SameTexts annotations last.metadata.annotations ∧
      getAbilityCr doc (tablesAfter doc makeUuid (before ++ call :: after)).abilities id =
        ((last.readBack doc id labels annotations).map AbilityCR.asWritten).map some := by
  have loaded : Loaded makeUuid {} (tablesAfter doc makeUuid (before ++ call :: after)) _ :=
    tablesAfter_loaded distinct (before ++ call :: after)
  obtain ⟨row, member, isId, isName⟩ := returned_row distinct after returned
  refine ⟨fun other rest otherCall otherId split otherReturned => ?_, ?_⟩
  · obtain ⟨otherRow, otherMember, isOtherId, isOtherName⟩ := returned_row distinct rest otherReturned
    rw [← split] at otherMember
    rw [← isId, ← isOtherId, ← isName, ← isOtherName]
    exact sameId_iff loaded.distinct member otherMember
  · obtain ⟨last, isLast⟩ := exists_lastOf AbilityCR.name (mem_writtenCrs before after returned)
    obtain ⟨detail, written, isLastContent⟩ := lastOf_writtenContent isLast
    rw [← isName] at isLastContent
    have template := loaded.templates row member _ isLastContent
    obtain ⟨labels, annotations, sameLabels, sameAnnotations, isRead⟩ := getAbilityCr_template written member template
    rw [isId] at isRead
    exact ⟨last, labels, annotations, isLast, sameLabels, sameAnnotations, isRead⟩

variable (doc makeUuid) in
/-- Ids are told apart as names are, and under each returned id there is the round trip of the last CR with its
name. -/
def TemplatesReadBack (calls : List (Int × AbilityCR)) : Prop :=
  ∀ before call after id, calls = before ++ call :: after → returnedAfter doc makeUuid before call = .ok id →
    (∀ other rest otherCall otherId, calls = other ++ otherCall :: rest →
      returnedAfter doc makeUuid other otherCall = .ok otherId →
      (otherId = id ↔ otherCall.2.name = call.2.name)) ∧
    ∃ last labels annotations,
      lastOf AbilityCR.name call.2.name (writtenCrs doc calls) = some last ∧
      SameTexts labels last.metadata.labels ∧ SameTexts annotations last.metadata.annotations ∧
      getAbilityCr doc (tablesAfter doc makeUuid calls).abilities id = (last.readBack doc id labels annotations).map some

variable (makeUuid) in
/-- A CR that has been written is that of a call that has returned. -/
theorem exists_returned {calls : List (Int × AbilityCR)} {cr : AbilityCR} (isWritten : cr ∈ writtenCrs doc calls) :
    ∃ before call after id, calls = before ++ call :: after ∧ call.2 = cr ∧
      returnedAfter doc makeUuid before call = .ok id := by
  obtain ⟨isCr, dumps⟩ := List.mem_filter.mp isWritten
  obtain ⟨call, isCall, rfl⟩ := List.mem_map.mp isCr
  obtain ⟨before, after, rfl⟩ := List.append_of_mem isCall
  cases written : dumpCr doc call.2 with
  | error exception =>
    rw [written] at dumps
    cases dumps
  | ok detail =>
    exact ⟨before, call, after, _, rfl, rfl, congrArg Prod.fst (addAbilityCrDocument_ok written)⟩

theorem map_some_inj {α : Type} {first second : Except CRException α} (same : first.map some = second.map some) :
    first = second := by
  cases first <;> cases second <;> cases same <;> rfl

theorem survivesText_of_templates (distinct : Function.Injective makeUuid) {calls : List (Int × AbilityCR)}
    (readBack : TemplatesReadBack doc makeUuid calls) {name : CRName} {last : AbilityCR}
    (isLast : lastOf AbilityCR.name name (writtenCrs doc calls) = some last) : last.SurvivesText doc := by
  obtain ⟨isWritten, isName⟩ := mem_of_lastOf isLast
  obtain ⟨before, call, after, id, rfl, isCall, returned⟩ := exists_returned makeUuid isWritten
  have isLastCall : lastOf AbilityCR.name call.2.name (writtenCrs doc (before ++ call :: after)) = some last := by
    rw [isCall, isName, isLast]
  obtain ⟨-, other, labels, annotations, isOther, -, -, claimed⟩ := readBack before call after id rfl returned
  obtain ⟨-, own, ownLabels, ownAnnotations, isOwn, -, -, isRead⟩ := returned_template distinct before after call id returned
  cases isLastCall.symm.trans isOther
  cases isLastCall.symm.trans isOwn
  exact survivesText_of_readBack (map_some_inj (isRead.symm.trans claimed))

/-- Over every sequence of calls: templates are read back as their CRs make the round trip through JSON, each under
an id of its own, if and only if the last CR of each name survives the text that it is kept as. -/
theorem templates_readBack_iff (distinct : Function.Injective makeUuid) (calls : List (Int × AbilityCR)) :
    TemplatesReadBack doc makeUuid calls ↔
      ∀ name last, lastOf AbilityCR.name name (writtenCrs doc calls) = some last → last.SurvivesText doc := by
  constructor
  · exact fun readBack _ _ => survivesText_of_templates distinct readBack
  · rintro survive before call after id rfl returned
    obtain ⟨ids, last, labels, annotations, isLast, sameLabels, sameAnnotations, isRead⟩ :=
      returned_template distinct before after call id returned
    rw [readBack_asWritten (survive _ last isLast)] at isRead
    exact ⟨ids, last, labels, annotations, isLast, sameLabels, sameAnnotations, isRead⟩

end Calls

/-! ## A camera without a limit -/

theorem cameraSpec_writable : cameraSpec.Writable := by
  refine .intro nofun rfl rfl rfl fun sub isSub => ?_
  cases isSub

/-- A camera is added twice. -/
theorem camera_addedTwice : TemplatesReadBack cameraDocuments (fun made => made + 1) [(5, cameraCr), (6, cameraCr)] := by
  refine (templates_readBack_iff (add_left_injective 1) _).mpr fun name last isLast => .inl ?_
  obtain ⟨isWritten, -⟩ := mem_of_lastOf isLast
  obtain ⟨isCamera, -⟩ := List.mem_filter.mp isWritten
  have same : last = cameraCr := by simpa using isCamera
  exact same ▸ ⟨rfl, cameraSpec_writable⟩

/-- The limit of its configuration is infinite. -/
def limitCr : AbilityCR :=
  { cameraCr with spec := { cameraSpec with config := .object [("limit", .float (.infinite false))] } }

def limitJson : Json := (limitCr.toJson (plainDocuments ∅)).asWritten

def limitDocuments : DocumentEnvironment := plainDocuments ⟨[(limitJson, textOf limitJson)], List.nodup_singleton _⟩

theorem limit_lost : ¬ TemplatesReadBack limitDocuments (fun made => made + 1) [(5, limitCr)] := by
  intro readBack
  have isLast : lastOf AbilityCR.name limitCr.name (writtenCrs limitDocuments [(5, limitCr)]) = some limitCr := by rfl
  obtain ⟨-, ⟨-, -, config, -, -⟩⟩ | ⟨exception, thrown⟩ := survivesText_of_templates (add_left_injective 1) readBack isLast
  · exact absurd config (by decide)
  · have isRead : ∃ read, AbilityCR.fromJson limitDocuments (limitCr.toJson limitDocuments) = .ok read := ⟨_, rfl⟩
    obtain ⟨read, isRead⟩ := isRead
    cases isRead.symm.trans thrown

end AbilityFramework.ResourceMgr.Document
