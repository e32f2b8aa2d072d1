import AbilityFramework.Library.FileSystem
import AbilityFramework.Library.Runs

/-! # Models

A task downloads the files of a model from the repository of models and then puts a row into the table.  Tasks run at
the same time; the one that is too late with its row fails.  At the end of each the directory of the row has to be
there, otherwise the process aborts.

`run_installs`: unless something is removed, no run aborts.  `lost_forever`: once the directory of a row is gone, the
model is never downloaded again, and each install of it aborts the process. -/

namespace AbilityFramework.ResourceMgr

open Library Library.Runs

/-- What the framework uses of the description of a model. -/
structure ModelInfo where
  id : Option Int
  fullname : String

structure FileInfo where
  id : Int
  filename : String

structure ModelRow where
  id : String
  storageDir : String
  fullname : String
  deriving DecidableEq

/-- The table `ModelStorage`. -/
abbrev ModelStorage := Relation ModelRow.id

structure ModelStorageInfo where
  id : String
  fullname : String
  path : Path

def makeStoragePathName (id : Int) (fullname : String) : String := toString id ++ "-" ++ fullname

/-- What is received of a file, and the status of the response, if there is one. -/
structure Download where
  received : String
  status : Option Nat

inductive ModelTask where
  | created (id : String)
  /-- The model is not in the table. -/
  | asking (id : String)
  /-- With the files that are left, and what was received of the others. -/
  | downloading (id storagePathName fullname : String) (files : List FileInfo) (fetched : List (FileInfo × String))
  /-- The row is in the table. -/
  | downloaded (id : String)
  | returned (model : ModelStorageInfo)
  | failed

structure ModelManager where
  disk : Disk
  rows : ModelStorage
  tasks : List ModelTask := []
  /-- A `CHECK` ended the process. -/
  aborted : Bool := false
  /-- What was received for the rows that were inserted. -/
  installed : List (ModelRow × List (FileInfo × String)) := []

inductive ModelEvent where
  /-- The task factory is called. -/
  | create (id : String)
  | lookUp (task : Nat)
  /-- The repository gives the description and the files, if it does, and the directory is made. -/
  | describe (task : Nat) (info : Option ModelInfo) (files : Option (List FileInfo)) (outcome : CallOutcome)
  | download (task : Nat) (answer : Download) (outcome : CallOutcome)
  | insert (task : Nat)
  | verify (task : Nat)
  /-- A call of something else. -/
  | disturb (request : FileCall) (outcome : CallOutcome)

namespace ModelManager

section Steps

-- `model_home_dir`, and whether there is a client of the repository.
variable (home : Path) (online : Bool) (state : ModelManager)

def getModelInfo (rows : ModelStorage) (id : String) : Option ModelStorageInfo :=
  (rows.lookup id).map fun row => ⟨id, row.fullname, home.join row.storageDir⟩

/-- `InstallModelByIdTaskFactory`; a task that would throw at its start has failed. -/
def makeTask (id : String) : ModelTask :=
  match getModelInfo home state.rows id with
  | some model =>
    if state.disk.hasEntry model.path then .returned model
    else if online then .created id
    else .failed
  | none => if online then .created id else .failed

def setTask (index : Nat) (task : ModelTask) : ModelManager := { state with tasks := state.tasks.set index task }

/-- The start of `ModelManager::download_model_by_id`. -/
def lookUp (id : String) : ModelTask :=
  match getModelInfo home state.rows id with
  | some _ => .downloaded id
  | none => if online then .asking id else .failed

/-- Up to the directory of the model. -/
def describe (index : Nat) (id : String) (info : ModelInfo) (files : List FileInfo) (outcome : CallOutcome) :
    ModelManager :=
  match info.id with
  | none => state.setTask index .failed
  | some number =>
    let name := makeStoragePathName number info.fullname
    let made := FileCall.attempt (.createDirectories (home.join name)) state.disk outcome
    { state with disk := made.2 }.setTask index
      (if made.1 then .downloading id name info.fullname files [] else .failed)

/-- `download_file`: whether the file could be written is not looked at. -/
def downloadFile (directory : Path) (file : FileInfo) (answer : Download) (outcome : CallOutcome) : ModelManager :=
  { state with disk := (FileCall.attempt (.write (directory.join file.filename) answer.received) state.disk outcome).2 }

def insertRow (index : Nat) (row : ModelRow) (fetched : List (FileInfo × String)) : ModelManager :=
  match state.rows.insert row with
  | some rows =>
    { state with rows := rows, installed := (row, fetched) :: state.installed }.setTask index (.downloaded row.id)
  | none => state.setTask index .failed

def verify (index : Nat) (id : String) : ModelManager :=
  match getModelInfo home state.rows id with
  | some model =>
    if state.disk.hasEntry model.path then state.setTask index (.returned model)
    else { state with aborted := true }
  | none => state.setTask index .failed

def step (event : ModelEvent) : ModelManager :=
  if state.aborted then state
  else
    match event with
    | .create id => { state with tasks := state.tasks ++ [state.makeTask home online id] }
    | .lookUp index =>
      match state.tasks[index]? with
      | some (.created id) => state.setTask index (state.lookUp home online id)
      | _ => state
    | .describe index info files outcome =>
      match state.tasks[index]? with
      | some (.asking id) =>
        match info, files with
        | some info, some files => state.describe home index id info files outcome
        | _, _ => state.setTask index .failed
      | _ => state
    | .download index answer outcome =>
      match state.tasks[index]? with
      | some (.downloading id name fullname (file :: files) fetched) =>
        (state.downloadFile (home.join name) file answer outcome).setTask index
          (if answer.status = some 200 then .downloading id name fullname files (fetched ++ [(file, answer.received)])
          else .failed)
      | _ => state
    | .insert index =>
      match state.tasks[index]? with
      | some (.downloading id name fullname [] fetched) => state.insertRow index ⟨id, name, fullname⟩ fetched
      | _ => state
    | .verify index =>
      match state.tasks[index]? with
      | some (.downloaded id) => state.verify home index id
      | _ => state
    | .disturb request outcome => { state with disk := (request.attempt state.disk outcome).2 }

end Steps

/-! ## Steps -/

/-- What a step can do. -/
inductive Moves (home : Path) (state : ModelManager) : ModelEvent → ModelManager → Prop
  | stay (event : ModelEvent) : Moves home state event state
  | create {id : String} (task : ModelTask)
      (isNew : task = .created id ∨ task = .failed ∨
        ∃ model, task = .returned model ∧ model.id = id ∧ state.disk.hasEntry model.path = true ∧
          getModelInfo home state.rows id = some model) :
      Moves home state (.create id) { state with tasks := state.tasks ++ [task] }
  | fail (event : ModelEvent) (index : Nat) : Moves home state event (state.setTask index .failed)
  | found {index : Nat} {id : String} (isCreated : state.tasks[index]? = some (.created id)) (row : ModelRow)
      (member : row ∈ state.rows) (sameId : row.id = id) : Moves home state (.lookUp index) (state.setTask index (.downloaded id))
  | ask {index : Nat} {id : String} (isCreated : state.tasks[index]? = some (.created id))
      (missing : ∀ row ∈ state.rows, row.id ≠ id) :
      Moves home state (.lookUp index) (state.setTask index (.asking id))
  | describe {index : Nat} {id : String} {info : ModelInfo} {number : Int} (files : List FileInfo) (outcome : CallOutcome)
      (isAsking : state.tasks[index]? = some (.asking id)) (hasNumber : info.id = some number) :
      Moves home state (.describe index (some info) (some files) outcome) (state.describe home index id info files outcome)
  | download {index : Nat} {id : String} {name fullname : String} {file : FileInfo} {files : List FileInfo}
      {fetched : List (FileInfo × String)} (answer : Download) (outcome : CallOutcome)
      (isDownloading : state.tasks[index]? = some (.downloading id name fullname (file :: files) fetched)) :
      Moves home state (.download index answer outcome)
        ((state.downloadFile (home.join name) file answer outcome).setTask index
          (if answer.status = some 200 then .downloading id name fullname files (fetched ++ [(file, answer.received)])
          else .failed))
  | insert {index : Nat} {id : String} {name fullname : String} {fetched : List (FileInfo × String)} {rows : ModelStorage}
      (isDownloading : state.tasks[index]? = some (.downloading id name fullname [] fetched))
      (inserted : state.rows.insert ⟨id, name, fullname⟩ = some rows) :
      Moves home state (.insert index)
        ({ state with rows := rows, installed := (⟨id, name, fullname⟩, fetched) :: state.installed }.setTask index
          (.downloaded id))
  | finish {index : Nat} {id : String} {model : ModelStorageInfo}
      (isDownloaded : state.tasks[index]? = some (.downloaded id)) (found : getModelInfo home state.rows id = some model) (isThere : state.disk.hasEntry model.path = true) :
      Moves home state (.verify index) (state.setTask index (.returned model))
  | abort {index : Nat} {id : String} {model : ModelStorageInfo}
      (isDownloaded : state.tasks[index]? = some (.downloaded id)) (found : getModelInfo home state.rows id = some model) (isGone : state.disk.hasEntry model.path = false) :
      Moves home state (.verify index) { state with aborted := true }
  | disturb (request : FileCall) (outcome : CallOutcome) :
      Moves home state (.disturb request outcome) { state with disk := (request.attempt state.disk outcome).2 }

variable {home : Path} {online : Bool} {state : ModelManager} {event : ModelEvent} {index : Nat} {id : String}

theorem getModelInfo_eq_some {rows : ModelStorage} {model : ModelStorageInfo} :
    getModelInfo home rows id = some model ↔
      ∃ row ∈ rows, row.id = id ∧ model = ⟨id, row.fullname, home.join row.storageDir⟩ := by
  rw [getModelInfo, Option.map_eq_some_iff]
  constructor
  · rintro ⟨row, found, rfl⟩
    obtain ⟨member, sameId⟩ := Relation.lookup_eq_some.mp found
    exact ⟨row, member, sameId, rfl⟩
  · rintro ⟨row, member, sameId, rfl⟩
    exact ⟨row, Relation.lookup_eq_some.mpr ⟨member, sameId⟩, rfl⟩

theorem getModelInfo_eq_none {rows : ModelStorage} : getModelInfo home rows id = none ↔ ∀ row ∈ rows, row.id ≠ id := by
  rw [← Option.not_isSome_iff_eq_none, Option.isSome_iff_exists]
  constructor
  · intro missing row member sameId
    exact missing ⟨_, getModelInfo_eq_some.mpr ⟨row, member, sameId, rfl⟩⟩
  · rintro different ⟨model, found⟩
    obtain ⟨row, member, sameId, -⟩ := getModelInfo_eq_some.mp found
    exact different row member sameId

theorem moves_create (home : Path) (online : Bool) (state : ModelManager) (id : String) :
    Moves home state (.create id) { state with tasks := state.tasks ++ [state.makeTask home online id] } := by
  apply Moves.create
  unfold makeTask
  split
  · rename_i model found
    obtain ⟨row, member, sameId, rfl⟩ := getModelInfo_eq_some.mp found
    split_ifs with isThere isOnline
    · exact .inr (.inr ⟨_, rfl, rfl, isThere, found⟩)
    · exact .inl rfl
    · exact .inr (.inl rfl)
  · split_ifs
    · exact .inl rfl
    · exact .inr (.inl rfl)

theorem moves_lookUp (online : Bool) (isCreated : state.tasks[index]? = some (.created id)) :
    Moves home state (.lookUp index) (state.setTask index (state.lookUp home online id)) := by
  unfold lookUp
  split
  · rename_i model found
    obtain ⟨row, member, sameId, -⟩ := getModelInfo_eq_some.mp found
    exact .found isCreated row member sameId
  · rename_i missing
    split_ifs
    · exact .ask isCreated (getModelInfo_eq_none.mp missing)
    · exact .fail _ _

theorem moves_describe (isAsking : state.tasks[index]? = some (.asking id)) (info : ModelInfo) (files : List FileInfo)
    (outcome : CallOutcome) :
    Moves home state (.describe index (some info) (some files) outcome)
      (state.describe home index id info files outcome) := by
  cases hasNumber : info.id with
  | none =>
    rw [describe, hasNumber]
    exact .fail _ _
  | some number => exact .describe files outcome isAsking hasNumber

theorem moves_insert {name fullname : String} {fetched : List (FileInfo × String)}
    (isDownloading : state.tasks[index]? = some (.downloading id name fullname [] fetched)) :
    Moves home state (.insert index) (state.insertRow index ⟨id, name, fullname⟩ fetched) := by
  unfold insertRow
  split
  · rename_i rows inserted
    exact .insert isDownloading inserted
  · exact .fail _ _

theorem moves_verify (isDownloaded : state.tasks[index]? = some (.downloaded id)) :
    Moves home state (.verify index) (state.verify home index id) := by
  unfold verify
  split
  · rename_i model found
    split_ifs with isThere
    · exact .finish isDownloaded found isThere
    · exact .abort isDownloaded found (Bool.eq_false_iff.mpr isThere)
  · exact .fail _ _

theorem step_moves (home : Path) (online : Bool) (state : ModelManager) (event : ModelEvent) :
    Moves home state event (state.step home online event) := by
  unfold step
  split
  · exact .stay event
  · cases event with
    | create id => exact moves_create home online state id
    | lookUp index =>
      simp only
      split
      · exact moves_lookUp online ‹_›
      · exact .stay _
    | describe index info files outcome =>
      simp only
      split
      · rename_i isAsking
        cases info with
        | none => exact .fail _ _
        | some info =>
          cases files with
          | none => exact .fail _ _
          | some files => exact moves_describe isAsking info files outcome
      · exact .stay _
    | download index answer outcome =>
      simp only
      split
      · exact .download answer outcome ‹_›
      · exact .stay _
    | insert index =>
      simp only
      split
      · exact moves_insert ‹_›
      · exact .stay _
    | verify index =>
      simp only
      split
      · exact moves_verify ‹_›
      · exact .stay _
    | disturb request outcome => exact .disturb request outcome

/-! ## Disks -/

variable {disk : Disk} {path : Path}

theorem hasEntry_makeDirectories (created : Path) (made : Path → Bool) (isThere : disk.hasEntry path = true) :
    (disk.makeDirectories created made).hasEntry path = true := by
  rw [Disk.hasEntry, Disk.entry_makeDirectories]
  split
  · rfl
  · exact isThere

theorem hasEntry_put (written : Path) (entry : Entry) (isThere : disk.hasEntry path = true) :
    (disk.put written entry).hasEntry path = true := by
  rw [Disk.hasEntry, Disk.entry_put]
  split
  · rfl
  · exact isThere

theorem hasEntry_attempt_create (created : Path) (outcome : CallOutcome) (isThere : disk.hasEntry path = true) :
    (FileCall.attempt (.createDirectories created) disk outcome).2.hasEntry path = true := by
  unfold FileCall.attempt
  split
  · exact hasEntry_makeDirectories created _ isThere
  · exact hasEntry_makeDirectories created _ isThere

theorem hasEntry_attempt_write (written : Path) (content : String) (outcome : CallOutcome)
    (isThere : disk.hasEntry path = true) : (FileCall.attempt (.write written content) disk outcome).2.hasEntry path = true := by
  simp only [FileCall.attempt, FileCall.perform, FileCall.performPartly]
  split_ifs
  · exact hasEntry_put written _ isThere
  · exact hasEntry_put written _ isThere
  · exact isThere

/-- The directory is there once it could be made. -/
theorem hasEntry_of_made {created : Path} {outcome : CallOutcome}
    (made : (FileCall.attempt (.createDirectories created) disk outcome).1 = true) :
    (FileCall.attempt (.createDirectories created) disk outcome).2.hasEntry created = true := by
  unfold FileCall.attempt at made ⊢
  split_ifs at made ⊢ with feasible
  rw [FileCall.perform, Disk.hasEntry, Disk.entry_makeDirectories]
  split_ifs with isNew
  · rfl
  · simp only [List.prefix_refl, true_and] at isNew
    exact Option.isSome_iff_ne_none.mpr isNew

/-! ## Tasks -/

theorem mem_setTask {task new : ModelTask} (member : task ∈ (state.setTask index new).tasks) :
    task = new ∨ task ∈ state.tasks := (List.mem_or_eq_of_mem_set member).symm

/-- What something else does removes nothing. -/
def Spares (state : ModelManager) : ModelEvent → Prop
  | .disturb request outcome =>
    ∀ path, state.disk.hasEntry path = true → (request.attempt state.disk outcome).2.hasEntry path = true
  | _ => True

/-- The directories of the rows and of the downloads are there. -/
structure Standing (home : Path) (state : ModelManager) : Prop where
  rows : ∀ row ∈ state.rows, state.disk.hasEntry (home.join row.storageDir) = true
  downloading : ∀ id name fullname files fetched, .downloading id name fullname files fetched ∈ state.tasks →
    state.disk.hasEntry (home.join name) = true
  downloaded : ∀ id, .downloaded id ∈ state.tasks → ∃ row ∈ state.rows, row.id = id
  running : state.aborted = false

theorem standing_setTask (standing : Standing home state) {task : ModelTask}
    (hasDirectory : ∀ id name fullname files fetched, task = .downloading id name fullname files fetched →
      state.disk.hasEntry (home.join name) = true)
    (hasRow : ∀ id, task = .downloaded id → ∃ row ∈ state.rows, row.id = id) :
    Standing home (state.setTask index task) where
  rows := standing.rows
  downloading := by
    intro id name fullname files fetched member
    obtain isNew | isOld := mem_setTask member
    · exact hasDirectory id name fullname files fetched isNew.symm
    · exact standing.downloading id name fullname files fetched isOld
  downloaded := by
    intro id member
    obtain isNew | isOld := mem_setTask member
    · exact hasRow id isNew.symm
    · exact standing.downloaded id isOld
  running := standing.running

theorem standing_disk (standing : Standing home state)
    (spares : ∀ path, state.disk.hasEntry path = true → disk.hasEntry path = true) :
    Standing home { state with disk := disk } where
  rows := fun row member => spares _ (standing.rows row member)
  downloading := fun id name fullname files fetched member =>
    spares _ (standing.downloading id name fullname files fetched member)
  downloaded := standing.downloaded
  running := standing.running

theorem standing_step (standing : Standing home state) (spares : state.Spares event) {after : ModelManager}
    (moves : Moves home state event after) : Standing home after := by
  cases moves with
  | stay => exact standing
  | create task isNew =>
    refine ⟨standing.rows, ?_, ?_, standing.running⟩
    · intro id name fullname files fetched member
      obtain isOld | isLast := List.mem_append.mp member
      · exact standing.downloading id name fullname files fetched isOld
      · rw [← List.mem_singleton.mp isLast] at isNew
        obtain other | other | ⟨model, other, -⟩ := isNew <;> cases other
    · intro id member
      obtain isOld | isLast := List.mem_append.mp member
      · exact standing.downloaded id isOld
      · rw [← List.mem_singleton.mp isLast] at isNew
        obtain other | other | ⟨model, other, -⟩ := isNew <;> cases other
  | fail | ask | finish =>
    apply standing_setTask standing
    · exact fun id name fullname files fetched other => by cases other
    · exact fun id other => by cases other
  | found isCreated row member sameId =>
    apply standing_setTask standing
    · exact fun id name fullname files fetched other => by cases other
    · rintro id ⟨⟩
      exact ⟨row, member, sameId⟩
  | @describe index id info number files outcome isAsking hasNumber =>
    have standingDisk := standing_disk standing fun path isThere =>
      hasEntry_attempt_create (home.join (makeStoragePathName number info.fullname)) outcome isThere
    simp only [describe, hasNumber]
    apply standing_setTask standingDisk
    · intro id name fullname files fetched isNew
      split_ifs at isNew with made
      cases isNew
      exact hasEntry_of_made made
    · intro id isNew
      split_ifs at isNew
  | @download index id name fullname file files fetched answer outcome isDownloading =>
    have isThere := standing.downloading _ _ _ _ _ (List.mem_of_getElem? isDownloading)
    have standingDisk := standing_disk standing fun path isThere =>
      hasEntry_attempt_write ((home.join name).join file.filename) answer.received outcome isThere
    apply standing_setTask standingDisk
    · intro other otherName otherFullname otherFiles otherFetched isNew
      split_ifs at isNew
      cases isNew
      exact hasEntry_attempt_write _ _ _ isThere
    · intro other isNew
      split_ifs at isNew
  | @insert index id name fullname fetched rows isDownloading inserted =>
    have isThere := standing.downloading _ _ _ _ _ (List.mem_of_getElem? isDownloading)
    have standingRows : Standing home
        { state with rows := rows, installed := (⟨id, name, fullname⟩, fetched) :: state.installed } := by
      refine ⟨?_, standing.downloading, ?_, standing.running⟩
      · intro row member
        obtain isOld | rfl := (Relation.mem_insert inserted).mp member
        · exact standing.rows row isOld
        · exact isThere
      · intro other member
        obtain ⟨row, isOld, sameId⟩ := standing.downloaded other member
        exact ⟨row, (Relation.mem_insert inserted).mpr (.inl isOld), sameId⟩
    apply standing_setTask standingRows
    · exact fun other otherName otherFullname files fetched isNew => by cases isNew
    · rintro other ⟨⟩
      exact ⟨_, (Relation.mem_insert inserted).mpr (.inr rfl), rfl⟩
  | abort isDownloaded found isGone =>
    obtain ⟨row, member, -, rfl⟩ := getModelInfo_eq_some.mp found
    rw [standing.rows row member] at isGone
    cases isGone
  | disturb request outcome => exact standing_disk standing spares

/-! ## Installs that cannot abort -/

/-- Whatever the order of the steps, the answers of the repository and the outcomes of the calls, if nothing else removes
anything: the process does not abort, the directory of every row is there, and a task that is done with its download
finds its row. -/
theorem run_installs {disk : Disk} {rows : ModelStorage}
    (areThere : ∀ row ∈ rows, disk.hasEntry (home.join row.storageDir) = true) {events : List ModelEvent}
    (spares : EachStep (step home online) Spares { disk := disk, rows := rows } events) :
    Standing home (run (step home online) { disk := disk, rows := rows } events) := by
  refine run_guarded (Standing home) ?_ _ ?_ events spares
  · intro state event standing spares
    exact standing_step standing spares (step_moves home online state event)
  · exact ⟨areThere, by simp, by simp, rfl⟩

/-- A model of one file. -/
def modelInstall : List ModelEvent :=
  [.create "7", .lookUp 0, .describe 0 (some ⟨some 7, "yolo"⟩) (some [⟨1, "weights"⟩]) {},
    .download 0 ⟨"0101", some 200⟩ {}, .insert 0, .verify 0]

theorem run_installs_model :
    Standing ["models"] (run (step ["models"] true) { disk := ∅, rows := ∅ } modelInstall) := by
  have noRows : ∀ row ∈ (∅ : ModelStorage), (∅ : Disk).hasEntry (Path.join ["models"] row.storageDir) = true := by
    intro row member
    cases member
  exact run_installs noRows ⟨trivial, trivial, trivial, trivial, trivial, trivial, trivial⟩

/-! ## Installs of what is lost -/

/-- The task is past the look-up, and the model was not in the table. -/
def Fetches (id : String) : ModelTask → Prop
  | .asking other | .downloading other _ _ _ _ => other = id
  | .created _ | .downloaded _ | .returned _ | .failed => False

/-- The row is there, nobody fetches its model, and of the installs of it none has succeeded but earlier ones. -/
structure Registered (row : ModelRow) (earlier : List ModelTask) (state : ModelManager) : Prop where
  member : row ∈ state.rows
  idle : ∀ task ∈ state.tasks, ¬ Fetches row.id task
  returned : ∀ (index : Nat) model, state.tasks[index]? = some (.returned model) → model.id = row.id →
    earlier[index]? = some (.returned model)

variable {row : ModelRow} {earlier : List ModelTask}

theorem registered_setTask (registered : Registered row earlier state) {task : ModelTask} (idle : ¬ Fetches row.id task)
    (notReturned : ∀ model, task = .returned model → model.id ≠ row.id) :
    Registered row earlier (state.setTask index task) where
  member := registered.member
  idle := by
    intro other member
    obtain rfl | isOld := mem_setTask member
    · exact idle
    · exact registered.idle other isOld
  returned := by
    intro other model isReturned sameId
    rw [setTask, List.getElem?_set] at isReturned
    split_ifs at isReturned
    · exact absurd sameId (notReturned model (Option.some.inj isReturned))
    · exact registered.returned other model isReturned sameId

theorem registered_step (registered : Registered row earlier state)
    (lost : state.disk.hasEntry (home.join row.storageDir) = false) {after : ModelManager}
    (moves : Moves home state event after) : Registered row earlier after := by
  -- What an install returns is there, so it is not this model.
  have other_of_found : ∀ {id model}, getModelInfo home state.rows id = some model →
      state.disk.hasEntry model.path = true → model.id ≠ row.id := by
    intro id model found isThere sameId
    obtain ⟨other, member, otherId, rfl⟩ := getModelInfo_eq_some.mp found
    have same := Relation.eq_of_key member registered.member (otherId.trans sameId)
    rw [same, lost] at isThere
    cases isThere
  cases moves with
  | stay => exact registered
  | create task isNew =>
    refine ⟨registered.member, ?_, ?_⟩
    · intro other member
      obtain isOld | isLast := List.mem_append.mp member
      · exact registered.idle other isOld
      · rw [List.mem_singleton.mp isLast]
        obtain rfl | rfl | ⟨model, rfl, -⟩ := isNew <;> exact not_false
    · intro other model isReturned sameId
      rw [List.getElem?_append] at isReturned
      split_ifs at isReturned
      · exact registered.returned other model isReturned sameId
      · have isTask := List.mem_singleton.mp (List.mem_of_getElem? isReturned)
        obtain rfl | rfl | ⟨found, rfl, -, isThere, isFound⟩ := isNew
        · cases isTask
        · cases isTask
        · cases isTask
          exact absurd sameId (other_of_found isFound isThere)
  | fail => exact registered_setTask registered not_false (fun model other => by cases other)
  | found => exact registered_setTask registered not_false (fun model other => by cases other)
  | ask isCreated missing =>
    exact registered_setTask registered (fun sameId => missing row registered.member sameId.symm)
      (fun model other => by cases other)
  | @describe index id info number files outcome isAsking hasNumber =>
    have different : id ≠ row.id := registered.idle _ (List.mem_of_getElem? isAsking)
    have registeredDisk : ∀ disk, Registered row earlier { state with disk := disk } :=
      fun disk => ⟨registered.member, registered.idle, registered.returned⟩
    simp only [describe, hasNumber]
    apply registered_setTask (registeredDisk _)
    · split_ifs
      · exact different
      · exact not_false
    · intro model isReturned
      split_ifs at isReturned
  | @download index id name fullname file files fetched answer outcome isDownloading =>
    have different : id ≠ row.id := registered.idle _ (List.mem_of_getElem? isDownloading)
    have registeredDisk : Registered row earlier (state.downloadFile (home.join name) file answer outcome) :=
      ⟨registered.member, registered.idle, registered.returned⟩
    apply registered_setTask registeredDisk
    · split_ifs
      · exact different
      · exact not_false
    · intro model isReturned
      split_ifs at isReturned
  | @insert index id name fullname fetched rows isDownloading inserted =>
    have registeredRows : Registered row earlier
        { state with rows := rows, installed := (⟨id, name, fullname⟩, fetched) :: state.installed } :=
      ⟨(Relation.mem_insert inserted).mpr (.inl registered.member), registered.idle, registered.returned⟩
    exact registered_setTask registeredRows not_false (fun model other => by cases other)
  | finish isDownloaded found isThere =>
    apply registered_setTask registered
    · exact not_false
    · rintro model ⟨⟩
      exact other_of_found found isThere
  | abort => exact ⟨registered.member, registered.idle, registered.returned⟩
  | disturb => exact ⟨registered.member, registered.idle, registered.returned⟩

theorem aborted_of_downloaded (member : row ∈ state.rows) (lost : state.disk.hasEntry (home.join row.storageDir) = false)
    (online : Bool) (isDownloaded : state.tasks[index]? = some (.downloaded row.id)) :
    (state.step home online (.verify index)).aborted = true := by
  unfold step
  split_ifs with aborted
  · exact aborted
  · have found : getModelInfo home state.rows row.id = some ⟨row.id, row.fullname, home.join row.storageDir⟩ :=
      getModelInfo_eq_some.mpr ⟨row, member, rfl, rfl⟩
    simp only [isDownloaded, verify, found, lost, Bool.false_eq_true, if_false]

/-- The directory of a row is gone, and nobody is fetching the model any more.  As long as the directory is not put back,
the row stays, nobody fetches the model, no install of it succeeds, and each that comes to its end aborts the process. -/
theorem lost_forever (member : row ∈ state.rows) (idle : ∀ task ∈ state.tasks, ¬ Fetches row.id task)
    {events : List ModelEvent}
    (lost : Always (step home online) (fun later => later.disk.hasEntry (home.join row.storageDir) = false) state events) :
    let after := run (step home online) state events
    row ∈ after.rows ∧ (∀ task ∈ after.tasks, ¬ Fetches row.id task) ∧
      (∀ (index : Nat) model, after.tasks[index]? = some (.returned model) → model.id = row.id →
        state.tasks[index]? = some (.returned model)) ∧
      ∀ index : Nat, after.tasks[index]? = some (.downloaded row.id) →
        (after.step home online (.verify index)).aborted = true := by
  intro after
  have isLost : after.disk.hasEntry (home.join row.storageDir) = false := by
    rw [always_iff_prefixes] at lost
    exact lost events [] (List.append_nil events).symm
  have registered : Registered row state.tasks after := by
    have lostBefore : EachStep (step home online) (fun later _ => later.disk.hasEntry (home.join row.storageDir) = false)
        state events :=
      eachStep_of_always (fun later _ lost => lost) state events lost
    refine run_guarded (Registered row state.tasks) ?_ _ ⟨member, idle, fun _ _ isReturned _ => isReturned⟩ events
      lostBefore
    intro later event registered lost
    exact registered_step registered lost (step_moves home online later event)
  exact ⟨registered.member, registered.idle, registered.returned,
    fun index isDownloaded => aborted_of_downloaded registered.member isLost online isDownloaded⟩

def lostModel : ModelManager where
  disk := ∅
  rows := ⟨[⟨"7", "7-yolo", "yolo"⟩], by decide⟩

theorem lost_forever_model :
    let after := run (step ["models"] true) lostModel [.create "7", .lookUp 0]
    (⟨"7", "7-yolo", "yolo"⟩ : ModelRow) ∈ after.rows ∧ (∀ task ∈ after.tasks, ¬ Fetches "7" task) ∧
      (∀ (index : Nat) model, after.tasks[index]? = some (.returned model) → model.id = "7" →
        lostModel.tasks[index]? = some (.returned model)) ∧
      ∀ index : Nat, after.tasks[index]? = some (.downloaded "7") →
        (after.step ["models"] true (.verify index)).aborted = true :=
  @lost_forever ["models"] true lostModel ⟨"7", "7-yolo", "yolo"⟩ List.mem_cons_self (by simp [lostModel])
    [.create "7", .lookUp 0] ⟨rfl, rfl, rfl⟩

end ModelManager

end AbilityFramework.ResourceMgr
