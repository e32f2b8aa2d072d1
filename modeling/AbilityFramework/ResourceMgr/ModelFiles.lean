import AbilityFramework.ResourceMgr.ModelManager

/-! # The files of models

A row is inserted once each listed file was answered with its content, whatever has become of the file.  The files are
there if every one could be written, their paths are different and below the directory of the model, and no two models
have directories of which one is below the other (`run_files`). -/

namespace AbilityFramework.ResourceMgr.ModelManager

open Library Library.Runs

def directory (home : Path) : ModelTask → Option Path
  | .downloading _ name _ _ _ => some (home.join name)
  | .created _ | .asking _ | .downloaded _ | .returned _ | .failed => none

/-- The directories of the models that are in the table, or that are being downloaded. -/
def InUse (home : Path) (state : ModelManager) (path : Path) : Prop :=
  (∃ row ∈ state.rows, path = home.join row.storageDir) ∨ ∃ task ∈ state.tasks, directory home task = some path

/-- The files get different paths in the directory. -/
structure Placed (directory : Path) (files : List FileInfo) : Prop where
  distinct : (files.map fun file => directory.join file.filename).Nodup
  inside : ∀ file ∈ files, Path.StrictlyInside (directory.join file.filename) directory

def Orderly (home : Path) (state : ModelManager) : ModelEvent → Prop
  | .describe _ (some info) (some files) _ =>
    ∀ number, info.id = some number →
      Placed (home.join (makeStoragePathName number info.fullname)) files ∧
        ∀ used, InUse home state used → Path.Apart (home.join (makeStoragePathName number info.fullname)) used
  | .download index answer outcome =>
    ∀ id name fullname file files fetched,
      state.tasks[index]? = some (.downloading id name fullname (file :: files) fetched) →
      (FileCall.attempt (.write ((home.join name).join file.filename) answer.received) state.disk outcome).1 = true
  | .disturb request _ =>
    ∀ used, InUse home state used → ∀ path, Path.StrictlyInside path used → ¬ request.mayChange path
  | .describe _ none _ _ | .describe _ _ none _ | .create _ | .lookUp _ | .insert _ | .verify _ => True

/-- What was received is there. -/
def Intact (disk : Disk) (directory : Path) (fetched : List (FileInfo × String)) : Prop :=
  ∀ file content, (file, content) ∈ fetched →
    Path.StrictlyInside (directory.join file.filename) directory ∧
      disk.entry (directory.join file.filename) = some (.file content)

/-- The files received and those that are left have their places, and the files received are there. -/
structure Downloading (home : Path) (disk : Disk) (name : String) (files : List FileInfo)
    (fetched : List (FileInfo × String)) : Prop where
  placed : Placed (home.join name) (fetched.map Prod.fst ++ files)
  intact : Intact disk (home.join name) fetched

structure Complete (home : Path) (state : ModelManager) : Prop where
  installed : ∀ row fetched, (row, fetched) ∈ state.installed →
    row ∈ state.rows ∧ Intact state.disk (home.join row.storageDir) fetched
  downloading : ∀ (index : Nat) id name fullname files fetched,
    state.tasks[index]? = some (.downloading id name fullname files fetched) →
      Downloading home state.disk name files fetched
  rows : ∀ (index : Nat) task used, state.tasks[index]? = some task → directory home task = some used →
    ∀ row ∈ state.rows, Path.Apart used (home.join row.storageDir)
  tasks : ∀ (index other : Nat) task otherTask used otherUsed, index ≠ other → state.tasks[index]? = some task →
    state.tasks[other]? = some otherTask → directory home task = some used → directory home otherTask = some otherUsed →
      Path.Apart used otherUsed

variable {home path used : Path} {online : Bool} {state : ModelManager} {event : ModelEvent} {index : Nat}
  {disk after : Disk} {fetched : List (FileInfo × String)} {files : List FileInfo} {id name fullname : String} {task : ModelTask}

/-! ## Frames -/

theorem Intact.frame (intact : Intact disk used fetched)
    (same : ∀ path, Path.StrictlyInside path used → after.entry path = disk.entry path) : Intact after used fetched := by
  intro file content member
  obtain ⟨inside, isThere⟩ := intact file content member
  exact ⟨inside, (same _ inside).trans isThere⟩

theorem inUse_of_task {task : ModelTask} (isTask : state.tasks[index]? = some task)
    (uses : directory home task = some used) : InUse home state used :=
  .inr ⟨task, List.mem_of_getElem? isTask, uses⟩

theorem complete_disk (complete : Complete home state)
    (installed : ∀ row fetched, (row, fetched) ∈ state.installed → Intact disk (home.join row.storageDir) fetched)
    (downloading : ∀ (index : Nat) id name fullname files fetched,
      state.tasks[index]? = some (.downloading id name fullname files fetched) → Intact disk (home.join name) fetched) :
    Complete home { state with disk := disk } where
  installed := fun row fetched member => ⟨(complete.installed row fetched member).1, installed row fetched member⟩
  downloading := fun index id name fullname files fetched isTask =>
    ⟨(complete.downloading index id name fullname files fetched isTask).placed,
      downloading index id name fullname files fetched isTask⟩
  rows := complete.rows
  tasks := complete.tasks

/-- A change beside all files in use. -/
theorem complete_frame (complete : Complete home state)
    (same : ∀ used, InUse home state used → ∀ path, Path.StrictlyInside path used →
      disk.entry path = state.disk.entry path) :
    Complete home { state with disk := disk } := by
  apply complete_disk complete
  · intro row fetched member
    obtain ⟨isRow, intact⟩ := complete.installed row fetched member
    exact intact.frame (same _ (.inl ⟨row, isRow, rfl⟩))
  · intro index id name fullname files fetched isTask
    have intact := (complete.downloading index id name fullname files fetched isTask).intact
    exact intact.frame (same _ (inUse_of_task isTask rfl))

theorem complete_setTask (complete : Complete home state)
    (downloading : ∀ id name fullname files fetched, task = .downloading id name fullname files fetched →
      Downloading home state.disk name files fetched)
    (rows : ∀ used, directory home task = some used → ∀ row ∈ state.rows, Path.Apart used (home.join row.storageDir))
    (tasks : ∀ (other : Nat) otherTask used otherUsed, index ≠ other → state.tasks[other]? = some otherTask →
      directory home task = some used → directory home otherTask = some otherUsed → Path.Apart used otherUsed) :
    Complete home (state.setTask index task) where
  installed := complete.installed
  downloading := by
    intro other id name fullname files fetched isTask
    rw [setTask, List.getElem?_set] at isTask
    split_ifs at isTask
    · exact downloading id name fullname files fetched (Option.some.inj isTask)
    · exact complete.downloading other id name fullname files fetched isTask
  rows := by
    intro other otherTask used isTask uses
    rw [setTask, List.getElem?_set] at isTask
    split_ifs at isTask
    · rw [← Option.some.inj isTask] at uses
      exact rows used uses
    · exact complete.rows other otherTask used isTask uses
  tasks := by
    intro first second firstTask secondTask firstUsed secondUsed different isFirst isSecond firstUses secondUses
    rw [setTask, List.getElem?_set] at isFirst isSecond
    split_ifs at isFirst isSecond with isIndex _ isOther
    · exact absurd (isIndex.symm.trans isOther) different
    · rw [← Option.some.inj isFirst] at firstUses
      exact tasks second secondTask firstUsed secondUsed (fun same => different (isIndex.symm.trans same)) isSecond
        firstUses secondUses
    · rw [← Option.some.inj isSecond] at secondUses
      have apart := tasks first firstTask secondUsed firstUsed (fun same => isIndex same) isFirst secondUses firstUses
      exact ⟨apart.2, apart.1⟩
    · exact complete.tasks first second firstTask secondTask firstUsed secondUsed different isFirst isSecond firstUses
        secondUses

/-- A task that has no directory any more. -/
theorem complete_setTask_none (complete : Complete home state) (none : directory home task = none) :
    Complete home (state.setTask index task) := by
  apply complete_setTask complete
  · rintro id name fullname files fetched rfl
    cases none
  · intro used uses
    rw [none] at uses
    cases uses
  · intro other otherTask used otherUsed _ _ uses
    rw [none] at uses
    cases uses

/-! ## Steps -/

theorem not_mayChange_create {created : Path} (apart : Path.Apart created used) (inside : Path.StrictlyInside path used) :
    ¬ (FileCall.createDirectories created).mayChange path :=
  fun above => apart.2 (inside.1.trans above)

theorem entry_attempt_write {written : Path} {content : String} {outcome : CallOutcome}
    (succeeds : (FileCall.attempt (.write written content) disk outcome).1 = true) (path : Path) :
    (FileCall.attempt (.write written content) disk outcome).2.entry path =
      if path = written then some (.file content) else disk.entry path := by
  unfold FileCall.attempt at succeeds ⊢
  split_ifs at succeeds with feasible
  rw [if_pos feasible]
  exact Disk.entry_put (.file content) path

theorem complete_describe (complete : Complete home state) {number : Int} {info : ModelInfo}
    (hasNumber : info.id = some number) (outcome : CallOutcome) (placed : Placed (home.join (makeStoragePathName number info.fullname)) files)
    (apart : ∀ used, InUse home state used → Path.Apart (home.join (makeStoragePathName number info.fullname)) used) :
    Complete home (state.describe home index id info files outcome) := by
  have completeDisk : Complete home { state with disk := (FileCall.attempt
      (.createDirectories (home.join (makeStoragePathName number info.fullname))) state.disk outcome).2 } := by
    apply complete_frame complete
    intro used inUse path inside
    exact FileCall.entry_attempt outcome (not_mayChange_create (apart used inUse) inside)
  simp only [describe, hasNumber]
  split_ifs
  · apply complete_setTask completeDisk
    · rintro id name fullname files fetched ⟨⟩
      refine ⟨placed, ?_⟩
      intro file content member
      cases member
    · rintro used ⟨⟩ row member
      exact apart _ (.inl ⟨row, member, rfl⟩)
    · rintro other otherTask used otherUsed _ isOther ⟨⟩ otherUses
      exact apart otherUsed (inUse_of_task isOther otherUses)
  · exact complete_setTask_none completeDisk rfl

/-- The file is written beside the files of the other models and the other files of its own. -/
theorem complete_downloadFile (complete : Complete home state) {file : FileInfo}
    (isTask : state.tasks[index]? = some (.downloading id name fullname (file :: files) fetched)) {answer : Download}
    {outcome : CallOutcome}
    (succeeds : (FileCall.attempt (.write ((home.join name).join file.filename) answer.received) state.disk outcome).1 = true) :
    Complete home (state.downloadFile (home.join name) file answer outcome) ∧
      Intact (state.downloadFile (home.join name) file answer outcome).disk (home.join name)
        (fetched ++ [(file, answer.received)]) := by
  have entry := entry_attempt_write succeeds
  have isDownloading := complete.downloading index id name fullname (file :: files) fetched isTask
  have fileInside : Path.StrictlyInside ((home.join name).join file.filename) (home.join name) :=
    isDownloading.placed.inside file (by simp)
  have elsewhere : ∀ used, Path.Apart (home.join name) used → ∀ path, Path.StrictlyInside path used →
      (FileCall.attempt (.write ((home.join name).join file.filename) answer.received) state.disk outcome).2.entry path =
        state.disk.entry path := by
    intro used apart path inside
    rw [entry, if_neg]
    rintro rfl
    exact apart.not_above fileInside.1 inside.1
  have own : Intact (FileCall.attempt (.write ((home.join name).join file.filename) answer.received) state.disk outcome).2
      (home.join name) fetched := by
    intro other content member
    obtain ⟨inside, isThere⟩ := isDownloading.intact other content member
    refine ⟨inside, ?_⟩
    rw [entry, if_neg, isThere]
    -- The files have different paths.
    intro same
    have distinct := isDownloading.placed.distinct
    rw [List.map_append, List.nodup_append] at distinct
    have isFetched : (home.join name).join other.filename ∈
        (fetched.map Prod.fst).map fun file => (home.join name).join file.filename :=
      List.mem_map.mpr ⟨other, List.mem_map.mpr ⟨_, member, rfl⟩, rfl⟩
    exact distinct.2.2 _ isFetched _ List.mem_cons_self same
  constructor
  · apply complete_disk complete
    · intro row fetched member
      obtain ⟨isRow, intact⟩ := complete.installed row fetched member
      exact intact.frame (elsewhere _ (complete.rows index _ _ isTask rfl row isRow))
    · intro other otherId otherName otherFullname otherFiles otherFetched isOther
      by_cases same : index = other
      · subst same
        rw [isTask] at isOther
        cases isOther
        exact own
      · exact (complete.downloading other _ _ _ _ _ isOther).intact.frame
          (elsewhere _ (complete.tasks index other _ _ _ _ same isTask isOther rfl rfl))
  · intro other content member
    obtain isOld | isNew := List.mem_append.mp member
    · exact own other content isOld
    · cases List.mem_singleton.mp isNew
      refine ⟨fileInside, ?_⟩
      rw [downloadFile, entry, if_pos rfl]

theorem complete_download (complete : Complete home state) {file : FileInfo}
    (isTask : state.tasks[index]? = some (.downloading id name fullname (file :: files) fetched)) {answer : Download}
    {outcome : CallOutcome}
    (succeeds : (FileCall.attempt (.write ((home.join name).join file.filename) answer.received) state.disk outcome).1 = true) :
    Complete home ((state.downloadFile (home.join name) file answer outcome).setTask index
      (if answer.status = some 200 then .downloading id name fullname files (fetched ++ [(file, answer.received)])
      else .failed)) := by
  obtain ⟨completeDisk, intact⟩ := complete_downloadFile complete isTask succeeds
  have isDownloading := complete.downloading index id name fullname (file :: files) fetched isTask
  split_ifs
  · apply complete_setTask completeDisk
    · rintro _ _ _ _ _ ⟨⟩
      refine ⟨?_, intact⟩
      rw [List.map_append, List.append_assoc]
      exact isDownloading.placed
    · rintro used ⟨⟩
      exact complete.rows index _ _ isTask rfl
    · rintro other otherTask used otherUsed different isOther ⟨⟩ otherUses
      exact complete.tasks index other _ otherTask _ otherUsed different isTask isOther rfl otherUses
  · exact complete_setTask_none completeDisk rfl

theorem complete_insert (complete : Complete home state) {rows : ModelStorage}
    (isTask : state.tasks[index]? = some (.downloading id name fullname [] fetched))
    (inserted : state.rows.insert ⟨id, name, fullname⟩ = some rows) :
    Complete home
      ({ state with rows := rows, installed := (⟨id, name, fullname⟩, fetched) :: state.installed }.setTask index
        (.downloaded id)) := by
  have completeTask : Complete home (state.setTask index (.downloaded id)) := complete_setTask_none complete rfl
  have isDownloading := complete.downloading index id name fullname [] fetched isTask
  refine ⟨?_, completeTask.downloading, ?_, completeTask.tasks⟩
  · intro row others member
    obtain isNew | isOld := List.mem_cons.mp member
    · cases isNew
      exact ⟨(Relation.mem_insert inserted).mpr (.inr rfl), isDownloading.intact⟩
    · obtain ⟨isRow, intact⟩ := complete.installed row others isOld
      exact ⟨(Relation.mem_insert inserted).mpr (.inl isRow), intact⟩
  · intro other task used isOther uses row member
    obtain isOld | rfl := (Relation.mem_insert inserted).mp member
    · exact completeTask.rows other task used isOther uses row isOld
    · rw [setTask, List.getElem?_set] at isOther
      split_ifs at isOther with same
      · cases isOther
        cases uses
      · have apart := complete.tasks index other _ task _ used same isTask isOther rfl uses
        exact ⟨apart.2, apart.1⟩

theorem complete_create (complete : Complete home state) (none : directory home task = none) :
    Complete home { state with tasks := state.tasks ++ [task] } := by
  have isOld : ∀ {index : Nat} {other : ModelTask} {used : Path}, (state.tasks ++ [task])[index]? = some other →
      directory home other = some used → state.tasks[index]? = some other := by
    intro index other used isTask uses
    rw [List.getElem?_append] at isTask
    split_ifs at isTask
    · exact isTask
    · rw [List.mem_singleton.mp (List.mem_of_getElem? isTask), none] at uses
      cases uses
  refine ⟨complete.installed, ?_, ?_, ?_⟩
  · intro index id name fullname files fetched isTask
    exact complete.downloading index id name fullname files fetched (isOld isTask rfl)
  · intro index other used isTask uses
    exact complete.rows index other used (isOld isTask uses) uses
  · intro first second firstTask secondTask firstUsed secondUsed different isFirst isSecond firstUses secondUses
    exact complete.tasks first second firstTask secondTask firstUsed secondUsed different (isOld isFirst firstUses)
      (isOld isSecond secondUses) firstUses secondUses

theorem complete_step (complete : Complete home state) (orderly : Orderly home state event) {next : ModelManager}
    (moves : Moves home state event next) : Complete home next := by
  cases moves with
  | stay => exact complete
  | create task isNew => exact complete_create complete (by obtain rfl | rfl | ⟨_, rfl, -⟩ := isNew <;> rfl)
  | fail | found | ask | finish => exact complete_setTask_none complete rfl
  | describe files outcome isAsking hasNumber =>
    obtain ⟨placed, apart⟩ := orderly _ hasNumber
    exact complete_describe complete hasNumber outcome placed apart
  | download answer outcome isTask => exact complete_download complete isTask (orderly _ _ _ _ _ _ isTask)
  | insert isTask inserted => exact complete_insert complete isTask inserted
  | abort => exact ⟨complete.installed, complete.downloading, complete.rows, complete.tasks⟩
  | disturb request outcome =>
    apply complete_frame complete
    intro used inUse path inside
    exact FileCall.entry_attempt outcome (orderly used inUse path inside)

/-! ## Listed files -/

/-- The repository listed these files for a model. -/
def IsListed (events : List ModelEvent) (files : List FileInfo) : Prop :=
  ∃ index info outcome, .describe index (some info) (some files) outcome ∈ events

/-- The files that were received, and those that are left, were listed together. -/
structure Listed (events : List ModelEvent) (state : ModelManager) : Prop where
  installed : ∀ row fetched, (row, fetched) ∈ state.installed → IsListed events (fetched.map Prod.fst)
  downloading : ∀ id name fullname files fetched, .downloading id name fullname files fetched ∈ state.tasks →
    IsListed events (fetched.map Prod.fst ++ files)

variable {events : List ModelEvent}

theorem listed_setTask (listed : Listed events state)
    (isListed : ∀ id name fullname files fetched, task = .downloading id name fullname files fetched →
      IsListed events (fetched.map Prod.fst ++ files)) : Listed events (state.setTask index task) where
  installed := listed.installed
  downloading := by
    intro id name fullname files fetched member
    obtain isNew | isOld := mem_setTask member
    · exact isListed id name fullname files fetched isNew.symm
    · exact listed.downloading id name fullname files fetched isOld

theorem listed_later (listed : Listed events state) (event : ModelEvent) : Listed (events ++ [event]) state := by
  have later : ∀ {files}, IsListed events files → IsListed (events ++ [event]) files := by
    rintro files ⟨index, info, outcome, member⟩
    exact ⟨index, info, outcome, List.mem_append_left _ member⟩
  constructor
  · intro row fetched member
    exact later (listed.installed row fetched member)
  · intro id name fullname files fetched member
    exact later (listed.downloading id name fullname files fetched member)

theorem listed_step (listed : Listed events state) {next : ModelManager} (moves : Moves home state event next) :
    Listed (events ++ [event]) next := by
  have later := listed_later listed event
  cases moves with
  | stay | abort | disturb => exact ⟨later.installed, later.downloading⟩
  | create task isNew =>
    refine ⟨later.installed, ?_⟩
    intro id name fullname files fetched member
    obtain isOld | isLast := List.mem_append.mp member
    · exact later.downloading id name fullname files fetched isOld
    · rw [← List.mem_singleton.mp isLast] at isNew
      obtain other | other | ⟨model, other, -⟩ := isNew <;> cases other
  | fail | found | ask | finish => exact listed_setTask later (fun id name fullname files fetched other => by cases other)
  | @describe index id info number files outcome isAsking hasNumber =>
    have laterDisk : ∀ disk, Listed (events ++ [.describe index (some info) (some files) outcome])
        { state with disk := disk } :=
      fun disk => ⟨later.installed, later.downloading⟩
    simp only [describe, hasNumber]
    apply listed_setTask (laterDisk _)
    intro otherId name fullname otherFiles fetched isNew
    split_ifs at isNew
    cases isNew
    exact ⟨index, info, outcome, by simp⟩
  | @download index id name fullname file files fetched answer outcome isTask =>
    have laterDisk : Listed (events ++ [.download index answer outcome])
        (state.downloadFile (home.join name) file answer outcome) :=
      ⟨later.installed, later.downloading⟩
    apply listed_setTask laterDisk
    intro otherId otherName otherFullname otherFiles otherFetched isNew
    split_ifs at isNew
    cases isNew
    rw [List.map_append, List.append_assoc]
    exact later.downloading _ _ _ _ _ (List.mem_of_getElem? isTask)
  | @insert index id name fullname fetched rows isTask inserted =>
    have isListed := later.downloading _ _ _ _ _ (List.mem_of_getElem? isTask)
    rw [List.append_nil] at isListed
    have laterRows : Listed (events ++ [.insert index])
        { state with rows := rows, installed := (⟨id, name, fullname⟩, fetched) :: state.installed } := by
      refine ⟨?_, later.downloading⟩
      intro row others member
      obtain isNew | isOld := List.mem_cons.mp member
      · cases isNew
        exact isListed
      · exact later.installed row others isOld
    exact listed_setTask laterRows (fun id name fullname files fetched other => by cases other)

/-- In every orderly run each file that was listed for a model whose row was inserted is there as it was received. -/
theorem run_files {disk : Disk} {rows : ModelStorage}
    (orderly : EachStep (step home online) (Orderly home) { disk := disk, rows := rows } events) :
    let after := run (step home online) { disk := disk, rows := rows } events
    ∀ row fetched, (row, fetched) ∈ after.installed →
      row ∈ after.rows ∧ IsListed events (fetched.map Prod.fst) ∧
        ∀ file content, (file, content) ∈ fetched →
          after.disk.entry ((home.join row.storageDir).join file.filename) = some (.file content) := by
  intro after row fetched member
  have complete : Complete home after := by
    refine run_guarded (Complete home) ?_ _ ?_ events orderly
    · intro state event complete orderly
      exact complete_step complete orderly (step_moves home online state event)
    · exact ⟨by simp, by simp, by simp, by simp⟩
  have listed : Listed events after := by
    refine run_history (fun state events => Listed events state) ?_ ⟨by simp, by simp⟩ events
    intro state events event listed
    exact listed_step listed (step_moves home online state event)
  obtain ⟨isRow, intact⟩ := complete.installed row fetched member
  exact ⟨isRow, listed.installed row fetched member, fun file content member => (intact file content member).2⟩

theorem run_files_model :
    let after := run (step ["models"] true) { disk := ∅, rows := ∅ } modelInstall
    ∀ row fetched, (row, fetched) ∈ after.installed →
      row ∈ after.rows ∧ IsListed modelInstall (fetched.map Prod.fst) ∧
        ∀ file content, (file, content) ∈ fetched →
          after.disk.entry ((Path.join ["models"] row.storageDir).join file.filename) = some (.file content) := by
  have orderly : EachStep (step ["models"] true) (Orderly ["models"]) { disk := ∅, rows := ∅ } modelInstall := by
    refine ⟨trivial, trivial, ?_, ?_, trivial, trivial, trivial⟩
    · rintro number ⟨⟩
      refine ⟨⟨by decide, by decide⟩, ?_⟩
      rintro used (⟨row, member, -⟩ | ⟨task, member, uses⟩)
      · cases member
      · cases List.mem_singleton.mp member
        cases uses
    · rintro id name fullname file files fetched ⟨⟩
      decide
  exact run_files orderly

/-! ## Files that could not be written -/

theorem step_insert (home : Path) (online : Bool) (running : state.aborted = false)
    (isTask : state.tasks[index]? = some (.downloading id name fullname [] fetched))
    (new : ∀ row ∈ state.rows, row.id ≠ id) :
    ⟨id, name, fullname⟩ ∈ (state.step home online (.insert index)).rows ∧
      (state.step home online (.insert index)).disk = state.disk := by
  have fresh : ModelRow.id ⟨id, name, fullname⟩ ∉ state.rows.rows.map ModelRow.id := by
    intro taken
    obtain ⟨row, member, sameId⟩ := List.mem_map.mp taken
    exact new row member sameId
  obtain ⟨rows, inserted⟩ := Relation.exists_insert fresh
  simp only [step, running, Bool.false_eq_true, if_false, isTask, insertRow, inserted]
  exact ⟨(Relation.mem_insert inserted).mpr (.inr rfl), rfl⟩

theorem attempt_write_fails (disk : Disk) (path : Path) (content : String) :
    (FileCall.attempt (.write path content) disk { succeeds := false }).2 = disk := rfl

/-- A model is registered once each of its files was answered, whatever has become of the files, be it that none of them
could be opened. -/
theorem registers_anyway (running : state.aborted = false)
    (isTask : state.tasks[index]? = some (.downloading id name fullname files fetched))
    (new : ∀ row ∈ state.rows, row.id ≠ id) {answers : List (Download × CallOutcome)}
    (sameLength : answers.length = files.length) (areGiven : ∀ answer ∈ answers, answer.1.status = some 200) :
    let after := run (step home online) state
      (answers.map (fun answer => .download index answer.1 answer.2) ++ [.insert index])
    ⟨id, name, fullname⟩ ∈ after.rows ∧
      ((∀ answer ∈ answers, answer.2 = { succeeds := false }) → after.disk = state.disk) := by
  induction files generalizing state answers fetched with
  | nil =>
    rw [List.length_nil, List.length_eq_zero_iff] at sameLength
    obtain ⟨member, sameDisk⟩ := step_insert home online running isTask new
    rw [sameLength, List.map_nil, List.nil_append, run_cons, run_nil]
    exact ⟨member, fun _ => sameDisk⟩
  | cons file files inductionHypothesis =>
    cases answers with
    | nil => cases sameLength
    | cons answer answers =>
      rw [List.forall_mem_cons] at areGiven
      rw [List.map_cons, List.cons_append, run_cons]
      have inRange : index < state.tasks.length := (List.getElem?_eq_some_iff.mp isTask).1
      have isStep : state.step home online (.download index answer.1 answer.2) =
          (state.downloadFile (home.join name) file answer.1 answer.2).setTask index
            (.downloading id name fullname files (fetched ++ [(file, answer.1.received)])) := by
        simp only [step, running, Bool.false_eq_true, if_false, isTask, areGiven.1, if_true]
      rw [isStep]
      have isNext : ((state.downloadFile (home.join name) file answer.1 answer.2).setTask index
          (.downloading id name fullname files (fetched ++ [(file, answer.1.received)]))).tasks[index]? =
            some (.downloading id name fullname files (fetched ++ [(file, answer.1.received)])) :=
        List.getElem?_set_self inRange
      generalize isState : (state.downloadFile (home.join name) file answer.1 answer.2).setTask index
        (.downloading id name fullname files (fetched ++ [(file, answer.1.received)])) = next at isNext ⊢
      have runningNext : next.aborted = false := by
        rw [← isState]
        exact running
      have newNext : ∀ row ∈ next.rows, row.id ≠ id := by
        rw [← isState]
        exact new
      obtain ⟨member, sameDisk⟩ := inductionHypothesis runningNext isNext newNext (Nat.succ.inj sameLength) areGiven.2
      refine ⟨member, ?_⟩
      intro fail
      rw [List.forall_mem_cons] at fail
      rw [sameDisk fail.2, ← isState, setTask, downloadFile, fail.1, attempt_write_fails]

def downloadingModel : ModelManager where
  disk := ∅
  rows := ∅
  tasks := [.downloading "7" "7-yolo" "yolo" [⟨1, "weights"⟩] []]

theorem registers_anyway_model :
    let after := run (step ["models"] true) downloadingModel
      ([(⟨"0101", some 200⟩, { succeeds := false })].map
        (fun answer : Download × CallOutcome => .download 0 answer.1 answer.2) ++ [.insert 0])
    (⟨"7", "7-yolo", "yolo"⟩ : ModelRow) ∈ after.rows ∧
      ((∀ answer ∈ [((⟨"0101", some 200⟩ : Download), ({ succeeds := false } : CallOutcome))],
        answer.2 = { succeeds := false }) → after.disk = downloadingModel.disk) := by
  have noRows : ∀ row ∈ downloadingModel.rows, row.id ≠ "7" := by
    intro row member
    cases member
  exact registers_anyway rfl rfl noRows rfl (by simp)

end AbilityFramework.ResourceMgr.ModelManager
