import AbilityFramework.Library.FileSystem
import AbilityFramework.Library.SpelledPath

/-! # Files of the package store

What the package store uses of the file library: programs on the file system, in which each look-up may throw
and each call fail.  Names from archives and requests get into paths as they are, so that a path is given as it is
spelled; calls are made for what it leads to. -/

namespace AbilityFramework.ResourceMgr

open Library FileProgram

inductive StoreError where
  /-- What a function of the file library throws. -/
  | fileSystem
  | invalidArgument (message : String)
  | message (text : String)
  /-- A message that ends with a path. -/
  | messageAt (text : String) (path : SpelledPath)
  deriving DecidableEq

abbrev StoreProgram := FileProgram StoreError

namespace StoreManager

/-! ## Look-ups -/

/-- Where the path leads on the disk. -/
def foundOn (path : SpelledPath) (disk : Disk) : Option Path :=
  SpelledPath.follow disk.isDirectory path.start path.seen

def isOn (path : SpelledPath) (disk : Disk) : Bool := (foundOn path disk).any disk.hasEntry

/-- A look-up, which throws where the file system has an error. -/
def lookUp {α : Type} (path : SpelledPath) (get : Disk → α) : StoreProgram α := do
  require (.access path.leadsTo) .fileSystem
  see get

/-- `exists`; the source's name is a keyword. -/
def hasEntry (path : SpelledPath) : StoreProgram Bool := lookUp path (isOn path)

def isDirectory (path : SpelledPath) : StoreProgram Bool := lookUp path fun disk => (foundOn path disk).any disk.isDirectory

/-- The entries of a directory. -/
def entriesIn (path : Path) (disk : Disk) : List Path :=
  (disk.rows.filter fun row => row.1 ≠ [] && row.1.dropLast = path).map Prod.fst

/-- The directories of a directory, in the order of the iteration. -/
def subdirectories (path : Path) (disk : Disk) : List Path :=
  (disk.rows.filter fun row => row.2 = .directory && row.1 ≠ [] && row.1.dropLast = path).map Prod.fst

/-- The regular files of a directory at any depth, by their paths below it. -/
def filesBelow (path : Path) (disk : Disk) : List (Path × String) :=
  disk.rows.filterMap fun
    | (file, .file content) => if path <+: file ∧ file ≠ path then some (file.drop path.length, content) else none
    | (_, .directory) => none

/-! ## Calls -/

/-- The result says whether the last of the directories is new. -/
def createEach : Bool → List Path → StoreProgram Bool
  | isNew, [] => pure isNew
  | _, path :: paths => do
    let isThere ← see fun disk => disk.hasEntry path
    require (.createDirectories path) .fileSystem
    createEach (!isThere) paths

def createDirectories (path : SpelledPath) : StoreProgram Bool := createEach false path.stations

def attemptEach : List Path → StoreProgram Bool
  | [] => pure true
  | path :: paths => do
    if !(← attempt (.createDirectories path)) then return false
    attemptEach paths

/-- `create_directories` with an error code, which says whether there is none. -/
def attemptDirectories (path : SpelledPath) : StoreProgram Bool := attemptEach path.stations

/-- Where the names lead.  A look is needed only for those that do not lead further down. -/
def locate (path : SpelledPath) (names : List String) : StoreProgram (Option Path) :=
  if path.IsPlain then pure (some path.leadsTo) else see fun disk => SpelledPath.follow disk.isDirectory path.start names

def removeEach : List Path → StoreProgram Bool
  | [] => pure true
  | path :: paths => do
    if !(← attempt (.removeAll path)) then return false
    removeEach paths

/-- `remove_all`, which says whether there is no error. -/
def removeAll (path : SpelledPath) : StoreProgram Bool := do
  match ← locate path path.seen with
  | none => return true
  | some place =>
    if path.endsInDots then
      let entries ← see (entriesIn place)
      let removed ← removeEach entries
      -- The directory itself stays: `.` is refused, and what comes before `..` is already gone.
      return removed && path.trimmed.getLast? = some ".."
    else attempt (.removeAll place)

/-- A directory is moved, so that separators at the end of the target do not matter. -/
def rename (source : Path) (target : SpelledPath) : StoreProgram Unit := do
  match ← locate target target.trimmed with
  | none => fails .fileSystem
  | some place =>
    if target.endsInDots then fails .fileSystem else require (.rename source place) .fileSystem

/-! ## What is called -/

variable {allowed : FileCall → Prop} {α β : Type} {path : SpelledPath}

/-- Look-ups are allowed everywhere. -/
def AllowsLookUps (allowed : FileCall → Prop) : Prop := ∀ path, allowed (.access path)

theorem calls_lookUp (lookUps : AllowsLookUps allowed) (path : SpelledPath) (get : Disk → α) :
    Calls allowed (lookUp path get) := calls_bind (calls_require.mpr (lookUps _)) fun _ => calls_see get

theorem calls_lookUp_bind (lookUps : AllowsLookUps allowed) {get : Disk → α} {next : α → StoreProgram β}
    (later : ∀ disk, Calls allowed (next (get disk))) : Calls allowed (lookUp path get >>= next) := by
  rw [lookUp, bind_assoc, calls_require_bind]
  exact ⟨lookUps _, later⟩

theorem calls_hasEntry_bind (lookUps : AllowsLookUps allowed) {next : Bool → StoreProgram β}
    (later : ∀ present, Calls allowed (next present)) : Calls allowed (hasEntry path >>= next) :=
  calls_lookUp_bind lookUps fun _ => later _

theorem calls_createEach (isNew : Bool) {paths : List Path} (creates : ∀ path ∈ paths, allowed (.createDirectories path)) :
    Calls allowed (createEach isNew paths) := by
  induction paths generalizing isNew with
  | nil => trivial
  | cons path paths inductionHypothesis =>
    rw [List.forall_mem_cons] at creates
    exact fun disk => calls_require_bind.mpr ⟨creates.1, inductionHypothesis _ creates.2⟩

theorem calls_createDirectories (creates : ∀ station ∈ path.stations, allowed (.createDirectories station)) :
    Calls allowed (createDirectories path) := calls_createEach false creates

theorem calls_attemptDirectories (creates : ∀ station ∈ path.stations, allowed (.createDirectories station)) :
    Calls allowed (attemptDirectories path) := by
  rw [attemptDirectories]
  revert creates
  induction path.stations with
  | nil => exact fun _ => trivial
  | cons station stations inductionHypothesis =>
    intro creates
    rw [List.forall_mem_cons] at creates
    refine calls_attempt_bind.mpr ⟨creates.1, fun succeeded => ?_⟩
    cases succeeded with
    | true => exact inductionHypothesis creates.2
    | false => trivial

theorem calls_locate (names : List String) : Calls allowed (locate path names) := by
  rw [locate]
  split
  · trivial
  · exact calls_see _

theorem ensures_locate {names : List String} (lead : names.foldl Path.child path.start = path.leadsTo) :
    Ensures (fun found => ∀ place, found = some place → place = path.leadsTo) (locate path names) := by
  rw [locate]
  split
  · exact ensures_pure fun place same => (Option.some.inj same).symm
  · exact ensures_see fun disk place follows => (SpelledPath.eq_of_follow follows).trans lead

/-- What `remove_all` removes may be removed. -/
def RemovalAllowed (allowed : FileCall → Prop) (path : SpelledPath) : Prop :=
  if path.endsInDots then ∀ entry, entry ≠ [] → entry.dropLast = path.leadsTo → allowed (.removeAll entry)
  else allowed (.removeAll path.leadsTo)

theorem RemovalAllowed.imp {other : FileCall → Prop} (removal : RemovalAllowed allowed path)
    (implied : ∀ dir, allowed (.removeAll dir) → other (.removeAll dir)) : RemovalAllowed other path := by
  rw [RemovalAllowed] at removal ⊢
  split at removal
  · rename_i endsInDots
    rw [if_pos endsInDots]
    exact fun entry nonempty parent => implied entry (removal entry nonempty parent)
  · rename_i down
    rw [if_neg down]
    exact implied _ removal

theorem calls_removeEach {paths : List Path} (removes : ∀ path ∈ paths, allowed (.removeAll path)) :
    Calls allowed (removeEach paths) := by
  induction paths with
  | nil => trivial
  | cons path paths inductionHypothesis =>
    rw [List.forall_mem_cons] at removes
    refine calls_attempt_bind.mpr ⟨removes.1, fun succeeded => ?_⟩
    cases succeeded with
    | true => exact inductionHypothesis removes.2
    | false => trivial

theorem mem_entriesIn {place entry : Path} {disk : Disk} (member : entry ∈ entriesIn place disk) :
    entry ≠ [] ∧ entry.dropLast = place := by
  obtain ⟨row, isRow, rfl⟩ := List.mem_map.mp member
  simpa using (List.mem_filter.mp isRow).2

theorem hasEntry_of_mem_entriesIn {place entry : Path} {disk : Disk} (member : entry ∈ entriesIn place disk) :
    disk.hasEntry entry = true := by
  obtain ⟨⟨path, found⟩, isRow, rfl⟩ := List.mem_map.mp member
  rw [Disk.hasEntry, Disk.entry_eq_some.mpr (List.mem_filter.mp isRow).1]
  rfl

theorem mem_entriesIn_of_hasEntry {place : Path} {name : String} {disk : Disk}
    (present : disk.hasEntry (place ++ [name]) = true) :
    place ++ [name] ∈ entriesIn place disk := by
  obtain ⟨entry, isEntry⟩ := Option.isSome_iff_exists.mp present
  refine List.mem_map.mpr ⟨(place ++ [name], entry), List.mem_filter.mpr ⟨Disk.entry_eq_some.mp isEntry, ?_⟩, rfl⟩
  simp

theorem calls_removeAll (removal : RemovalAllowed allowed path) : Calls allowed (removeAll path) := by
  rw [removeAll]
  refine calls_bind_of_ensures (calls_locate _) (ensures_locate rfl) fun found isPlace => ?_
  cases found with
  | none => trivial
  | some place =>
    obtain rfl := isPlace place rfl
    rw [RemovalAllowed] at removal
    dsimp only
    split at removal
    · rename_i endsInDots
      rw [if_pos endsInDots]
      have listed : Ensures (fun entries => ∀ entry ∈ entries, entry ≠ [] ∧ entry.dropLast = path.leadsTo)
          (see (entriesIn path.leadsTo) : StoreProgram (List Path)) :=
        ensures_see fun disk entry => mem_entriesIn
      refine calls_bind_of_ensures (calls_see _) listed fun entries areBelow => ?_
      refine calls_bind (calls_removeEach fun entry member => ?_) fun _ => trivial
      exact removal entry (areBelow entry member).1 (areBelow entry member).2
    · rename_i down
      rw [if_neg down]
      exact calls_attempt.mpr removal

theorem calls_rename {source : Path} (renames : path.endsInDots = false → allowed (.rename source path.leadsTo)) :
    Calls allowed (rename source path) := by
  rw [rename]
  refine calls_bind_of_ensures (calls_locate _) (ensures_locate path.foldl_trimmed) fun found isPlace => ?_
  cases found with
  | none => trivial
  | some place =>
    obtain rfl := isPlace place rfl
    dsimp only
    split
    · trivial
    · rename_i down
      exact calls_require.mpr (renames (Bool.eq_false_iff.mpr down))

/-! ## Paths that lead down -/

theorem foundOn_of_plain (isPlain : path.IsPlain) (disk : Disk) : foundOn path disk = some path.leadsTo := isPlain.follow_eq

theorem isOn_of_plain (isPlain : path.IsPlain) (disk : Disk) : isOn path disk = disk.hasEntry path.leadsTo := by
  rw [isOn, foundOn_of_plain isPlain, Option.any_some]

theorem createDirectories_bind (path : Path) (next : Bool → StoreProgram β) :
    (createDirectories (path : SpelledPath) >>= next) =
      look fun disk => require (.createDirectories path) .fileSystem >>= fun _ => next (!disk.hasEntry path) := by
  have station : (path : SpelledPath).stations = [path] := rfl
  rw [createDirectories, station, createEach]
  refine congrArg look (funext fun disk => congrArg (call _) (funext fun succeeded => ?_))
  cases succeeded <;> rfl

theorem attemptEach_singleton (path : Path) : attemptEach [path] = attempt (.createDirectories path) := by
  refine congrArg (FileProgram.call _) (funext fun succeeded => ?_)
  cases succeeded <;> rfl

theorem attemptDirectories_of_plain (isPlain : path.IsPlain) :
    attemptDirectories path = attempt (.createDirectories path.leadsTo) := by
  rw [attemptDirectories, isPlain.stations_eq, attemptEach_singleton]

theorem removeAll_of_plain (isPlain : path.IsPlain) : removeAll path = attempt (.removeAll path.leadsTo) := by
  rw [removeAll, locate, if_pos isPlain, pure_bind]
  simp only [isPlain.endsInDots_eq, Bool.false_eq_true, if_false]

theorem rename_of_plain {source : Path} (isPlain : path.IsPlain) :
    rename source path = require (.rename source path.leadsTo) .fileSystem := by
  rw [rename, locate, if_pos isPlain, pure_bind]
  simp only [isPlain.endsInDots_eq, Bool.false_eq_true, if_false]

end StoreManager

end AbilityFramework.ResourceMgr
