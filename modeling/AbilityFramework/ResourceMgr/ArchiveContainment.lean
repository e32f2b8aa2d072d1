import AbilityFramework.Library.FileChanges
import AbilityFramework.ResourceMgr.StoreManager

/-! # Where archives are unpacked

`unzip` joins the name of an entry to the target directory as it is.  What an entry reaches depends on the entries
before it: a name that goes through a file is refused, and one that goes through directories that are not there has
them made first.  In a new directory below one that is there, everything that `unzip` reaches can be told from the
archive alone (`unzip_contained_iff`). -/

namespace AbilityFramework.ResourceMgr.StoreManager

open Library FileProgram

variable {α β : Type} {directory : Path}

/-! ## Archives as a whole -/

/-- Directories are made one after the other, up to one that a file is in the way of.  Each is on the way to the
directory or below it, and what comes next is so if all have been made. -/
def MakesAligned (directory : Path) (next : Bool → Disk → Prop) : Bool → Disk → List Path → Prop
  | isNew, known, [] => next isNew known
  | _, known, station :: stations =>
    (FileCall.createDirectories station).feasible known = true →
      station.Aligned directory ∧
        MakesAligned directory next (!known.hasEntry station) ((FileCall.createDirectories station).perform known) stations

/-- The entries are unpacked one after the other onto what is known to be there, up to the first that cannot be. -/
def EntriesStay (directory : Path) : Disk → List ZipEntry → Prop
  | _, [] => True
  | _, .unreadable :: _ => True
  | known, .directory name :: entries =>
    let target := SpelledPath.slash directory name
    if isOn target known then EntriesStay directory known entries
    else
      MakesAligned directory (fun isNew known => isNew = true → EntriesStay directory known entries) false known
        target.stations
  | _, .file _ none :: _ => True
  | known, .file name (some content) :: entries =>
    let target := SpelledPath.slash directory name
    MakesAligned directory (fun _ known =>
      (FileCall.write target.leadsTo content).feasible known = true →
        target.leadsTo.StrictlyInside directory ∧
          EntriesStay directory ((FileCall.write target.leadsTo content).perform known) entries) false known
      target.parentPath.stations

/-- What is known is there: all that leads to the directory, and what has been unpacked. -/
structure Knows (directory : Path) (known disk : Disk) : Prop where
  closed : disk.Closed
  knownClosed : known.Closed
  above : ∀ path, path <+: directory → known.isDirectory path = true
  aligned : ∀ path, known.hasEntry path = true → path.Aligned directory
  isDirectory : ∀ path, path.Aligned directory → disk.isDirectory path = known.isDirectory path
  hasEntry : ∀ path, path.Aligned directory → disk.hasEntry path = known.hasEntry path

variable {known disk : Disk} {path station : Path}

theorem feasible_createDirectories :
    (FileCall.createDirectories path).feasible disk = true ↔ ∀ above, above <+: path → disk.isFile above = false := by
  simp [FileCall.feasible, List.mem_inits]

theorem isDirectory_of_isFile (isFile : disk.isFile path = true) :
    disk.hasEntry path = true ∧ disk.isDirectory path = false := by
  simpa [Disk.isFile] using isFile

namespace Knows

theorem isFile (knows : Knows directory known disk) (aligned : path.Aligned directory) :
    disk.isFile path = known.isFile path := by
  rw [Disk.isFile, Disk.isFile, knows.isDirectory path aligned, knows.hasEntry path aligned]

/-- A file is strictly inside. -/
theorem inside_of_isFile (knows : Knows directory known disk) (isFile : known.isFile path = true) :
    path.StrictlyInside directory := by
  obtain ⟨present, noDirectory⟩ := isDirectory_of_isFile isFile
  rcases knows.aligned path present with isPrefix | below
  · rw [knows.above path isPrefix] at noDirectory
    cases noDirectory
  · refine ⟨below, fun same => ?_⟩
    rw [knows.above path (same ▸ List.prefix_rfl)] at noDirectory
    cases noDirectory

/-- Where there is nothing on the way, it is further inside. -/
theorem inside_of_absent (knows : Knows directory known disk) (aligned : path.Aligned directory)
    (absent : disk.entry path = none) : path.StrictlyInside directory := by
  have noDirectory : ¬ path <+: directory := by
    intro isPrefix
    have isDirectory := knows.isDirectory path aligned
    rw [knows.above path isPrefix, Disk.isDirectory_iff, absent] at isDirectory
    cases isDirectory
  exact ⟨aligned.resolve_left noDirectory, fun same => noDirectory (same ▸ List.prefix_rfl)⟩

/-- What a file is in the way of is below that file. -/
theorem aligned_of_stays (knows : Knows directory known disk)
    (stays : (FileCall.createDirectories station).feasible known = true → station.Aligned directory) :
    station.Aligned directory := by
  by_cases feasible : (FileCall.createDirectories station).feasible known = true
  · exact stays feasible
  · rw [feasible_createDirectories] at feasible
    push Not at feasible
    obtain ⟨file, isAbove, isFile⟩ := feasible
    exact .inr ((knows.inside_of_isFile (Bool.of_not_eq_false isFile)).1.trans isAbove)

theorem feasible_eq (knows : Knows directory known disk) (aligned : station.Aligned directory) :
    (FileCall.createDirectories station).feasible disk = (FileCall.createDirectories station).feasible known := by
  rw [Bool.eq_iff_iff, feasible_createDirectories, feasible_createDirectories]
  exact forall₂_congr fun above isAbove => by rw [knows.isFile (aligned.above isAbove)]

/-- However the attempt ends, only what is inside the directory has changed. -/
theorem changesOnly_station (knows : Knows directory known disk) (aligned : station.Aligned directory) (outcome : CallOutcome) :
    ChangesOnly (·.StrictlyInside directory) (· = directory) disk
      (FileCall.attempt (.createDirectories station) disk outcome).2 :=
  changesOnly_createDirectories outcome fun _ isAbove absent => .inl (knows.inside_of_absent (aligned.above isAbove) absent)

theorem makeDirectories (knows : Knows directory known disk) (aligned : station.Aligned directory)
    (feasible : (FileCall.createDirectories station).feasible known = true) :
    Knows directory ((FileCall.createDirectories station).perform known)
      ((FileCall.createDirectories station).perform disk) where
  closed := FileCall.closed_perform knows.closed ((knows.feasible_eq aligned).trans feasible)
  knownClosed := FileCall.closed_perform knows.knownClosed feasible
  above path isAbove := by
    rw [FileCall.perform, Disk.isDirectory_makeAll, knows.above path isAbove, Bool.true_or]
  aligned path present := by
    rw [FileCall.perform, Disk.hasEntry_makeAll, Bool.or_eq_true, decide_eq_true_eq] at present
    exact present.elim (knows.aligned path) aligned.above
  isDirectory path isAligned := by
    simp only [FileCall.perform, Disk.isDirectory_makeAll, knows.isDirectory path isAligned, knows.hasEntry path isAligned]
  hasEntry path isAligned := by
    simp only [FileCall.perform, Disk.hasEntry_makeAll, knows.hasEntry path isAligned]

/-- What has been written can differ, as long as there is a file. -/
theorem write (knows : Knows directory known disk) {target : Path} {content : String} (written : String)
    (inside : target.StrictlyInside directory) (feasible : (FileCall.write target content).feasible known = true) :
    Knows directory ((FileCall.write target content).perform known) (disk.put target (.file written)) where
  closed := by
    have sameFeasible : (FileCall.write target written).feasible disk = true := by
      simp only [FileCall.feasible] at feasible ⊢
      rw [knows.isDirectory target (.inr inside.1), knows.isDirectory target.dropLast ?_, feasible]
      exact Path.Aligned.above (.inr inside.1) (List.dropLast_prefix target)
    exact FileCall.closed_perform knows.closed sameFeasible
  knownClosed := FileCall.closed_perform knows.knownClosed feasible
  above path isAbove := by
    have different : path ≠ target := by
      rintro rfl
      exact inside.2 (isAbove.eq_of_length_le inside.1.length_le)
    rw [FileCall.perform, Disk.isDirectory_put_file, knows.above path isAbove, decide_eq_false different]
    rfl
  aligned path present := by
    rw [FileCall.perform, Disk.hasEntry_put_file, Bool.or_eq_true, decide_eq_true_eq] at present
    exact present.elim (fun same => same ▸ .inr inside.1) (knows.aligned path)
  isDirectory path isAligned := by
    simp only [FileCall.perform, Disk.isDirectory_put_file, knows.isDirectory path isAligned]
  hasEntry path isAligned := by
    simp only [FileCall.perform, Disk.hasEntry_put_file, knows.hasEntry path isAligned]

end Knows

/-! ## What is there already -/

theorem feasible_of_isDirectory (closed : disk.Closed) (isDirectory : disk.isDirectory path = true) :
    (FileCall.createDirectories path).feasible disk = true := by
  rw [feasible_createDirectories]
  intro above isAbove
  refine Bool.eq_false_iff.mpr fun isFile => ?_
  have noDirectory := (isDirectory_of_isFile isFile).2
  rw [closed.isDirectory_above isAbove isDirectory] at noDirectory
  cases noDirectory

theorem isFile_makeDirectories (path other : Path) :
    ((FileCall.createDirectories path).perform disk).isFile other = disk.isFile other := by
  rw [Disk.isFile, Disk.isFile, FileCall.perform, Disk.hasEntry_makeAll, Disk.isDirectory_makeAll]
  cases isDirectory : disk.isDirectory other <;> cases present : disk.hasEntry other <;> simp

theorem feasible_of_sameFiles {other : Disk} (sameFiles : ∀ path, other.isFile path = disk.isFile path) (path : Path) :
    (FileCall.createDirectories path).feasible other = (FileCall.createDirectories path).feasible disk := by
  rw [Bool.eq_iff_iff, feasible_createDirectories, feasible_createDirectories]
  simp only [sameFiles]

variable {next : Bool → Disk → Prop} {names : List String}

namespace Knows

/-- What the names are known to lead to is there. -/
theorem follow_of_known (knows : Knows directory known disk) {found : Path}
    (follows : SpelledPath.follow known.isDirectory path names = some found) :
    SpelledPath.follow disk.isDirectory path names = some found := by
  induction names generalizing path with
  | nil => exact follows
  | cons name names inductionHypothesis =>
    rw [SpelledPath.follow] at follows ⊢
    split_ifs at follows with isDots isHere
    · have isThere := (knows.isDirectory path (knows.aligned path (Disk.hasEntry_of_isDirectory isHere))).trans isHere
      rw [if_pos isDots, if_pos isThere]
      exact inductionHypothesis follows
    · rw [if_neg isDots]
      exact inductionHypothesis follows

theorem aligned_of_makes (knows : Knows directory known disk) {isNew : Bool} {making : Disk} {stations : List Path}
    (sameFiles : ∀ path, making.isFile path = known.isFile path)
    (makes : MakesAligned directory next isNew making (path :: stations)) : path.Aligned directory :=
  knows.aligned_of_stays fun feasible => (makes ((feasible_of_sameFiles sameFiles path).trans feasible)).1

/-- If the directories would be made where they may, it is known what the names lead to now. -/
theorem follow_eq (knows : Knows directory known disk) {isAhead isNew : Bool} {making : Disk}
    (sameFiles : ∀ path, making.isFile path = known.isFile path) (atStart : isAhead = false → path.Aligned directory)
    (makes : MakesAligned directory next isNew making (SpelledPath.stationsFrom path isAhead names)) :
    (SpelledPath.follow disk.isDirectory path names).any disk.hasEntry =
      (SpelledPath.follow known.isDirectory path names).any known.hasEntry := by
  induction names generalizing path isAhead isNew making with
  | nil =>
    simp only [SpelledPath.follow, Option.any_some]
    refine knows.hasEntry path ?_
    cases isAhead with
    | false => exact atStart rfl
    | true => exact knows.aligned_of_makes sameFiles makes
  | cons name names inductionHypothesis =>
    rw [SpelledPath.stationsFrom] at makes
    rw [SpelledPath.follow, SpelledPath.follow]
    by_cases isDots : name ∈ ["", ".", ".."]
    · rw [if_pos isDots] at makes
      have aligned : path.Aligned directory := by
        cases isAhead with
        | false => exact atStart rfl
        | true => exact knows.aligned_of_makes sameFiles makes
      rw [if_pos isDots, if_pos isDots, knows.isDirectory path aligned]
      -- The walk stops where no directory is; before that, nothing is in the way of the stations.
      by_cases isHere : known.isDirectory path = true
      · rw [if_pos isHere, if_pos isHere]
        have feasible : (FileCall.createDirectories path).feasible making = true :=
          (feasible_of_sameFiles sameFiles path).trans (feasible_of_isDirectory knows.knownClosed isHere)
        have goesOn : path.child name |>.Aligned directory := aligned.above (SpelledPath.child_isPrefix isDots)
        cases isAhead with
        | false => exact inductionHypothesis sameFiles (fun _ => goesOn) makes
        | true =>
          have sameAfter (other : Path) := (isFile_makeDirectories path other).trans (sameFiles other)
          exact inductionHypothesis sameAfter (fun _ => goesOn) (makes feasible).2
      · rw [if_neg isHere, if_neg isHere]
        rfl
    · rw [if_neg isDots] at makes
      rw [if_neg isDots, if_neg isDots]
      have notPast (impossible : true = false) : (path ++ [name]).Aligned directory := Bool.noConfusion impossible
      exact inductionHypothesis sameFiles notPast makes

/-- Either it is there already, or the directories for it would be made where they may. -/
theorem isOn_eq (knows : Knows directory known disk) {target : SpelledPath} {isNew : Bool}
    (makes : isOn target known = false → MakesAligned directory next isNew known target.stations) :
    isOn target disk = isOn target known := by
  cases isThere : isOn target known with
  | true =>
    rw [isOn, foundOn, Option.any_eq_true] at isThere
    obtain ⟨found, follows, present⟩ := isThere
    rw [isOn, foundOn, knows.follow_of_known follows, Option.any_some]
    exact (knows.hasEntry found (knows.aligned found present)).trans present
  | false =>
    rw [← isThere]
    exact knows.follow_eq (fun _ => rfl) (fun notAhead => Bool.noConfusion notAhead) (makes isThere)

end Knows

/-! ## Entries that stay inside -/

/-- Only what is inside the directory changes, and the directory itself may be made. -/
abbrev WritesInside (directory : Path) : Disk → Disk → Prop := ChangesOnly (·.StrictlyInside directory) (· = directory)

theorem along_lookUp_bind {good : Disk → Disk → Prop} (reflexive : ∀ disk, good disk disk) {path : SpelledPath}
    {get : Disk → α} {next : α → StoreProgram β} {post : Except StoreError β → Disk → Prop}
    (throws : post (.error .fileSystem) disk) :
    Along good post (lookUp path get >>= next) disk ↔ Along good post (next (get disk)) disk := by
  rw [lookUp, bind_assoc, along_require_bind]
  simp only [FileCall.attempt_access, reflexive, true_and]
  constructor
  · exact fun goesOn => goesOn {}
  · intro goesOn outcome
    split
    · exact goesOn
    · exact throws

theorem confined_lookUp_bind {good : Disk → Disk → Prop} (reflexive : ∀ disk, good disk disk) {path : SpelledPath}
    {get : Disk → α} {next : α → StoreProgram β} :
    Confined good (lookUp path get >>= next) disk ↔ Confined good (next (get disk)) disk :=
  along_lookUp_bind reflexive trivial

theorem isDirectory_perform {created : Path} (feasible : (FileCall.createDirectories created).feasible disk = true) :
    ((FileCall.createDirectories created).perform disk).isDirectory created = true := by
  have noFile := feasible_createDirectories.mp feasible created List.prefix_rfl
  rw [FileCall.perform, Disk.isDirectory_makeAll]
  rw [Disk.isFile] at noFile
  cases present : disk.hasEntry created <;> simp_all

theorem isDirectory_perform_of_isDirectory {created : Path} (isDirectory : disk.isDirectory path = true) :
    ((FileCall.createDirectories created).perform disk).isDirectory path = true := by
  rw [FileCall.perform, Disk.isDirectory_makeAll, isDirectory, Bool.true_or]

/-- Each station is made, so that in the end all are there. -/
theorem along_createEach {post : Except StoreError Bool → Disk → Prop} (throws : ∀ error disk, post (.error error) disk)
    {isNew : Bool} {stations : List Path} (knows : Knows directory known disk)
    (makes : MakesAligned directory next isNew known stations)
    (ends : ∀ isNew later disk, Knows directory later disk →
      (∀ path, known.isDirectory path = true ∨ path ∈ stations → later.isDirectory path = true) →
        next isNew later → post (.ok isNew) disk) :
    Along (WritesInside directory) post (createEach isNew stations) disk := by
  induction stations generalizing isNew known disk with
  | nil => exact ends isNew known disk knows (fun path there => there.resolve_right List.not_mem_nil) makes
  | cons station stations inductionHypothesis =>
    have aligned := knows.aligned_of_makes (fun _ => rfl) makes
    have sameEntry := knows.hasEntry station aligned
    refine along_require_bind.mpr fun outcome => ⟨knows.changesOnly_station aligned outcome, ?_⟩
    split
    · rename_i succeeds
      obtain ⟨feasible, performed⟩ := FileCall.attempt_succeeds succeeds
      rw [knows.feasible_eq aligned] at feasible
      rw [performed]
      beta_reduce
      rw [sameEntry]
      refine inductionHypothesis (knows.makeDirectories aligned feasible) (makes feasible).2
        fun isNew later disk knowsLater there => ?_
      refine ends isNew later disk knowsLater fun path before => there path ?_
      rcases before with isDirectory | member
      · exact .inl (isDirectory_perform_of_isDirectory isDirectory)
      · rcases List.mem_cons.mp member with rfl | later
        · exact .inl (isDirectory_perform feasible)
        · exact .inr later
    · exact throws _ _

/-- What has been made for a file is all that is needed for it. -/
theorem write_feasible_of_parent (knows : Knows directory known disk) {target : SpelledPath} (content : String)
    (nonempty : target.names ≠ []) (made : ∀ station ∈ target.parentPath.stations, known.isDirectory station = true) :
    (FileCall.write target.leadsTo content).feasible known = !known.isDirectory target.leadsTo := by
  have parentIsDirectory : known.isDirectory target.parentPath.leadsTo = true :=
    (SpelledPath.isDirectory_of_stationsFrom (fun _ _ => knows.knownClosed.isDirectory_above)
      (fun notAhead => Bool.noConfusion notAhead) made).1
  rw [FileCall.feasible]
  -- A last name that does not lead further down leads to a directory, where no file can be written.
  have leads : known.isDirectory target.leadsTo = true ∨ target.leadsTo.dropLast = target.parentPath.leadsTo := by
    rcases target.leadsTo_parentPath nonempty with same | ⟨last, same⟩
    · exact .inl (same ▸ parentIsDirectory)
    · rw [same]
      by_cases isDots : last ∈ ["", ".", ".."]
      · exact .inl (knows.knownClosed.isDirectory_above (SpelledPath.child_isPrefix isDots) parentIsDirectory)
      · rw [Path.child_name _ isDots]
        exact .inr List.dropLast_concat
  rcases leads with isDirectory | isParent
  · rw [isDirectory, Bool.not_true, Bool.and_false]
  · rw [isParent, parentIsDirectory, Bool.true_and]

/-- A file that is there is written again. -/
theorem Knows.rewrite (knows : Knows directory known disk) (isFile : known.isFile path = true) (written : String) :
    Knows directory known (disk.put path (.file written)) := by
  have inside := knows.inside_of_isFile isFile
  obtain ⟨present, noDirectory⟩ := isDirectory_of_isFile isFile
  refine
    { knows with
      closed := fun above name isEntry => ?_
      isDirectory := fun other aligned => ?_
      hasEntry := fun other aligned => ?_ }
  · have before : disk.hasEntry (above ++ [name]) = true := by
      rw [Disk.hasEntry_put_file, Bool.or_eq_true, decide_eq_true_eq] at isEntry
      exact isEntry.elim (fun same => same ▸ (knows.hasEntry path (.inr inside.1)).trans present) id
    have isDirectory := knows.closed above name before
    rw [Disk.isDirectory_put_file, isDirectory, Bool.and_true, Bool.not_eq_true', decide_eq_false_iff_not]
    rintro rfl
    rw [knows.isDirectory above (.inr inside.1), noDirectory] at isDirectory
    cases isDirectory
  · rw [Disk.isDirectory_put_file, knows.isDirectory other aligned]
    by_cases same : other = path
    · rw [same, noDirectory, Bool.and_false]
    · simp [same]
  · rw [Disk.hasEntry_put_file, knows.hasEntry other aligned]
    by_cases same : other = path
    · rw [same, present, Bool.or_true]
    · simp [same]

theorem changesOnly_write {target : Path} {content : String} {outcome : CallOutcome}
    (inside : (FileCall.write target content).feasible disk = true → target.StrictlyInside directory) :
    WritesInside directory disk (FileCall.attempt (.write target content) disk outcome).2 := by
  by_cases feasible : (FileCall.write target content).feasible disk = true
  · have stays : StaysWithin (·.StrictlyInside directory) (· = directory) (.write target content) :=
      fun path same => (same : path = target) ▸ inside feasible
    exact changesOnly_of_staysWithin stays disk outcome
  · have nothing : (FileCall.attempt (.write target content) disk outcome).2 = disk := by
      simp [FileCall.attempt, FileCall.performPartly, feasible]
    rw [nothing]
    exact changesOnly_refl disk

/-- However the writing of a file ends that is there, it is a file. -/
theorem Knows.attempt_write (knows : Knows directory known disk) (isFile : known.isFile path = true) (content : String)
    (outcome : CallOutcome) : Knows directory known (FileCall.attempt (.write path content) disk outcome).2 := by
  simp only [FileCall.attempt, FileCall.perform, FileCall.performPartly]
  split_ifs
  · exact knows.rewrite isFile content
  · exact knows.rewrite isFile outcome.written
  · exact knows

/-- A file that may be written is written inside, and what is known afterwards is there. -/
theorem confined_unzipFile {name content : String} {later : StoreProgram β} {stay : Disk → Prop}
    (knows : Knows directory known disk)
    (makes : MakesAligned directory (fun _ known =>
      (FileCall.write (SpelledPath.slash directory name).leadsTo content).feasible known = true →
        (SpelledPath.slash directory name).leadsTo.StrictlyInside directory ∧
          stay ((FileCall.write (SpelledPath.slash directory name).leadsTo content).perform known)) false known
      (SpelledPath.slash directory name).parentPath.stations)
    (goesOn : ∀ known disk, Knows directory known disk → stay known → Confined (WritesInside directory) later disk) :
    Confined (WritesInside directory) (unzipFile directory name content >>= fun _ => later) disk := by
  simp only [unzipFile, bind_assoc]
  refine along_bind.mpr (along_createEach (fun _ _ => trivial) knows makes fun isNew made disk knows there ends => ?_)
  generalize isTarget : (SpelledPath.slash directory name) = target at *
  have nonempty : target.names ≠ [] := isTarget ▸ SpelledPath.names_slash_ne_nil _ _
  -- What can be written on the disk can be written in what is known: the directories for it are in both.
  have isFeasible (text : String) (feasible : (FileCall.write target.leadsTo text).feasible disk = true) :
      (FileCall.write target.leadsTo content).feasible made = true := by
    rw [write_feasible_of_parent knows content nonempty fun station member => there station (.inr member),
      Bool.not_eq_true']
    refine Bool.eq_false_iff.mpr fun isDirectory => ?_
    have aligned := knows.aligned _ (Disk.hasEntry_of_isDirectory isDirectory)
    rw [← knows.isDirectory _ aligned] at isDirectory
    simp [FileCall.feasible, isDirectory] at feasible
  refine along_require_bind.mpr fun outcome =>
    ⟨changesOnly_write fun feasible => (ends (isFeasible "" feasible)).1, ?_⟩
  split
  · rename_i succeeds
    obtain ⟨feasible, performed⟩ := FileCall.attempt_succeeds succeeds
    have feasibleMade := isFeasible "" feasible
    obtain ⟨inside, later⟩ := ends feasibleMade
    rw [performed, FileCall.perform]
    have written := knows.write "" inside feasibleMade
    have isFile : ((FileCall.write target.leadsTo content).perform made).isFile target.leadsTo = true := by
      simp [FileCall.perform, Disk.isFile, Disk.hasEntry_put_file, Disk.isDirectory_put_file]
    -- However much of the content is written, there is a file from now on.
    refine along_attempt_bind.mpr fun outcome => ⟨changesOnly_write fun _ => inside, ?_⟩
    refine along_require_bind.mpr fun access => ?_
    rw [FileCall.attempt_access]
    refine ⟨changesOnly_refl _, ?_⟩
    split
    · exact goesOn _ _ (written.attempt_write isFile content outcome) later
    · trivial
  · trivial

/-- Entries that stay inside are unpacked inside, whatever else is on the disk. -/
theorem confined_unzipEntries {entries : List ZipEntry} (index : Nat) (knows : Knows directory known disk)
    (stay : EntriesStay directory known entries) :
    Confined (WritesInside directory) (unzipEntries directory index entries) disk := by
  induction entries generalizing index known disk with
  | nil => trivial
  | cons entry entries inductionHypothesis =>
    cases entry with
    | unreadable => trivial
    | directory name =>
      simp only [EntriesStay] at stay
      refine (confined_lookUp_bind changesOnly_refl).mpr ?_
      have sameEntry : isOn (SpelledPath.slash directory name) disk = isOn (SpelledPath.slash directory name) known :=
        knows.isOn_eq fun absent => by
          rw [if_neg (Bool.eq_false_iff.mp absent)] at stay
          exact stay
      rw [sameEntry]
      -- A directory that is there already is passed over, also on the disk.
      cases isThere : isOn (SpelledPath.slash directory name) known with
      | true =>
        rw [if_pos isThere] at stay
        exact inductionHypothesis (index + 1) knows stay
      | false =>
        rw [if_neg (Bool.eq_false_iff.mp isThere)] at stay
        refine along_bind.mpr (along_createEach (fun _ _ => trivial) knows stay fun isNew made disk knows _ goesOn => ?_)
        cases isNew with
        | true => exact inductionHypothesis (index + 1) knows (goesOn rfl)
        | false => trivial
    | file name content =>
      cases content with
      | none => trivial
      | some content =>
        simp only [EntriesStay] at stay
        exact confined_unzipFile knows stay fun _ _ knows stay => inductionHypothesis (index + 1) knows stay

/-! ## Entries that leave -/

/-- There is nothing else on the disk. -/
def NothingElse (directory : Path) (disk : Disk) : Prop := ∀ path, disk.hasEntry path = true → path.Aligned directory

namespace Knows

theorem same_everywhere (knows : Knows directory known disk) (nothingElse : NothingElse directory disk) :
    disk.isDirectory = known.isDirectory ∧ disk.hasEntry = known.hasEntry := by
  have absent (path : Path) (notAligned : ¬ path.Aligned directory) : disk.hasEntry path = false ∧ known.hasEntry path = false :=
    ⟨Bool.eq_false_iff.mpr (mt (nothingElse path) notAligned), Bool.eq_false_iff.mpr (mt (knows.aligned path) notAligned)⟩
  constructor <;> funext path <;> by_cases aligned : path.Aligned directory
  · exact knows.isDirectory path aligned
  · rw [Bool.eq_false_iff.mpr (mt Disk.hasEntry_of_isDirectory (Bool.eq_false_iff.mp (absent path aligned).1)),
      Bool.eq_false_iff.mpr (mt Disk.hasEntry_of_isDirectory (Bool.eq_false_iff.mp (absent path aligned).2))]
  · exact knows.hasEntry path aligned
  · rw [(absent path aligned).1, (absent path aligned).2]

end Knows

/-- A directory that is made without leaving is on the way, or has been there. -/
theorem aligned_of_made (nothingElse : NothingElse directory disk)
    (feasible : (FileCall.createDirectories station).feasible disk = true)
    (inside : WritesInside directory disk ((FileCall.createDirectories station).perform disk)) : station.Aligned directory := by
  by_cases present : disk.hasEntry station = true
  · exact nothingElse station present
  · rcases inside station with same | isInside | ⟨rfl, -, -⟩
    · have made := isDirectory_perform feasible
      rw [Disk.isDirectory_iff, same] at made
      rw [Disk.hasEntry, made] at present
      exact absurd rfl present
    · exact .inr isInside.1
    · exact .inl List.prefix_rfl

theorem makesAligned_of_along {post : Except StoreError Bool → Disk → Prop} {isNew : Bool} {stations : List Path}
    (knows : Knows directory known disk) (nothingElse : NothingElse directory disk)
    (along : Along (WritesInside directory) post (createEach isNew stations) disk)
    (ends : ∀ isNew known disk, Knows directory known disk → NothingElse directory disk → post (.ok isNew) disk →
      next isNew known) :
    MakesAligned directory next isNew known stations := by
  induction stations generalizing isNew known disk with
  | nil => exact ends isNew known disk knows nothingElse along
  | cons station stations inductionHypothesis =>
    intro feasibleKnown
    obtain ⟨sameDirectories, sameEntries⟩ := knows.same_everywhere nothingElse
    have feasible : (FileCall.createDirectories station).feasible disk = true := by
      rw [feasible_createDirectories] at feasibleKnown ⊢
      simpa only [Disk.isFile, sameDirectories, sameEntries] using feasibleKnown
    -- In the run in which every call succeeds as far as it can.
    have step := along_require_bind.mp along {}
    rw [FileCall.attempt_feasible feasible] at step
    obtain ⟨inside, later⟩ := step
    have aligned := aligned_of_made nothingElse feasible inside
    refine ⟨aligned, ?_⟩
    beta_reduce at later
    rw [if_pos rfl, sameEntries] at later
    refine inductionHypothesis (knows.makeDirectories aligned feasibleKnown) (fun path present => ?_) later
    rw [FileCall.perform, Disk.hasEntry_makeAll, Bool.or_eq_true, decide_eq_true_eq] at present
    exact present.elim (nothingElse path) aligned.above

/-- A file that is written without leaving is inside. -/
theorem inside_of_written (knows : Knows directory known disk) (nothingElse : NothingElse directory disk) {target : Path}
    {content : String} (inside : WritesInside directory disk ((FileCall.write target content).perform disk)) :
    target.StrictlyInside directory := by
  have written : ((FileCall.write target content).perform disk).entry target = some (.file content) := by
    rw [FileCall.perform, Disk.entry_put, if_pos rfl]
  rcases inside target with same | isInside | ⟨-, -, made⟩
  · have isFile : known.isFile target = true := by
      rw [← knows.isFile (nothingElse target ?_), Disk.isFile, Disk.hasEntry, Disk.isDirectory, ← same, written]
      · rfl
      · rw [Disk.hasEntry, ← same, written]
        rfl
    exact knows.inside_of_isFile isFile
  · exact isInside
  · rw [written] at made
    cases made

theorem entriesStay_of_confined {entries : List ZipEntry} (index : Nat) (knows : Knows directory known disk)
    (nothingElse : NothingElse directory disk)
    (confined : Confined (WritesInside directory) (unzipEntries directory index entries) disk) :
    EntriesStay directory known entries := by
  induction entries generalizing index known disk with
  | nil => trivial
  | cons entry entries inductionHypothesis =>
    cases entry with
    | unreadable => trivial
    | directory name =>
      have sameEntry : isOn (SpelledPath.slash directory name) disk = isOn (SpelledPath.slash directory name) known := by
        obtain ⟨sameDirectories, sameEntries⟩ := knows.same_everywhere nothingElse
        rw [isOn, isOn, foundOn, foundOn, sameDirectories, sameEntries]
      have goesOn := (confined_lookUp_bind changesOnly_refl).mp confined
      rw [sameEntry] at goesOn
      simp only [EntriesStay]
      cases isThere : isOn (SpelledPath.slash directory name) known with
      | true =>
        rw [isThere] at goesOn
        exact inductionHypothesis (index + 1) knows nothingElse goesOn
      | false =>
        rw [isThere] at goesOn
        refine makesAligned_of_along knows nothingElse (along_bind.mp goesOn) fun isNew made disk knows nothingElse later => ?_
        rintro rfl
        exact inductionHypothesis (index + 1) knows nothingElse later
    | file name content =>
      cases content with
      | none => trivial
      | some content =>
        simp only [EntriesStay]
        simp only [unzipEntries, unzipFile, bind_assoc] at confined
        refine makesAligned_of_along knows nothingElse (along_bind.mp confined)
          fun isNew made disk knows nothingElse later feasible => ?_
        have feasibleNow : (FileCall.write (SpelledPath.slash directory name).leadsTo "").feasible disk = true := by
          simpa only [FileCall.feasible, (knows.same_everywhere nothingElse).1] using feasible
        have step := along_require_bind.mp later {}
        rw [FileCall.attempt_feasible feasibleNow, if_pos rfl] at step
        have inside := inside_of_written knows nothingElse step.1
        refine ⟨inside, inductionHypothesis (index + 1) (knows.write "" inside feasible) (fun path present => ?_) ?_⟩
        · rw [Disk.hasEntry_put_file, Bool.or_eq_true, decide_eq_true_eq] at present
          exact present.elim (fun same => same ▸ .inr inside.1) (nothingElse path)
        · -- Nothing more is written, and the permissions can be set.
          have setsPermissions := (along_attempt_bind.mp step.2 { succeeds := false }).2
          have goesOn := (along_require_bind.mp setsPermissions {}).2
          rw [FileCall.attempt_access, if_pos rfl] at goesOn
          exact goesOn

/-! ## New directories -/

/-- `make_temp_path`, with a new identifier. -/
def makeTempPath (temporary : Path) (id : String) : Path := temporary ++ [id]

/-- The directory is new, in one that is there. -/
structure IsFresh (temporary : Path) (id : String) (disk : Disk) : Prop where
  closed : disk.Closed
  isDirectory : disk.isDirectory temporary = true
  absent : ∀ path, makeTempPath temporary id <+: path → disk.hasEntry path = false

/-- A disk with this directory alone. -/
def onlyDirectory (path : Path) : Disk := (FileCall.createDirectories path).perform ∅

theorem closed_onlyDirectory (path : Path) : (onlyDirectory path).Closed :=
  FileCall.closed_perform Disk.closed_empty (feasible_createDirectories.mpr fun _ _ => rfl)

theorem hasEntry_onlyDirectory (path other : Path) : (onlyDirectory path).hasEntry other = decide (other <+: path) := by
  rw [onlyDirectory, FileCall.perform, Disk.hasEntry_makeAll]
  rfl

theorem isDirectory_onlyDirectory (path other : Path) : (onlyDirectory path).isDirectory other = decide (other <+: path) := by
  rw [onlyDirectory, FileCall.perform, Disk.isDirectory_makeAll]
  exact Bool.and_true _

variable {temporary : Path} {id : String}

theorem prefix_makeTempPath {above : Path} (isAbove : above <+: makeTempPath temporary id) :
    above = makeTempPath temporary id ∨ above <+: temporary := List.prefix_concat_iff.mp isAbove

namespace IsFresh

theorem above (isFresh : IsFresh temporary id disk) {above : Path} (isAbove : above <+: temporary) :
    disk.isDirectory above = true := isFresh.closed.isDirectory_above isAbove isFresh.isDirectory

theorem feasible (isFresh : IsFresh temporary id disk) :
    (FileCall.createDirectories (makeTempPath temporary id)).feasible disk = true := by
  refine feasible_createDirectories.mpr fun above isAbove => ?_
  rcases prefix_makeTempPath isAbove with rfl | isPrefix
  · rw [Disk.isFile, isFresh.absent _ List.prefix_rfl, Bool.false_and]
  · rw [Disk.isFile, isFresh.above isPrefix, Bool.not_true, Bool.and_false]

/-- What is on the way is there, and there is nothing at or below the directory. -/
theorem there_or_absent (isFresh : IsFresh temporary id disk) {path : Path}
    (aligned : path.Aligned (makeTempPath temporary id)) :
    (path <+: makeTempPath temporary id ∧ disk.isDirectory path = true) ∨
      (disk.hasEntry path = false ∧ disk.isDirectory path = false) := by
  have nothing (below : makeTempPath temporary id <+: path) : disk.hasEntry path = false ∧ disk.isDirectory path = false := by
    have absent := isFresh.absent path below
    exact ⟨absent, Bool.eq_false_iff.mpr (mt Disk.hasEntry_of_isDirectory (Bool.eq_false_iff.mp absent))⟩
  rcases aligned with isAbove | below
  · rcases prefix_makeTempPath isAbove with same | isPrefix
    · exact .inr (nothing (same ▸ List.prefix_rfl))
    · exact .inl ⟨isAbove, isFresh.above isPrefix⟩
  · exact .inr (nothing below)

/-- Of the directory, its parents and what is in it, only itself is new. -/
theorem knows (isFresh : IsFresh temporary id disk) :
    Knows (makeTempPath temporary id) (onlyDirectory (makeTempPath temporary id))
      ((FileCall.createDirectories (makeTempPath temporary id)).perform disk) where
  closed := FileCall.closed_perform isFresh.closed isFresh.feasible
  knownClosed := closed_onlyDirectory _
  above path isAbove := by rw [isDirectory_onlyDirectory, decide_eq_true isAbove]
  aligned path present := by
    rw [hasEntry_onlyDirectory, decide_eq_true_eq] at present
    exact .inl present
  isDirectory path aligned := by
    rw [isDirectory_onlyDirectory, FileCall.perform, Disk.isDirectory_makeAll]
    rcases isFresh.there_or_absent aligned with ⟨isAbove, isDirectory⟩ | ⟨absent, noDirectory⟩
    · rw [isDirectory, decide_eq_true isAbove, Bool.true_or]
    · rw [noDirectory, absent, Bool.false_or, Bool.not_false, Bool.and_true]
  hasEntry path aligned := by
    rw [hasEntry_onlyDirectory, FileCall.perform, Disk.hasEntry_makeAll]
    rcases isFresh.there_or_absent aligned with ⟨isAbove, isDirectory⟩ | ⟨absent, _⟩
    · rw [Disk.hasEntry_of_isDirectory isDirectory, decide_eq_true isAbove, Bool.true_or]
    · rw [absent, Bool.false_or]

/-- Nothing is there yet in which something could be in the way. -/
theorem not_isOn (isFresh : IsFresh temporary id disk) : isOn (makeTempPath temporary id) disk = false :=
  isFresh.absent _ List.prefix_rfl

/-- Only the directory itself is made for the archive. -/
theorem makes (isFresh : IsFresh temporary id disk) (outcome : CallOutcome) :
    WritesInside (makeTempPath temporary id) disk
      (FileCall.attempt (.createDirectories (makeTempPath temporary id)) disk outcome).2 := by
  refine changesOnly_createDirectories outcome fun path isAbove absent => ?_
  rcases prefix_makeTempPath isAbove with same | isPrefix
  · exact .inr same
  · have isDirectory := isFresh.above isPrefix
    rw [Disk.isDirectory_iff, absent] at isDirectory
    cases isDirectory

end IsFresh

theorem isFresh_onlyDirectory (temporary : Path) (id : String) : IsFresh temporary id (onlyDirectory temporary) where
  closed := closed_onlyDirectory temporary
  isDirectory := by rw [isDirectory_onlyDirectory, decide_eq_true List.prefix_rfl]
  absent path below := by
    rw [hasEntry_onlyDirectory, decide_eq_false_iff_not]
    intro isPrefix
    have longer := (below.trans isPrefix).length_le
    rw [makeTempPath, List.length_append, List.length_singleton] at longer
    omega

/-- In every run into a new directory, each call changes only what is inside. -/
def UnzipContained (archive : ZipArchive) (temporary : Path) (id : String) : Prop :=
  ∀ disk, IsFresh temporary id disk →
    Confined (WritesInside (makeTempPath temporary id)) (unzip archive (makeTempPath temporary id)) disk

theorem confined_createDirectories_bind {good : Disk → Disk → Prop} {next : Bool → StoreProgram β} :
    Confined good (createDirectories (path : SpelledPath) >>= next) disk ↔ ∀ outcome,
      good disk (FileCall.attempt (.createDirectories path) disk outcome).2 ∧
        ((FileCall.attempt (.createDirectories path) disk outcome).1 = true →
          Confined good (next (!disk.hasEntry path)) (FileCall.attempt (.createDirectories path) disk outcome).2) := by
  rw [createDirectories_bind, Confined, Along, along_require_bind]
  refine forall_congr' fun outcome => and_congr_right fun _ => ?_
  split
  · rename_i succeeds
    exact ⟨fun goesOn _ => goesOn, fun goesOn => goesOn succeeds⟩
  · rename_i fails
    exact iff_of_true trivial fun succeeds => absurd succeeds fails

theorem confined_unzip_iff (archive : ZipArchive) (isFresh : IsFresh temporary id disk) :
    Confined (WritesInside (makeTempPath temporary id)) (unzip archive (makeTempPath temporary id)) disk ↔
      Confined (WritesInside (makeTempPath temporary id)) (unzipEntries (makeTempPath temporary id) 0 (archive.getD []))
        ((FileCall.createDirectories (makeTempPath temporary id)).perform disk) := by
  refine (confined_lookUp_bind changesOnly_refl).trans ?_
  rw [isFresh.not_isOn]
  simp only [Bool.not_false, if_true]
  rw [confined_createDirectories_bind, isFresh.absent _ List.prefix_rfl]
  simp only [Bool.not_true, Bool.not_false, Bool.false_eq_true, if_false]
  have opens (unpacks : StoreProgram Unit) :
      (∀ outcome, WritesInside (makeTempPath temporary id) disk
          (FileCall.attempt (.createDirectories (makeTempPath temporary id)) disk outcome).2 ∧
        ((FileCall.attempt (.createDirectories (makeTempPath temporary id)) disk outcome).1 = true →
          Confined (WritesInside (makeTempPath temporary id)) unpacks
            (FileCall.attempt (.createDirectories (makeTempPath temporary id)) disk outcome).2)) ↔
        Confined (WritesInside (makeTempPath temporary id)) unpacks
          ((FileCall.createDirectories (makeTempPath temporary id)).perform disk) := by
    constructor
    · intro confined
      have step := confined {}
      rw [FileCall.attempt_feasible isFresh.feasible] at step
      exact step.2 rfl
    · intro confined outcome
      refine ⟨isFresh.makes outcome, fun succeeds => ?_⟩
      rw [(FileCall.attempt_succeeds succeeds).2]
      exact confined
  cases archive with
  | none => exact opens _
  | some entries => exact opens _

/-- Archives are unpacked inside new directories exactly if their entries stay inside. -/
theorem unzip_contained_iff (archive : ZipArchive) (temporary : Path) (id : String) :
    UnzipContained archive temporary id ↔
      EntriesStay (makeTempPath temporary id) (onlyDirectory (makeTempPath temporary id)) (archive.getD []) := by
  constructor
  · intro contained
    have isFresh := isFresh_onlyDirectory temporary id
    refine entriesStay_of_confined 0 isFresh.knows (fun path present => ?_)
      ((confined_unzip_iff archive isFresh).mp (contained _ isFresh))
    rw [FileCall.perform, Disk.hasEntry_makeAll, hasEntry_onlyDirectory, Bool.or_eq_true, decide_eq_true_eq,
      decide_eq_true_eq] at present
    exact .inl (present.elim (fun isPrefix => isPrefix.trans (List.prefix_append _ _)) fun isPrefix => isPrefix)
  · intro stay disk isFresh
    exact (confined_unzip_iff archive isFresh).mpr (confined_unzipEntries 0 isFresh.knows stay)

end AbilityFramework.ResourceMgr.StoreManager
