import AbilityFramework.Library.FileSystem

/-! # Runs without errors

Where every call succeeds, a run is a function of the disk (`cleanly`).  What such a run does to the files is
what its calls do to them, and every entry stays in a directory (`closed_cleanly`). -/

namespace AbilityFramework.Library

namespace Disk

variable {disk : Disk} {path other : Path}

/-- The content of the file at the path. -/
def fileAt (disk : Disk) (path : Path) : Option String :=
  match disk.entry path with
  | some (.file content) => some content
  | _ => none

/-- Every entry is in a directory. -/
def Closed (disk : Disk) : Prop := ∀ path name, disk.hasEntry (path ++ [name]) = true → disk.isDirectory path = true

theorem fileAt_eq_some {content : String} : disk.fileAt path = some content ↔ disk.entry path = some (.file content) := by
  rw [fileAt]
  split <;> simp_all

theorem fileAt_of_entry {disk next : Disk} {path other : Path} (same : next.entry other = disk.entry path) :
    next.fileAt other = disk.fileAt path := by
  rw [fileAt, same, fileAt]

theorem fileAt_of_none (absent : disk.entry path = none) : disk.fileAt path = none := by
  rw [fileAt, absent]

theorem fileAt_put (content : String) (other : Path) :
    (disk.put path (.file content)).fileAt other = if other = path then some content else disk.fileAt other := by
  split
  · rename_i same
    rw [fileAt_eq_some, entry_put, if_pos same]
  · rename_i different
    exact fileAt_of_entry (by rw [entry_put, if_neg different])

theorem fileAt_removeBelow (other : Path) :
    (disk.removeBelow path fun _ => true).fileAt other = if path <+: other then none else disk.fileAt other := by
  split
  · rename_i below
    exact fileAt_of_none (by rw [entry_removeBelow, if_pos ⟨below, rfl⟩])
  · rename_i apart
    exact fileAt_of_entry (by rw [entry_removeBelow, if_neg fun removed => apart removed.1])

/-- Directories are made only where there is nothing. -/
theorem fileAt_makeDirectories (made : Path → Bool) (other : Path) :
    (disk.makeDirectories path made).fileAt other = disk.fileAt other := by
  by_cases isMade : other <+: path ∧ made other = true ∧ disk.entry other = none
  · rw [fileAt, entry_makeDirectories, if_pos isMade, fileAt_of_none isMade.2.2]
  · exact fileAt_of_entry (by rw [entry_makeDirectories, if_neg isMade])

theorem fileAt_move (source target other : Path) :
    (disk.move source target).fileAt other =
      if target <+: other then disk.fileAt (source ++ other.drop target.length)
      else if source <+: other then none else disk.fileAt other := by
  split_ifs with below isSource
  · exact fileAt_of_entry (by rw [entry_move, if_pos below])
  · exact fileAt_of_none (by rw [entry_move, if_neg below, if_pos isSource])
  · exact fileAt_of_entry (by rw [entry_move, if_neg below, if_neg isSource])

/-! ## Entries in directories -/

theorem isDirectory_iff : disk.isDirectory path = true ↔ disk.entry path = some .directory := decide_eq_true_iff

theorem hasEntry_makeAll (path other : Path) :
    (disk.makeDirectories path fun _ => true).hasEntry other = (disk.hasEntry other || decide (other <+: path)) := by
  rw [hasEntry, hasEntry, entry_makeDirectories]
  cases disk.entry other <;> by_cases above : other <+: path <;> simp [above]

theorem isDirectory_makeAll (path other : Path) :
    (disk.makeDirectories path fun _ => true).isDirectory other =
      (disk.isDirectory other || (decide (other <+: path) && !disk.hasEntry other)) := by
  rw [isDirectory, isDirectory, hasEntry, entry_makeDirectories]
  cases disk.entry other <;> by_cases above : other <+: path <;> simp [above]

theorem hasEntry_put_file (content : String) (path other : Path) :
    (disk.put path (.file content)).hasEntry other = (decide (other = path) || disk.hasEntry other) := by
  rw [hasEntry, hasEntry, entry_put]
  by_cases same : other = path <;> simp [same]

theorem isDirectory_put_file (content : String) (path other : Path) :
    (disk.put path (.file content)).isDirectory other = (!decide (other = path) && disk.isDirectory other) := by
  rw [isDirectory, isDirectory, entry_put]
  by_cases same : other = path <;> simp [same]

theorem hasEntry_of_isDirectory (isDirectory : disk.isDirectory path = true) : disk.hasEntry path = true := by
  rw [hasEntry, isDirectory_iff.mp isDirectory]
  rfl

theorem closed_empty : Disk.Closed ∅ := by
  intro path name present
  cases present

theorem closed_above (closed : disk.Closed) {rest : Path} (below : rest ≠ []) (present : disk.hasEntry (path ++ rest) = true) :
    disk.isDirectory path = true := by
  induction rest using List.reverseRecOn with
  | nil => exact absurd rfl below
  | append_singleton rest name inductionHypothesis =>
    rw [← List.append_assoc] at present
    have isDirectory := closed _ name present
    by_cases direct : rest = []
    · simpa [direct] using isDirectory
    · exact inductionHypothesis direct (hasEntry_of_isDirectory isDirectory)

/-- What is above a directory is one. -/
theorem Closed.isDirectory_above (closed : disk.Closed) (isAbove : other <+: path) (isDirectory : disk.isDirectory path = true) :
    disk.isDirectory other = true := by
  obtain ⟨rest, rfl⟩ := isAbove
  by_cases same : rest = []
  · rwa [same, List.append_nil] at isDirectory
  · exact closed_above closed same (hasEntry_of_isDirectory isDirectory)

theorem hasEntry_of_fileAt {content : String} (isFile : disk.fileAt path = some content) : disk.hasEntry path = true := by
  rw [hasEntry, fileAt_eq_some.mp isFile]
  rfl

theorem fileAt_below_none (closed : disk.Closed) {rest : Path} (below : rest ≠ []) (noDirectory : disk.isDirectory path = false) :
    disk.fileAt (path ++ rest) = none := by
  rw [Option.eq_none_iff_forall_ne_some]
  intro content isFile
  rw [closed_above closed below (hasEntry_of_fileAt isFile)] at noDirectory
  cases noDirectory

end Disk

namespace Disk

variable {disk : Disk} {path : Path}

theorem closed_of_entries {next : Disk}
    (directories : ∀ path name entry, next.entry (path ++ [name]) = some entry → next.entry path = some .directory) :
    next.Closed := by
  intro path name present
  obtain ⟨entry, isEntry⟩ := Option.isSome_iff_exists.mp present
  exact isDirectory_iff.mpr (directories path name entry isEntry)

theorem Closed.parent (closed : disk.Closed) {name : String} {entry : Entry} (isEntry : disk.entry (path ++ [name]) = some entry) :
    disk.entry path = some .directory :=
  isDirectory_iff.mp (closed path name (by rw [hasEntry, isEntry]; rfl))

end Disk

namespace FileCall

variable {disk : Disk} {path : Path}

theorem entry_above_of_feasible {created : Path} (feasible : (createDirectories created).feasible disk = true)
    (above : path <+: created) (content : String) : disk.entry path ≠ some (.file content) := by
  intro isFile
  have noFile := List.all_eq_true.mp feasible path ((List.mem_inits path created).mpr above)
  simp [Disk.isFile, Disk.hasEntry, Disk.isDirectory, isFile] at noFile

theorem closed_createDirectories {created : Path} (closed : disk.Closed)
    (feasible : (createDirectories created).feasible disk = true) : ((createDirectories created).perform disk).Closed := by
  refine Disk.closed_of_entries fun path name entry isEntry => ?_
  rw [perform, Disk.entry_makeDirectories] at isEntry ⊢
  by_cases above : path <+: created
  · cases present : disk.entry path with
    | none => simp [above]
    | some entry =>
      cases entry with
      | directory => simp
      | file content => exact absurd present (entry_above_of_feasible feasible above content)
  · rw [if_neg fun made => above made.1]
    rw [if_neg fun made => above ((List.prefix_append path [name]).trans made.1)] at isEntry
    exact closed.parent isEntry

theorem closed_removeAll {removed : Path} (closed : disk.Closed) : ((removeAll removed).perform disk).Closed := by
  refine Disk.closed_of_entries fun path name entry isEntry => ?_
  rw [perform, Disk.entry_removeBelow] at isEntry ⊢
  split at isEntry
  · cases isEntry
  · rename_i kept
    rw [if_neg fun above => kept ⟨above.1.trans (List.prefix_append path [name]), rfl⟩]
    exact closed.parent isEntry

theorem closed_rename {source target : Path} (closed : disk.Closed)
    (feasible : (rename source target).feasible disk = true) : ((rename source target).perform disk).Closed := by
  simp only [FileCall.feasible, Bool.and_eq_true, Bool.not_eq_true', ← Bool.not_eq_true,
    List.isPrefixOf_iff_prefix] at feasible
  obtain ⟨⟨⟨_, intoDirectory⟩, notInside⟩, _⟩ := feasible
  refine Disk.closed_of_entries fun path name entry isEntry => ?_
  rw [perform, Disk.entry_move] at isEntry ⊢
  by_cases below : target <+: path
  · obtain ⟨rest, rfl⟩ := below
    rw [if_pos ((List.prefix_append target rest).trans (List.prefix_append _ [name])), List.append_assoc,
      List.drop_left, ← List.append_assoc] at isEntry
    rw [if_pos (List.prefix_append target rest), List.drop_left]
    exact closed.parent isEntry
  · rw [if_neg below]
    have isParent : disk.entry path = some .directory ∧ ¬ source <+: path := by
      split_ifs at isEntry with isTarget isSource
      · -- The parent of the target itself.
        obtain rfl := (List.prefix_concat_iff.mp isTarget).resolve_right below
        rw [List.dropLast_concat] at intoDirectory
        exact ⟨Disk.isDirectory_iff.mp intoDirectory, fun above => notInside (above.trans (List.prefix_append _ _))⟩
      · exact ⟨closed.parent isEntry, fun above => isSource (above.trans (List.prefix_append _ _))⟩
    rw [if_neg isParent.2]
    exact isParent.1

theorem closed_write {written : Path} {content : String} (closed : disk.Closed)
    (feasible : (write written content).feasible disk = true) : ((write written content).perform disk).Closed := by
  simp only [FileCall.feasible, Bool.and_eq_true, Bool.not_eq_true'] at feasible
  obtain ⟨inDirectory, noDirectory⟩ := feasible
  refine Disk.closed_of_entries fun path name entry isEntry => ?_
  rw [perform, Disk.entry_put] at isEntry ⊢
  have isParent : disk.entry path = some .directory := by
    split at isEntry
    · rename_i same
      rw [← same, List.dropLast_concat] at inDirectory
      exact Disk.isDirectory_iff.mp inDirectory
    · exact closed.parent isEntry
  rw [if_neg, isParent]
  rintro rfl
  rw [Disk.isDirectory_iff.mpr isParent] at noDirectory
  cases noDirectory

theorem closed_perform {request : FileCall} (closed : disk.Closed) (feasible : request.feasible disk = true) :
    (request.perform disk).Closed := by
  cases request with
  | access => exact closed
  | createDirectories => exact closed_createDirectories closed feasible
  | removeAll => exact closed_removeAll closed
  | rename => exact closed_rename closed feasible
  | write => exact closed_write closed feasible

/-- A file at the path stays as it is, and none is made there. -/
def LeavesFile (path : Path) : FileCall → Prop
  | access _ => True
  | createDirectories _ => True
  | removeAll removed => ¬ removed <+: path
  | rename source target => ¬ source <+: path ∧ ¬ target <+: path
  | write written _ => written ≠ path

theorem fileAt_perform {request : FileCall} (leaves : request.LeavesFile path) :
    (request.perform disk).fileAt path = disk.fileAt path := by
  cases request with
  | access => rfl
  | createDirectories created => exact Disk.fileAt_makeDirectories _ path
  | removeAll removed => rw [perform, Disk.fileAt_removeBelow, if_neg leaves]
  | rename source target => rw [perform, Disk.fileAt_move, if_neg leaves.2, if_neg leaves.1]
  | write written content => rw [perform, Disk.fileAt_put, if_neg (Ne.symm leaves)]

theorem fileAt_performPartly {request : FileCall} (outcome : CallOutcome) (leaves : request.LeavesFile path) :
    (request.performPartly outcome disk).fileAt path = disk.fileAt path := by
  cases request with
  | access | rename => rfl
  | createDirectories created => exact Disk.fileAt_makeDirectories _ path
  | removeAll removed => exact Disk.fileAt_of_entry (entry_performPartly outcome leaves)
  | write written content => exact Disk.fileAt_of_entry (entry_performPartly outcome (Ne.symm leaves))

end FileCall

namespace FileProgram

variable {ε α β : Type}

theorem FileState.fileAt_make {outcomes : Outcomes} {state : FileState} {request : FileCall} {path : Path}
    (leaves : request.LeavesFile path) : (state.make outcomes request).2.disk.fileAt path = state.disk.fileAt path := by
  simp only [FileState.make, FileCall.attempt]
  split
  · exact FileCall.fileAt_perform leaves
  · exact FileCall.fileAt_performPartly _ leaves

theorem run_fileAt {outcomes : Outcomes} {program : FileProgram ε α} {path : Path}
    (leaves : Calls (FileCall.LeavesFile path) program) (state : FileState) :
    (run outcomes program state).2.disk.fileAt path = state.disk.fileAt path := by
  refine run_keeps (fun disk => disk.fileAt path = state.disk.fileAt path) (leaves.imp ?_) state rfl
  exact fun request leavesFile before same => (FileState.fileAt_make leavesFile).trans same

/-! ## Runs in which every call succeeds -/

def cleanly : FileProgram ε α → Disk → Option (Except ε α × Disk)
  | done result, disk => some (result, disk)
  | look next, disk => cleanly (next disk) disk
  | call request next, disk => if request.feasible disk then cleanly (next true) (request.perform disk) else none

theorem cleanly_of_run {outcomes : Outcomes} (program : FileProgram ε α) (state : FileState)
    (succeeds : ∀ made ∈ (run outcomes program state).2.calls, made.2 = true) :
    cleanly program state.disk = some ((run outcomes program state).1, (run outcomes program state).2.disk) := by
  induction program generalizing state with
  | done => rfl
  | look rest inductionHypothesis => exact inductionHypothesis state.disk state succeeds
  | call request rest inductionHypothesis =>
    obtain ⟨made, isMade, _⟩ : ∃ made,
        (run outcomes (rest (state.make outcomes request).1) (state.make outcomes request).2).2.calls =
          (state.make outcomes request).2.calls ++ made ∧ _ := run_calls (calls_true _) _
    have isDone : (state.make outcomes request).1 = true := by
      refine succeeds (request, (state.make outcomes request).1) ?_
      rw [run, isMade, FileState.calls_make]
      simp
    obtain ⟨feasible, performed⟩ := FileState.make_succeeds isDone
    have later := inductionHypothesis (state.make outcomes request).1 (state.make outcomes request).2 succeeds
    rw [isDone, performed] at later
    rw [cleanly, if_pos feasible, later]
    simp only [run, isDone]

theorem cleanly_bind (program : FileProgram ε α) (next : α → FileProgram ε β) (disk : Disk) :
    cleanly (program >>= next) disk =
      match cleanly program disk with
      | some (.ok value, after) => cleanly (next value) after
      | some (.error error, after) => some (.error error, after)
      | none => none := by
  induction program generalizing disk with
  | done result => cases result <;> rfl
  | look rest inductionHypothesis => exact inductionHypothesis disk disk
  | call request rest inductionHypothesis =>
    have unfolded : cleanly (call request rest >>= next) disk =
      if request.feasible disk then cleanly (rest true >>= next) (request.perform disk) else none := rfl
    rw [unfolded, cleanly]
    split
    · exact inductionHypothesis true _
    · rfl

theorem cleanly_require_bind (request : FileCall) (error : ε) (next : Unit → FileProgram ε β) (disk : Disk) :
    cleanly (require request error >>= next) disk =
      if request.feasible disk then cleanly (next ()) (request.perform disk) else none := rfl

theorem cleanly_attempt_bind (request : FileCall) (next : Bool → FileProgram ε β) (disk : Disk) :
    cleanly (attempt request >>= next) disk =
      if request.feasible disk then cleanly (next true) (request.perform disk) else none := rfl

variable {disk after : Disk} {result : Except ε α} {program : FileProgram ε α}

theorem cleanly_ensures {good : α → Prop} {value : α} (ensures : Ensures good program)
    (runs : cleanly program disk = some (.ok value, after)) : good value := by
  induction program generalizing disk with
  | done result =>
    obtain ⟨same, -⟩ := Prod.mk.inj (Option.some.inj runs)
    exact ensures value same
  | look rest inductionHypothesis => exact inductionHypothesis disk (ensures disk) runs
  | call request rest inductionHypothesis =>
    rw [cleanly] at runs
    split at runs
    · exact inductionHypothesis true (ensures true) runs
    · cases runs

theorem closed_cleanly (closed : disk.Closed) (runs : cleanly program disk = some (result, after)) : after.Closed := by
  induction program generalizing disk with
  | done =>
    obtain ⟨-, rfl⟩ := Prod.mk.inj (Option.some.inj runs)
    exact closed
  | look rest inductionHypothesis => exact inductionHypothesis disk closed runs
  | call request rest inductionHypothesis =>
    rw [cleanly] at runs
    split at runs
    · rename_i feasible
      exact inductionHypothesis true (FileCall.closed_perform closed feasible) runs
    · cases runs

theorem fileAt_cleanly {path : Path} (leaves : Calls (FileCall.LeavesFile path) program)
    (runs : cleanly program disk = some (result, after)) : after.fileAt path = disk.fileAt path := by
  induction program generalizing disk with
  | done =>
    obtain ⟨-, rfl⟩ := Prod.mk.inj (Option.some.inj runs)
    rfl
  | look rest inductionHypothesis => exact inductionHypothesis disk (leaves disk) runs
  | call request rest inductionHypothesis =>
    rw [cleanly] at runs
    split at runs
    · rw [inductionHypothesis true (leaves.2 true) runs, FileCall.fileAt_perform leaves.1]
    · cases runs

end FileProgram

end AbilityFramework.Library
