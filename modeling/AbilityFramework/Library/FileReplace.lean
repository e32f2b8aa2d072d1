import AbilityFramework.Library.CleanRuns

/-! # Replacing a file

The new content is written to a temporary file, which is then renamed.  Every call may fail, and the renaming is
tried again.  This is safe for what was there before exactly if nothing was at the temporary path
(`sound_replaceThrough_iff`). -/

namespace AbilityFramework.Library

namespace Disk

def unlink (disk : Disk) (path : Path) : Disk := disk.deleteWhere fun row => row.1 = path

/-- `rename` of a file: what was at the target is gone. -/
def renameFile (disk : Disk) (source target : Path) : Disk :=
  match disk.entry source with
  | some entry => if source = target then disk else (disk.unlink source).put target entry
  | none => disk

variable {disk : Disk} {path : Path}

theorem entry_unlink (other : Path) : (disk.unlink path).entry other = if other = path then none else disk.entry other := by
  apply Option.ext
  intro entry
  rw [entry_eq_some, unlink, Relation.mem_deleteWhere]
  by_cases same : other = path
  · simp [same]
  · simp [same, entry_eq_some]

theorem hasEntry_iff : disk.hasEntry path = true ↔ ∃ entry, disk.entry path = some entry := Option.isSome_iff_exists

end Disk

/-- The disk, and the paths at which a file has been opened for writing, put in place or removed. -/
structure TrackedDisk where
  disk : Disk
  touched : List Path := []

namespace TrackedDisk

def write (state : TrackedDisk) (path : Path) (content : String) : TrackedDisk :=
  ⟨state.disk.put path (.file content), path :: state.touched⟩

def remove (state : TrackedDisk) (path : Path) : TrackedDisk := ⟨state.disk.unlink path, path :: state.touched⟩

def rename (state : TrackedDisk) (source target : Path) : TrackedDisk :=
  ⟨state.disk.renameFile source target, target :: source :: state.touched⟩

end TrackedDisk

/-- How the calls end. -/
structure ReplaceFaults where
  opens : Bool := true
  /-- What is in the temporary file when writing, flushing or closing it fails. -/
  torn : Option String := none
  renames : Nat → Bool := fun _ => true
  removes : Bool := true

inductive ReplaceError where
  | notCreated
  | notWritten
  | notRenamed
  | notRemoved
  deriving DecidableEq

abbrev Replaced := Except ReplaceError Unit × TrackedDisk

variable (faults : ReplaceFaults) (temporary target : Path)

def giveUp (error : ReplaceError) (state : TrackedDisk) : Replaced :=
  if faults.removes then (.error error, state.remove temporary) else (.error .notRemoved, state)

/-- The attempts left, after this one. -/
def renameWithin (attempt : Nat) : Nat → TrackedDisk → Replaced
  | left, state =>
    if faults.renames attempt && !state.disk.isDirectory target then (.ok (), state.rename temporary target)
    else match left with
      | 0 => giveUp faults temporary .notRenamed state
      | left + 1 => renameWithin (attempt + 1) left state

/-- The temporary path is in a directory. -/
def replaceThrough (content : String) (retries : Nat) (disk : Disk) : Replaced :=
  if !faults.opens || disk.isDirectory temporary then (.error .notCreated, ⟨disk, []⟩)
  else match faults.torn with
    | some part => giveUp faults temporary .notWritten (TrackedDisk.write ⟨disk, []⟩ temporary part)
    | none => renameWithin faults temporary target 1 retries (TrackedDisk.write ⟨disk, []⟩ temporary content)

variable {faults temporary target} {content : String} {retries : Nat} {disk : Disk}

/-- Nothing but the temporary file is touched. -/
structure Spares (temporary : Path) (disk : Disk) (after : TrackedDisk) : Prop where
  touched : ∀ path ∈ after.touched, path = temporary
  untouched : ∀ path ∉ after.touched, after.disk.entry path = disk.entry path

theorem Spares.others {after : TrackedDisk} (spares : Spares temporary disk after) {path : Path}
    (different : path ≠ temporary) : after.disk.entry path = disk.entry path :=
  spares.untouched path fun isTouched => different (spares.touched path isTouched)

theorem spares_write (content : String) : Spares temporary disk (TrackedDisk.write ⟨disk, []⟩ temporary content) where
  touched := fun _ isTouched => List.mem_singleton.mp isTouched
  untouched := by
    intro path notTouched
    have different : path ≠ temporary := fun same => notTouched (List.mem_singleton.mpr same)
    exact (Disk.entry_put _ _).trans (if_neg different)

theorem spares_remove {state : TrackedDisk} (spares : Spares temporary disk state) :
    Spares temporary disk (state.remove temporary) where
  touched := fun path isTouched => (List.mem_cons.mp isTouched).elim id (spares.touched path)
  untouched := by
    intro path notTouched
    obtain ⟨different, notBefore⟩ := not_or.mp fun isIn => notTouched (List.mem_cons.mpr isIn)
    exact (Disk.entry_unlink path).trans ((if_neg different).trans (spares.untouched path notBefore))

theorem giveUp_spares {state : TrackedDisk} (error : ReplaceError) (spares : Spares temporary disk state) :
    ∃ error' after, giveUp faults temporary error state = (.error error', after) ∧ Spares temporary disk after := by
  rw [giveUp]
  split
  · exact ⟨_, _, rfl, spares_remove spares⟩
  · exact ⟨_, _, rfl, spares⟩

theorem renameWithin_cases {state : TrackedDisk} (spares : Spares temporary disk state) (attempt left : Nat) :
    (∃ error after, renameWithin faults temporary target attempt left state = (.error error, after) ∧
        Spares temporary disk after) ∨
      (state.disk.isDirectory target = false ∧
        renameWithin faults temporary target attempt left state = (.ok (), state.rename temporary target)) := by
  induction left generalizing attempt with
  | zero =>
    rw [renameWithin]
    split
    · rename_i renamed
      exact .inr ⟨(Bool.not_eq_true' _).mp (Bool.and_eq_true_iff.mp renamed).2, rfl⟩
    · exact .inl (giveUp_spares _ spares)
  | succ left inductionHypothesis =>
    rw [renameWithin]
    split
    · rename_i renamed
      exact .inr ⟨(Bool.not_eq_true' _).mp (Bool.and_eq_true_iff.mp renamed).2, rfl⟩
    · exact inductionHypothesis (attempt + 1)

/-- Either the file is replaced, or nothing but the temporary file has been touched. -/
theorem replaceThrough_cases (faults : ReplaceFaults) (temporary target : Path) (content : String) (retries : Nat)
    (disk : Disk) :
    (∃ error after, replaceThrough faults temporary target content retries disk = (.error error, after) ∧
        Spares temporary disk after) ∨
      (disk.isDirectory temporary = false ∧ disk.isDirectory target = false ∧
        replaceThrough faults temporary target content retries disk =
          (.ok (), (TrackedDisk.write ⟨disk, []⟩ temporary content).rename temporary target)) := by
  rw [replaceThrough]
  split
  · exact .inl ⟨_, _, rfl, nofun, fun _ _ => rfl⟩
  · rename_i created
    have noDirectory : disk.isDirectory temporary = false :=
      Bool.eq_false_iff.mpr fun isDirectory => created (Bool.or_eq_true_iff.mpr (.inr isDirectory))
    split
    · exact .inl (giveUp_spares _ (spares_write _))
    · refine (renameWithin_cases (spares_write content) 1 retries).imp_right fun ⟨targetFile, renamed⟩ => ?_
      refine ⟨noDirectory, ?_, renamed⟩
      by_cases same : target = temporary
      · exact same ▸ noDirectory
      · rw [Disk.isDirectory, ← (spares_write content).others same]
        exact targetFile

/-- At most one file of those before is touched, it is below the base and has been replaced by a good one; what
has failed changes none of them, and what has not leaves nothing else behind. -/
structure SoundReplace (good : String → String → Prop) (base : Path) (before : Disk) (succeeds : Prop)
    (after : TrackedDisk) : Prop where
  untouched : ∀ path, path ∉ after.touched → after.disk.entry path = before.entry path
  one : ∀ path ∈ after.touched, ∀ other ∈ after.touched, before.hasEntry path = true → before.hasEntry other = true →
    path = other
  inside : ∀ path ∈ after.touched, before.hasEntry path = true → path.StrictlyInside base
  good : ∀ path ∈ after.touched, before.hasEntry path = true →
    ∃ old new, before.fileAt path = some old ∧ after.disk.fileAt path = some new ∧ good old new
  failure : ¬ succeeds → ∀ path, before.hasEntry path = true → after.disk.entry path = before.entry path
  success : succeeds → ∀ path, after.disk.hasEntry path = true → before.hasEntry path = true

section Sound

variable {good : String → String → Prop} {base : Path}

theorem soundReplace_unchanged (succeeds : Prop) : SoundReplace good base disk succeeds ⟨disk, []⟩ where
  untouched := fun _ _ => rfl
  one := nofun
  inside := nofun
  good := nofun
  failure := fun _ _ _ => rfl
  success := fun _ _ isThere => isThere

theorem soundReplace_of_spares {after : TrackedDisk} (free : disk.hasEntry temporary = false)
    (spares : Spares temporary disk after) {succeeds : Prop} (fails : ¬ succeeds) :
    SoundReplace good base disk succeeds after := by
  have notThere {path : Path} (isTouched : path ∈ after.touched) : disk.hasEntry path ≠ true := by
    rw [spares.touched path isTouched, free]
    exact Bool.false_ne_true
  exact {
    untouched := spares.untouched
    one := fun path isTouched _ _ isThere _ => absurd isThere (notThere isTouched)
    inside := fun path isTouched isThere => absurd isThere (notThere isTouched)
    good := fun path isTouched isThere => absurd isThere (notThere isTouched)
    failure := fun _ path isThere => spares.untouched path fun isTouched => notThere isTouched isThere
    success := fun done => absurd done fails }

theorem entry_replaced (path : Path) :
    ((TrackedDisk.write ⟨disk, []⟩ temporary content).rename temporary target).disk.entry path =
      if path = target then some (.file content) else if path = temporary then none else disk.entry path := by
  have written : (disk.put temporary (.file content)).entry temporary = some (.file content) := by
    rw [Disk.entry_put, if_pos rfl]
  show ((disk.put temporary (.file content)).renameFile temporary target).entry path = _
  rw [Disk.renameFile, written]
  by_cases same : temporary = target
  · subst same
    simp only [if_true, Disk.entry_put]
    split_ifs <;> rfl
  · simp only [if_neg same, Disk.entry_put, Disk.entry_unlink]
    split_ifs <;> rfl

theorem soundReplace_replaced {old : String} (free : disk.hasEntry temporary = false)
    (isFile : disk.fileAt target = some old) (inside : target.StrictlyInside base) (isGood : good old content)
    {succeeds : Prop} (done : succeeds) :
    SoundReplace good base disk succeeds ((TrackedDisk.write ⟨disk, []⟩ temporary content).rename temporary target) := by
  have targetThere : disk.hasEntry target = true := Disk.hasEntry_iff.mpr ⟨_, Disk.fileAt_eq_some.mp isFile⟩
  have isTarget {path : Path}
      (isTouched : path ∈ ((TrackedDisk.write ⟨disk, []⟩ temporary content).rename temporary target).touched)
      (isThere : disk.hasEntry path = true) : path = target := by
    simp only [TrackedDisk.rename, TrackedDisk.write, List.mem_cons, List.not_mem_nil, or_false] at isTouched
    rcases isTouched with rfl | rfl | rfl
    · rfl
    all_goals
      rw [free] at isThere
      cases isThere
  constructor
  case untouched =>
    intro path notTouched
    simp only [TrackedDisk.rename, TrackedDisk.write, List.mem_cons, List.not_mem_nil, or_false, not_or] at notTouched
    rw [entry_replaced, if_neg notTouched.1, if_neg notTouched.2.1]
  case one =>
    intro path isTouched other otherTouched isThere otherThere
    rw [isTarget isTouched isThere, isTarget otherTouched otherThere]
  case inside =>
    intro path isTouched isThere
    rw [isTarget isTouched isThere]
    exact inside
  case good =>
    intro path isTouched isThere
    rw [isTarget isTouched isThere]
    refine ⟨old, content, isFile, Disk.fileAt_eq_some.mpr ?_, isGood⟩
    rw [entry_replaced, if_pos rfl]
  case failure => exact fun fails => absurd done fails
  case success =>
    intro _ path isThere
    rw [Disk.hasEntry, entry_replaced] at isThere
    split_ifs at isThere with isTargetPath
    · rw [isTargetPath]
      exact targetThere
    · cases isThere
    · exact isThere

theorem replaceThrough_clean (content : String) (retries : Nat) (noDirectory : disk.isDirectory temporary = false)
    (targetFile : disk.isDirectory target = false) :
    replaceThrough {} temporary target content retries disk =
      (.ok (), (TrackedDisk.write ⟨disk, []⟩ temporary content).rename temporary target) := by
  have stillFile : (disk.put temporary (.file content)).isDirectory target = false := by
    rw [Disk.isDirectory, Disk.entry_put]
    split
    · rfl
    · exact targetFile
  have renames : renameWithin {} temporary target 1 retries (TrackedDisk.write ⟨disk, []⟩ temporary content) =
      (.ok (), (TrackedDisk.write ⟨disk, []⟩ temporary content).rename temporary target) := by
    cases retries <;> rw [renameWithin, TrackedDisk.write, stillFile] <;> rfl
  rw [replaceThrough, noDirectory]
  exact renames

theorem replaceThrough_torn (noDirectory : disk.isDirectory temporary = false) (part : String) :
    replaceThrough { torn := some part } temporary target content retries disk =
      (.error .notWritten, (TrackedDisk.write ⟨disk, []⟩ temporary part).remove temporary) := by
  rw [replaceThrough, noDirectory]
  rfl

/-- A replacement is sound however its calls end exactly if it cannot begin, or nothing is at the temporary path and
the target is a directory, which cannot be replaced, or a file below the base that it replaces by a good one. -/
theorem sound_replaceThrough_iff (targetThere : disk.hasEntry target = true) :
    (∀ faults, SoundReplace good base disk ((replaceThrough faults temporary target content retries disk).1 = .ok ())
        (replaceThrough faults temporary target content retries disk).2) ↔
      disk.isDirectory temporary = true ∨ disk.hasEntry temporary = false ∧
        (disk.isDirectory target = true ∨
          target.StrictlyInside base ∧ ∃ old, disk.fileAt target = some old ∧ good old content) := by
  cases noDirectory : disk.isDirectory temporary with
  | true =>
    refine iff_of_true (fun faults => ?_) (.inl rfl)
    rw [replaceThrough, noDirectory, Bool.or_true]
    exact soundReplace_unchanged _
  | false =>
    rw [or_iff_right Bool.false_ne_true]
    constructor
    · intro sound
      -- A write that fails takes what was at the temporary path with it.
      have free : disk.hasEntry temporary = false := by
        refine Bool.eq_false_iff.mpr fun isThere => ?_
        have torn := sound { torn := some "" }
        rw [replaceThrough_torn noDirectory] at torn
        obtain ⟨entry, wasThere⟩ := Disk.hasEntry_iff.mp isThere
        have kept := torn.failure nofun temporary isThere
        rw [wasThere] at kept
        exact Option.some_ne_none entry (kept.symm.trans ((Disk.entry_unlink temporary).trans (if_pos rfl)))
      refine ⟨free, ?_⟩
      cases targetFile : disk.isDirectory target with
      | true => exact .inl rfl
      | false =>
        have clean := sound {}
        rw [replaceThrough_clean content retries noDirectory targetFile] at clean
        obtain ⟨old, new, isOld, isNew, isGood⟩ := clean.good target List.mem_cons_self targetThere
        rw [Disk.fileAt_eq_some, entry_replaced, if_pos rfl] at isNew
        obtain rfl := Entry.file.inj (Option.some.inj isNew)
        exact .inr ⟨clean.inside target List.mem_cons_self targetThere, old, isOld, isGood⟩
    · rintro ⟨free, isSafe⟩ faults
      rcases replaceThrough_cases faults temporary target content retries disk with
        ⟨error, after, fails, spares⟩ | ⟨_, targetFile, succeeds⟩
      · rw [fails]
        exact soundReplace_of_spares free spares nofun
      · rw [succeeds]
        obtain isDirectory | ⟨inside, old, isFile, isGood⟩ := isSafe
        · rw [targetFile] at isDirectory
          cases isDirectory
        · exact soundReplace_replaced free isFile inside isGood rfl

end Sound

end AbilityFramework.Library
