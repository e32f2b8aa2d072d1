import AbilityFramework.Library.CleanRuns

/-! # What the runs of a program change

`Along` goes with a program through all of its runs from a disk: the disk decides what is looked up, and each call
may end in every way that the file system allows.  `ChangesOnly` says where two disks differ. -/

namespace AbilityFramework.Library

namespace FileProgram

variable {ε α β : Type}

/-- However the calls end, each changes the disk as it should, and what comes out is as it should be. -/
def Along (good : Disk → Disk → Prop) (post : Except ε α → Disk → Prop) : FileProgram ε α → Disk → Prop
  | done result, disk => post result disk
  | look next, disk => Along good post (next disk) disk
  | call request next, disk => ∀ outcome,
    good disk (request.attempt disk outcome).2 ∧
      Along good post (next (request.attempt disk outcome).1) (request.attempt disk outcome).2

/-- Each call changes the disk as it should. -/
abbrev Confined (good : Disk → Disk → Prop) (program : FileProgram ε α) (disk : Disk) : Prop :=
  Along good (fun _ _ => True) program disk

variable {good : Disk → Disk → Prop} {post : Except ε α → Disk → Prop} {program : FileProgram ε α} {disk : Disk}

theorem along_run (reflexive : ∀ disk, good disk disk)
    (transitive : ∀ {first second third : Disk}, good first second → good second third → good first third)
    {state : FileState} (along : Along good post program state.disk) (outcomes : Outcomes) :
    good state.disk (run outcomes program state).2.disk ∧
      post (run outcomes program state).1 (run outcomes program state).2.disk := by
  induction program generalizing state with
  | done => exact ⟨reflexive _, along⟩
  | look rest inductionHypothesis => exact inductionHypothesis state.disk along
  | call request rest inductionHypothesis =>
    obtain ⟨isGood, later⟩ := along (outcomes request ((state.calls.map Prod.fst).count request))
    have goesOn : Along good post (rest (state.make outcomes request).1) (state.make outcomes request).2.disk := later
    obtain ⟨areGood, ends⟩ := inductionHypothesis _ goesOn
    exact ⟨transitive isGood areGood, ends⟩

theorem Along.imp {better : Disk → Disk → Prop} {weaker : Except ε α → Disk → Prop} (along : Along good post program disk)
    (changes : ∀ before after, good before after → better before after)
    (ends : ∀ result after, post result after → weaker result after) : Along better weaker program disk := by
  induction program generalizing disk with
  | done result => exact ends result disk along
  | look rest inductionHypothesis => exact inductionHypothesis disk along
  | call request rest inductionHypothesis =>
    exact fun outcome => ⟨changes _ _ (along outcome).1, inductionHypothesis _ (along outcome).2⟩

theorem along_bind {next : α → FileProgram ε β} {post : Except ε β → Disk → Prop} :
    Along good post (program >>= next) disk ↔
      Along good (fun result after =>
        match result with
        | .ok value => Along good post (next value) after
        | .error error => post (.error error) after) program disk := by
  induction program generalizing disk with
  | done result => cases result <;> rfl
  | look rest inductionHypothesis => exact inductionHypothesis disk
  | call request rest inductionHypothesis =>
    exact forall_congr' fun outcome => and_congr_right fun _ => inductionHypothesis _

theorem along_require_bind {request : FileCall} {error : ε} {next : Unit → FileProgram ε β}
    {post : Except ε β → Disk → Prop} :
    Along good post (require request error >>= next) disk ↔ ∀ outcome,
      good disk (request.attempt disk outcome).2 ∧
        if (request.attempt disk outcome).1 = true then Along good post (next ()) (request.attempt disk outcome).2
        else post (.error error) (request.attempt disk outcome).2 := by
  refine forall_congr' fun outcome => and_congr_right fun _ => ?_
  cases (request.attempt disk outcome).1 <;> rfl

theorem along_attempt_bind {request : FileCall} {next : Bool → FileProgram ε β} {post : Except ε β → Disk → Prop} :
    Along good post (attempt request >>= next) disk ↔ ∀ outcome,
      good disk (request.attempt disk outcome).2 ∧
        Along good post (next (request.attempt disk outcome).1) (request.attempt disk outcome).2 := Iff.rfl

theorem confined_bind {nice : α → Prop} {next : α → FileProgram ε β} (first : Confined good program disk)
    (ensures : Ensures nice program) (later : ∀ value, nice value → ∀ after, Confined good (next value) after) :
    Confined good (program >>= next) disk := by
  induction program generalizing disk with
  | done result =>
    cases result with
    | ok value => exact later value (ensures value rfl) disk
    | error error => trivial
  | look rest inductionHypothesis => exact inductionHypothesis disk first (ensures disk)
  | call request rest inductionHypothesis =>
    exact fun outcome => ⟨(first outcome).1, inductionHypothesis _ (first outcome).2 (ensures _)⟩

/-- What every call does on any disk is done along every run. -/
theorem confined_of_calls
    (calls : Calls (fun request => ∀ disk outcome, good disk (request.attempt disk outcome).2) program) (disk : Disk) :
    Confined good program disk := by
  induction program generalizing disk with
  | done => trivial
  | look rest inductionHypothesis => exact inductionHypothesis disk (calls disk) disk
  | call request rest inductionHypothesis =>
    exact fun outcome => ⟨calls.1 disk outcome, inductionHypothesis _ (calls.2 _) _⟩

/-! ## Where disks differ -/

/-- Only what may change has changed, and directories have been made where they may be. -/
def ChangesOnly (mayChange mayMake : Path → Prop) (before after : Disk) : Prop :=
  ∀ path, after.entry path = before.entry path ∨ mayChange path ∨
    (mayMake path ∧ before.entry path = none ∧ after.entry path = some .directory)

variable {mayChange mayMake : Path → Prop}

theorem changesOnly_refl (disk : Disk) : ChangesOnly mayChange mayMake disk disk := fun _ => .inl rfl

theorem changesOnly_trans {first second third : Disk} (early : ChangesOnly mayChange mayMake first second)
    (late : ChangesOnly mayChange mayMake second third) : ChangesOnly mayChange mayMake first third := by
  intro path
  rcases early path with same | changes | ⟨makes, absent, made⟩
  · rw [← same]
    exact late path
  · exact .inr (.inl changes)
  · rcases late path with same | changes | ⟨_, nothing, _⟩
    · exact .inr (.inr ⟨makes, absent, same.trans made⟩)
    · exact .inr (.inl changes)
    · rw [made] at nothing
      cases nothing

theorem ChangesOnly.imp {before after : Disk} {wider widerMake : Path → Prop} (only : ChangesOnly mayChange mayMake before after)
    (changes : ∀ path, mayChange path → wider path) (makes : ∀ path, mayMake path → wider path ∨ widerMake path) :
    ChangesOnly wider widerMake before after := by
  intro path
  rcases only path with same | changed | ⟨made, absent, isMade⟩
  · exact .inl same
  · exact .inr (.inl (changes path changed))
  · rcases makes path made with wide | make
    · exact .inr (.inl wide)
    · exact .inr (.inr ⟨make, absent, isMade⟩)

/-- The call touches only what may change, or makes directories. -/
def StaysWithin (mayChange mayMake : Path → Prop) : FileCall → Prop
  | .createDirectories created => ∀ path, path <+: created → mayChange path ∨ mayMake path
  | request => ∀ path, request.mayChange path → mayChange path

theorem StaysWithin.imp {wider : Path → Prop} {request : FileCall} (stays : StaysWithin mayChange mayMake request)
    (changes : ∀ path, mayChange path → wider path) : StaysWithin wider mayMake request := by
  cases request with
  | createDirectories created => exact fun path above => (stays path above).imp_left (changes path)
  | access | removeAll | rename | write => exact fun path touched => changes path (stays path touched)

theorem staysWithin_access (path : Path) : StaysWithin mayChange mayMake (.access path) := fun _ => False.elim

theorem changesOnly_makeDirectories {created : Path} (made : Path → Bool)
    (stays : ∀ path, path <+: created → disk.entry path = none → mayChange path ∨ mayMake path) :
    ChangesOnly mayChange mayMake disk (disk.makeDirectories created made) := by
  intro path
  rw [Disk.entry_makeDirectories]
  split
  · rename_i isMade
    rcases stays path isMade.1 isMade.2.2 with changes | makes
    · exact .inr (.inl changes)
    · exact .inr (.inr ⟨makes, isMade.2.2, rfl⟩)
  · exact .inl rfl

/-- However the call ends, it can only have made directories where there was nothing. -/
theorem changesOnly_createDirectories {created : Path} (outcome : CallOutcome)
    (stays : ∀ path, path <+: created → disk.entry path = none → mayChange path ∨ mayMake path) :
    ChangesOnly mayChange mayMake disk (FileCall.attempt (.createDirectories created) disk outcome).2 := by
  simp only [FileCall.attempt]
  split <;> exact changesOnly_makeDirectories _ stays

theorem changesOnly_of_staysWithin {request : FileCall} (stays : StaysWithin mayChange mayMake request) (disk : Disk)
    (outcome : CallOutcome) : ChangesOnly mayChange mayMake disk (request.attempt disk outcome).2 := by
  have untouched (notCreated : ∀ path, request.mayChange path → mayChange path) :
      ChangesOnly mayChange mayMake disk (request.attempt disk outcome).2 := by
    intro path
    by_cases touched : request.mayChange path
    · exact .inr (.inl (notCreated path touched))
    · exact .inl (FileCall.entry_attempt outcome touched)
  cases request with
  | createDirectories created => exact changesOnly_createDirectories outcome fun path above _ => stays path above
  | access | removeAll | rename | write => exact untouched stays

theorem confined_of_staysWithin (calls : Calls (StaysWithin mayChange mayMake) program) (disk : Disk) :
    Confined (ChangesOnly mayChange mayMake) program disk :=
  confined_of_calls (calls.imp fun _ stays => changesOnly_of_staysWithin stays) disk

end FileProgram

end AbilityFramework.Library
