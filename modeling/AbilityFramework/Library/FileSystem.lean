import AbilityFramework.Library.FileTree
import AbilityFramework.Library.Relation

/-! # Programs on a file system

A program looks at the disk and makes calls that may fail, half done or not done at all.  Programs are
trees, so that a statement about all the calls a program can make is one about the tree, and holds whatever
the file system answers (`Calls`).  `run` carries a program out on a disk; what no call of a program can
change is after a run as it was (`run_entry`). -/

namespace AbilityFramework.Library

/-- What is on a disk, with one entry for each path. -/
abbrev Disk := Relation (Prod.fst (α := Path) (β := Entry))

namespace Disk

variable (disk : Disk) (path : Path)

def entry : Option Entry := (disk.lookup path).map Prod.snd

/-- `exists`; the source's name is a keyword. -/
def hasEntry : Bool := (disk.entry path).isSome

def isDirectory : Bool := disk.entry path = some .directory

def isFile : Bool := disk.hasEntry path && !disk.isDirectory path

def put (entry : Entry) : Disk := disk.replaceInto (path, entry)

/-- The entries at and below the path that are among those removed are gone. -/
def removeBelow (removed : Path → Bool) : Disk := disk.deleteWhere fun row => path.isPrefixOf row.1 && removed row.1

/-- Of the directories that lead to the path, those made are there afterwards. -/
def makeDirectories (made : Path → Bool) : Disk :=
  (path.inits.filter fun above => made above && !disk.hasEntry above).foldl (fun disk above => disk.put above .directory) disk

/-- Where what is at or below the source gets to. -/
def moved (source target path : Path) : Path := target ++ path.drop source.length

omit disk path in
theorem moved_injective {source target first second : Path} (firstBelow : source <+: first)
    (secondBelow : source <+: second) (same : moved source target first = moved source target second) :
    first = second := by
  rw [← List.prefix_iff_eq_append.mp firstBelow, ← List.prefix_iff_eq_append.mp secondBelow,
    List.append_cancel_left same]

/-- What is at and below the source is at and below the target instead. -/
def move (source target : Path) : Disk where
  rows := (disk.rows.filter fun row => !source.isPrefixOf row.1 && !target.isPrefixOf row.1) ++
    (disk.rows.filter fun row => source.isPrefixOf row.1).map fun row => (moved source target row.1, row.2)
  keyed := by
    have belowKeyed : ((disk.rows.filter fun row => source.isPrefixOf row.1).map Prod.fst).Nodup :=
      (List.filter_sublist.map Prod.fst).nodup disk.keyed
    rw [List.map_append, List.nodup_append]
    refine ⟨(List.filter_sublist.map Prod.fst).nodup disk.keyed, ?_, ?_⟩
    · rw [List.map_map]
      refine List.Nodup.map_on ?_ (List.Nodup.of_map Prod.fst belowKeyed)
      intro first firstMember second secondMember same
      have firstBelow := List.isPrefixOf_iff_prefix.mp (List.mem_filter.mp firstMember).2
      have secondBelow := List.isPrefixOf_iff_prefix.mp (List.mem_filter.mp secondMember).2
      exact List.inj_on_of_nodup_map belowKeyed firstMember secondMember (moved_injective firstBelow secondBelow same)
    · intro kept isKept other isMoved same
      obtain ⟨row, member, rfl⟩ := List.mem_map.mp isKept
      obtain ⟨_, above⟩ := List.mem_filter.mp member
      obtain ⟨_, second, rfl⟩ := List.mem_map.mp isMoved
      obtain ⟨origin, _, rfl⟩ := List.mem_map.mp second
      simp only [Bool.and_eq_true, Bool.not_eq_true', ← Bool.not_eq_true, List.isPrefixOf_iff_prefix] at above
      exact above.2 (same ▸ List.prefix_append target _)

variable {disk path}

theorem entry_eq_some {entry : Entry} : disk.entry path = some entry ↔ (path, entry) ∈ disk := by
  rw [Disk.entry, Option.map_eq_some_iff]
  constructor
  · rintro ⟨⟨_, _⟩, found, rfl⟩
    obtain ⟨member, rfl⟩ := Relation.lookup_eq_some.mp found
    exact member
  · intro member
    exact ⟨(path, entry), Relation.lookup_eq_some.mpr ⟨member, rfl⟩, rfl⟩

theorem entry_put (written : Entry) (other : Path) :
    (disk.put path written).entry other = if other = path then some written else disk.entry other := by
  apply Option.ext
  intro entry
  rw [entry_eq_some, put, Relation.mem_replaceInto]
  by_cases same : other = path
  · simp [same, eq_comm]
  · simp [same, entry_eq_some]

theorem entry_removeBelow (removed : Path → Bool) (other : Path) :
    (disk.removeBelow path removed).entry other =
      if path <+: other ∧ removed other = true then none else disk.entry other := by
  apply Option.ext
  intro entry
  rw [entry_eq_some, removeBelow, Relation.mem_deleteWhere]
  by_cases isRemoved : path <+: other ∧ removed other = true
  · simp [isRemoved]
  · rw [if_neg isRemoved, entry_eq_some]
    simpa using fun _ => isRemoved

theorem entry_foldl_put (paths : List Path) (other : Path) :
    (paths.foldl (fun disk above => disk.put above .directory) disk).entry other =
      if other ∈ paths then some .directory else disk.entry other := by
  induction paths generalizing disk with
  | nil => simp
  | cons above paths inductionHypothesis =>
    rw [List.foldl_cons, inductionHypothesis, entry_put]
    by_cases same : other = above <;> simp [same]

theorem entry_makeDirectories (made : Path → Bool) (other : Path) :
    (disk.makeDirectories path made).entry other =
      if other <+: path ∧ made other = true ∧ disk.entry other = none then some .directory else disk.entry other := by
  rw [makeDirectories, entry_foldl_put]
  simp [hasEntry]

theorem entry_move (source target other : Path) :
    (disk.move source target).entry other =
      if target <+: other then disk.entry (source ++ other.drop target.length)
      else if source <+: other then none else disk.entry other := by
  apply Option.ext
  intro entry
  rw [entry_eq_some, Relation.mem_def, move, List.mem_append, List.mem_filter, List.mem_map]
  simp only [Bool.and_eq_true, Bool.not_eq_true', ← Bool.not_eq_true, List.isPrefixOf_iff_prefix, List.mem_filter]
  by_cases below : target <+: other
  · rw [if_pos below, entry_eq_some]
    constructor
    · rintro (⟨_, _, notBelow⟩ | ⟨⟨origin, _⟩, ⟨member, isBelow⟩, same⟩)
      · exact absurd below notBelow
      · obtain ⟨rfl, rfl⟩ := Prod.mk.inj same
        simp only [moved, List.drop_left]
        rw [List.prefix_iff_eq_append.mp isBelow]
        exact member
    · intro member
      refine .inr ⟨_, ⟨member, List.prefix_append _ _⟩, ?_⟩
      simp only [moved, List.drop_left]
      rw [List.prefix_iff_eq_append.mp below]
  · have notMoved (origin : Path) : moved source target origin ≠ other :=
      fun same => below (same ▸ List.prefix_append target _)
    rw [if_neg below]
    by_cases isSource : source <+: other
    · simp [isSource, notMoved]
    · simp [isSource, below, notMoved, entry_eq_some, Relation.mem_def]

end Disk

/-! ## Calls -/

inductive FileCall where
  /-- Looks something up, or changes nothing but permissions. -/
  | access (path : Path)
  | createDirectories (path : Path)
  | removeAll (path : Path)
  | rename (source target : Path)
  | write (path : Path) (content : String)
  deriving DecidableEq

/-- What the file system does with a call; one that does not succeed is done for the paths that it
touches, and what it has written of a file stays. -/
structure CallOutcome where
  succeeds : Bool := true
  touches : Path → Bool := fun _ => false
  written : String := ""

namespace FileCall

/-- A file in place of a directory, or a directory in place of a file, makes a call fail. -/
def feasible (disk : Disk) : FileCall → Bool
  | access _ => true
  | createDirectories path => path.inits.all fun above => !disk.isFile above
  | removeAll _ => true
  | rename source target =>
    disk.hasEntry source && disk.isDirectory target.dropLast && !source.isPrefixOf target &&
      disk.rows.all fun row => !target.isPrefixOf row.1
  | write path _ => disk.isDirectory path.dropLast && !disk.isDirectory path

def perform (disk : Disk) : FileCall → Disk
  | access _ => disk
  | createDirectories path => disk.makeDirectories path fun _ => true
  | removeAll path => disk.removeBelow path fun _ => true
  | rename source target => disk.move source target
  | write path content => disk.put path (.file content)

def performPartly (outcome : CallOutcome) (disk : Disk) : FileCall → Disk
  | access _ => disk
  | createDirectories path => disk.makeDirectories path outcome.touches
  | removeAll path => disk.removeBelow path outcome.touches
  | rename _ _ => disk
  | write path content =>
    if outcome.touches path && (write path content).feasible disk then disk.put path (.file outcome.written) else disk

def mayChange (path : Path) : FileCall → Prop
  | access _ => False
  | createDirectories created => path <+: created
  | removeAll removed => removed <+: path
  | rename source target => source <+: path ∨ target <+: path
  | write written _ => path = written

/-- How a call ends, and the disk that it leaves. -/
def attempt (request : FileCall) (disk : Disk) (outcome : CallOutcome) : Bool × Disk :=
  if outcome.succeeds && request.feasible disk then (true, request.perform disk)
  else (false, request.performPartly outcome disk)

variable {disk : Disk} {path : Path} {request : FileCall}

theorem entry_perform (untouched : ¬ request.mayChange path) : (request.perform disk).entry path = disk.entry path := by
  cases request with
  | access => rfl
  | createDirectories created =>
    rw [perform, Disk.entry_makeDirectories, if_neg fun isMade => untouched isMade.1]
  | removeAll removed => rw [perform, Disk.entry_removeBelow, if_neg fun isRemoved => untouched isRemoved.1]
  | rename source target =>
    obtain ⟨notSource, notTarget⟩ := not_or.mp untouched
    rw [perform, Disk.entry_move, if_neg notTarget, if_neg notSource]
  | write written content =>
    have other : path ≠ written := untouched
    rw [perform, Disk.entry_put, if_neg other]

theorem entry_performPartly (outcome : CallOutcome) (untouched : ¬ request.mayChange path) :
    (request.performPartly outcome disk).entry path = disk.entry path := by
  cases request with
  | access | rename => rfl
  | createDirectories created =>
    rw [performPartly, Disk.entry_makeDirectories, if_neg fun isMade => untouched isMade.1]
  | removeAll removed => rw [performPartly, Disk.entry_removeBelow, if_neg fun isRemoved => untouched isRemoved.1]
  | write written content =>
    have other : path ≠ written := untouched
    rw [performPartly]
    split
    · rw [Disk.entry_put, if_neg other]
    · rfl

theorem attempt_access (path : Path) (outcome : CallOutcome) : attempt (access path) disk outcome = (outcome.succeeds, disk) := by
  cases succeeds : outcome.succeeds <;> simp [attempt, feasible, perform, performPartly, succeeds]

theorem attempt_succeeds {outcome : CallOutcome} (succeeds : (request.attempt disk outcome).1 = true) :
    request.feasible disk = true ∧ (request.attempt disk outcome).2 = request.perform disk := by
  unfold attempt at succeeds ⊢
  split_ifs at succeeds ⊢ with isDone
  exact ⟨(Bool.and_eq_true_iff.mp isDone).2, rfl⟩

/-- A call that nothing is in the way of can succeed. -/
theorem attempt_feasible (feasible : request.feasible disk = true) : request.attempt disk {} = (true, request.perform disk) := by
  simp [attempt, feasible]

theorem entry_attempt (outcome : CallOutcome) (untouched : ¬ request.mayChange path) :
    (request.attempt disk outcome).2.entry path = disk.entry path := by
  unfold attempt
  split
  · exact entry_perform untouched
  · exact entry_performPartly outcome untouched

end FileCall

/-! ## Programs -/

inductive FileProgram (ε α : Type) where
  | done (result : Except ε α)
  | look (next : Disk → FileProgram ε α)
  | call (request : FileCall) (next : Bool → FileProgram ε α)

namespace FileProgram

variable {ε α β : Type}

protected def bind (program : FileProgram ε α) (next : α → FileProgram ε β) : FileProgram ε β :=
  match program with
  | done (.ok value) => next value
  | done (.error error) => done (.error error)
  | look rest => look fun disk => (rest disk).bind next
  | call request rest => call request fun succeeded => (rest succeeded).bind next

instance : Monad (FileProgram ε) where
  pure value := done (.ok value)
  bind := FileProgram.bind

def fails (error : ε) : FileProgram ε α := done (.error error)

def see (get : Disk → α) : FileProgram ε α := look fun disk => done (.ok (get disk))

/-- A call that the program goes on after in any case. -/
def attempt (request : FileCall) : FileProgram ε Bool := call request fun succeeded => done (.ok succeeded)

def require (request : FileCall) (error : ε) : FileProgram ε Unit :=
  call request fun succeeded => done (if succeeded then .ok () else .error error)

@[simp] theorem pure_bind (value : α) (next : α → FileProgram ε β) : (pure value >>= next) = next value := rfl

@[simp] theorem done_ok_bind (value : α) (next : α → FileProgram ε β) :
    (done (.ok value) >>= next) = next value := rfl

@[simp] theorem done_error_bind (error : ε) (next : α → FileProgram ε β) :
    (done (.error error) >>= next) = done (.error error) := rfl

theorem bind_assoc {γ : Type} (program : FileProgram ε α) (next : α → FileProgram ε β) (last : β → FileProgram ε γ) :
    program >>= next >>= last = program >>= fun value => next value >>= last := by
  induction program with
  | done result => cases result <;> rfl
  | look rest inductionHypothesis => exact congrArg look (funext inductionHypothesis)
  | call request rest inductionHypothesis => exact congrArg (call request) (funext inductionHypothesis)

/-! ## All the calls of a program -/

/-- Whatever the file system answers, the program makes only calls that are allowed. -/
def Calls (allowed : FileCall → Prop) : FileProgram ε α → Prop
  | done _ => True
  | look next => ∀ disk, Calls allowed (next disk)
  | call request next => allowed request ∧ ∀ succeeded, Calls allowed (next succeeded)

variable {allowed : FileCall → Prop}

theorem calls_bind {program : FileProgram ε α} {next : α → FileProgram ε β} (first : Calls allowed program)
    (later : ∀ value, Calls allowed (next value)) : Calls allowed (program >>= next) := by
  induction program with
  | done result =>
    cases result with
    | ok value => exact later value
    | error error => trivial
  | look rest inductionHypothesis => exact fun disk => inductionHypothesis disk (first disk)
  | call request rest inductionHypothesis =>
    exact ⟨first.1, fun succeeded => inductionHypothesis succeeded (first.2 succeeded)⟩

theorem calls_true (program : FileProgram ε α) : Calls (fun _ => True) program := by
  induction program with
  | done => trivial
  | look rest inductionHypothesis => exact inductionHypothesis
  | call request rest inductionHypothesis => exact ⟨trivial, inductionHypothesis⟩

theorem Calls.imp {program : FileProgram ε α} {weaker : FileCall → Prop} (calls : Calls allowed program)
    (implies : ∀ request, allowed request → weaker request) : Calls weaker program := by
  induction program with
  | done => trivial
  | look rest inductionHypothesis => exact fun disk => inductionHypothesis disk (calls disk)
  | call request rest inductionHypothesis =>
    exact ⟨implies request calls.1, fun succeeded => inductionHypothesis succeeded (calls.2 succeeded)⟩

@[simp] theorem calls_pure (value : α) : Calls allowed (pure value : FileProgram ε α) := trivial

@[simp] theorem calls_done (result : Except ε α) : Calls allowed (done result) := trivial

@[simp] theorem calls_fails (error : ε) : Calls allowed (fails error : FileProgram ε α) := trivial

@[simp] theorem calls_see (get : Disk → α) : Calls allowed (see get : FileProgram ε α) := fun _ => trivial

@[simp] theorem calls_attempt {request : FileCall} : Calls allowed (attempt request : FileProgram ε Bool) ↔ allowed request :=
  and_iff_left fun _ => trivial

@[simp] theorem calls_require {request : FileCall} {error : ε} : Calls allowed (require request error) ↔ allowed request :=
  and_iff_left fun _ => trivial

theorem calls_attempt_bind {request : FileCall} {next : Bool → FileProgram ε β} :
    Calls allowed (attempt request >>= next) ↔ allowed request ∧ ∀ succeeded, Calls allowed (next succeeded) := Iff.rfl

theorem calls_require_bind {request : FileCall} {error : ε} {next : Unit → FileProgram ε β} :
    Calls allowed (require request error >>= next) ↔ allowed request ∧ Calls allowed (next ()) := by
  refine and_congr_right fun _ => ⟨fun calls => calls true, fun calls succeeded => ?_⟩
  cases succeeded with
  | true => exact calls
  | false => trivial

/-- Whatever the file system answers, a value that the program returns is good. -/
def Ensures (good : α → Prop) : FileProgram ε α → Prop
  | done result => ∀ value, result = .ok value → good value
  | look next => ∀ disk, Ensures good (next disk)
  | call _ next => ∀ succeeded, Ensures good (next succeeded)

theorem ensures_bind {good : α → Prop} {better : β → Prop} {program : FileProgram ε α} {next : α → FileProgram ε β}
    (first : Ensures good program) (later : ∀ value, good value → Ensures better (next value)) :
    Ensures better (program >>= next) := by
  induction program with
  | done result =>
    cases result with
    | ok value => exact later value (first value rfl)
    | error error =>
      intro value impossible
      cases impossible
  | look rest inductionHypothesis => exact fun disk => inductionHypothesis disk (first disk)
  | call request rest inductionHypothesis => exact fun succeeded => inductionHypothesis succeeded (first succeeded)

theorem Ensures.imp {good better : α → Prop} {program : FileProgram ε α} (ensures : Ensures good program)
    (implies : ∀ value, good value → better value) : Ensures better program := by
  induction program with
  | done => exact fun value same => implies value (ensures value same)
  | look rest inductionHypothesis => exact fun disk => inductionHypothesis disk (ensures disk)
  | call request rest inductionHypothesis => exact fun succeeded => inductionHypothesis succeeded (ensures succeeded)

theorem ensures_true (program : FileProgram ε α) : Ensures (fun _ => True) program := by
  induction program with
  | done => exact fun _ _ => trivial
  | look rest inductionHypothesis => exact inductionHypothesis
  | call request rest inductionHypothesis => exact inductionHypothesis

theorem ensures_pure {good : α → Prop} {value : α} (isGood : good value) :
    Ensures good (pure value : FileProgram ε α) := by
  rintro other same
  obtain rfl := Except.ok.inj same
  exact isGood

theorem ensures_fails {good : α → Prop} (error : ε) : Ensures good (fails error : FileProgram ε α) := by
  intro value impossible
  cases impossible

theorem ensures_see {good : α → Prop} {get : Disk → α} (areGood : ∀ disk, good (get disk)) :
    Ensures good (see get : FileProgram ε α) := fun disk => ensures_pure (areGood disk)

theorem calls_bind_of_ensures {good : α → Prop} {program : FileProgram ε α} {next : α → FileProgram ε β}
    (first : Calls allowed program) (ensures : Ensures good program)
    (later : ∀ value, good value → Calls allowed (next value)) : Calls allowed (program >>= next) := by
  induction program with
  | done result =>
    cases result with
    | ok value => exact later value (ensures value rfl)
    | error error => trivial
  | look rest inductionHypothesis => exact fun disk => inductionHypothesis disk (first disk) (ensures disk)
  | call request rest inductionHypothesis =>
    exact ⟨first.1, fun succeeded => inductionHypothesis succeeded (first.2 succeeded) (ensures succeeded)⟩

/-! ## Runs -/

/-- The disk, and the calls so far with whether they have succeeded. -/
structure FileState where
  disk : Disk
  calls : List (FileCall × Bool) := []

/-- How a call ends can differ each time that it is made. -/
abbrev Outcomes := FileCall → Nat → CallOutcome

def FileState.make (state : FileState) (outcomes : Outcomes) (request : FileCall) : Bool × FileState :=
  let (succeeded, after) := request.attempt state.disk (outcomes request ((state.calls.map Prod.fst).count request))
  (succeeded, ⟨after, state.calls ++ [(request, succeeded)]⟩)

def run (outcomes : Outcomes) : FileProgram ε α → FileState → Except ε α × FileState
  | done result, state => (result, state)
  | look next, state => run outcomes (next state.disk) state
  | call request next, state =>
    let (succeeded, after) := state.make outcomes request
    run outcomes (next succeeded) after

variable {outcomes : Outcomes}

theorem run_bind (program : FileProgram ε α) (next : α → FileProgram ε β) (state : FileState) :
    run outcomes (program >>= next) state =
      match run outcomes program state with
      | (.ok value, after) => run outcomes (next value) after
      | (.error error, after) => (.error error, after) := by
  induction program generalizing state with
  | done result => cases result <;> rfl
  | look rest inductionHypothesis => exact inductionHypothesis state.disk state
  | call request rest inductionHypothesis => exact inductionHypothesis _ _

theorem run_see_bind (get : Disk → α) (next : α → FileProgram ε β) (state : FileState) :
    run outcomes (see get >>= next) state = run outcomes (next (get state.disk)) state := rfl

theorem run_require_bind (request : FileCall) (error : ε) (next : Unit → FileProgram ε β) (state : FileState) :
    run outcomes (require request error >>= next) state =
      if (state.make outcomes request).1 = true then run outcomes (next ()) (state.make outcomes request).2
      else (.error error, (state.make outcomes request).2) := by
  rw [run_bind, require, run]
  cases succeeds : (state.make outcomes request).1 <;> simp [run, succeeds]

theorem run_bind_pure (program : FileProgram ε α) (make : α → β) (state : FileState) :
    run outcomes (program >>= fun value => pure (make value)) state =
      ((run outcomes program state).1.map make, (run outcomes program state).2) := by
  rw [run_bind]
  rcases run outcomes program state with ⟨_ | _, after⟩ <;> rfl

/-- What a program ensures of its value holds of the value of a run. -/
theorem run_ensures {good : α → Prop} {program : FileProgram ε α} (ensures : Ensures good program) {value : α}
    (state : FileState) (returns : (run outcomes program state).1 = .ok value) : good value := by
  induction program generalizing state with
  | done result => exact ensures value returns
  | look rest inductionHypothesis => exact inductionHypothesis state.disk (ensures state.disk) state returns
  | call request rest inductionHypothesis => exact inductionHypothesis _ (ensures _) _ returns

theorem FileState.make_succeeds {state : FileState} {request : FileCall}
    (succeeds : (state.make outcomes request).1 = true) :
    request.feasible state.disk = true ∧ (state.make outcomes request).2.disk = request.perform state.disk :=
  FileCall.attempt_succeeds succeeds

theorem FileState.make_fails {state : FileState} {request : FileCall}
    (fails : (state.make outcomes request).1 = false) :
    (state.make outcomes request).2.disk =
      request.performPartly (outcomes request ((state.calls.map Prod.fst).count request)) state.disk := by
  simp only [FileState.make, FileCall.attempt] at fails ⊢
  split_ifs at fails ⊢
  rfl

theorem FileState.disk_access (state : FileState) (path : Path) :
    (state.make outcomes (.access path)).2.disk = state.disk := by
  simp only [FileState.make, FileCall.attempt]
  split <;> rfl

theorem FileState.calls_make (state : FileState) (request : FileCall) :
    (state.make outcomes request).2.calls = state.calls ++ [(request, (state.make outcomes request).1)] := rfl

theorem FileState.entry_make {state : FileState} {request : FileCall} {path : Path}
    (untouched : ¬ request.mayChange path) :
    (state.make outcomes request).2.disk.entry path = state.disk.entry path := FileCall.entry_attempt _ untouched

/-- What every call keeps, however it ends, is kept by a run. -/
theorem run_keeps (holds : Disk → Prop) {program : FileProgram ε α}
    (calls : Calls (fun request => ∀ state : FileState, holds state.disk → holds (state.make outcomes request).2.disk) program)
    (state : FileState) (initially : holds state.disk) : holds (run outcomes program state).2.disk := by
  induction program generalizing state with
  | done => exact initially
  | look rest inductionHypothesis => exact inductionHypothesis state.disk (calls state.disk) state initially
  | call request rest inductionHypothesis =>
    rw [run]
    exact inductionHypothesis _ (calls.2 _) _ (calls.1 state initially)

/-- What no call of a program can change is after a run as it was. -/
theorem run_entry {program : FileProgram ε α} {path : Path} (calls : Calls (fun request => ¬ request.mayChange path) program)
    (state : FileState) : (run outcomes program state).2.disk.entry path = state.disk.entry path := by
  refine run_keeps (fun disk => disk.entry path = state.disk.entry path) (calls.imp ?_) state rfl
  exact fun request untouched before same => (FileState.entry_make untouched).trans same

/-- The calls that a run adds are calls of the program. -/
theorem run_calls {program : FileProgram ε α} (calls : Calls allowed program) (state : FileState) :
    ∃ made, (run outcomes program state).2.calls = state.calls ++ made ∧ ∀ request ∈ made, allowed request.1 := by
  induction program generalizing state with
  | done => exact ⟨[], by simp [run]⟩
  | look rest inductionHypothesis => exact inductionHypothesis state.disk (calls state.disk) state
  | call request rest inductionHypothesis =>
    obtain ⟨made, same, areAllowed⟩ := inductionHypothesis _ (calls.2 (state.make outcomes request).1)
      (state.make outcomes request).2
    refine ⟨(request, (state.make outcomes request).1) :: made, ?_, ?_⟩
    · rw [run, same, FileState.calls_make, List.append_assoc, List.singleton_append]
    · rw [List.forall_mem_cons]
      exact ⟨calls.1, areAllowed⟩

end FileProgram

end AbilityFramework.Library
