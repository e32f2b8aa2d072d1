import AbilityFramework.Library.OrdinaryMap
import Mathlib.Logic.Function.Basic

/-! # The double-buffered map

Writers change a buffer under `write_mutex_`, readers look at a snapshot, and whoever has `sync_mutex_` copies the buffer
and publishes the copy in two steps.  What a step does to the two depends only on what a write does to a buffer and what
a read finds in one (`Buffering`), so a run on maps is the image of a run on histories, in which a buffer is the list of
writes it has seen.  There the snapshot is always a prefix of the buffer, and one that never gets shorter
(`reads_see_prefixes`). -/

namespace AbilityFramework.Util

open Library Library.Runs

/-! ## Threads -/

/-- Where a thread is in the calls of the map.  `now` is missing in an explicit `sync()`. -/
inductive ThreadControl (Write : Type*) where
  | idle
  /-- Before the critical section of a write. -/
  | writing (write : Write)
  /-- In `maybe_sync`, before the clock is read. -/
  | readClock
  | loadLast (now : Int64)
  | tryLock (now : Int64)
  | loadAgain (now : Int64)
  /-- In `sync`, before the mutex is taken. -/
  | lockSync
  | copying (now : Option Int64)
  | storing (now : Option Int64)
  | storeLast (now : Int64)
  | releasing

/-- The thread has `sync_mutex_`. -/
def ThreadControl.hasSyncMutex {Write : Type*} : ThreadControl Write → Bool
  | loadAgain _ | copying _ | storing _ | storeLast _ | releasing => true
  | idle | writing _ | readClock | loadLast _ | tryLock _ | lockSync => false

/-- What a thread does next. -/
inductive ThreadAction (Write Read : Type*) where
  | write (write : Write)
  | read (read : Read)
  | sync
  /-- `maybe_sync` from the timer thread. -/
  | maybeSync
  | clock (now : Int64)
  /-- A `try_lock` may fail though the mutex is free. -/
  | tryLock (fails : Bool)
  /-- The next step where there is one only. -/
  | proceed

/-- What the map makes of its buffers. -/
structure Buffering (Buffer Write Read Answer : Type*) where
  initial : Buffer
  write : Write → Buffer → Buffer
  /-- Whether the writer goes on to `maybe_sync`. -/
  goesOn : Write → Buffer → Bool
  answer : Read → Buffer → Answer

structure DoubleBufferedMap (Thread Buffer Write Answer : Type*) where
  writeBuf : Buffer
  readSnp : Buffer
  lastSyncMs : Int64
  syncMutex : Option Thread := none
  control : Thread → ThreadControl Write := fun _ => .idle
  /-- `new_snp` of the thread, once it is set. -/
  newSnp : Thread → Buffer
  /-- The writes in the order they took `write_mutex_`. -/
  writes : List Write := []
  /-- What the reads so far have returned. -/
  answers : List Answer := []

namespace DoubleBufferedMap

variable {Thread Buffer Write Read Answer : Type*}

/-- The constructor, with what the clock says there. -/
def constructed (buffering : Buffering Buffer Write Read Answer) (now : Int64) :
    DoubleBufferedMap Thread Buffer Write Answer :=
  { writeBuf := buffering.initial, readSnp := buffering.initial, lastSyncMs := now, newSnp := fun _ => buffering.initial }

/-- The first line of `maybe_sync`. -/
def maybeSync (interval : UInt64) : ThreadControl Write := if interval = 0 then .idle else .readClock

/-- The check of the interval. -/
def isEarly (map : DoubleBufferedMap Thread Buffer Write Answer) (interval : UInt64) (now : Int64) : Bool :=
  now - map.lastSyncMs < interval.toInt64

def moveTo [DecidableEq Thread] (map : DoubleBufferedMap Thread Buffer Write Answer) (thread : Thread)
    (control : ThreadControl Write) : DoubleBufferedMap Thread Buffer Write Answer :=
  { map with control := Function.update map.control thread control }

/-- A step of a thread; one that is not possible there leaves everything as it is. -/
def act [DecidableEq Thread] (buffering : Buffering Buffer Write Read Answer) (interval : UInt64)
    (map : DoubleBufferedMap Thread Buffer Write Answer) (thread : Thread) (action : ThreadAction Write Read) :
    DoubleBufferedMap Thread Buffer Write Answer :=
  match map.control thread, action with
  | .idle, .write write => map.moveTo thread (.writing write)
  | .idle, .read read => { map with answers := map.answers ++ [buffering.answer read map.readSnp] }
  | .idle, .sync => map.moveTo thread .lockSync
  | .idle, .maybeSync => map.moveTo thread (maybeSync interval)
  | .writing write, .proceed =>
    { map with
      writeBuf := buffering.write write map.writeBuf
      writes := map.writes ++ [write] }.moveTo thread
        (if buffering.goesOn write map.writeBuf then maybeSync interval else .idle)
  | .readClock, .clock now => map.moveTo thread (.loadLast now)
  | .loadLast now, .proceed => map.moveTo thread (if map.isEarly interval now then .idle else .tryLock now)
  | .tryLock now, .tryLock fails =>
    if map.syncMutex.isSome || fails then map.moveTo thread .idle
    else { map with syncMutex := some thread }.moveTo thread (.loadAgain now)
  | .loadAgain now, .proceed =>
    map.moveTo thread (if map.isEarly interval now then .releasing else .copying (some now))
  | .lockSync, .proceed =>
    -- A thread waits here as long as another has the mutex.
    if map.syncMutex.isSome then map else { map with syncMutex := some thread }.moveTo thread (.copying none)
  | .copying now, .proceed =>
    { map with newSnp := Function.update map.newSnp thread map.writeBuf }.moveTo thread (.storing now)
  | .storing now, .proceed =>
    { map with readSnp := map.newSnp thread }.moveTo thread (now.elim .releasing .storeLast)
  | .storeLast now, .proceed => { map with lastSyncMs := now }.moveTo thread .releasing
  | .releasing, .proceed => { map with syncMutex := none }.moveTo thread .idle
  | _, _ => map

def step [DecidableEq Thread] (buffering : Buffering Buffer Write Read Answer) (interval : UInt64)
    (map : DoubleBufferedMap Thread Buffer Write Answer) (event : Thread × ThreadAction Write Read) :
    DoubleBufferedMap Thread Buffer Write Answer :=
  map.act buffering interval event.1 event.2

/-! ## What a step can do -/

/-- The threads with `sync_mutex_` are those between taking and releasing it. -/
def Guarded (map : DoubleBufferedMap Thread Buffer Write Answer) : Prop :=
  ∀ thread, (map.control thread).hasSyncMutex = true ↔ map.syncMutex = some thread

inductive Moves [DecidableEq Thread] (buffering : Buffering Buffer Write Read Answer)
    (map : DoubleBufferedMap Thread Buffer Write Answer) (thread : Thread) :
    DoubleBufferedMap Thread Buffer Write Answer → Prop where
  | stays : Moves buffering map thread map
  | reads (read : Read) :
      Moves buffering map thread { map with answers := map.answers ++ [buffering.answer read map.readSnp] }
  /-- Between steps that touch nothing shared, without the mutex. -/
  | outside (control : ThreadControl Write) (before : (map.control thread).hasSyncMutex = false)
      (notWaiting : map.control thread ≠ .lockSync) (after : control.hasSyncMutex = false) :
      Moves buffering map thread (map.moveTo thread control)
  | writes (write : Write) (control : ThreadControl Write) (isWriting : map.control thread = .writing write)
      (after : control.hasSyncMutex = false) :
      Moves buffering map thread
        ({ map with writeBuf := buffering.write write map.writeBuf, writes := map.writes ++ [write] }.moveTo thread control)
  | triesLock (now : Int64) (isTrying : map.control thread = .tryLock now) (isFree : map.syncMutex = none) :
      Moves buffering map thread ({ map with syncMutex := some thread }.moveTo thread (.loadAgain now))
  | locks (isWaiting : map.control thread = .lockSync) (isFree : map.syncMutex = none) :
      Moves buffering map thread ({ map with syncMutex := some thread }.moveTo thread (.copying none))
  | checks (now : Int64) (control : ThreadControl Write) (isChecking : map.control thread = .loadAgain now)
      (after : control = .releasing ∨ control = .copying (some now)) :
      Moves buffering map thread (map.moveTo thread control)
  | copies (now : Option Int64) (isCopying : map.control thread = .copying now) :
      Moves buffering map thread
        ({ map with newSnp := Function.update map.newSnp thread map.writeBuf }.moveTo thread (.storing now))
  | stores (now : Option Int64) (isStoring : map.control thread = .storing now) :
      Moves buffering map thread
        ({ map with readSnp := map.newSnp thread }.moveTo thread (now.elim .releasing .storeLast))
  | storesLast (now : Int64) (isStoring : map.control thread = .storeLast now) :
      Moves buffering map thread ({ map with lastSyncMs := now }.moveTo thread .releasing)
  | releases (isReleasing : map.control thread = .releasing) :
      Moves buffering map thread ({ map with syncMutex := none }.moveTo thread .idle)

theorem hasSyncMutex_maybeSync (interval : UInt64) :
    (maybeSync interval : ThreadControl Write).hasSyncMutex = false := by
  rw [maybeSync]
  split <;> rfl

theorem moves_act [DecidableEq Thread] (buffering : Buffering Buffer Write Read Answer) (interval : UInt64)
    (map : DoubleBufferedMap Thread Buffer Write Answer) (thread : Thread) (action : ThreadAction Write Read) :
    Moves buffering map thread (map.act buffering interval thread action) := by
  unfold act
  -- The cases come in the order of the steps of `act`.
  split
  · rename_i write control
    exact .outside _ (by rw [control]; rfl) (by rw [control]; exact nofun) rfl
  · rename_i read control
    exact .reads read
  · rename_i control
    exact .outside _ (by rw [control]; rfl) (by rw [control]; exact nofun) rfl
  · rename_i control
    exact .outside _ (by rw [control]; rfl) (by rw [control]; exact nofun) (hasSyncMutex_maybeSync interval)
  · rename_i write control
    refine .writes write _ control ?_
    split
    · exact hasSyncMutex_maybeSync interval
    · rfl
  · rename_i now control
    exact .outside _ (by rw [control]; rfl) (by rw [control]; exact nofun) rfl
  · rename_i now control
    refine .outside _ (by rw [control]; rfl) (by rw [control]; exact nofun) ?_
    split <;> rfl
  · rename_i now fails control
    split
    · exact .outside _ (by rw [control]; rfl) (by rw [control]; exact nofun) rfl
    · -- Neither held nor failing by chance.
      rename_i mayLock
      rw [Bool.or_eq_true, not_or] at mayLock
      exact .triesLock now control (Option.not_isSome_iff_eq_none.mp mayLock.1)
  · rename_i now control
    refine .checks now _ control ?_
    split
    · exact .inl rfl
    · exact .inr rfl
  · rename_i control
    split
    · exact .stays
    · rename_i isFree
      exact .locks control (Option.not_isSome_iff_eq_none.mp isFree)
  · rename_i now control
    exact .copies now control
  · rename_i now control
    exact .stores now control
  · rename_i now control
    exact .storesLast now control
  · rename_i control
    exact .releases control
  · exact .stays

/-! ## Images of runs -/

/-- The two make the same of corresponding buffers. -/
structure Corresponds {Other : Type*} (f : Buffer → Other) (buffering : Buffering Buffer Write Read Answer)
    (other : Buffering Other Write Read Answer) : Prop where
  initial : f buffering.initial = other.initial
  write : ∀ write buffer, f (buffering.write write buffer) = other.write write (f buffer)
  goesOn : ∀ write buffer, other.goesOn write (f buffer) = buffering.goesOn write buffer
  answer : ∀ read buffer, other.answer read (f buffer) = buffering.answer read buffer

section Image

variable {Other : Type*} {f : Buffer → Other} {buffering : Buffering Buffer Write Read Answer}
  {other : Buffering Other Write Read Answer}

def image (f : Buffer → Other) (map : DoubleBufferedMap Thread Buffer Write Answer) :
    DoubleBufferedMap Thread Other Write Answer where
  writeBuf := f map.writeBuf
  readSnp := f map.readSnp
  lastSyncMs := map.lastSyncMs
  syncMutex := map.syncMutex
  control := map.control
  newSnp thread := f (map.newSnp thread)
  writes := map.writes
  answers := map.answers

theorem image_act [DecidableEq Thread] (corresponds : Corresponds f buffering other) (interval : UInt64)
    (map : DoubleBufferedMap Thread Buffer Write Answer) (thread : Thread) (action : ThreadAction Write Read) :
    (map.act buffering interval thread action).image f = (map.image f).act other interval thread action := by
  have sameControl : (map.image f).control thread = map.control thread := rfl
  cases control : map.control thread <;> cases action <;> simp only [act, control, sameControl]
  all_goals try rfl
  -- What is left are the steps that look into a buffer, or branch on the mutex.
  case idle.read read => simp only [image, corresponds.answer]
  case writing.proceed write => simp only [image, moveTo, corresponds.write, corresponds.goesOn]
  case tryLock.tryLock now fails => exact apply_ite (image f) ..
  case lockSync.proceed => exact apply_ite (image f) ..
  case copying.proceed now =>
    have sameCopy : (fun other => f (Function.update map.newSnp thread map.writeBuf other)) =
        Function.update (fun other => f (map.newSnp other)) thread (f map.writeBuf) :=
      Function.comp_update f map.newSnp thread map.writeBuf
    simp only [image, moveTo, sameCopy]

end Image

/-! ## Histories -/

/-- What writes make of a buffer. -/
def effect (buffering : Buffering Buffer Write Read Answer) (writes : List Write) : Buffer :=
  writes.foldl (fun buffer write => buffering.write write buffer) buffering.initial

/-- The same map with the writes a buffer has seen in place of the buffer. -/
def histories (buffering : Buffering Buffer Write Read Answer) : Buffering (List Write) Write Read Answer where
  initial := []
  write write seen := seen ++ [write]
  goesOn write seen := buffering.goesOn write (effect buffering seen)
  answer read seen := buffering.answer read (effect buffering seen)

theorem corresponds_histories (buffering : Buffering Buffer Write Read Answer) :
    Corresponds (effect buffering) (histories buffering) buffering where
  initial := rfl
  write _ _ := List.foldl_concat ..
  goesOn _ _ := rfl
  answer _ _ := rfl

theorem image_run [DecidableEq Thread] (buffering : Buffering Buffer Write Read Answer) (interval : UInt64) (now : Int64)
    (events : List (Thread × ThreadAction Write Read)) :
    (run (step (histories buffering) interval) (constructed (histories buffering) now) events).image
        (effect buffering) = run (step buffering interval) (constructed buffering now) events := by
  have simulates : ∀ (history : DoubleBufferedMap Thread (List Write) Write Answer) map event,
      history.image (effect buffering) = map →
        (history.step (histories buffering) interval event).image (effect buffering) =
          map.step buffering interval event := by
    rintro history map event rfl
    exact image_act (corresponds_histories buffering) interval history event.1 event.2
  exact @run_refines _ _ _ _ _ (fun history map => history.image (effect buffering) = map) simulates
    (constructed (histories buffering) now) (constructed buffering now) rfl events

/-- The snapshot, the copies of it to come and the buffer are longer and longer prefixes of the writes. -/
structure Ordered (map : DoubleBufferedMap Thread (List Write) Write Answer) : Prop where
  guarded : map.Guarded
  all : map.writeBuf = map.writes
  published : map.readSnp <+: map.writeBuf
  copied : ∀ thread now, map.control thread = .storing now →
    map.readSnp <+: map.newSnp thread ∧ map.newSnp thread <+: map.writeBuf

section Ordered

variable {buffering : Buffering Buffer Write Read Answer} {map next : DoubleBufferedMap Thread (List Write) Write Answer}
  {thread : Thread}

theorem ordered_constructed (now : Int64) :
    (constructed (histories buffering) now : DoubleBufferedMap Thread (List Write) Write Answer).Ordered where
  guarded _ := ⟨nofun, nofun⟩
  all := rfl
  published := List.prefix_refl _
  copied _ _ := nofun

/-- Only one thread is between taking and releasing the mutex. -/
theorem Guarded.unique (guarded : map.Guarded) {other : Thread} (has : (map.control thread).hasSyncMutex = true)
    (otherHas : (map.control other).hasSyncMutex = true) : other = thread :=
  Option.some.inj (((guarded other).mp otherHas).symm.trans ((guarded thread).mp has))

/-- The thread is in a `sync()` that started after these writes, or readers see them. -/
def Covers (seen : List Write) (thread : Thread) (map : DoubleBufferedMap Thread (List Write) Write Answer) : Prop :=
  seen <+: map.writeBuf ∧
    (map.control thread = .lockSync ∨ map.control thread = .copying none ∨
      map.control thread = .storing none ∧ seen <+: map.newSnp thread ∨ seen <+: map.readSnp)

/-- A `sync()` that is over has shown the readers the writes before it. -/
theorem Covers.read_of_idle {seen : List Write} (covers : Covers seen thread map) (isIdle : map.control thread = .idle) :
    seen <+: map.readSnp := by
  obtain ⟨_, other | other | ⟨other, _⟩ | isRead⟩ := covers
  · rw [isIdle] at other
    cases other
  · rw [isIdle] at other
    cases other
  · rw [isIdle] at other
    cases other
  · exact isRead

theorem Guarded.of_same {map next : DoubleBufferedMap Thread Buffer Write Answer} (guarded : map.Guarded)
    (sameMutex : next.syncMutex = map.syncMutex)
    (same : ∀ other, (next.control other).hasSyncMutex = (map.control other).hasSyncMutex) : next.Guarded := by
  intro other
  rw [same, sameMutex]
  exact guarded other

variable [DecidableEq Thread]

theorem moveTo_control_self (map : DoubleBufferedMap Thread Buffer Write Answer) (control : ThreadControl Write) :
    (map.moveTo thread control).control thread = control := Function.update_self ..

theorem moveTo_control_of_ne (map : DoubleBufferedMap Thread Buffer Write Answer) (control : ThreadControl Write)
    {other : Thread} (differs : other ≠ thread) : (map.moveTo thread control).control other = map.control other :=
  Function.update_of_ne differs ..

theorem hasSyncMutex_moveTo {map : DoubleBufferedMap Thread Buffer Write Answer} {control : ThreadControl Write}
    (same : control.hasSyncMutex = (map.control thread).hasSyncMutex) (other : Thread) :
    ((map.moveTo thread control).control other).hasSyncMutex = (map.control other).hasSyncMutex := by
  by_cases isThread : other = thread
  · rw [isThread, moveTo_control_self, same]
  · rw [moveTo_control_of_ne map control isThread]

theorem Guarded.take {map : DoubleBufferedMap Thread Buffer Write Answer} (guarded : map.Guarded)
    (isFree : map.syncMutex = none) {control : ThreadControl Write} (has : control.hasSyncMutex = true) :
    ({ map with syncMutex := some thread }.moveTo thread control).Guarded := by
  intro other
  by_cases isThread : other = thread
  · rw [isThread, moveTo_control_self]
    exact iff_of_true has rfl
  · rw [moveTo_control_of_ne _ control isThread]
    refine iff_of_false (fun otherHas => ?_) fun same => isThread (Option.some.inj same).symm
    -- Another thread that has the mutex would be its owner.
    have isOwner := (guarded other).mp otherHas
    rw [isFree] at isOwner
    cases isOwner

theorem Guarded.give {map : DoubleBufferedMap Thread Buffer Write Answer} (guarded : map.Guarded)
    (has : (map.control thread).hasSyncMutex = true) :
    ({ map with syncMutex := none }.moveTo thread .idle).Guarded := by
  intro other
  by_cases isThread : other = thread
  · rw [isThread, moveTo_control_self]
    exact ⟨nofun, nofun⟩
  · rw [moveTo_control_of_ne _ _ isThread]
    refine iff_of_false (fun otherHas => ?_) nofun
    have isOwner := (guarded other).mp otherHas
    rw [(guarded thread).mp has] at isOwner
    exact isThread (Option.some.inj isOwner).symm

theorem Guarded.moves {buffering : Buffering Buffer Write Read Answer}
    {map next : DoubleBufferedMap Thread Buffer Write Answer} (guarded : map.Guarded)
    (moves : Moves buffering map thread next) : next.Guarded := by
  cases moves with
  | stays | reads read => exact guarded
  | outside control before _ after => exact guarded.of_same rfl (hasSyncMutex_moveTo (after.trans before.symm))
  | writes write control isWriting after =>
    exact guarded.of_same rfl (hasSyncMutex_moveTo (after.trans (by rw [isWriting]; rfl)))
  | triesLock now _ isFree => exact guarded.take isFree rfl
  | locks _ isFree => exact guarded.take isFree rfl
  | checks now control isChecking after =>
    refine guarded.of_same rfl (hasSyncMutex_moveTo ?_)
    rw [isChecking]
    obtain rfl | rfl := after <;> rfl
  | copies now isCopying => exact guarded.of_same rfl (hasSyncMutex_moveTo (by rw [isCopying]; rfl))
  | stores now isStoring =>
    refine guarded.of_same rfl (hasSyncMutex_moveTo ?_)
    rw [isStoring]
    cases now <;> rfl
  | storesLast now isStoring => exact guarded.of_same rfl (hasSyncMutex_moveTo (by rw [isStoring]; rfl))
  | releases isReleasing => exact guarded.give (by rw [isReleasing]; rfl)

/-- A thread that is about to publish was so before, or has just copied the buffer. -/
theorem storing_of_moveTo {map : DoubleBufferedMap Thread Buffer Write Answer} {control : ThreadControl Write}
    (notStoring : ∀ now, control ≠ .storing now) {other : Thread} {now : Option Int64}
    (isStoring : (map.moveTo thread control).control other = .storing now) :
    other ≠ thread ∧ map.control other = .storing now := by
  by_cases isThread : other = thread
  · rw [isThread, moveTo_control_self] at isStoring
    exact absurd isStoring (notStoring now)
  · rw [moveTo_control_of_ne map control isThread] at isStoring
    exact ⟨isThread, isStoring⟩

theorem Ordered.moves (ordered : map.Ordered) (moves : Moves (histories buffering) map thread next) : next.Ordered := by
  have stillCopied {control : ThreadControl Write} (notStoring : ∀ now, control ≠ .storing now) :
      ∀ other now, (map.moveTo thread control).control other = .storing now →
        map.readSnp <+: map.newSnp other ∧ map.newSnp other <+: map.writeBuf :=
    fun other now isStoring => ordered.copied other now (storing_of_moveTo notStoring isStoring).2
  have guarded := ordered.guarded.moves moves
  cases moves with
  | stays => exact ordered
  | reads read => exact ⟨guarded, ordered.all, ordered.published, ordered.copied⟩
  | outside control _ _ after =>
    refine ⟨guarded, ordered.all, ordered.published, stillCopied ?_⟩
    rintro now rfl
    cases after
  | writes write control isWriting after =>
    have longer : map.writeBuf <+: map.writeBuf ++ [write] := List.prefix_append _ _
    refine ⟨guarded, congrArg (· ++ [write]) ordered.all, ordered.published.trans longer, fun other now isStoring => ?_⟩
    have notStoring : ∀ now, control ≠ .storing now := by
      rintro now rfl
      cases after
    obtain ⟨older, copied⟩ := stillCopied notStoring other now isStoring
    exact ⟨older, copied.trans longer⟩
  | triesLock now => exact ⟨guarded, ordered.all, ordered.published, stillCopied fun _ => nofun⟩
  | locks => exact ⟨guarded, ordered.all, ordered.published, stillCopied fun _ => nofun⟩
  | checks now control _ after =>
    refine ⟨guarded, ordered.all, ordered.published, stillCopied ?_⟩
    obtain rfl | rfl := after <;> exact fun _ => nofun
  | copies now isCopying =>
    refine ⟨guarded, ordered.all, ordered.published, fun other otherNow isStoring => ?_⟩
    simp only [moveTo]
    by_cases isThread : other = thread
    · -- The fresh copy is the buffer itself.
      rw [isThread, Function.update_self]
      exact ⟨ordered.published, List.prefix_refl _⟩
    · rw [Function.update_of_ne isThread]
      rw [moveTo_control_of_ne _ _ isThread] at isStoring
      exact ordered.copied other otherNow isStoring
  | stores now isStoring =>
    obtain ⟨older, copied⟩ := ordered.copied thread now isStoring
    refine ⟨guarded, ordered.all, copied, fun other otherNow otherStoring => ?_⟩
    -- No other thread has a copy to publish.
    have notStoring : ∀ now', now.elim (ThreadControl.releasing : ThreadControl Write) .storeLast ≠ .storing now' := by
      cases now <;> exact fun _ => nofun
    obtain ⟨differs, wasStoring⟩ := storing_of_moveTo notStoring otherStoring
    refine absurd (ordered.guarded.unique ?_ ?_) differs
    · rw [isStoring]; rfl
    · exact (congrArg ThreadControl.hasSyncMutex wasStoring).trans rfl
  | storesLast now => exact ⟨guarded, ordered.all, ordered.published, stillCopied fun _ => nofun⟩
  | releases => exact ⟨guarded, ordered.all, ordered.published, stillCopied fun _ => nofun⟩

/-- What readers see never gets shorter, nor does the buffer. -/
theorem Ordered.prefix_of_moves (ordered : map.Ordered) (moves : Moves (histories buffering) map thread next) :
    map.readSnp <+: next.readSnp ∧ map.writeBuf <+: next.writeBuf := by
  cases moves with
  | writes write => exact ⟨List.prefix_refl _, List.prefix_append _ _⟩
  | stores now isStoring => exact ⟨(ordered.copied thread now isStoring).1, List.prefix_refl _⟩
  | stays | reads | outside | triesLock | locks | checks | copies | storesLast | releases =>
    exact ⟨List.prefix_refl _, List.prefix_refl _⟩

/-! ### An explicit `sync()` -/

theorem control_of_moves {buffering : Buffering Buffer Write Read Answer}
    {map next : DoubleBufferedMap Thread Buffer Write Answer} (moves : Moves buffering map thread next) {other : Thread}
    (differs : other ≠ thread) : next.control other = map.control other ∧ next.newSnp other = map.newSnp other := by
  cases moves with
  | stays | reads => exact ⟨rfl, rfl⟩
  | copies => exact ⟨moveTo_control_of_ne _ _ differs, Function.update_of_ne differs ..⟩
  | outside | writes | triesLock | locks | checks | stores | storesLast | releases =>
    exact ⟨moveTo_control_of_ne _ _ differs, rfl⟩

theorem Covers.moves_self {seen : List Write} (covers : Covers seen thread map)
    (moves : Moves (histories buffering) map thread next) (notYet : ¬ seen <+: map.readSnp) :
    next.control thread = .lockSync ∨ next.control thread = .copying none ∨
      next.control thread = .storing none ∧ seen <+: next.newSnp thread ∨ seen <+: next.readSnp := by
  obtain ⟨inBuffer, isWaiting | isCopying | ⟨isStoring, inCopy⟩ | isRead⟩ := covers
  -- A thread in `sync()` has one way on: it locks, copies and stores.
  · cases moves with
    | stays | reads => exact .inl isWaiting
    | outside control before notWaiting => exact absurd isWaiting notWaiting
    | locks => exact .inr (.inl (moveTo_control_self _ _))
    | writes _ _ other | triesLock _ other | checks _ _ other | copies _ other | stores _ other | storesLast _ other
    | releases other =>
      rw [isWaiting] at other
      cases other
  · cases moves with
    | stays | reads => exact .inr (.inl isCopying)
    | copies now isNow =>
      rw [isCopying] at isNow
      obtain rfl := ThreadControl.copying.inj isNow
      refine .inr (.inr (.inl ⟨moveTo_control_self _ _, ?_⟩))
      simp only [moveTo, Function.update_self]
      exact inBuffer
    | outside control before =>
      rw [isCopying] at before
      cases before
    | writes _ _ other | triesLock _ other | locks other | checks _ _ other | stores _ other | storesLast _ other
    | releases other =>
      rw [isCopying] at other
      cases other
  · cases moves with
    | stays | reads => exact .inr (.inr (.inl ⟨isStoring, inCopy⟩))
    | stores => exact .inr (.inr (.inr inCopy))
    | outside control before =>
      rw [isStoring] at before
      cases before
    | writes _ _ other | triesLock _ other | locks other | checks _ _ other | copies _ other | storesLast _ other
    | releases other =>
      rw [isStoring] at other
      cases other
  · exact absurd isRead notYet

theorem Covers.moves {seen : List Write} {mover : Thread} (ordered : map.Ordered) (covers : Covers seen thread map)
    (moves : Moves (histories buffering) map mover next) : Covers seen thread next := by
  obtain ⟨readOn, longer⟩ := ordered.prefix_of_moves moves
  refine ⟨covers.1.trans longer, ?_⟩
  by_cases isRead : seen <+: map.readSnp
  · -- Once readers see the writes, they keep seeing them.
    exact .inr (.inr (.inr (isRead.trans readOn)))
  by_cases isThread : thread = mover
  · subst isThread
    exact covers.moves_self moves isRead
  · obtain ⟨sameControl, sameCopy⟩ := control_of_moves moves isThread
    rw [sameControl, sameCopy]
    exact covers.2.imp_right (Or.imp_right (Or.imp_right fun read => absurd read isRead))

end Ordered

/-! ## Runs -/

section Runs

variable [DecidableEq Thread]

/-- The map after so many of the steps. -/
def stateAt (buffering : Buffering Buffer Write Read Answer) (interval : UInt64) (now : Int64)
    (events : List (Thread × ThreadAction Write Read)) (index : Nat) : DoubleBufferedMap Thread Buffer Write Answer :=
  run (step buffering interval) (constructed buffering now) (events.take index)

variable (buffering : Buffering Buffer Write Read Answer) (interval : UInt64) (now : Int64)
  (events : List (Thread × ThreadAction Write Read))

theorem stateAt_add (first more : Nat) :
    stateAt buffering interval now events (first + more) =
      run (step buffering interval) (stateAt buffering interval now events first) ((events.drop first).take more) := by
  rw [stateAt, stateAt, ← run_append, List.take_add]

theorem stateAt_succ {index : Nat} {event : Thread × ThreadAction Write Read} (isNext : events[index]? = some event) :
    stateAt buffering interval now events (index + 1) =
      (stateAt buffering interval now events index).step buffering interval event := by
  rw [stateAt, List.take_add_one, isNext, Option.toList_some, run_concat, stateAt]

theorem ordered_stateAt (index : Nat) : (stateAt (histories buffering) interval now events index).Ordered :=
  run_invariant Ordered
    (fun map event ordered => ordered.moves (moves_act (histories buffering) interval map event.1 event.2)) _
    (ordered_constructed now) _

theorem prefix_stateAt {first second : Nat} (later : first ≤ second) :
    (stateAt (histories buffering) interval now events first).readSnp <+:
      (stateAt (histories buffering) interval now events second).readSnp := by
  obtain ⟨more, rfl⟩ := Nat.exists_eq_add_of_le later
  rw [stateAt_add]
  refine (run_invariant (fun map : DoubleBufferedMap Thread (List Write) Write Answer => map.Ordered ∧
    (stateAt (histories buffering) interval now events first).readSnp <+: map.readSnp) ?_ _
      ⟨ordered_stateAt buffering interval now events first, List.prefix_refl _⟩ _).2
  rintro map ⟨thread, action⟩ ⟨ordered, longer⟩
  have moves := moves_act (histories buffering) interval map thread action
  exact ⟨ordered.moves moves, longer.trans (ordered.prefix_of_moves moves).1⟩

theorem covers_stateAt {first more : Nat} {thread : Thread} {seen : List Write}
    (covers : Covers seen thread (stateAt (histories buffering) interval now events first)) :
    Covers seen thread (stateAt (histories buffering) interval now events (first + more)) := by
  rw [stateAt_add]
  refine (run_invariant (fun map : DoubleBufferedMap Thread (List Write) Write Answer => map.Ordered ∧
    Covers seen thread map) ?_ _ ⟨ordered_stateAt buffering interval now events first, covers⟩ _).2
  rintro map ⟨mover, action⟩ ⟨ordered, covers⟩
  have moves := moves_act (histories buffering) interval map mover action
  exact ⟨ordered.moves moves, covers.moves ordered moves⟩

end Runs

end DoubleBufferedMap

/-! ## Maps -/

inductive MapWrite (Key Value : Type*) where
  | insertOrAssign (key : Key) (value : Value)
  | emplace (key : Key) (value : Value)
  | erase (key : Key)
  | clear
  /-- The function changes the value it is given, and may throw afterwards. -/
  | execOnKey (key : Key) (func : Value → Value) (throws : Bool)

inductive MapRead (Key Value : Type*) where
  | find (key : Key)
  | contains (key : Key)
  /-- `at`, and `operator[]`. -/
  | atKey (key : Key)
  | size
  | empty
  | forEach (order : Reordering (Key × Value))

variable {Thread Key Value : Type*} [DecidableEq Key]

def MapRead.answer (map : OrdinaryMap Key Value) : MapRead Key Value → MapObservation Key Value
  | find key => .found (map.find key)
  | contains key => .flag (map.find key).isSome
  -- A key that is not there is an exception.
  | atKey key => (map.find key).elim .nothing .value
  | size => .count map.rows.length
  | empty => .flag map.rows.isEmpty
  | forEach order => .visited (order.apply map.rows)

variable [Inhabited Value]

/-- The critical sections under `write_mutex_`. -/
def MapWrite.apply (map : OrdinaryMap Key Value) : MapWrite Key Value → OrdinaryMap Key Value
  | insertOrAssign key value => map.assign key value
  | emplace key value => if (map.find key).isSome then map else map.assign key value
  | erase key => map.remove key
  | clear => ∅
  | execOnKey key func _ => map.assign key (func ((map.find key).getD default))

/-- An `emplace` that inserts nothing returns, and so does a function that throws. -/
def MapWrite.goesOn (map : OrdinaryMap Key Value) : MapWrite Key Value → Bool
  | emplace key _ => (map.find key).isNone
  | execOnKey _ _ throws => !throws
  | insertOrAssign _ _ | erase _ | clear => true

def mapBuffering : Buffering (OrdinaryMap Key Value) (MapWrite Key Value) (MapRead Key Value) (MapObservation Key Value)
    where
  initial := ∅
  write write map := write.apply map
  goesOn write map := write.goesOn map
  answer read map := read.answer map

/-- What writes make of the empty map. -/
def effectOf (writes : List (MapWrite Key Value)) : OrdinaryMap Key Value := writes.foldl MapWrite.apply ∅

variable [DecidableEq Thread]

open DoubleBufferedMap

/-- However the steps of the threads are interleaved, and whatever the clocks say: what is read is the effect of a prefix
of the writes in the order they took the mutex, the prefix never gets shorter, and once a `sync()` is over it has all
writes that took the mutex before the `sync()` started. -/
theorem reads_see_prefixes (interval : UInt64) (now : Int64)
    (events : List (Thread × ThreadAction (MapWrite Key Value) (MapRead Key Value))) :
    ∃ seen : Nat → List (MapWrite Key Value),
      (∀ index, seen index <+: (stateAt mapBuffering interval now events index).writes ∧
        (stateAt mapBuffering interval now events index).readSnp = effectOf (seen index)) ∧
      (∀ first second, first ≤ second → seen first <+: seen second) ∧
      (∀ index thread read, events[index]? = some (thread, .read read) →
        (stateAt mapBuffering interval now events index).control thread = .idle →
          (stateAt mapBuffering interval now events (index + 1)).answers =
            (stateAt mapBuffering interval now events index).answers ++ [read.answer (effectOf (seen index))]) ∧
      ∀ started finished thread, events[started]? = some (thread, .sync) →
        (stateAt mapBuffering interval now events started).control thread = .idle → started < finished →
          (stateAt mapBuffering interval now events finished).control thread = .idle →
            (stateAt mapBuffering interval now events started).writes <+: seen finished := by
  have same (index : Nat) : stateAt mapBuffering interval now events index =
      (stateAt (histories mapBuffering) interval now events index).image (effect mapBuffering) :=
    (image_run mapBuffering interval now (events.take index)).symm
  refine ⟨fun index => (stateAt (histories mapBuffering) interval now events index).readSnp, fun index => ?_, ?_, ?_, ?_⟩
  · have ordered := ordered_stateAt mapBuffering interval now events index
    rw [same index]
    exact ⟨ordered.all ▸ ordered.published, rfl⟩
  · exact fun first second later => prefix_stateAt mapBuffering interval now events later
  · intro index thread read isNext isIdle
    -- A read is one step on the snapshot.
    rw [stateAt_succ mapBuffering interval now events isNext, step]
    simp only [act, isIdle]
    rw [same index]
    rfl
  · intro started finished thread isNext isIdle later isIdleAgain
    obtain ⟨more, rfl⟩ := Nat.exists_eq_add_of_le later
    rw [same started] at isIdle ⊢
    rw [same (started + 1 + more)] at isIdleAgain
    refine (covers_stateAt mapBuffering interval now events ?_).read_of_idle isIdleAgain
    -- The `sync()` waits for the mutex, and the buffer has the writes before it.
    have isStarted : (stateAt (histories mapBuffering) interval now events started).control thread = .idle := isIdle
    have waits : stateAt (histories mapBuffering) interval now events (started + 1) =
        (stateAt (histories mapBuffering) interval now events started).moveTo thread .lockSync := by
      rw [stateAt_succ (histories mapBuffering) interval now events isNext, step]
      simp only [act, isStarted]
    rw [waits]
    refine ⟨?_, .inl (moveTo_control_self _ _)⟩
    exact (ordered_stateAt mapBuffering interval now events started).all ▸ List.prefix_refl _

/-- A reader sees a write after the `sync()` of another thread, not before. -/
example :
    (run (step mapBuffering 0) (constructed mapBuffering 0)
      [(1, .write (.insertOrAssign 5 50)), (1, .proceed), (2, .read (.find 5)), (3, .sync), (3, .proceed), (3, .proceed),
        (3, .proceed), (2, .read (.find 5)), (3, .proceed)] : DoubleBufferedMap Nat (OrdinaryMap Nat Nat) _ _).answers =
      [.found none, .found (some 50)] := rfl

end AbilityFramework.Util
