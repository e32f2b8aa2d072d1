import AbilityFramework.LifecycleMgr.HeartbeatMap
import AbilityFramework.Library.Runs

/-! # The clean-up of stale heartbeats

`clear_stale_heartbeats` reads the clock, goes through the shards of the map to list the ids that are
stale by then, and erases the listed ids one by one.  Each of these is a step of its own, and heartbeats
are recorded in between.  An id is erased without another look at its entry, so a heartbeat that comes
after the id was listed is lost with it: only stale entries are removed exactly in the runs in which every
heartbeat of a listed id is a minute old by the time the id is erased (`removesStale_iff`). -/

namespace AbilityFramework.LifecycleMgr

open Library Library.Runs

variable {shardIndex : Uuid → Fin 8}

/-- Where `clear_stale_heartbeats` stands. -/
inductive Cleaner where
  | idle
  /-- In `for_each`: the shards before this one have been visited. -/
  | visiting (now : Nat) (shard : Nat) (staleIds : List Uuid)
  | erasing (staleIds : List Uuid)

def Cleaner.listed : Cleaner → List Uuid
  | .idle => []
  | .visiting _ _ ids => ids
  | .erasing ids => ids

/-- The id that the next step erases. -/
def Cleaner.next : Cleaner → Option Uuid
  | .erasing (id :: _) => some id
  | .erasing [] | .visiting _ _ _ | .idle => none

theorem Cleaner.listed_of_next {cleaner : Cleaner} {id : Uuid} (next : cleaner.next = some id) :
    id ∈ cleaner.listed := by
  cases cleaner with
  | idle => cases next
  | visiting now shard ids => cases next
  | erasing ids =>
    cases ids with
    | nil => cases next
    | cons first ids =>
      cases next
      exact List.mem_cons_self

structure CleanUp (shardIndex : Uuid → Fin 8) where
  heartbeats : HeartbeatMap shardIndex
  clock : Nat
  cleaner : Cleaner

def CleanUp.start (heartbeats : HeartbeatMap shardIndex) (clock : Nat) : CleanUp shardIndex :=
  ⟨heartbeats, clock, .idle⟩

inductive CleanUpEvent where
  | tick (elapsed : Nat)
  /-- `on_heartbeat` records a heartbeat that has been accepted. -/
  | record (heartbeat : Heartbeat)
  /-- `clear_stale_heartbeats` is called, or goes on. -/
  | clear

def clearStep (state : CleanUp shardIndex) : CleanUp shardIndex :=
  match state.cleaner with
  | .idle => { state with cleaner := .visiting state.clock 0 [] }
  | .visiting now shard ids =>
    if inRange : shard < 8 then
      { state with
        cleaner := .visiting now (shard + 1) (ids ++ staleIds now (state.heartbeats.visit ⟨shard, inRange⟩)) }
    else { state with cleaner := .erasing ids }
  | .erasing [] => { state with cleaner := .idle }
  | .erasing (id :: ids) => { state with heartbeats := state.heartbeats.erase id, cleaner := .erasing ids }

def cleanUpStep (state : CleanUp shardIndex) : CleanUpEvent → CleanUp shardIndex
  | .tick elapsed => { state with clock := state.clock + elapsed }
  | .record heartbeat => { state with heartbeats := record state.heartbeats heartbeat state.clock }
  | .clear => clearStep state

/-- If the step removes an entry, its last update is a minute ago. -/
def RemovesStale (state : CleanUp shardIndex) (event : CleanUpEvent) : Prop :=
  event = .clear → ∀ id entry, state.cleaner.next = some id → state.heartbeats.find id = some entry →
    entry.lastUpdate + maxHeartbeatValidTime ≤ state.clock

/-! ## The list of stale ids -/

variable {state : CleanUp shardIndex}

/-- The listed ids are distinct, and their entries are still there. -/
structure Scanned (state : CleanUp shardIndex) : Prop where
  present : ∀ id ∈ state.cleaner.listed, ∃ entry, state.heartbeats.find id = some entry
  nodup : state.cleaner.listed.Nodup
  visited : ∀ now shard ids, state.cleaner = .visiting now shard ids →
    now ≤ state.clock ∧ ∀ id ∈ ids, (shardIndex id).val < shard

/-- What one step of the clean-up does. -/
theorem clearStep_cases (state : CleanUp shardIndex) :
    (state.cleaner = .idle ∧ clearStep state = { state with cleaner := .visiting state.clock 0 [] }) ∨
    (∃ now shard ids, ∃ inRange : shard < 8, state.cleaner = .visiting now shard ids ∧ clearStep state =
      { state with
        cleaner := .visiting now (shard + 1)
          (ids ++ staleIds now (state.heartbeats.visit ⟨shard, inRange⟩)) }) ∨
    (∃ now shard ids, state.cleaner = .visiting now shard ids ∧
      clearStep state = { state with cleaner := .erasing ids }) ∨
    (state.cleaner = .erasing [] ∧ clearStep state = { state with cleaner := .idle }) ∨
    ∃ id ids, state.cleaner = .erasing (id :: ids) ∧ clearStep state =
      { state with heartbeats := state.heartbeats.erase id, cleaner := .erasing ids } := by
  unfold clearStep
  split
  · rename_i idle
    exact .inl ⟨idle, rfl⟩
  · rename_i now shard ids visiting
    split
    · rename_i inRange
      exact .inr (.inl ⟨now, shard, ids, inRange, visiting, rfl⟩)
    · exact .inr (.inr (.inl ⟨now, shard, ids, visiting, rfl⟩))
  · rename_i done
    exact .inr (.inr (.inr (.inl ⟨done, rfl⟩)))
  · rename_i id ids erasing
    exact .inr (.inr (.inr (.inr ⟨id, ids, erasing, rfl⟩)))

theorem mem_staleIds_visit {heartbeats : HeartbeatMap shardIndex} {now : Nat} {index : Fin 8} {id : Uuid} :
    id ∈ staleIds now (heartbeats.visit index) ↔
      shardIndex id = index ∧ ∃ entry, heartbeats.find id = some entry ∧ entry.isStale now = true := by
  simp only [mem_staleIds, ShardedLockMap.mem_visit]
  constructor
  · rintro ⟨entry, ⟨inShard, found⟩, stale⟩
    exact ⟨inShard, entry, found, stale⟩
  · rintro ⟨inShard, entry, found, stale⟩
    exact ⟨entry, ⟨inShard, found⟩, stale⟩

theorem nodup_staleIds (heartbeats : HeartbeatMap shardIndex) (now : Nat) (index : Fin 8) :
    (staleIds now (heartbeats.visit index)).Nodup :=
  (List.filter_sublist.map Prod.fst).nodup (heartbeats.nodup_visit index)

/-- An id that is listed after the step was listed before, or its entry has just been seen to be stale. -/
theorem listed_clear {id : Uuid} (listed : id ∈ (clearStep state).cleaner.listed) :
    id ∈ state.cleaner.listed ∨ ∃ now shard ids entry, state.cleaner = .visiting now shard ids ∧
      state.heartbeats.find id = some entry ∧ entry.isStale now = true := by
  obtain ⟨_, next⟩ | ⟨now, shard, ids, inRange, visiting, next⟩ | ⟨now, shard, ids, visiting, next⟩ |
    ⟨_, next⟩ | ⟨erased, ids, erasing, next⟩ := clearStep_cases state
  · rw [next] at listed
    exact absurd listed List.not_mem_nil
  · rw [next] at listed
    simp only [Cleaner.listed, List.mem_append, mem_staleIds_visit] at listed
    obtain old | ⟨_, entry, found, stale⟩ := listed
    · rw [visiting]
      exact .inl old
    · exact .inr ⟨now, shard, ids, entry, visiting, found, stale⟩
  · rw [next] at listed
    rw [visiting]
    exact .inl listed
  · rw [next] at listed
    exact absurd listed List.not_mem_nil
  · rw [next] at listed
    rw [erasing]
    exact .inl (List.mem_cons_of_mem erased listed)

/-- The clean-up writes no entry. -/
theorem find_clear {id : Uuid} {entry : Entry} (found : (clearStep state).heartbeats.find id = some entry) :
    state.heartbeats.find id = some entry := by
  obtain ⟨_, next⟩ | ⟨_, _, _, _, _, next⟩ | ⟨_, _, _, _, next⟩ | ⟨_, next⟩ | ⟨erased, _, _, next⟩ :=
    clearStep_cases state
  · rwa [next] at found
  · rwa [next] at found
  · rwa [next] at found
  · rwa [next] at found
  · rw [next] at found
    by_cases same : id = erased
    · rw [same, ShardedLockMap.find_erase_self] at found
      cases found
    · rwa [ShardedLockMap.find_erase_of_ne _ same] at found

theorem clock_clear (state : CleanUp shardIndex) : (clearStep state).clock = state.clock := by
  obtain ⟨_, next⟩ | ⟨_, _, _, _, _, next⟩ | ⟨_, _, _, _, next⟩ | ⟨_, next⟩ | ⟨_, _, _, next⟩ := clearStep_cases state
  all_goals rw [next]

theorem Scanned.clear (scanned : Scanned state) : Scanned (clearStep state) := by
  obtain ⟨_, next⟩ | ⟨now, shard, ids, inRange, visiting, next⟩ | ⟨now, shard, ids, visiting, next⟩ |
    ⟨_, next⟩ | ⟨id, ids, erasing, next⟩ := clearStep_cases state
  · rw [next]
    refine ⟨fun id member => absurd member List.not_mem_nil, List.nodup_nil, ?_⟩
    rintro _ _ _ ⟨⟩
    exact ⟨le_refl _, fun id member => absurd member List.not_mem_nil⟩
  · obtain ⟨present, nodup, visited⟩ := scanned
    obtain ⟨past, earlier⟩ := visited now shard ids visiting
    rw [visiting] at present nodup
    rw [next]
    refine ⟨?_, ?_, ?_⟩
    · intro id member
      simp only [Cleaner.listed, List.mem_append, mem_staleIds_visit] at member
      rcases member with old | ⟨_, entry, found, _⟩
      · exact present id old
      · exact ⟨entry, found⟩
    · -- The ids listed before belong to shards visited before.
      refine List.nodup_append.mpr ⟨nodup, nodup_staleIds _ now _, ?_⟩
      rintro old oldMember new newMember rfl
      have before := earlier old oldMember
      rw [(mem_staleIds_visit.mp newMember).1] at before
      exact lt_irrefl shard before
    · rintro _ _ _ ⟨⟩
      refine ⟨past, ?_⟩
      intro id member
      simp only [List.mem_append, mem_staleIds_visit] at member
      rcases member with old | ⟨inShard, _⟩
      · exact Nat.lt_succ_of_lt (earlier id old)
      · rw [inShard]
        exact Nat.lt_succ_self shard
  · obtain ⟨present, nodup, _⟩ := scanned
    rw [visiting] at present nodup
    rw [next]
    refine ⟨present, nodup, ?_⟩
    intro _ _ _ stillVisiting
    cases stillVisiting
  · rw [next]
    refine ⟨fun id member => absurd member List.not_mem_nil, List.nodup_nil, ?_⟩
    intro _ _ _ visiting
    cases visiting
  · obtain ⟨present, nodup, _⟩ := scanned
    rw [erasing] at present nodup
    obtain ⟨notAgain, nodup⟩ := List.nodup_cons.mp nodup
    rw [next]
    refine ⟨?_, nodup, ?_⟩
    · intro other member
      obtain ⟨entry, found⟩ := present other (List.mem_cons_of_mem _ member)
      have different : other ≠ id := fun same => notAgain (same ▸ member)
      exact ⟨entry, (ShardedLockMap.find_erase_of_ne _ different).trans found⟩
    · intro _ _ _ visiting
      cases visiting

theorem Scanned.step (scanned : Scanned state) (event : CleanUpEvent) : Scanned (cleanUpStep state event) := by
  cases event with
  | clear => exact scanned.clear
  | tick elapsed =>
    refine ⟨scanned.present, scanned.nodup, ?_⟩
    intro now shard ids visiting
    obtain ⟨past, earlier⟩ := scanned.visited now shard ids visiting
    exact ⟨Nat.le_add_right_of_le past, earlier⟩
  | record heartbeat =>
    refine ⟨?_, scanned.nodup, scanned.visited⟩
    intro id member
    simp only [cleanUpStep, find_record]
    split
    · exact ⟨_, rfl⟩
    · exact scanned.present id member

theorem scanned_start (heartbeats : HeartbeatMap shardIndex) (clock : Nat) :
    Scanned (.start heartbeats clock) := by
  constructor
  · intro id member
    exact absurd member List.not_mem_nil
  · exact List.nodup_nil
  · intro now shard ids visiting
    cases visiting

theorem scanned_run (heartbeats : HeartbeatMap shardIndex) (clock : Nat) (events : List CleanUpEvent) :
    Scanned (run cleanUpStep (.start heartbeats clock) events) :=
  run_invariant Scanned (fun _ event scanned => scanned.step event) _ (scanned_start heartbeats clock) events

/-! ## Heartbeats that come after the listing -/

section Run

variable (initial : CleanUp shardIndex)

/-- At this time a heartbeat was recorded for an id that was listed by then. -/
def RecordedLate (id : Uuid) (time : Nat) (events : List CleanUpEvent) : Prop :=
  ∃ before heartbeat after, events = before ++ .record heartbeat :: after ∧ heartbeat.id = id ∧
    id ∈ (run cleanUpStep initial before).cleaner.listed ∧ (run cleanUpStep initial before).clock = time

/-- The entry of a listed id is stale, or a heartbeat has come since. -/
def ListedStale (events : List CleanUpEvent) : Prop :=
  ∀ id ∈ (run cleanUpStep initial events).cleaner.listed, ∀ entry,
    (run cleanUpStep initial events).heartbeats.find id = some entry →
      entry.lastUpdate + maxHeartbeatValidTime ≤ (run cleanUpStep initial events).clock ∨
        RecordedLate initial id entry.lastUpdate events

variable {initial} {events : List CleanUpEvent}

theorem RecordedLate.concat {id : Uuid} {time : Nat} (late : RecordedLate initial id time events)
    (last : CleanUpEvent) : RecordedLate initial id time (events ++ [last]) := by
  obtain ⟨before, heartbeat, after, rfl, named, listed, clock⟩ := late
  exact ⟨before, heartbeat, after ++ [last], by simp, named, listed, clock⟩

theorem ListedStale.clear (before : ListedStale initial events)
    (scanned : Scanned (run cleanUpStep initial events)) : ListedStale initial (events ++ [.clear]) := by
  unfold ListedStale at before ⊢
  rw [run_concat, cleanUpStep, clock_clear]
  intro id listed entry found
  have foundBefore := find_clear found
  obtain earlier | ⟨now, shard, ids, seen, visiting, foundNow, stale⟩ := listed_clear listed
  · exact (before id earlier entry foundBefore).imp_right fun late => late.concat .clear
  · -- The entry just seen is stale by the clock at which the scan began.
    rw [foundBefore, Option.some.injEq] at foundNow
    rw [← foundNow, Entry.isStale, decide_eq_true_eq] at stale
    have past := (scanned.visited now shard ids visiting).1
    exact .inl (Nat.le_trans (Nat.le_of_lt stale) past)

theorem listedStale_run (heartbeats : HeartbeatMap shardIndex) (clock : Nat) (events : List CleanUpEvent) :
    ListedStale (.start heartbeats clock) events := by
  induction events using List.reverseRecOn with
  | nil =>
    intro id listed
    exact absurd listed List.not_mem_nil
  | append_singleton events last before =>
    cases last with
    | clear => exact before.clear (scanned_run heartbeats clock events)
    | tick elapsed =>
      unfold ListedStale at before ⊢
      rw [run_concat]
      intro id listed entry found
      obtain stale | late := before id listed entry found
      · exact .inl (Nat.le_add_right_of_le stale)
      · exact .inr (late.concat _)
    | record heartbeat =>
      unfold ListedStale at before ⊢
      rw [run_concat]
      intro id listed entry found
      simp only [cleanUpStep, find_record] at found
      split at found
      · rename_i same
        rw [Option.some.injEq] at found
        rw [← found]
        exact .inr ⟨events, heartbeat, [], rfl, same.symm, listed, rfl⟩
      · exact (before id listed entry found).imp_right fun late => late.concat _

/-- The time has come, and the entry of the id, if there is one, has been updated since. -/
def UpToDate (id : Uuid) (time : Nat) (state : CleanUp shardIndex) : Prop :=
  time ≤ state.clock ∧ ∀ entry, state.heartbeats.find id = some entry → time ≤ entry.lastUpdate

/-- What a heartbeat has brought up to date stays so until the entry is erased. -/
theorem upToDate_step {id : Uuid} {time : Nat} (state : CleanUp shardIndex) (event : CleanUpEvent)
    (upToDate : UpToDate id time state) : UpToDate id time (cleanUpStep state event) := by
  obtain ⟨notLater, updated⟩ := upToDate
  cases event with
  | tick elapsed => exact ⟨Nat.le_add_right_of_le notLater, updated⟩
  | record heartbeat =>
    refine ⟨notLater, ?_⟩
    intro entry found
    simp only [cleanUpStep, find_record] at found
    split at found
    · rw [Option.some.injEq] at found
      rw [← found]
      exact notLater
    · exact updated entry found
  | clear =>
    refine ⟨?_, fun entry found => updated entry (find_clear found)⟩
    rw [cleanUpStep, clock_clear]
    exact notLater

theorem upToDate_record (state : CleanUp shardIndex) (heartbeat : Heartbeat) :
    UpToDate heartbeat.id state.clock (cleanUpStep state (.record heartbeat)) := by
  refine ⟨le_refl _, ?_⟩
  intro entry found
  simp only [cleanUpStep, find_record, if_true, Option.some.injEq] at found
  rw [← found]
  exact le_refl _

end Run

/-- Only stale entries are removed throughout a run exactly if no id is erased less than a minute after a
heartbeat that was recorded for it when it had been listed. -/
theorem removesStale_iff (heartbeats : HeartbeatMap shardIndex) (clock : Nat) (events : List CleanUpEvent) :
    EachStep cleanUpStep RemovesStale (.start heartbeats clock) events ↔
      ∀ before heartbeat between after,
        events = before ++ .record heartbeat :: between ++ .clear :: after →
        heartbeat.id ∈ (run cleanUpStep (.start heartbeats clock) before).cleaner.listed →
        (run cleanUpStep (.start heartbeats clock) (before ++ .record heartbeat :: between)).cleaner.next =
          some heartbeat.id →
        (run cleanUpStep (.start heartbeats clock) before).clock + maxHeartbeatValidTime ≤
          (run cleanUpStep (.start heartbeats clock) (before ++ .record heartbeat :: between)).clock := by
  rw [eachStep_iff_splits]
  constructor
  · intro removesStale before heartbeat between after split _ erased
    have scanned := scanned_run heartbeats clock (before ++ .record heartbeat :: between)
    obtain ⟨entry, found⟩ := scanned.present heartbeat.id (Cleaner.listed_of_next erased)
    have old := removesStale _ .clear after split rfl heartbeat.id entry erased found
    have upToDate := run_invariant (UpToDate heartbeat.id _) upToDate_step _
      (upToDate_record (run cleanUpStep (.start heartbeats clock) before) heartbeat) between
    rw [run_append, run_cons] at found
    have recent := upToDate.2 entry found
    omega
  · rintro late before _ after split rfl id entry erased found
    obtain stale | ⟨earlier, heartbeat, between, rfl, rfl, listed, time⟩ :=
      listedStale_run heartbeats clock before id (Cleaner.listed_of_next erased) entry found
    · exact stale
    · rw [← time]
      exact late earlier heartbeat between after split listed erased

/-- One entry, last updated a little more than a minute ago. -/
def agedHeartbeats : CleanUp shardOfId := .start (record ∅ ⟨8, .running, 0, 0⟩ 0) 60000000001

/-- The scan lists the entry, and its heartbeat comes before the erasure. -/
def lateHeartbeat : List CleanUpEvent := List.replicate 10 .clear ++ [.record ⟨8, .running, 0, 0⟩, .clear]

theorem lateHeartbeat_removed : ¬ EachStep cleanUpStep RemovesStale agedHeartbeats lateHeartbeat := by
  intro removesStale
  have last := (eachStep_iff_splits _ _).mp removesStale (List.replicate 10 .clear ++ [.record ⟨8, .running, 0, 0⟩])
    .clear [] rfl
  have old := last rfl 8 _ rfl rfl
  exact absurd old (by decide)

end AbilityFramework.LifecycleMgr
