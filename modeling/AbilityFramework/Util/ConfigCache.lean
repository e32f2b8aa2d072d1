import Mathlib.Data.List.Nodup
import AbilityFramework.Library.Runs
import AbilityFramework.Util.YamlToJson

/-! # The config

`load_config` keeps the config that it parsed last under the hash of the text that it read before.  The file is read
once for the hash and once more for the config, so what is kept need not be the config of the text that was hashed.

`load_current`: as long as the file is not changed between two such reads, whatever is returned is the config of the file
at that moment.  `load_stale`: otherwise the wrong config is returned for as long as the file has the text that was
hashed. -/

namespace AbilityFramework.Util

open Library.Runs

inductive ConfigFile where
  | absent
  | notRegular
  /-- It cannot be opened. -/
  | unreadable
  | text (content : String)
  deriving DecidableEq

structure ConfigEnvironment where
  /-- `std::hash` -/
  hash : String → UInt64
  /-- `YAML::Load`, which throws or gives a node. -/
  parse : String → Option YamlNode

section

variable (env : ConfigEnvironment)

def hashConfigContent : ConfigFile → UInt64
  | .text content => env.hash content
  | .absent | .notRegular | .unreadable => 0

/-- `YAML::LoadFile` -/
def loadFile : ConfigFile → Option YamlNode
  | .text content => env.parse content
  | .absent | .notRegular | .unreadable => none

/-- What a caller is to get of the file: a failure gives the empty node. -/
def configOf (file : ConfigFile) : YamlNode := (loadFile env file).getD .null

end

/-- A thread has a number. -/
structure ConfigState where
  file : ConfigFile
  cachedConfig : YamlNode := .null
  cachedHash : UInt64 := 0
  /-- The threads that wait for the lock. -/
  waiting : List Nat := []
  /-- The thread that has the lock, with the hash that it found. -/
  loading : Option (Nat × UInt64) := none
  /-- What `load_config` returned, the last first. -/
  returned : List (Nat × YamlNode) := []

inductive ConfigEvent where
  /-- Somebody changes the file. -/
  | edit (file : ConfigFile)
  /-- `load_config` is called, and looks for the file. -/
  | call (thread : Nat)
  /-- The thread gets the lock, and hashes the content. -/
  | hash (thread : Nat)
  /-- It loads the file. -/
  | load (thread : Nat)

namespace ConfigState

variable (env : ConfigEnvironment) (state : ConfigState)

def return_ (thread : Nat) (config : YamlNode) : ConfigState :=
  { state with returned := (thread, config) :: state.returned }

/-- `load_config` by any number of threads. -/
def step (state : ConfigState) : ConfigEvent → ConfigState
  | .edit file => { state with file := file }
  | .call thread =>
    match state.file with
    | .absent | .notRegular => state.return_ thread .null
    | .unreadable | .text _ => { state with waiting := thread :: state.waiting }
  | .hash thread =>
    if thread ∈ state.waiting ∧ state.loading = none then
      let locked := { state with waiting := state.waiting.erase thread }
      let currentHash := hashConfigContent env state.file
      if state.cachedHash = currentHash then locked.return_ thread state.cachedConfig
      else { locked with loading := some (thread, currentHash) }
    else state
  | .load thread =>
    match state.loading with
    | some (holder, currentHash) =>
      if thread = holder then
        let unlocked := { state with loading := none }
        match loadFile env state.file with
        | some config => { unlocked with cachedConfig := config, cachedHash := currentHash }.return_ thread config
        | none => unlocked.return_ thread .null
      else state
    | none => state

/-- The step is the return of a call. -/
def Returns (event : ConfigEvent) (thread : Nat) (config : YamlNode) : Prop :=
  (step env state event).returned = (thread, config) :: state.returned

/-- The file is one of these, and is not changed between the two reads of a thread. -/
def Untorn (files : List ConfigFile) (state : ConfigState) : ConfigEvent → Prop
  | .edit file => file ∈ files ∧ state.loading = none
  | .call _ | .hash _ | .load _ => True

/-- Every thread that hashes the file finds this hash. -/
def Hashes (hash : UInt64) (state : ConfigState) : ConfigEvent → Prop
  | .hash _ => hashConfigContent env state.file = hash
  | .edit _ | .call _ | .load _ => True

end ConfigState

/-- Files that have the same hash have the same config; nothing is cached at first, as of a file that cannot be
opened. -/
def Distinguishes (env : ConfigEnvironment) (files : List ConfigFile) : Prop :=
  ∀ first ∈ .unreadable :: files, ∀ second ∈ .unreadable :: files,
    hashConfigContent env first = hashConfigContent env second → configOf env first = configOf env second

namespace ConfigState

variable {env : ConfigEnvironment} {state : ConfigState} {files : List ConfigFile} {thread holder : Nat} {config : YamlNode}

/-! ## Steps -/

theorem step_call (env : ConfigEnvironment) (state : ConfigState) (thread : Nat) :
    configOf env state.file = .null ∧
        state.step env (.call thread) = { state with returned := (thread, .null) :: state.returned } ∨
      state.step env (.call thread) = { state with waiting := thread :: state.waiting } := by
  cases isFile : state.file with
  | absent | notRegular => exact .inl ⟨rfl, by simp only [step, isFile, return_]⟩
  | unreadable | text => exact .inr (by simp only [step, isFile])

theorem step_hash_cached (thread : Nat) (found : state.cachedHash = hashConfigContent env state.file) :
    state.step env (.hash thread) = state ∨
      state.step env (.hash thread) =
        { state with
          waiting := state.waiting.erase thread
          returned := (thread, state.cachedConfig) :: state.returned } := by
  simp only [step, if_pos found, return_]
  split_ifs
  · exact .inr rfl
  · exact .inl rfl

theorem step_hash_other (thread : Nat) (changed : state.cachedHash ≠ hashConfigContent env state.file) :
    state.step env (.hash thread) = state ∨
      state.step env (.hash thread) =
        { state with
          waiting := state.waiting.erase thread
          loading := some (thread, hashConfigContent env state.file) } := by
  simp only [step, if_neg changed]
  split_ifs
  · exact .inr rfl
  · exact .inl rfl

theorem step_load_none (notLoading : state.loading = none) : state.step env (.load thread) = state := by
  simp only [step, notLoading]

theorem step_load_other {hash : UInt64} (isLoading : state.loading = some (holder, hash)) (other : thread ≠ holder) :
    state.step env (.load thread) = state := by
  simp only [step, isLoading, if_neg other]

/-- A file that is not parsed leaves what is cached. -/
theorem step_load {hash : UInt64} (isLoading : state.loading = some (thread, hash)) :
    ∃ cached cachedHash,
      state.step env (.load thread) =
        { state with
          loading := none
          cachedConfig := cached
          cachedHash := cachedHash
          returned := (thread, configOf env state.file) :: state.returned } ∧
      (loadFile env state.file = none ∧ cached = state.cachedConfig ∧ cachedHash = state.cachedHash ∨
        loadFile env state.file = some cached ∧ cached = configOf env state.file ∧ cachedHash = hash) := by
  cases parsed : loadFile env state.file with
  | none =>
    refine ⟨state.cachedConfig, state.cachedHash, ?_, .inl ⟨rfl, rfl, rfl⟩⟩
    simp only [step, isLoading, if_true, parsed, return_, configOf, Option.getD_none]
  | some config =>
    refine ⟨config, hash, ?_, .inr ⟨rfl, by rw [configOf, parsed, Option.getD_some], rfl⟩⟩
    simp only [step, isLoading, if_true, parsed, return_, configOf, Option.getD_some]

/-! ## Configs that are current -/

/-- What is cached belongs to a file with the hash that is cached. -/
structure Coherent (env : ConfigEnvironment) (files : List ConfigFile) (state : ConfigState) : Prop where
  file : state.file ∈ files
  cached : ∃ file ∈ .unreadable :: files,
    hashConfigContent env file = state.cachedHash ∧ configOf env file = state.cachedConfig
  loading : ∀ thread hash, state.loading = some (thread, hash) → hash = hashConfigContent env state.file

theorem coherent_initial {file : ConfigFile} (isFile : file ∈ files) : Coherent env files { file := file } where
  file := isFile
  cached := ⟨.unreadable, List.mem_cons_self, rfl, rfl⟩
  loading := by simp

theorem coherent_hash (coherent : Coherent env files state) : Coherent env files (state.step env (.hash thread)) := by
  by_cases found : state.cachedHash = hashConfigContent env state.file
  · obtain same | isStep := step_hash_cached thread found
    · rwa [same]
    · rw [isStep]
      exact ⟨coherent.file, coherent.cached, coherent.loading⟩
  · obtain same | isStep := step_hash_other thread found
    · rwa [same]
    · rw [isStep]
      refine ⟨coherent.file, coherent.cached, ?_⟩
      intro other hash isLoading
      exact (Prod.mk.inj (Option.some.inj isLoading)).2.symm

theorem coherent_load (coherent : Coherent env files state) : Coherent env files (state.step env (.load thread)) := by
  cases isLoading : state.loading with
  | none => rwa [step_load_none isLoading]
  | some load =>
    obtain ⟨holder, hash⟩ := load
    by_cases other : thread = holder
    · subst other
      obtain ⟨cached, cachedHash, isStep, ⟨-, rfl, rfl⟩ | ⟨-, rfl, rfl⟩⟩ := step_load isLoading
      · rw [isStep]
        exact ⟨coherent.file, coherent.cached, by simp⟩
      · rw [isStep]
        have sameHash := coherent.loading thread cachedHash isLoading
        exact ⟨coherent.file, ⟨state.file, List.mem_cons_of_mem _ coherent.file, sameHash.symm, rfl⟩, by simp⟩
    · rwa [step_load_other isLoading other]

theorem coherent_step (coherent : Coherent env files state) {event : ConfigEvent} (untorn : state.Untorn files event) :
    Coherent env files (state.step env event) := by
  cases event with
  | edit file =>
    refine ⟨untorn.1, coherent.cached, ?_⟩
    intro thread hash isLoading
    have notLoading : state.loading = none := untorn.2
    rw [step, notLoading] at isLoading
    cases isLoading
  | call thread =>
    obtain ⟨-, isStep⟩ | isStep := step_call env state thread
    all_goals
      rw [isStep]
      exact ⟨coherent.file, coherent.cached, coherent.loading⟩
  | hash thread => exact coherent_hash coherent
  | load thread => exact coherent_load coherent

theorem not_returns_self {event : ConfigEvent} (same : state.step env event = state) :
    ¬ state.Returns env event thread config := by
  intro returns
  rw [Returns, same] at returns
  exact List.cons_ne_self _ _ returns.symm

theorem current_of_coherent (coherent : Coherent env files state) (distinguishes : Distinguishes env files)
    {event : ConfigEvent} (returns : state.Returns env event thread config) : config = configOf env state.file := by
  cases event with
  | edit file => exact absurd returns (List.cons_ne_self _ _).symm
  | call caller =>
    obtain ⟨isEmpty, isStep⟩ | isStep := step_call env state caller
    · rw [Returns, isStep] at returns
      simp only [List.cons.injEq, Prod.mk.injEq] at returns
      rw [isEmpty, returns.1.2]
    · rw [Returns, isStep] at returns
      exact absurd returns (List.cons_ne_self _ _).symm
  | hash caller =>
    by_cases found : state.cachedHash = hashConfigContent env state.file
    · obtain same | isStep := step_hash_cached caller found
      · exact absurd returns (not_returns_self same)
      · obtain ⟨file, isFile, sameHash, isCached⟩ := coherent.cached
        rw [Returns, isStep] at returns
        simp only [List.cons.injEq, Prod.mk.injEq] at returns
        rw [← returns.1.2, ← isCached]
        exact distinguishes file isFile state.file (List.mem_cons_of_mem _ coherent.file) (sameHash.trans found)
    · obtain same | isStep := step_hash_other caller found
      · exact absurd returns (not_returns_self same)
      · rw [Returns, isStep] at returns
        exact absurd returns (List.cons_ne_self _ _).symm
  | load caller =>
    cases isLoading : state.loading with
    | none => exact absurd returns (not_returns_self (step_load_none isLoading))
    | some load =>
      obtain ⟨holder, hash⟩ := load
      by_cases other : caller = holder
      · subst other
        obtain ⟨cached, cachedHash, isStep, -⟩ := step_load isLoading
        rw [Returns, isStep] at returns
        simp only [List.cons.injEq, Prod.mk.injEq] at returns
        exact returns.1.2.symm
      · exact absurd returns (not_returns_self (step_load_other isLoading other))

/-- In every run in which the file is not changed between the two reads of a thread, what `load_config` returns is the
config of the file at that moment. -/
theorem load_current {file : ConfigFile} (isFile : file ∈ files) (distinguishes : Distinguishes env files)
    {events : List ConfigEvent} (untorn : EachStep (step env) (Untorn files) { file := file } events)
    {event : ConfigEvent} (returns : (run (step env) { file := file } events).Returns env event thread config) :
    config = configOf env (run (step env) { file := file } events).file := by
  have coherent := run_guarded (Coherent env files) (fun state event coherent => coherent_step coherent) _
    (coherent_initial isFile) events untorn
  exact current_of_coherent coherent distinguishes returns

/-- The hash is the length, and every text is a scalar. -/
def plainEnvironment : ConfigEnvironment where
  hash content := content.length.toUInt64
  parse content := some (.scalar content)

/-- A change that a second thread finds. -/
def changedConfig : List ConfigEvent := [.call 0, .hash 0, .load 0, .edit (.text "port: 80"), .call 1, .hash 1]

theorem load_current_changed :
    .scalar "port: 80" = configOf plainEnvironment (run (step plainEnvironment) { file := .text "on" } changedConfig).file := by
  have distinguishes : Distinguishes plainEnvironment [.text "on", .text "port: 80"] := by
    intro first isFirst second isSecond sameHash
    have differ : ([.unreadable, .text "on", .text "port: 80"].map (hashConfigContent plainEnvironment)).Nodup := by decide
    rw [List.inj_on_of_nodup_map differ isFirst isSecond sameHash]
  have untorn : EachStep (step plainEnvironment) (Untorn [.text "on", .text "port: 80"]) { file := .text "on" }
      changedConfig :=
    ⟨trivial, trivial, trivial, ⟨by simp, rfl⟩, trivial, trivial, trivial⟩
  have returns : (run (step plainEnvironment) { file := .text "on" } changedConfig).Returns plainEnvironment (.load 1) 1
      (.scalar "port: 80") := rfl
  exact load_current List.mem_cons_self distinguishes untorn returns

/-! ## Configs that are not -/

structure Holds (hash : UInt64) (config : YamlNode) (state : ConfigState) : Prop where
  cachedConfig : state.cachedConfig = config
  cachedHash : state.cachedHash = hash
  notLoading : state.loading = none

theorem holds_step {hash : UInt64} (holds : Holds hash config state) {event : ConfigEvent}
    (hashes : state.Hashes env hash event) : Holds hash config (state.step env event) := by
  cases event with
  | edit file => exact ⟨holds.cachedConfig, holds.cachedHash, holds.notLoading⟩
  | call caller =>
    obtain ⟨-, isStep⟩ | isStep := step_call env state caller
    all_goals
      rw [isStep]
      exact ⟨holds.cachedConfig, holds.cachedHash, holds.notLoading⟩
  | hash caller =>
    have found : state.cachedHash = hashConfigContent env state.file := holds.cachedHash.trans hashes.symm
    obtain same | isStep := step_hash_cached caller found
    · rwa [same]
    · rw [isStep]
      exact ⟨holds.cachedConfig, holds.cachedHash, holds.notLoading⟩
  | load caller => rwa [step_load_none holds.notLoading]

/-- A thread has hashed one file, and loads another.  From then on, as long as the threads find the hash of the first
one, they get the config of the other. -/
theorem load_stale {hashed : ConfigFile} (isLoading : state.loading = some (thread, hashConfigContent env hashed))
    (parses : loadFile env state.file ≠ none) {events : List ConfigEvent} {other : Nat}
    (hashes : EachStep (step env) (Hashes env (hashConfigContent env hashed)) (state.step env (.load thread))
      (events ++ [.hash other]))
    (returns : (run (step env) (state.step env (.load thread)) events).Returns env (.hash other) other config) :
    config = configOf env state.file := by
  obtain ⟨cached, cachedHash, isStep, ⟨fails, -⟩ | ⟨-, isCached, sameHash⟩⟩ := step_load isLoading
  · exact absurd fails parses
  · have holds : Holds (hashConfigContent env hashed) (configOf env state.file) (state.step env (.load thread)) := by
      rw [isStep]
      exact ⟨isCached, sameHash, rfl⟩
    obtain ⟨before, last⟩ := (eachStep_append _ _ _).mp hashes
    have holdsThen := run_guarded (Holds (hashConfigContent env hashed) (configOf env state.file))
      (fun state event holds => holds_step holds) _ holds events before
    have found := holdsThen.cachedHash.trans last.1.symm
    obtain same | isReturn := step_hash_cached other found
    · exact absurd returns (not_returns_self same)
    · rw [Returns, isReturn] at returns
      simp only [List.cons.injEq, Prod.mk.injEq] at returns
      rw [← returns.1.2, holdsThen.cachedConfig]

/-- The file is changed while the thread has the lock. -/
def tornState : ConfigState :=
  run (step plainEnvironment) { file := .text "on" } [.call 0, .hash 0, .edit (.text "port: 80")]

/-- It is changed back, and the other config is returned. -/
theorem load_stale_changed : .scalar "port: 80" = configOf plainEnvironment tornState.file := by
  have isLoading : tornState.loading = some (0, hashConfigContent plainEnvironment (.text "on")) := rfl
  have parses : loadFile plainEnvironment tornState.file ≠ none := Option.some_ne_none _
  have hashes : EachStep (step plainEnvironment) (Hashes plainEnvironment (hashConfigContent plainEnvironment (.text "on")))
      (tornState.step plainEnvironment (.load 0)) ([.edit (.text "on"), .call 1] ++ [.hash 1]) :=
    ⟨trivial, trivial, rfl, trivial⟩
  have returns : (run (step plainEnvironment) (tornState.step plainEnvironment (.load 0))
      [.edit (.text "on"), .call 1]).Returns plainEnvironment (.hash 1) 1 (.scalar "port: 80") := rfl
  exact load_stale isLoading parses hashes returns

end ConfigState

end AbilityFramework.Util
