import AbilityFramework.Library.ByteText
import AbilityFramework.Library.Relation
import AbilityFramework.Library.Runs

/-! # The registered modules

The bus finds a module by its name in `ModuleMap` and stops the modules from the back of `ModuleStack`.  `add_module`
overwrites an entry of the map and leaves the module it was for in the stack; `remove_module` reads the entry it has just
erased.  So the two are in step, and each read is of an entry that is there, exactly as long as no call names a module of
the map (`always_inStep_iff`).  Where the memory of an erased entry still holds its pointer, the map and the stack differ
only after a name was registered twice (`always_consistent_iff`). -/

namespace AbilityFramework.MessageBus

open Library Library.Runs

/-- A read through an iterator: the name it was found for, and whether its entry is still in the map. -/
structure EntryRead where
  name : ByteText
  isPresent : Bool
  deriving DecidableEq

inductive ModuleCallback (Pointer : Type*) where
  | onRegister (m : Pointer)
  | onExit (m : Pointer)
  deriving DecidableEq

structure ModuleRegistry (Pointer : Type*) where
  moduleMap : Relation (Prod.fst : ByteText × Pointer → ByteText) := ∅
  moduleStack : List Pointer := []
  reads : List EntryRead := []
  callbacks : List (ModuleCallback Pointer) := []

/-- A call; what a read of erased memory gives is arbitrary. -/
inductive ModuleCall (Pointer : Type*) where
  | addModule (m : Pointer)
  | removeModule (name : ByteText) (erased : Option Pointer)
  | stopAllModules

namespace ModuleRegistry

variable {Pointer : Type*}

/-- `it->second` -/
def second (registry : ModuleRegistry Pointer) (it : ByteText) (erased : Option Pointer) :
    Option Pointer × ModuleRegistry Pointer :=
  match registry.moduleMap.lookup it with
  | some entry => (some entry.2, { registry with reads := registry.reads ++ [⟨it, true⟩] })
  | none => (erased, { registry with reads := registry.reads ++ [⟨it, false⟩] })

/-- The loop of `stop_all_modules`: the modules in the order of their `on_exit`. -/
def exitAll (moduleStack : List Pointer) : List Pointer :=
  if isEmpty : moduleStack = [] then []
  else moduleStack.getLast isEmpty :: exitAll moduleStack.dropLast
termination_by moduleStack.length
decreasing_by
  rw [List.length_dropLast]
  exact Nat.sub_lt (List.length_pos_iff.mpr isEmpty) Nat.one_pos

def stopAllModules (registry : ModuleRegistry Pointer) : ModuleRegistry Pointer :=
  { registry with
    moduleMap := ∅
    moduleStack := []
    callbacks := registry.callbacks ++ (exitAll registry.moduleStack).map .onExit }

variable (moduleName : Pointer → ByteText)

def addModule (registry : ModuleRegistry Pointer) (m : Pointer) : ModuleRegistry Pointer :=
  { registry with
    moduleMap := registry.moduleMap.replaceInto (moduleName m, m)
    moduleStack := registry.moduleStack ++ [m]
    callbacks := registry.callbacks ++ [.onRegister m] }

def removeModule [DecidableEq Pointer] (registry : ModuleRegistry Pointer) (name : ByteText) (erased : Option Pointer) :
    Bool × ModuleRegistry Pointer :=
  if (registry.moduleMap.lookup name).isNone then (false, registry)
  else
    let afterErase := { registry with moduleMap := registry.moduleMap.deleteWhere fun entry => entry.1 = name }
    let (modulePtr, afterRead) := afterErase.second name erased
    -- A null pointer is in no stack.
    (true, { afterRead with moduleStack := modulePtr.elim afterRead.moduleStack afterRead.moduleStack.erase })

def step [DecidableEq Pointer] (registry : ModuleRegistry Pointer) : ModuleCall Pointer → ModuleRegistry Pointer
  | .addModule m => registry.addModule moduleName m
  | .removeModule name erased => (registry.removeModule name erased).2
  | .stopAllModules => registry.stopAllModules

/-! ## In step -/

/-- The stack has exactly the modules of the map, each once. -/
structure Consistent (registry : ModuleRegistry Pointer) : Prop where
  once : registry.moduleStack.Nodup
  same : ∀ m, m ∈ registry.moduleStack ↔ ∃ name, (name, m) ∈ registry.moduleMap

structure InStep (registry : ModuleRegistry Pointer) : Prop where
  consistent : registry.Consistent
  readsPresent : ∀ read ∈ registry.reads, read.isPresent = true

/-- The map has no module of this name. -/
def Lacks (registry : ModuleRegistry Pointer) (name : ByteText) : Prop := registry.moduleMap.lookup name = none

instance (registry : ModuleRegistry Pointer) (name : ByteText) : Decidable (registry.Lacks name) :=
  decidable_of_iff ((registry.moduleMap.lookup name).isNone) Option.isNone_iff_eq_none

/-- The call does not name a module of the map. -/
def NamesNone (registry : ModuleRegistry Pointer) : ModuleCall Pointer → Prop
  | .addModule m => registry.Lacks (moduleName m)
  | .removeModule name _ => registry.Lacks name
  | .stopAllModules => True

/-- A module that is added has a new name. -/
def AddsNew (registry : ModuleRegistry Pointer) : ModuleCall Pointer → Prop
  | .addModule m => registry.Lacks (moduleName m)
  | .removeModule _ _ | .stopAllModules => True

/-- The map has each module under the name it gives. -/
def WellNamed (registry : ModuleRegistry Pointer) : Prop := ∀ name m, (name, m) ∈ registry.moduleMap → name = moduleName m

/-! ## What the calls do -/

section Calls

variable {registry : ModuleRegistry Pointer} {name : ByteText} {m : Pointer}

theorem lacks_iff : registry.Lacks name ↔ ∀ m, (name, m) ∉ registry.moduleMap := by
  constructor
  · intro lacks m member
    have found := Relation.lookup_eq_some.mpr ⟨member, rfl⟩
    rw [lacks] at found
    cases found
  · intro absent
    refine Option.eq_none_iff_forall_ne_some.mpr fun entry found => ?_
    obtain ⟨member, rfl⟩ := Relation.lookup_eq_some.mp found
    exact absent entry.2 member

theorem exitAll_eq_reverse (moduleStack : List Pointer) : exitAll moduleStack = moduleStack.reverse := by
  induction moduleStack using List.reverseRecOn with
  | nil => rw [exitAll, dif_pos rfl, List.reverse_nil]
  | append_singleton earlier last inductionHypothesis =>
    rw [exitAll, dif_neg (List.append_ne_nil_of_right_ne_nil _ (List.cons_ne_nil _ _)), List.getLast_append_singleton,
      List.dropLast_concat, inductionHypothesis, List.reverse_append]
    rfl

theorem consistent_of_empty {registry : ModuleRegistry Pointer} (noEntry : registry.moduleMap = ∅)
    (noModule : registry.moduleStack = []) : registry.Consistent where
  once := noModule ▸ List.nodup_nil
  same m := by simp [noEntry, noModule]

/-- `stop_all_modules` calls each registered module once, the last one first. -/
theorem exits_stopAllModules (consistent : registry.Consistent) :
    registry.stopAllModules.callbacks = registry.callbacks ++ registry.moduleStack.reverse.map .onExit ∧
      registry.moduleStack.reverse.Nodup ∧
      ∀ m, m ∈ registry.moduleStack.reverse ↔ ∃ name, (name, m) ∈ registry.moduleMap := by
  refine ⟨?_, List.nodup_reverse.mpr consistent.once, fun m => List.mem_reverse.trans (consistent.same m)⟩
  rw [stopAllModules, exitAll_eq_reverse]

end Calls

/-! ## What keeps the map and the stack in step -/

section Invariants

variable {moduleName} {registry : ModuleRegistry Pointer} {m : Pointer} {name : ByteText}

theorem mem_addModule {entry : ByteText × Pointer} :
    entry ∈ (registry.addModule moduleName m).moduleMap ↔
      entry = (moduleName m, m) ∨ entry ∈ registry.moduleMap ∧ entry.1 ≠ moduleName m :=
  Relation.mem_replaceInto

/-- A second module of a name leaves the first in the stack. -/
theorem consistent_addModule_iff (consistent : registry.Consistent) (wellNamed : registry.WellNamed moduleName) :
    (registry.addModule moduleName m).Consistent ↔ registry.Lacks (moduleName m) := by
  constructor
  · intro added
    rw [lacks_iff]
    intro held heldMember
    have inStack : held ∈ registry.moduleStack := (consistent.same held).mpr ⟨_, heldMember⟩
    obtain ⟨name, member⟩ := (added.same held).mp (List.mem_append_left _ inStack)
    obtain isNew | ⟨old, differs⟩ := mem_addModule.mp member
    · -- The same module again: it is in the stack twice.
      obtain ⟨rfl, rfl⟩ := Prod.mk.inj isNew
      exact (List.nodup_append.mp added.once).2.2 held inStack held (List.mem_singleton_self held) rfl
    · -- The entry that kept the old module in step has been overwritten.
      exact differs ((wellNamed name held old).trans (wellNamed _ held heldMember).symm)
  · intro lacks
    rw [lacks_iff] at lacks
    -- A module in the stack would be in the map, under the name that is new.
    have notInStack : m ∉ registry.moduleStack := by
      intro inStack
      obtain ⟨name, member⟩ := (consistent.same m).mp inStack
      exact lacks m (wellNamed name m member ▸ member)
    refine ⟨List.nodup_append.mpr ⟨consistent.once, List.nodup_singleton m, ?_⟩, fun other => ?_⟩
    · rintro first firstMember second secondMember rfl
      exact notInStack (List.mem_singleton.mp secondMember ▸ firstMember)
    · simp only [addModule, List.mem_append, List.mem_singleton, consistent.same other, Relation.mem_replaceInto,
        Prod.mk.injEq]
      constructor
      · rintro (⟨name, member⟩ | rfl)
        · exact ⟨name, .inr ⟨member, fun same => lacks other (same ▸ member)⟩⟩
        · exact ⟨moduleName other, .inl ⟨rfl, rfl⟩⟩
      · rintro ⟨name, ⟨_, rfl⟩ | ⟨member, _⟩⟩
        · exact .inr rfl
        · exact .inl ⟨name, member⟩

section Removing

variable [DecidableEq Pointer]

theorem removeModule_of_lacks (lacks : registry.Lacks name) (erased : Option Pointer) :
    registry.removeModule name erased = (false, registry) :=
  if_pos (Option.isNone_iff_eq_none.mpr lacks)

/-- The entry is gone when its pointer is read. -/
theorem removeModule_of_mem (member : (name, m) ∈ registry.moduleMap) (erased : Option Pointer) :
    registry.removeModule name erased =
      (true, { registry with
        moduleMap := registry.moduleMap.deleteWhere fun entry => entry.1 = name
        moduleStack := erased.elim registry.moduleStack registry.moduleStack.erase
        reads := registry.reads ++ [⟨name, false⟩] }) := by
  have found : registry.moduleMap.lookup name = some (name, m) := Relation.lookup_eq_some.mpr ⟨member, rfl⟩
  have gone : (registry.moduleMap.deleteWhere fun entry => entry.1 = name).lookup name = none := by
    refine Option.eq_none_iff_forall_ne_some.mpr fun entry foundAgain => ?_
    obtain ⟨stays, isName⟩ := Relation.lookup_eq_some.mp foundAgain
    exact (Relation.mem_deleteWhere.mp stays).2 (decide_eq_true isName)
  have read : ({ registry with moduleMap := registry.moduleMap.deleteWhere fun entry => entry.1 = name } :
      ModuleRegistry Pointer).second name erased =
        (erased, { registry with
          moduleMap := registry.moduleMap.deleteWhere fun entry => entry.1 = name
          reads := registry.reads ++ [⟨name, false⟩] }) := by
    simp only [second, gone]
  rw [removeModule, found, if_neg (by simp)]
  simp only [read]

theorem wellNamed_step (wellNamed : registry.WellNamed moduleName) (call : ModuleCall Pointer) :
    (registry.step moduleName call).WellNamed moduleName := by
  intro name m member
  cases call with
  | addModule new =>
    obtain same | ⟨old, _⟩ := mem_addModule.mp member
    · obtain ⟨rfl, rfl⟩ := Prod.mk.inj same
      rfl
    · exact wellNamed name m old
  | removeModule removed erased =>
    rw [step] at member
    by_cases lacks : registry.Lacks removed
    · rw [removeModule_of_lacks lacks] at member
      exact wellNamed name m member
    · obtain ⟨held, heldMember⟩ := not_forall_not.mp (mt lacks_iff.mpr lacks)
      rw [removeModule_of_mem heldMember] at member
      exact wellNamed name m (Relation.mem_deleteWhere.mp member).1
  | stopAllModules => exact absurd member (Relation.not_mem_empty _)

/-- If the erased memory still holds the pointer, the module leaves the stack too. -/
theorem consistent_removeModule (consistent : registry.Consistent) (wellNamed : registry.WellNamed moduleName)
    (member : (name, m) ∈ registry.moduleMap) : (registry.removeModule name (some m)).2.Consistent := by
  rw [removeModule_of_mem member]
  refine ⟨consistent.once.erase m, fun other => ?_⟩
  simp only [Option.elim_some, consistent.once.mem_erase_iff, consistent.same other, Relation.mem_deleteWhere,
    decide_eq_true_eq]
  constructor
  · rintro ⟨differs, otherName, otherMember⟩
    refine ⟨otherName, otherMember, fun same => differs ?_⟩
    exact congrArg Prod.snd (Relation.eq_of_key otherMember member same)
  · rintro ⟨otherName, otherMember, differs⟩
    refine ⟨fun same => differs ?_, otherName, otherMember⟩
    rw [wellNamed otherName other otherMember, wellNamed name m member, same]

end Removing

end Invariants

/-! ## Runs -/

theorem inStep_empty : (({} : ModuleRegistry Pointer)).InStep :=
  ⟨consistent_of_empty rfl rfl, fun _ member => absurd member List.not_mem_nil⟩

theorem wellNamed_empty : (({} : ModuleRegistry Pointer)).WellNamed moduleName :=
  fun _ _ member => absurd member (Relation.not_mem_empty _)

variable [DecidableEq Pointer]

theorem inStep_step {registry : ModuleRegistry Pointer} (inStep : registry.InStep)
    (wellNamed : registry.WellNamed moduleName) (call : ModuleCall Pointer) :
    (registry.step moduleName call).InStep ↔ registry.NamesNone moduleName call := by
  cases call with
  | addModule m =>
    refine ⟨fun after => (consistent_addModule_iff inStep.consistent wellNamed).mp after.consistent, fun namesNone => ?_⟩
    exact ⟨(consistent_addModule_iff inStep.consistent wellNamed).mpr namesNone, inStep.readsPresent⟩
  | removeModule name erased =>
    constructor
    · -- What is read of the erased entry shows that it was there.
      intro after
      refine lacks_iff.mpr fun m member => ?_
      have present := after.readsPresent ⟨name, false⟩ (by simp [step, removeModule_of_mem member])
      cases present
    · intro lacks
      rw [step, removeModule_of_lacks lacks]
      exact inStep
  | stopAllModules => exact iff_of_true ⟨consistent_of_empty rfl rfl, inStep.readsPresent⟩ trivial

/-- The map and the stack are in step, and only entries of the map are read, exactly in the runs in which no call names
a module that the map has. -/
theorem always_inStep_iff (calls : List (ModuleCall Pointer)) :
    Always (step moduleName) InStep {} calls ↔ EachStep (step moduleName) (NamesNone moduleName) {} calls := by
  refine always_exact (fun registry => InStep registry ∧ WellNamed moduleName registry) (fun _ => And.left) ?_ ?_ {}
    ⟨inStep_empty, wellNamed_empty moduleName⟩ calls
  · rintro registry call ⟨inStep, wellNamed⟩ namesNone
    exact ⟨(inStep_step moduleName inStep wellNamed call).mpr namesNone, wellNamed_step wellNamed call⟩
  · rintro registry call ⟨inStep, wellNamed⟩ after
    exact (inStep_step moduleName inStep wellNamed call).mp after

/-- A module at an address. -/
structure NamedModule where
  address : Nat
  name : ByteText
  deriving DecidableEq

/-- A second module of a name leaves the first one in the stack alone, and a module that is removed is read after its
entry is gone. -/
theorem not_always_inStep :
    ¬ Always (step NamedModule.name) InStep {} [.addModule ⟨1, [97]⟩, .addModule ⟨2, [97]⟩] ∧
      ¬ Always (step NamedModule.name) InStep {} [.addModule ⟨1, [97]⟩, .removeModule [97] (some ⟨1, [97]⟩)] := by
  have wellNamed := wellNamed_step (wellNamed_empty NamedModule.name) (.addModule ⟨1, [97]⟩)
  have taken : ¬ ((({} : ModuleRegistry NamedModule)).addModule NamedModule.name ⟨1, [97]⟩).Lacks [97] := by decide
  constructor
  · rintro ⟨_, added, addedAgain⟩
    exact taken ((inStep_step NamedModule.name added wellNamed (.addModule ⟨2, [97]⟩)).mp addedAgain)
  · rintro ⟨_, added, removed⟩
    exact taken ((inStep_step NamedModule.name added wellNamed (.removeModule [97] _)).mp removed)

/-! ### With erased memory left as it was -/

/-- The call with what the entry held as what is read of it. -/
def keepingErased (registry : ModuleRegistry Pointer) : ModuleCall Pointer → ModuleCall Pointer
  | .removeModule name _ => .removeModule name ((registry.moduleMap.lookup name).map Prod.snd)
  | call => call

def stepKeeping (registry : ModuleRegistry Pointer) (call : ModuleCall Pointer) : ModuleRegistry Pointer :=
  registry.step moduleName (registry.keepingErased call)

theorem consistent_stepKeeping {registry : ModuleRegistry Pointer} (consistent : registry.Consistent)
    (wellNamed : registry.WellNamed moduleName) (call : ModuleCall Pointer) :
    (registry.stepKeeping moduleName call).Consistent ↔ registry.AddsNew moduleName call := by
  cases call with
  | addModule m => exact consistent_addModule_iff consistent wellNamed
  | removeModule name erased =>
    refine iff_of_true ?_ trivial
    rw [stepKeeping, keepingErased, step]
    by_cases lacks : registry.Lacks name
    · rw [removeModule_of_lacks lacks]
      exact consistent
    · obtain ⟨m, member⟩ := not_forall_not.mp (mt lacks_iff.mpr lacks)
      rw [Relation.lookup_eq_some.mpr ⟨member, rfl⟩]
      exact consistent_removeModule consistent wellNamed member
  | stopAllModules => exact iff_of_true (consistent_of_empty rfl rfl) trivial

/-- Then a name that is registered twice is all that sets the map and the stack apart. -/
theorem always_consistent_iff (calls : List (ModuleCall Pointer)) :
    Always (stepKeeping moduleName) Consistent {} calls ↔
      EachStep (stepKeeping moduleName) (AddsNew moduleName) {} calls := by
  refine always_exact (fun registry => Consistent registry ∧ WellNamed moduleName registry) (fun _ => And.left) ?_ ?_ {}
    ⟨inStep_empty.consistent, wellNamed_empty moduleName⟩ calls
  · rintro registry call ⟨consistent, wellNamed⟩ addsNew
    exact ⟨(consistent_stepKeeping moduleName consistent wellNamed call).mpr addsNew, wellNamed_step wellNamed _⟩
  · rintro registry call ⟨consistent, wellNamed⟩ after
    exact (consistent_stepKeeping moduleName consistent wellNamed call).mp after

end ModuleRegistry

end AbilityFramework.MessageBus
