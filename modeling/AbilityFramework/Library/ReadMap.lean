import AbilityFramework.Library.Relation
import Mathlib.Logic.Function.Basic

/-! # Relations that are read as maps

The rows of a relation encode values, and a reader that may fail decodes them.  `ReadsAs` says that no key makes the
reader fail, and which value each key has; every statement on the relation is one on the map. -/

namespace AbilityFramework.Library.Relation

variable {Row Key Value Error : Type*} {key : Row → Key} [DecidableEq Key]

theorem lookup_replaceInto (relation : Relation key) (row : Row) (wanted : Key) :
    (relation.replaceInto row).lookup wanted = if wanted = key row then some row else relation.lookup wanted := by
  split
  · rename_i same
    rw [same, lookup_replaceInto_self]
  · rename_i different
    refine Option.ext fun other => ?_
    rw [lookup_eq_some, lookup_eq_some, mem_replaceInto]
    constructor
    · rintro ⟨rfl | ⟨member, -⟩, isWanted⟩
      · exact absurd isWanted.symm different
      · exact ⟨member, isWanted⟩
    · rintro ⟨member, isWanted⟩
      exact ⟨.inr ⟨member, fun same => different (isWanted.symm.trans same)⟩, isWanted⟩

theorem lookup_deleteKey (relation : Relation key) (deleted wanted : Key) :
    (relation.deleteWhere fun row => key row = deleted).lookup wanted =
      if wanted = deleted then none else relation.lookup wanted := by
  refine Option.ext fun row => ?_
  rw [lookup_eq_some, mem_deleteWhere, decide_eq_true_eq]
  split
  · rename_i same
    refine iff_of_false ?_ nofun
    rintro ⟨⟨-, notDeleted⟩, isWanted⟩
    exact notDeleted (isWanted.trans same)
  · rename_i different
    rw [lookup_eq_some]
    refine ⟨fun ⟨⟨member, _⟩, isWanted⟩ => ⟨member, isWanted⟩, fun ⟨member, isWanted⟩ => ⟨⟨member, ?_⟩, isWanted⟩⟩
    exact fun isDeleted => different (isWanted.symm.trans isDeleted)

variable (read : Row → Except Error Value)

/-- The value of the row with a key, if there is one. -/
def readAt (relation : Relation key) (wanted : Key) : Except Error (Option Value) :=
  (relation.lookup wanted).elim (.ok none) fun row => (read row).map some

def ReadsAs (relation : Relation key) (map : Key → Option Value) : Prop :=
  ∀ wanted, relation.readAt read wanted = .ok (map wanted)

variable {read} {relation : Relation key} {map : Key → Option Value}

theorem readsAs_empty : (∅ : Relation key).ReadsAs read fun _ => none := fun _ => rfl

theorem ReadsAs.replaceInto (given : relation.ReadsAs read map) {row : Row} {value : Value}
    (isRead : read row = .ok value) :
    (relation.replaceInto row).ReadsAs read (Function.update map (key row) (some value)) := by
  intro wanted
  rw [readAt, lookup_replaceInto, Function.update_apply]
  split
  · rw [Option.elim_some, isRead]
    rfl
  · exact given wanted

theorem ReadsAs.deleteKey (given : relation.ReadsAs read map) (deleted : Key) :
    (relation.deleteWhere fun row => key row = deleted).ReadsAs read (Function.update map deleted none) := by
  intro wanted
  rw [readAt, lookup_deleteKey, Function.update_apply]
  split
  · rfl
  · exact given wanted

end AbilityFramework.Library.Relation
