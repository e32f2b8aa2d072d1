import AbilityFramework.Library.Relation
import Mathlib.Data.List.Induction
import Mathlib.Data.Set.Basic

/-! # The last of a list with a key

When items are written one after the other under their keys, what is left under a key is the last item
that has it. -/

namespace AbilityFramework.Library

variable {Item Key : Type*} [DecidableEq Key] (key : Item → Key)

def lastOf (wanted : Key) (items : List Item) : Option Item :=
  items.reverse.find? fun item => key item = wanted

variable {key} {wanted : Key} {items : List Item} {item : Item}

@[simp] theorem lastOf_nil : lastOf key wanted [] = none := rfl

theorem lastOf_concat_self : lastOf key (key item) (items ++ [item]) = some item := by
  simp [lastOf]

theorem lastOf_concat_other (other : key item ≠ wanted) :
    lastOf key wanted (items ++ [item]) = lastOf key wanted items := by
  simp [lastOf, other]

theorem mem_of_lastOf (last : lastOf key wanted items = some item) : item ∈ items ∧ key item = wanted := by
  refine ⟨List.mem_reverse.mp (List.mem_of_find?_eq_some last), ?_⟩
  exact of_decide_eq_true (List.find?_some (p := fun item => decide (key item = wanted)) last)

theorem exists_lastOf (key : Item → Key) (member : item ∈ items) :
    ∃ last, lastOf key (key item) items = some last := by
  rw [← Option.isSome_iff_exists, lastOf, List.find?_isSome]
  exact ⟨item, List.mem_reverse.mpr member, decide_eq_true rfl⟩

/-- Keys that tell the same items apart. -/
theorem lastOf_map {Other OtherKey : Type*} [DecidableEq OtherKey] {otherKey : Other → OtherKey} {make : Item → Other}
    {otherWanted : OtherKey} (sameKey : ∀ item, otherKey (make item) = otherWanted ↔ key item = wanted) :
    lastOf otherKey otherWanted (items.map make) = (lastOf key wanted items).map make := by
  rw [lastOf, lastOf, ← List.map_reverse, List.find?_map]
  congr 2
  funext item
  exact decide_eq_decide.mpr (sameKey item)

/-- Of items that come in the order of their times, the last with a key is the last with its key and its time, and
none with the key is later. -/
theorem lastOf_newest {time : Item → Nat} (ordered : items.Pairwise fun earlier later => time earlier ≤ time later)
    {last : Item} (isLast : lastOf key wanted items = some last) :
    lastOf (fun item => (key item, time item)) (wanted, time last) items = some last ∧
      ∀ item ∈ items, key item = wanted → time item ≤ time last := by
  induction items using List.reverseRecOn with
  | nil => cases isLast
  | append_singleton earlier item inductionHypothesis =>
    obtain ⟨stillOrdered, _, newest⟩ := List.pairwise_append.mp ordered
    by_cases same : key item = wanted
    · subst same
      obtain rfl := Option.some.inj (lastOf_concat_self.symm.trans isLast)
      refine ⟨lastOf_concat_self, fun other member _ => ?_⟩
      obtain old | rfl := List.mem_append.mp member |>.imp_right List.mem_singleton.mp
      · exact newest other old item List.mem_cons_self
      · exact Nat.le_refl _
    · rw [lastOf_concat_other same] at isLast
      obtain ⟨isLastPair, isNewest⟩ := inductionHypothesis stillOrdered isLast
      have differentPair : (key item, time item) ≠ (wanted, time last) := fun samePair => same (Prod.mk.inj samePair).1
      refine ⟨?_, fun other member sameKey => ?_⟩
      · have passedBy : lastOf (fun item => (key item, time item)) (wanted, time last) (earlier ++ [item]) =
            lastOf (fun item => (key item, time item)) (wanted, time last) earlier := lastOf_concat_other differentPair
        exact passedBy.trans isLastPair
      · obtain old | rfl := List.mem_append.mp member |>.imp_right List.mem_singleton.mp
        · exact isNewest other old sameKey
        · exact absurd sameKey same

/-- Of the rows that are written with one key the last is left. -/
theorem mem_foldl_replaceInto_iff {rows : List Item} {relation : Relation key} {row : Item} :
    row ∈ rows.foldl Relation.replaceInto relation ↔
      lastOf key (key row) rows = some row ∨ row ∈ relation ∧ key row ∉ rows.map key := by
  induction rows using List.reverseRecOn with
  | nil => simp
  | append_singleton rows last inductionHypothesis =>
    rw [List.foldl_concat, Relation.mem_replaceInto, inductionHypothesis, List.map_append, List.mem_append,
      List.map_singleton, List.mem_singleton, not_or]
    by_cases same : key row = key last
    · rw [same, lastOf_concat_self, Option.some.injEq]
      simp [eq_comm]
    · rw [lastOf_concat_other (Ne.symm same)]
      have different : row ≠ last := fun isLast => same (congrArg key isLast)
      simp only [different, same, not_false_eq_true, and_true, false_or, ne_eq]

/-! ## What is left -/

section Shown

variable {Shown : Type*} (key) (shown : Item → Shown)

/-- What the last items of all keys show. -/
def lastShown (items : List Item) : Set Shown := {view | ∃ item, lastOf key (key item) items = some item ∧ view = shown item}

/-- The second list has the keys of the first, and its items show the same as those of the first with their key. -/
def ShowsAlike (first second : List Item) : Prop :=
  ∀ item ∈ first, (∃ other ∈ second, key other = key item) ∧ ∀ other ∈ second, key other = key item → shown other = shown item

variable {key shown}

theorem lastShown_subset {first second : List Item} (alike : ShowsAlike key shown first second) :
    lastShown key shown first ⊆ lastShown key shown second := by
  rintro _ ⟨item, isLast, rfl⟩
  obtain ⟨⟨other, isOther, sameKey⟩, same⟩ := alike item (mem_of_lastOf isLast).1
  obtain ⟨last, lastAmong⟩ := exists_lastOf key isOther
  obtain ⟨member, lastKey⟩ := mem_of_lastOf lastAmong
  refine ⟨last, ?_, (same last member (lastKey.trans sameKey)).symm⟩
  rw [lastKey]
  exact lastAmong

theorem lastShown_concat (earlier : List Item) (item : Item) : shown item ∈ lastShown key shown (earlier ++ [item]) :=
  ⟨item, lastOf_concat_self, rfl⟩

/-- Lists with the same keys, and under each the same, write the same. -/
theorem mem_foldl_replaceInto_subset {first second : List Item} (alike : ShowsAlike key id first second)
    (back : ShowsAlike key id second first) {relation : Relation key} {row : Item}
    (member : row ∈ first.foldl Relation.replaceInto relation) : row ∈ second.foldl Relation.replaceInto relation := by
  rw [mem_foldl_replaceInto_iff] at member ⊢
  obtain isLast | ⟨isOld, untouched⟩ := member
  · obtain ⟨⟨other, isOther, sameKey⟩, same⟩ := alike row (mem_of_lastOf isLast).1
    obtain ⟨last, lastAmong⟩ := exists_lastOf key isOther
    obtain ⟨lastMember, lastKey⟩ := mem_of_lastOf lastAmong
    obtain rfl : last = row := same last lastMember (lastKey.trans sameKey)
    exact .inl (lastKey ▸ lastAmong)
  · refine .inr ⟨isOld, fun touched => untouched ?_⟩
    obtain ⟨other, isOther, sameKey⟩ := List.mem_map.mp touched
    obtain ⟨⟨item, isItem, itemKey⟩, -⟩ := back other isOther
    exact List.mem_map.mpr ⟨item, isItem, itemKey.trans sameKey⟩

/-- If each item can be the last, lists that are left with the same show alike. -/
theorem showsAlike_of_lastShown {Order : Type*} (lists : Order → List Item)
    (keyShown : ∀ item other, shown item = shown other → key item = key other)
    (same : ∀ one another, lastShown key shown (lists one) = lastShown key shown (lists another))
    (lastAt : ∀ order, ∀ item ∈ lists order, ∃ other earlier, lists other = earlier ++ [item]) (first second : Order) :
    ShowsAlike key shown (lists first) (lists second) := by
  have shownEverywhere {order : Order} {item : Item} (member : item ∈ lists order) (another : Order) :
      shown item ∈ lastShown key shown (lists another) := by
    obtain ⟨other, earlier, isLast⟩ := lastAt order item member
    rw [← same other another, isLast]
    exact lastShown_concat earlier item
  intro item member
  refine ⟨?_, ?_⟩
  · obtain ⟨other, isLast, sameShown⟩ := shownEverywhere member second
    exact ⟨other, (mem_of_lastOf isLast).1, (keyShown _ _ sameShown).symm⟩
  · intro other isOther sameKey
    obtain ⟨last, isLast, lastShown⟩ := shownEverywhere member second
    obtain ⟨otherLast, isOtherLast, otherShown⟩ := shownEverywhere isOther second
    -- One item is the last under the key that the two have.
    have sameLast : lastOf key (key last) (lists second) = some otherLast := by
      rw [← keyShown _ _ lastShown, ← sameKey, keyShown _ _ otherShown]
      exact isOtherLast
    rw [isLast, Option.some.injEq] at sameLast
    rw [otherShown, lastShown, sameLast]

end Shown

end AbilityFramework.Library
