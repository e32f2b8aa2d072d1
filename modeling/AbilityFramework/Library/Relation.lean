import Mathlib.Data.List.Nodup

/-! # Relations with a primary key

A relation is a list of rows no two of which have the same key.  The statements are the ones a
relational database gives: `select`, `replaceInto` (insert, or overwrite the row with the same
key), `updateWhere` and `deleteWhere`.  Each keeps the key constraint, so it is proved once, in the
statement, and never again by a user of the relation.

Facts about relations are membership facts: `mem_select`, `mem_replaceInto`, `mem_updateWhere` and
`mem_deleteWhere` say which rows there are after a statement, and `eq_of_key` says that a key
determines its row. -/

namespace AbilityFramework.Library

structure Relation {Row Key : Type*} (key : Row → Key) where
  rows : List Row
  keyed : (rows.map key).Nodup

namespace Relation

variable {Row Key : Type*} {key : Row → Key}

instance : Membership Row (Relation key) := ⟨fun relation row => row ∈ relation.rows⟩

theorem mem_def {relation : Relation key} {row : Row} : row ∈ relation ↔ row ∈ relation.rows := Iff.rfl

instance [DecidableEq Row] (relation : Relation key) (row : Row) : Decidable (row ∈ relation) :=
  inferInstanceAs (Decidable (row ∈ relation.rows))

@[ext] theorem ext {first second : Relation key} (rows : first.rows = second.rows) : first = second := by
  cases first; cases second; cases rows; rfl

instance [DecidableEq Row] : DecidableEq (Relation key) := fun first second =>
  decidable_of_iff (first.rows = second.rows) ⟨ext, congrArg rows⟩

theorem eq_of_key {relation : Relation key} {first second : Row} (firstMember : first ∈ relation)
    (secondMember : second ∈ relation) (sameKey : key first = key second) : first = second :=
  List.inj_on_of_nodup_map relation.keyed firstMember secondMember sameKey

/-! ## Statements -/

def empty : Relation key := ⟨[], List.nodup_nil⟩

instance : EmptyCollection (Relation key) := ⟨empty⟩

@[simp] theorem not_mem_empty (row : Row) : row ∉ (∅ : Relation key) := List.not_mem_nil

def select (relation : Relation key) (condition : Row → Bool) : List Row :=
  relation.rows.filter condition

@[simp] theorem mem_select {relation : Relation key} {condition : Row → Bool} {row : Row} :
    row ∈ relation.select condition ↔ row ∈ relation ∧ condition row = true := List.mem_filter

/-- A query has no row exactly if no row of the relation satisfies it. -/
theorem select_eq_nil {relation : Relation key} {condition : Row → Bool} :
    relation.select condition = [] ↔ ∀ row ∈ relation, ¬ condition row = true := List.filter_eq_nil_iff

def deleteWhere (relation : Relation key) (condition : Row → Bool) : Relation key where
  rows := relation.rows.filter fun row => !condition row
  keyed := (List.filter_sublist.map key).nodup relation.keyed

@[simp] theorem mem_deleteWhere {relation : Relation key} {condition : Row → Bool} {row : Row} :
    row ∈ relation.deleteWhere condition ↔ row ∈ relation ∧ ¬ condition row = true := by
  simp [mem_def, deleteWhere]

theorem deleteWhere_eq_self {relation : Relation key} {condition : Row → Bool}
    (absent : ∀ row ∈ relation, ¬ condition row = true) : relation.deleteWhere condition = relation := by
  apply ext
  simp only [deleteWhere, List.filter_eq_self, Bool.not_eq_true']
  intro row member
  exact Bool.eq_false_iff.mpr (absent row member)

/-- `UPDATE … SET … WHERE …`, of columns outside the key. -/
def updateWhere (relation : Relation key) (condition : Row → Bool) (change : Row → Row)
    (keeps : ∀ row, key (change row) = key row) : Relation key where
  rows := relation.rows.map fun row => if condition row then change row else row
  keyed := by
    have sameKeys : (relation.rows.map fun row => if condition row then change row else row).map key =
        relation.rows.map key := by
      rw [List.map_map]
      apply List.map_congr_left
      intro row _
      simp only [Function.comp_apply]
      split
      · exact keeps row
      · rfl
    rw [sameKeys]
    exact relation.keyed

theorem mem_updateWhere {relation : Relation key} {condition : Row → Bool} {change : Row → Row}
    (keeps : ∀ row, key (change row) = key row) {row : Row} :
    row ∈ relation.updateWhere condition change keeps ↔
      ∃ old ∈ relation, row = if condition old then change old else old := by
  simp only [mem_def, updateWhere, List.mem_map, eq_comm]

/-! ## Counting rows -/

theorem length_select_deleteWhere (relation : Relation key) (condition deleted : Row → Bool) :
    ((relation.deleteWhere deleted).select condition).length ≤ (relation.select condition).length :=
  (List.filter_sublist.filter condition).length_le

theorem length_select_updateWhere (relation : Relation key) {condition changed : Row → Bool}
    {change : Row → Row} (keeps : ∀ row, key (change row) = key row)
    (same : ∀ row, condition (change row) = condition row) :
    ((relation.updateWhere changed change keeps).select condition).length =
      (relation.select condition).length := by
  simp only [select, updateWhere, List.filter_map, List.length_map]
  congr 2
  funext row
  simp only [Function.comp_apply]
  split
  · exact same row
  · rfl

/-- At most one row satisfies a condition if the query for it has at most one row. -/
theorem eq_of_length_select {relation : Relation key} {condition : Row → Bool}
    (few : (relation.select condition).length ≤ 1) {first second : Row}
    (firstMember : first ∈ relation) (firstMeets : condition first = true)
    (secondMember : second ∈ relation) (secondMeets : condition second = true) : first = second := by
  have firstFound : first ∈ relation.select condition := mem_select.mpr ⟨firstMember, firstMeets⟩
  have secondFound : second ∈ relation.select condition := mem_select.mpr ⟨secondMember, secondMeets⟩
  match found : relation.select condition with
  | [] =>
    rw [found] at firstFound
    cases firstFound
  | [only] =>
    rw [found] at firstFound secondFound
    rw [List.mem_singleton.mp firstFound, List.mem_singleton.mp secondFound]
  | _ :: _ :: _ =>
    rw [found] at few
    simp only [List.length_cons] at few
    omega

theorem exists_ne_of_length_select {relation : Relation key} {condition : Row → Bool}
    (many : 2 ≤ (relation.select condition).length) :
    ∃ first ∈ relation, ∃ second ∈ relation, condition first = true ∧ condition second = true ∧
      first ≠ second := by
  -- Distinct keys make distinct rows.
  have distinct : (relation.select condition).Nodup := (relation.keyed.of_map key).filter condition
  match found : relation.select condition with
  | [] | [_] =>
    rw [found] at many
    simp at many
  | first :: second :: rest =>
    have firstFound : first ∈ relation.select condition := found ▸ List.mem_cons_self
    have secondFound : second ∈ relation.select condition :=
      found ▸ List.mem_cons_of_mem _ List.mem_cons_self
    obtain ⟨firstMember, firstMeets⟩ := mem_select.mp firstFound
    obtain ⟨secondMember, secondMeets⟩ := mem_select.mp secondFound
    rw [found] at distinct
    have different : first ≠ second := fun same => (List.nodup_cons.mp distinct).1 (same ▸ List.mem_cons_self)
    exact ⟨first, firstMember, second, secondMember, firstMeets, secondMeets, different⟩

section Keys

variable [DecidableEq Key]

/-- The row with the given key, which is the only one. -/
def lookup (relation : Relation key) (wanted : Key) : Option Row :=
  relation.rows.find? fun row => key row = wanted

theorem lookup_eq_some {relation : Relation key} {wanted : Key} {row : Row} :
    relation.lookup wanted = some row ↔ row ∈ relation ∧ key row = wanted := by
  have key_of_found : ∀ {row}, relation.lookup wanted = some row → key row = wanted := by
    intro row found
    exact of_decide_eq_true (List.find?_some (p := fun row => decide (key row = wanted)) found)
  refine ⟨fun found => ⟨List.mem_of_find?_eq_some found, key_of_found found⟩, fun present => ?_⟩
  cases found : relation.lookup wanted with
  | none =>
    -- The row is there, so the search cannot have come back empty.
    have absent := List.find?_eq_none.mp found row present.1
    exact absurd (decide_eq_true present.2) absent
  | some other =>
    have sameKey : key other = key row := (key_of_found found).trans present.2.symm
    rw [eq_of_key (List.mem_of_find?_eq_some found) present.1 sameKey]

theorem lookup_congr {first second : Relation key} (same : ∀ row, row ∈ first ↔ row ∈ second) (wanted : Key) :
    first.lookup wanted = second.lookup wanted := by
  refine Option.ext fun row => ?_
  rw [lookup_eq_some, lookup_eq_some, same]

/-- `REPLACE INTO`: the row with the same key goes, the new row comes last. -/
def replaceInto (relation : Relation key) (row : Row) : Relation key where
  rows := relation.rows.filter (fun old => key old ≠ key row) ++ [row]
  keyed := by
    rw [List.map_append, List.map_singleton, List.nodup_append]
    refine ⟨(List.filter_sublist.map key).nodup relation.keyed, List.nodup_singleton _, ?_⟩
    intro oldKey oldMember newKey newMember
    obtain ⟨old, kept, rfl⟩ := List.mem_map.mp oldMember
    rw [List.mem_singleton.mp newMember]
    simpa using (List.mem_filter.mp kept).2

@[simp] theorem mem_replaceInto {relation : Relation key} {new row : Row} :
    row ∈ relation.replaceInto new ↔ row = new ∨ row ∈ relation ∧ key row ≠ key new := by
  simp [mem_def, replaceInto, or_comm]

/-- An update of the row with a key changes that row only. -/
theorem mem_updateWhere_key {relation : Relation key} {wanted : Key} {change : Row → Row}
    (keeps : ∀ row, key (change row) = key row) {old : Row} (member : old ∈ relation) (isOld : key old = wanted)
    {row : Row} : row ∈ relation.updateWhere (fun row => key row = wanted) change keeps ↔
      row = change old ∨ row ∈ relation ∧ key row ≠ wanted := by
  rw [mem_updateWhere keeps]
  constructor
  · rintro ⟨other, otherMember, rfl⟩
    by_cases same : key other = wanted
    · rw [eq_of_key otherMember member (same.trans isOld.symm), if_pos (decide_eq_true isOld)]
      exact .inl rfl
    · rw [if_neg (mt of_decide_eq_true same)]
      exact .inr ⟨otherMember, same⟩
  · rintro (rfl | ⟨rowMember, different⟩)
    · exact ⟨old, member, by rw [if_pos (decide_eq_true isOld)]⟩
    · exact ⟨row, rowMember, by rw [if_neg (mt of_decide_eq_true different)]⟩

/-- Rows with distinct keys, written one after the other, all stay. -/
theorem mem_foldl_replaceInto {rows : List Row} (distinct : (rows.map key).Nodup) {relation : Relation key} {row : Row} :
    row ∈ rows.foldl replaceInto relation ↔ row ∈ rows ∨ row ∈ relation ∧ key row ∉ rows.map key := by
  induction rows generalizing relation with
  | nil => simp
  | cons first rest inductionHypothesis =>
    rw [List.map_cons, List.nodup_cons] at distinct
    rw [List.foldl_cons, inductionHypothesis distinct.2, mem_replaceInto]
    simp only [List.mem_cons, List.map_cons, not_or]
    constructor
    · rintro (later | ⟨rfl | ⟨member, different⟩, notLater⟩)
      · exact .inl (.inr later)
      · exact .inl (.inl rfl)
      · exact .inr ⟨member, different, notLater⟩
    · rintro ((rfl | later) | ⟨member, different, notLater⟩)
      · exact .inr ⟨.inl rfl, distinct.1⟩
      · exact .inl later
      · exact .inr ⟨.inr ⟨member, different⟩, notLater⟩

theorem rows_foldl_replaceInto {rows : List Row} (distinct : (rows.map key).Nodup) {relation : Relation key}
    (apart : ∀ row ∈ rows, key row ∉ relation.rows.map key) :
    (rows.foldl replaceInto relation).rows = relation.rows ++ rows := by
  induction rows generalizing relation with
  | nil => rw [List.foldl_nil, List.append_nil]
  | cons first rest inductionHypothesis =>
    rw [List.map_cons, List.nodup_cons] at distinct
    obtain ⟨firstApart, restApart⟩ := List.forall_mem_cons.mp apart
    have added : (relation.replaceInto first).rows = relation.rows ++ [first] := by
      refine congrArg (· ++ [first]) (List.filter_eq_self.mpr ?_)
      intro row member
      rw [decide_eq_true_eq]
      exact fun same => firstApart (same ▸ List.mem_map_of_mem member)
    rw [List.foldl_cons, inductionHypothesis distinct.2, added, List.append_assoc, List.singleton_append]
    intro row member
    rw [added, List.map_append, List.mem_append, List.map_singleton, List.mem_singleton, not_or]
    exact ⟨restApart row member, fun same => distinct.1 (same ▸ List.mem_map_of_mem member)⟩

/-- A relation is what its rows make, written one after the other. -/
theorem foldl_replaceInto_empty (relation : Relation key) : relation.rows.foldl replaceInto ∅ = relation := by
  apply ext
  rw [rows_foldl_replaceInto relation.keyed]
  · exact List.nil_append _
  · intro row _ member
    cases member

/-- `INSERT INTO`, which fails if the key is taken. -/
def insert (relation : Relation key) (row : Row) : Option (Relation key) :=
  if fresh : key row ∉ relation.rows.map key then
    some ⟨relation.rows ++ [row], by
      rw [List.map_append, List.map_singleton, List.nodup_append]
      refine ⟨relation.keyed, List.nodup_singleton _, ?_⟩
      intro oldKey oldMember newKey newMember same
      rw [List.mem_singleton.mp newMember] at same
      exact fresh (same ▸ oldMember)⟩
  else none

theorem select_insert {relation next : Relation key} {row : Row} (inserted : relation.insert row = some next)
    (condition : Row → Bool) :
    next.select condition = relation.select condition ++ [row].filter condition := by
  unfold insert at inserted
  split_ifs at inserted
  simp only [Option.some.injEq] at inserted
  rw [← inserted, select, List.filter_append, select]

theorem mem_insert {relation next : Relation key} {row new : Row} (inserted : relation.insert new = some next) :
    row ∈ next ↔ row ∈ relation ∨ row = new := by
  unfold insert at inserted
  split_ifs at inserted
  simp only [Option.some.injEq] at inserted
  rw [← inserted, mem_def, List.mem_append, List.mem_singleton, mem_def]

theorem exists_insert {relation : Relation key} {row : Row} (fresh : key row ∉ relation.rows.map key) :
    ∃ next, relation.insert row = some next := by
  unfold insert
  rw [dif_pos fresh]
  exact ⟨_, rfl⟩

/-- An insert leaves a row with its key, be it the new one or the one that made the insert fail. -/
theorem exists_key_insert {relation : Relation key} {new : Row} {wanted : Key} :
    (∃ row ∈ (relation.insert new).getD relation, key row = wanted) ↔
      (∃ row ∈ relation, key row = wanted) ∨ key new = wanted := by
  by_cases taken : key new ∈ relation.rows.map key
  · obtain ⟨row, member, sameKey⟩ := List.mem_map.mp taken
    have fails : relation.insert new = none := dif_neg (not_not_intro taken)
    rw [fails, Option.getD_none]
    constructor
    · exact Or.inl
    · rintro (present | isNew)
      · exact present
      · exact ⟨row, member, sameKey.trans isNew⟩
  · obtain ⟨next, inserted⟩ := exists_insert taken
    simp only [inserted, Option.getD_some, mem_insert inserted, or_and_right, exists_or, exists_eq_left]

theorem lookup_replaceInto_self (relation : Relation key) (row : Row) :
    (relation.replaceInto row).lookup (key row) = some row :=
  lookup_eq_some.mpr ⟨mem_replaceInto.mpr (.inl rfl), rfl⟩

end Keys

end Relation

end AbilityFramework.Library
