import Mathlib.Data.List.Basic
import Mathlib.Tactic.Basic

/-! # YAML nodes

A document as a parser holds it: nodes in a memory, where an alias is the node that it stands for.  What a
document means is the tree that it unfolds to.  A node may contain itself, so the tree is taken to every depth.

A change of one node is seen wherever a path leads to it, and nowhere else (`unfold_eq_iff`). -/

namespace AbilityFramework.Library

inductive YamlShape (α : Type) where
  | null
  | scalar (text : String)
  | sequence (items : List α)
  | map (members : List (α × α))
  deriving DecidableEq

/-- From a node to what it contains. -/
inductive YamlStep where
  | item (position : Nat)
  | key (position : Nat)
  | value (position : Nat)
  deriving DecidableEq

namespace YamlShape

variable {α β : Type}

def image (change : α → β) : YamlShape α → YamlShape β
  | null => null
  | scalar text => scalar text
  | sequence items => sequence (items.map change)
  | map members => map (members.map (Prod.map change change))

def step : YamlShape α → YamlStep → Option α
  | sequence items, .item position => items[position]?
  | map members, .key position => members[position]?.map Prod.fst
  | map members, .value position => members[position]?.map Prod.snd
  | _, _ => none

def isText (text : String) : YamlShape α → Bool
  | scalar other => other = text
  | _ => false

/-- The members of what is or can become a map. -/
def entries : YamlShape α → Option (List (α × α))
  | null => some []
  | map members => some members
  | _ => none

def leaf : Option String → YamlShape α
  | none => null
  | some text => scalar text

variable {shape : YamlShape α}

@[simp] theorem step_leaf (text : Option String) (step : YamlStep) : (leaf text : YamlShape α).step step = none := by
  cases text <;> rfl

@[simp] theorem isText_image (change : α → β) (text : String) : (shape.image change).isText text = shape.isText text := by
  cases shape <;> rfl

theorem step_image (change : α → β) (step : YamlStep) : (shape.image change).step step = (shape.step step).map change := by
  cases shape <;> cases step <;> simp [image, YamlShape.step, Function.comp_def]

theorem step_fst_of_mem {members : List (α × α)} {member : α × α} (isMember : member ∈ members) :
    ∃ step, (map members).step step = some member.1 := by
  obtain ⟨position, found⟩ := List.mem_iff_getElem?.mp isMember
  exact ⟨.key position, by rw [YamlShape.step, found, Option.map_some]⟩

theorem step_snd_of_mem {members : List (α × α)} {member : α × α} (isMember : member ∈ members) :
    ∃ step, (map members).step step = some member.2 := by
  obtain ⟨position, found⟩ := List.mem_iff_getElem?.mp isMember
  exact ⟨.value position, by rw [YamlShape.step, found, Option.map_some]⟩

theorem step_below {size : Nat} {members : List (Nat × Nat)} (below : ∀ member ∈ members, member.1 < size ∧ member.2 < size)
    (step : YamlStep) (child : Nat) (found : (map members).step step = some child) : child < size := by
  cases step with
  | item => cases found
  | key =>
    obtain ⟨member, atPosition, rfl⟩ := Option.map_eq_some_iff.mp found
    exact (below member (List.mem_of_getElem? atPosition)).1
  | value =>
    obtain ⟨member, atPosition, rfl⟩ := Option.map_eq_some_iff.mp found
    exact (below member (List.mem_of_getElem? atPosition)).2

theorem image_congr {change other : α → β} (same : ∀ step child, shape.step step = some child → change child = other child) :
    shape.image change = shape.image other := by
  cases shape with
  | null | scalar => rfl
  | sequence items =>
    refine congrArg sequence (List.map_congr_left fun item isItem => ?_)
    obtain ⟨position, found⟩ := List.mem_iff_getElem?.mp isItem
    exact same (.item position) item found
  | map members =>
    refine congrArg map (List.map_congr_left fun member isMember => ?_)
    obtain ⟨keyStep, atKey⟩ := step_fst_of_mem isMember
    obtain ⟨valueStep, atValue⟩ := step_snd_of_mem isMember
    exact Prod.ext (same keyStep _ atKey) (same valueStep _ atValue)

theorem entries_image (change : α → β) :
    (shape.image change).entries = shape.entries.map (List.map (Prod.map change change)) := by
  cases shape <;> rfl

theorem step_of_entries {members : List (α × α)} (isMap : shape.entries = some members) (step : YamlStep) :
    shape.step step = (map members).step step := by
  cases shape with
  | null =>
    obtain rfl := Option.some.inj isMap
    cases step <;> rfl
  | map =>
    obtain rfl := Option.some.inj isMap
    rfl
  | scalar | sequence => cases isMap

theorem image_eq_iff {change other : α → β} :
    shape.image change = shape.image other ↔ ∀ step child, shape.step step = some child → change child = other child := by
  refine ⟨fun same step child found => ?_, image_congr⟩
  have sameStep := congrArg (YamlShape.step · step) same
  simp only [step_image, found, Option.map_some] at sameStep
  exact Option.some.inj sameStep

/-- One value is replaced, everything else is as it was. -/
theorem map_set_eq_iff {members : List (α × α)} {position : Nat} {member : α × α} (found : members[position]? = some member)
    {change other : α → β} {value : β} :
    map ((members.map (Prod.map change change)).set position (change member.1, value)) = (map members).image other ↔
      value = other member.2 ∧
        ∀ step child, step ≠ .value position → (map members).step step = some child → change child = other child := by
  rw [image, map.injEq, List.ext_getElem?_iff]
  constructor
  · intro same
    have here := same position
    rw [List.getElem?_set_self (by simpa using (List.getElem?_eq_some_iff.mp found).1), List.getElem?_map, found,
      Option.map_some, Option.some.injEq, Prod.map, Prod.mk.injEq] at here
    have elsewhere {index : Nat} (different : index ≠ position) {pair : α × α} (atIndex : members[index]? = some pair) :
        change pair.1 = other pair.1 ∧ change pair.2 = other pair.2 := by
      have there := same index
      rw [List.getElem?_set_ne different.symm, List.getElem?_map, List.getElem?_map, atIndex] at there
      exact Prod.ext_iff.mp (Option.some.inj there)
    refine ⟨here.2, fun step child different atStep => ?_⟩
    cases step with
    | item => cases atStep
    | key index =>
      obtain ⟨pair, atIndex, rfl⟩ := Option.map_eq_some_iff.mp atStep
      by_cases isPosition : index = position
      · obtain rfl := Option.some.inj (found.symm.trans (isPosition ▸ atIndex))
        exact here.1
      · exact (elsewhere isPosition atIndex).1
    | value index =>
      obtain ⟨pair, atIndex, rfl⟩ := Option.map_eq_some_iff.mp atStep
      exact (elsewhere (fun isPosition => different (congrArg YamlStep.value isPosition)) atIndex).2
  · rintro ⟨rfl, same⟩ index
    by_cases isPosition : index = position
    · subst isPosition
      rw [List.getElem?_set_self (by simpa using (List.getElem?_eq_some_iff.mp found).1), List.getElem?_map, found,
        Option.map_some, Prod.map, same (.key index) member.1 nofun (by rw [step, found, Option.map_some])]
    · rw [List.getElem?_set_ne (Ne.symm isPosition), List.getElem?_map, List.getElem?_map]
      refine Option.map_congr fun pair atIndex => Prod.ext ?_ ?_
      · exact same (.key index) pair.1 nofun (by rw [step, atIndex, Option.map_some])
      · refine same (.value index) pair.2 (fun isValue => isPosition (YamlStep.value.inj isValue)) ?_
        rw [step, atIndex, Option.map_some]

end YamlShape

/-! ## Documents -/

structure YamlGraph where
  /-- The nodes are numbered below it. -/
  size : Nat
  data : Nat → YamlShape Nat
  root : Nat
  rootBelow : root < size
  closed : ∀ node step child, (data node).step step = some child → child < size

inductive YamlTree where
  | node (shape : YamlShape YamlTree)

def YamlTree.shape : YamlTree → YamlShape YamlTree
  | node shape => shape

namespace YamlGraph

variable (graph : YamlGraph)

/-- The tree below a node, down to a depth. -/
def unfold : Nat → Nat → YamlTree
  | 0, _ => .node .null
  | depth + 1, node => .node ((graph.data node).image (unfold depth))

theorem unfold_succ (depth node : Nat) :
    graph.unfold (depth + 1) node = .node ((graph.data node).image (graph.unfold depth)) := rfl

/-- Where a path leads. -/
def follow : List YamlStep → Nat → Option Nat
  | [], node => some node
  | step :: path, node => ((graph.data node).step step).bind (follow path)

variable {graph} {after : YamlGraph} {node : Nat}

theorem follow_below {path : List YamlStep} {reached : Nat} (below : node < graph.size)
    (follows : graph.follow path node = some reached) : reached < graph.size := by
  induction path generalizing node with
  | nil =>
    obtain rfl := Option.some.inj follows
    exact below
  | cons step path inductionHypothesis =>
    obtain ⟨child, found, later⟩ := Option.bind_eq_some_iff.mp follows
    exact inductionHypothesis (graph.closed _ _ _ found) later

theorem unfold_congr (same : ∀ path reached, graph.follow path node = some reached → after.data reached = graph.data reached)
    (depth : Nat) : after.unfold depth node = graph.unfold depth node := by
  induction depth generalizing node with
  | zero => rfl
  | succ depth inductionHypothesis =>
    rw [unfold, unfold, same [] node rfl]
    refine congrArg YamlTree.node (YamlShape.image_congr fun step child found => inductionHypothesis ?_)
    intro path reached follows
    exact same (step :: path) reached (by rw [follow, found, Option.bind_some, follows])

/-! ### A change of one node -/

variable {changed : Nat}

/-- Where the trees are the same, they are the same below every node that a path leads to. -/
theorem unfold_follow (others : ∀ other < graph.size, other ≠ changed → after.data other = graph.data other)
    {bound : Nat} (below : node < graph.size)
    (same : ∀ depth, after.unfold (depth + bound) node = graph.unfold (depth + bound) node) {path : List YamlStep}
    (follows : graph.follow path node = some changed) (depth : Nat) :
    after.unfold (depth + bound) changed = graph.unfold (depth + bound) changed := by
  induction path generalizing node with
  | nil =>
    obtain rfl := Option.some.inj follows
    exact same depth
  | cons step path inductionHypothesis =>
    by_cases isChanged : node = changed
    · exact isChanged ▸ same depth
    · obtain ⟨child, found, later⟩ := Option.bind_eq_some_iff.mp follows
      refine inductionHypothesis (graph.closed _ _ _ found) (fun depth => ?_) later
      have sameNode := YamlTree.node.inj (Nat.add_right_comm depth bound 1 ▸ same (depth + 1))
      rw [others node below isChanged] at sameNode
      exact YamlShape.image_eq_iff.mp sameNode step child found

theorem unfold_eq_iff (others : ∀ other < graph.size, other ≠ changed → after.data other = graph.data other)
    (differs : ∀ depth, after.unfold (depth + 1) changed ≠ graph.unfold (depth + 1) changed) (bound : Nat)
    (below : node < graph.size) :
    (∀ depth, after.unfold (depth + bound) node = graph.unfold (depth + bound) node) ↔
      ∀ path, graph.follow path node ≠ some changed := by
  constructor
  · intro same path follows
    refine differs bound ?_
    rw [Nat.add_comm bound 1]
    exact unfold_follow others below same follows 1
  · intro unreached depth
    refine unfold_congr (fun path reached follows => ?_) _
    refine others reached (follow_below below follows) ?_
    rintro rfl
    exact unreached path follows

end YamlGraph

/-! ## Putting a scalar under keys -/

namespace YamlTree

/-- The tree with a scalar under the keys; null is the map without members, and nothing else becomes a map. -/
def put (value : String) : List String → YamlTree → Option YamlTree
  | [], _ => some (.node (.scalar value))
  | key :: keys, .node shape =>
    shape.entries.bind fun members =>
      let position := members.findIdx fun member => member.1.shape.isText key
      match members[position]? with
      | some member => (put value keys member.2).map fun child => .node (.map (members.set position (member.1, child)))
      | none => (put value keys (.node .null)).map fun child => .node (.map (members ++ [(.node (.scalar key), child)]))

/-- Nothing but a scalar under the keys. -/
def chain (value : String) : List String → YamlTree
  | [] => .node (.scalar value)
  | key :: keys => .node (.map [(.node (.scalar key), chain value keys)])

theorem put_null (value : String) (keys : List String) : (node .null).put value keys = some (chain value keys) := by
  induction keys with
  | nil => rfl
  | cons key keys inductionHypothesis =>
    show (put value keys (.node .null)).map _ = _
    rw [inductionHypothesis]
    rfl

end YamlTree

namespace YamlGraph

/-- New nodes that contain nothing. -/
def create (graph : YamlGraph) (leaves : List (Option String)) : YamlGraph where
  size := graph.size + leaves.length
  data := fun node => if node < graph.size then graph.data node else .leaf (leaves[node - graph.size]?.join)
  root := graph.root
  rootBelow := Nat.lt_add_right _ graph.rootBelow
  closed := by
    intro node step child found
    split at found
    · exact Nat.lt_add_right _ (graph.closed node step child found)
    · simp at found

def set (graph : YamlGraph) (changed : Nat) (shape : YamlShape Nat)
    (below : ∀ step child, shape.step step = some child → child < graph.size) : YamlGraph where
  size := graph.size
  data := fun node => if node = changed then shape else graph.data node
  root := graph.root
  rootBelow := graph.rootBelow
  closed := by
    intro node step child found
    split at found
    · exact below step child found
    · exact graph.closed node step child found

/-- The members of a map. -/
def membersOf (graph : YamlGraph) (node : Nat) : List (Nat × Nat) :=
  match graph.data node with
  | .map members => members
  | _ => []

theorem membersOf_below (graph : YamlGraph) {node : Nat} {member : Nat × Nat} (isMember : member ∈ graph.membersOf node) :
    member.1 < graph.size ∧ member.2 < graph.size := by
  rw [membersOf] at isMember
  split at isMember
  · rename_i members same
    obtain ⟨keyStep, atKey⟩ := YamlShape.step_fst_of_mem isMember
    obtain ⟨valueStep, atValue⟩ := YamlShape.step_snd_of_mem isMember
    exact ⟨graph.closed node keyStep _ (same ▸ atKey), graph.closed node valueStep _ (same ▸ atValue)⟩
  · cases isMember

/-- The items of a sequence. -/
def itemsOf (graph : YamlGraph) (node : Nat) : List Nat :=
  match graph.data node with
  | .sequence items => items
  | _ => []

theorem itemsOf_below (graph : YamlGraph) {node item : Nat} (isItem : item ∈ graph.itemsOf node) : item < graph.size := by
  rw [itemsOf] at isItem
  split at isItem
  · rename_i items same
    obtain ⟨position, found⟩ := List.mem_iff_getElem?.mp isItem
    exact graph.closed node (.item position) item (by rw [same, YamlShape.step, found])
  · cases isItem

/-! ### Access by a key -/

inductive YamlException where
  /-- A member of a scalar. -/
  | badSubscript (key : String)

/-- The items of a sequence come under the texts of their positions. -/
def convertToMap (graph : YamlGraph) (node : Nat) : YamlGraph :=
  let items := graph.itemsOf node
  (graph.create (items.mapIdx fun position _ => some (toString position))).set node
    (.map (items.mapIdx fun position item => (graph.size + position, item))) <|
    YamlShape.step_below fun member isMember => by
      obtain ⟨position, inside, rfl⟩ := List.mem_mapIdx.mp isMember
      have itemBelow := graph.itemsOf_below (List.getElem_mem inside)
      simp only [create, List.length_mapIdx]
      exact ⟨Nat.add_lt_add_left inside _, Nat.lt_add_right _ itemBelow⟩

/-- A member under the key, after those that a map has. -/
def insert (graph : YamlGraph) (node : Nat) (key : String) : YamlGraph :=
  (graph.create [some key, none]).set node (.map (graph.membersOf node ++ [(graph.size, graph.size + 1)])) <|
    YamlShape.step_below fun member isMember => by
      show member.1 < graph.size + 2 ∧ member.2 < graph.size + 2
      rcases List.mem_append.mp isMember with isOld | isNew
      · have below := graph.membersOf_below isOld
        exact ⟨Nat.lt_add_right 2 below.1, Nat.lt_add_right 2 below.2⟩
      · rw [List.mem_singleton.mp isNew]
        exact ⟨Nat.lt_add_of_pos_right (by decide), Nat.lt_succ_self _⟩

/-- Where the key is among the members of a map, or else how many there are. -/
def position (graph : YamlGraph) (node : Nat) (key : String) : Nat :=
  (graph.membersOf node).findIdx fun member => (graph.data member.1).isText key

def getOfMap (graph : YamlGraph) (node : Nat) (key : String) : Nat × YamlGraph :=
  match (graph.membersOf node)[graph.position node key]? with
  | some member => (member.2, graph)
  | none => (graph.size + 1, graph.insert node key)

/-- `operator[]`: the node under the key, made when there is none. -/
def get (graph : YamlGraph) (node : Nat) (key : String) : Except YamlException (Nat × YamlGraph) :=
  match graph.data node with
  | .scalar _ => .error (.badSubscript key)
  | .map _ => .ok (graph.getOfMap node key)
  | _ => .ok ((graph.convertToMap node).getOfMap node key)

def assign (graph : YamlGraph) (node : Nat) (text : String) : YamlGraph :=
  graph.set node (.scalar text) nofun

/-- `root[key]… = value` -/
def setAt (value : String) : List String → Nat → YamlGraph → Except YamlException YamlGraph
  | [], node, graph => .ok (graph.assign node value)
  | key :: keys, node, graph => do
    let (child, graph) ← graph.get node key
    setAt value keys child graph

/-- What an assignment changes: the path to the last node that is there already, the node, and the keys of
those to be made below it. -/
structure Walk where
  path : List YamlStep
  node : Nat
  rest : List String

def Walk.behind (walk : Walk) (step : YamlStep) : Walk := { walk with path := step :: walk.path }

def walk (graph : YamlGraph) : List String → Nat → Walk
  | [], node => ⟨[], node, []⟩
  | key :: keys, node =>
    match (graph.membersOf node)[graph.position node key]? with
    | some member => (graph.walk keys member.2).behind (.value (graph.position node key))
    | none => ⟨[], node, key :: keys⟩

/-! ### What an assignment does -/

structure Inserted (graph next : YamlGraph) (node : Nat) (key : String) : Prop where
  size : next.size = graph.size + 2
  root : next.root = graph.root
  others : ∀ other < graph.size, other ≠ node → next.data other = graph.data other
  changed : next.data node = .map (graph.membersOf node ++ [(graph.size, graph.size + 1)])
  keyNode : next.data graph.size = .scalar key
  valueNode : next.data (graph.size + 1) = .null

theorem inserted_insert (graph : YamlGraph) {node : Nat} (key : String) (below : node < graph.size) :
    Inserted graph (graph.insert node key) node key where
  size := rfl
  root := rfl
  others := by
    intro other otherBelow different
    simp [insert, set, create, different, otherBelow]
  changed := by simp [insert, set]
  keyNode := by simp [insert, set, create, YamlShape.leaf, Nat.ne_of_gt below]
  valueNode := by
    have different : graph.size + 1 ≠ node := Nat.ne_of_gt (Nat.lt_succ_of_lt below)
    simp [insert, set, create, YamlShape.leaf, different, Nat.not_lt.mpr (Nat.le_succ _)]

theorem membersOf_eq {graph : YamlGraph} {node : Nat} {members : List (Nat × Nat)}
    (isMap : (graph.data node).entries = some members) : graph.membersOf node = members := by
  rw [membersOf]
  cases same : graph.data node with
  | null =>
    rw [same] at isMap
    exact Option.some.inj isMap
  | map =>
    rw [same] at isMap
    exact Option.some.inj isMap
  | scalar | sequence =>
    rw [same] at isMap
    cases isMap

variable {graph after : YamlGraph} {node : Nat} {value key : String} {keys : List String}

/-- What an assignment has done: one node is changed, and what is new is below it. -/
structure Assigned (graph after : YamlGraph) (value : String) (changed : Nat) (rest : List String) : Prop where
  root : after.root = graph.root
  others : ∀ other < graph.size, other ≠ changed → after.data other = graph.data other
  scalar : rest = [] → after.data changed = .scalar value
  member : ∀ key keys, rest = key :: keys → ∃ keyNode valueNode,
    after.data changed = .map (graph.membersOf changed ++ [(keyNode, valueNode)]) ∧
      (∀ depth, after.unfold (depth + 1) keyNode = .node (.scalar key)) ∧
        ∀ depth, after.unfold (depth + keys.length + 1) valueNode = .chain value keys

theorem Inserted.assigned {next : YamlGraph} (inserted : Inserted graph next node key) (below : node < graph.size)
    (root : after.root = next.root)
    (others : ∀ other < next.size, other ≠ graph.size + 1 → after.data other = next.data other)
    (chain : ∀ depth, after.unfold (depth + keys.length + 1) (graph.size + 1) = .chain value keys) :
    Assigned graph after value node (key :: keys) := by
  have kept (other : Nat) (otherBelow : other ≤ graph.size) : after.data other = next.data other := by
    refine others other ?_ (Nat.ne_of_lt (Nat.lt_succ_of_le otherBelow))
    rw [inserted.size]
    exact Nat.lt_add_right 1 (Nat.lt_succ_of_le otherBelow)
  refine ⟨root.trans inserted.root, ?_, nofun, ?_⟩
  · intro other otherBelow different
    rw [kept other (Nat.le_of_lt otherBelow), inserted.others other otherBelow different]
  · rintro _ _ ⟨⟩
    refine ⟨graph.size, graph.size + 1, (kept node (Nat.le_of_lt below)).trans inserted.changed, ?_, chain⟩
    intro depth
    rw [unfold, kept _ (Nat.le_refl _), inserted.keyNode]
    rfl

theorem convertToMap_null (isNull : graph.data node = .null) :
    (graph.convertToMap node).size = graph.size ∧ (graph.convertToMap node).data node = .map [] ∧
      ∀ other < graph.size, other ≠ node → (graph.convertToMap node).data other = graph.data other := by
  have noItems : graph.itemsOf node = [] := by rw [itemsOf, isNull]
  refine ⟨by simp [convertToMap, set, create, noItems], by simp [convertToMap, set, noItems], ?_⟩
  intro other otherBelow different
  simp [convertToMap, set, create, different, otherBelow]

theorem get_absent (key : String) (below : node < graph.size) (isMap : (graph.data node).entries.isSome)
    (absent : (graph.membersOf node)[graph.position node key]? = none) :
    ∃ next, graph.get node key = .ok (graph.size + 1, next) ∧ Inserted graph next node key := by
  cases same : graph.data node with
  | map members =>
    refine ⟨_, ?_, inserted_insert graph key below⟩
    rw [get, same, getOfMap, absent]
  | null =>
    obtain ⟨sameSize, isEmpty, others⟩ := convertToMap_null same
    have noMembers : (graph.convertToMap node).membersOf node = [] := by rw [membersOf, isEmpty]
    have inserted := inserted_insert (graph.convertToMap node) key (sameSize ▸ below)
    refine ⟨(graph.convertToMap node).insert node key, ?_, ?_⟩
    · have isNew : (graph.convertToMap node).getOfMap node key =
          (graph.size + 1, (graph.convertToMap node).insert node key) := by
        rw [getOfMap, noMembers, List.getElem?_nil, sameSize]
      rw [get, same]
      exact congrArg Except.ok isNew
    · refine ⟨sameSize ▸ inserted.size, inserted.root, ?_, ?_, sameSize ▸ inserted.keyNode, sameSize ▸ inserted.valueNode⟩
      · intro other otherBelow different
        rw [inserted.others other (sameSize ▸ otherBelow) different, others other otherBelow different]
      · rw [inserted.changed, noMembers, sameSize, membersOf, same]
  | scalar | sequence =>
    rw [same] at isMap
    cases isMap

/-- Below a node that is null there is nothing but what is assigned. -/
theorem setAt_null (value : String) (keys : List String) (below : node < graph.size) (isNull : graph.data node = .null) :
    ∃ after, graph.setAt value keys node = .ok after ∧ after.root = graph.root ∧
      (∀ other < graph.size, other ≠ node → after.data other = graph.data other) ∧
      ∀ depth, after.unfold (depth + keys.length + 1) node = .chain value keys := by
  induction keys generalizing graph node with
  | nil =>
    refine ⟨graph.assign node value, rfl, rfl, ?_, ?_⟩
    · intro other _ different
      simp [assign, set, different]
    · intro depth
      simp [unfold, assign, set, YamlShape.image, YamlTree.chain]
  | cons key keys inductionHypothesis =>
    have noMembers : graph.membersOf node = [] := by rw [membersOf, isNull]
    obtain ⟨next, returns, inserted⟩ :=
      get_absent key below (by rw [isNull]; rfl) (by rw [noMembers, List.getElem?_nil])
    obtain ⟨after, later, root, others, chain⟩ := inductionHypothesis
      (by rw [inserted.size]; exact Nat.lt_succ_self _) inserted.valueNode
    have assigned := inserted.assigned below root others chain
    obtain ⟨keyNode, valueNode, isMap, keyTree, valueTree⟩ := assigned.member key keys rfl
    refine ⟨after, ?_, assigned.root, assigned.others, ?_⟩
    · rw [setAt, returns]
      exact later
    · intro depth
      rw [unfold, isMap, noMembers]
      show YamlTree.node (.map [(after.unfold (depth + keys.length + 1) _, after.unfold (depth + keys.length + 1) _)]) = _
      rw [keyTree, valueTree]
      rfl

theorem data_of_present {member : Nat × Nat} (present : (graph.membersOf node)[graph.position node key]? = some member) :
    graph.data node = .map (graph.membersOf node) := by
  cases same : graph.data node with
  | map members => rw [membersOf, same]
  | null | scalar | sequence =>
    rw [membersOf, same] at present
    cases present

theorem get_present {member : Nat × Nat} (present : (graph.membersOf node)[graph.position node key]? = some member) :
    graph.get node key = .ok (member.2, graph) := by
  rw [get, data_of_present present, getOfMap, present]

theorem walk_of_present {member : Nat × Nat} (present : (graph.membersOf node)[graph.position node key]? = some member) :
    graph.walk (key :: keys) node = (graph.walk keys member.2).behind (.value (graph.position node key)) := by
  rw [walk, present]

theorem walk_of_absent (absent : (graph.membersOf node)[graph.position node key]? = none) :
    graph.walk (key :: keys) node = ⟨[], node, key :: keys⟩ := by
  rw [walk, absent]

theorem assigned_of_setAt (value : String) (below : node < graph.size)
    (isMap : (graph.walk keys node).rest ≠ [] → (graph.data (graph.walk keys node).node).entries.isSome) :
    ∃ after, graph.setAt value keys node = .ok after ∧
      Assigned graph after value (graph.walk keys node).node (graph.walk keys node).rest := by
  induction keys generalizing node with
  | nil =>
    refine ⟨_, rfl, rfl, ?_, ?_, nofun⟩
    · intro other _ different
      exact if_neg different
    · intro _
      exact if_pos rfl
  | cons key keys inductionHypothesis =>
    cases present : (graph.membersOf node)[graph.position node key]? with
    | some member =>
      rw [walk_of_present present] at isMap ⊢
      obtain ⟨after, returns, assigned⟩ :=
        inductionHypothesis (graph.membersOf_below (List.mem_of_getElem? present)).2 isMap
      refine ⟨after, ?_, assigned⟩
      rw [setAt, get_present present]
      exact returns
    | none =>
      rw [walk_of_absent present] at isMap ⊢
      obtain ⟨next, returns, inserted⟩ := get_absent key below (isMap (List.cons_ne_nil _ _)) present
      obtain ⟨after, later, root, others, chain⟩ := setAt_null value keys
        (by rw [inserted.size]; exact Nat.lt_succ_self _) inserted.valueNode
      refine ⟨after, ?_, inserted.assigned below root others chain⟩
      rw [setAt, returns]
      exact later

/-! ### When an assignment changes nothing else -/

/-- The paths that may lead to the node: the walk's own and, where the node is replaced, those that go on below it. -/
def Walk.Admits (walk : Walk) (path : List YamlStep) : Prop :=
  match walk.rest with
  | [] => walk.path <+: path
  | _ :: _ => path = walk.path

/-- What an assignment changes is a map or becomes one, and is met on no other path. -/
structure Walk.Alone (walk : Walk) (graph : YamlGraph) (node : Nat) : Prop where
  isMap : walk.rest ≠ [] → (graph.data walk.node).entries.isSome
  only : ∀ path, graph.follow path node = some walk.node → walk.Admits path

theorem isText_unfold (depth : Nat) : (graph.unfold (depth + 1) node).shape.isText key = (graph.data node).isText key :=
  YamlShape.isText_image _ key

theorem findIdx_unfold (depth : Nat) :
    (((graph.membersOf node).map (Prod.map (graph.unfold (depth + 1)) (graph.unfold (depth + 1)))).findIdx fun member =>
      member.1.shape.isText key) = graph.position node key := by
  rw [List.findIdx_map, position]
  refine congrArg (List.findIdx · _) (funext fun member => ?_)
  exact isText_unfold depth

theorem put_present {member : Nat × Nat} (present : (graph.membersOf node)[graph.position node key]? = some member)
    (depth : Nat) :
    (graph.unfold (depth + 1 + 1) node).put value (key :: keys) =
      ((graph.unfold (depth + 1) member.2).put value keys).map fun child =>
        .node (.map (((graph.membersOf node).map (Prod.map (graph.unfold (depth + 1)) (graph.unfold (depth + 1)))).set
          (graph.position node key) (graph.unfold (depth + 1) member.1, child))) := by
  rw [unfold, YamlTree.put, data_of_present present, YamlShape.image, YamlShape.entries, Option.bind_some]
  simp only [findIdx_unfold, List.getElem?_map, present, Option.map_some, Prod.map]

theorem put_absent {members : List (Nat × Nat)} (isMap : (graph.data node).entries = some members)
    (absent : (graph.membersOf node)[graph.position node key]? = none) (depth : Nat) :
    (graph.unfold (depth + 1 + 1) node).put value (key :: keys) =
      some (.node (.map (members.map (Prod.map (graph.unfold (depth + 1)) (graph.unfold (depth + 1))) ++
        [(.node (.scalar key), .chain value keys)]))) := by
  obtain rfl := membersOf_eq isMap
  rw [unfold, YamlTree.put, YamlShape.entries_image, isMap, Option.map_some, Option.bind_some]
  simp only [findIdx_unfold, List.getElem?_map, absent, Option.map_none, YamlTree.put_null, Option.map_some]

theorem Assigned.unfold_of_nil {changed : Nat} (assigned : Assigned graph after value changed []) (depth : Nat) :
    after.unfold (depth + 1) changed = .node (.scalar value) := by
  rw [unfold, assigned.scalar rfl]
  rfl

theorem Assigned.unfold_of_cons {changed depth : Nat} (assigned : Assigned graph after value changed (key :: keys))
    (deep : keys.length ≤ depth) :
    after.unfold (depth + 1 + 1) changed = .node (.map ((graph.membersOf changed).map
      (Prod.map (after.unfold (depth + 1)) (after.unfold (depth + 1))) ++ [(.node (.scalar key), .chain value keys)])) := by
  obtain ⟨keyNode, valueNode, isMap, keyTree, valueTree⟩ := assigned.member key keys rfl
  have atDepth := valueTree (depth - keys.length)
  rw [Nat.sub_add_cancel deep] at atDepth
  rw [unfold, isMap, YamlShape.image, List.map_append, List.map_singleton, Prod.map, keyTree, atDepth]

theorem Assigned.differs {changed : Nat} {rest : List String} (assigned : Assigned graph after value changed rest)
    (isNew : rest = [] → graph.data changed ≠ .scalar value) (depth : Nat) :
    after.unfold (depth + 1) changed ≠ graph.unfold (depth + 1) changed := by
  intro same
  have sameShape := YamlTree.node.inj same
  cases rest with
  | nil =>
    rw [assigned.scalar rfl] at sameShape
    refine isNew rfl ?_
    cases isShape : graph.data changed <;> rw [isShape] at sameShape <;> simp_all [YamlShape.image]
  | cons key keys =>
    obtain ⟨keyNode, valueNode, isMap, _⟩ := assigned.member key keys rfl
    rw [isMap] at sameShape
    cases isShape : graph.data changed with
    | map members =>
      rw [isShape, membersOf, isShape] at sameShape
      simpa using congrArg List.length (YamlShape.map.inj sameShape)
    | null | scalar | sequence =>
      rw [isShape] at sameShape
      cases sameShape

theorem follow_cons_iff {step : YamlStep} {path : List YamlStep} {reached : Nat} :
    graph.follow (step :: path) node = some reached ↔
      ∃ child, (graph.data node).step step = some child ∧ graph.follow path child = some reached :=
  Option.bind_eq_some_iff

theorem follow_avoids {changed : Nat}
    (unreached : ∀ step child, (graph.data node).step step = some child → ∀ path, graph.follow path child ≠ some changed)
    {path : List YamlStep} (follows : graph.follow path node = some changed) : path = [] := by
  cases path with
  | nil => rfl
  | cons step path =>
    obtain ⟨child, found, later⟩ := follow_cons_iff.mp follows
    exact absurd later (unreached step child found path)

theorem put_iff_of_absent (absent : (graph.membersOf node)[graph.position node key]? = none)
    (assigned : Assigned graph after value node (key :: keys))
    (differs : ∀ depth, after.unfold (depth + 1) node ≠ graph.unfold (depth + 1) node) :
    (∀ depth, (graph.unfold (depth + keys.length + 1 + 1) node).put value (key :: keys) =
        some (after.unfold (depth + keys.length + 1 + 1) node)) ↔ Walk.Alone ⟨[], node, key :: keys⟩ graph node := by
  cases isMap : (graph.data node).entries with
  | none =>
    constructor
    · intro same
      have atDepth := same 0
      rw [unfold, YamlTree.put, YamlShape.entries_image, isMap] at atDepth
      cases atDepth
    · intro alone
      have isSome := alone.isMap (List.cons_ne_nil _ _)
      rw [isMap] at isSome
      cases isSome
  | some members =>
    have sameMembers := membersOf_eq isMap
    -- At each depth the new member is as it should be, so that what is left is that the old ones are unchanged.
    have atDepth (depth : Nat) : ((graph.unfold (depth + keys.length + 1 + 1) node).put value (key :: keys) =
          some (after.unfold (depth + keys.length + 1 + 1) node)) ↔
        ∀ step child, (graph.data node).step step = some child →
          graph.unfold (depth + keys.length + 1) child = after.unfold (depth + keys.length + 1) child := by
      rw [put_absent isMap absent, assigned.unfold_of_cons (Nat.le_add_left _ _), sameMembers, Option.some.injEq,
        YamlTree.node.injEq, YamlShape.map.injEq, List.append_left_inj]
      simp only [YamlShape.step_of_entries isMap]
      rw [← YamlShape.image_eq_iff, YamlShape.image, YamlShape.image, YamlShape.map.injEq]
    have unreached (step : YamlStep) (child : Nat) (found : (graph.data node).step step = some child) :=
      unfold_eq_iff assigned.others differs (keys.length + 1) (graph.closed node step child found)
    constructor
    · intro same
      refine ⟨fun _ => by rw [isMap]; rfl, fun path follows => follow_avoids ?_ follows⟩
      intro step child found
      exact (unreached step child found).mp fun depth => ((atDepth depth).mp (same depth) step child found).symm
    · intro alone depth
      refine (atDepth depth).mpr fun step child found => Eq.symm ?_
      refine (unreached step child found).mpr (fun path follows => ?_) depth
      cases alone.only (step :: path) (follow_cons_iff.mpr ⟨child, found, follows⟩)

/-- A node that an assignment replaces, or gives one more member, is not on the way to itself. -/
theorem not_put_changed {member : Nat × Nat} {rest : List String}
    (present : (graph.membersOf node)[graph.position node key]? = some member)
    (assigned : Assigned graph after value node rest) (depth : Nat) :
    (graph.unfold (depth + 1 + 1) node).put value (key :: keys) ≠ some (after.unfold (depth + 1 + 1) node) := by
  rw [put_present present, ne_eq, Option.map_eq_some_iff]
  rintro ⟨child, _, same⟩
  cases rest with
  | nil =>
    rw [assigned.unfold_of_nil] at same
    cases same
  | cons restKey restKeys =>
    obtain ⟨keyNode, valueNode, isMap, _⟩ := assigned.member restKey restKeys rfl
    rw [unfold_succ after, isMap] at same
    simpa using congrArg List.length (YamlShape.map.inj (YamlTree.node.inj same))

theorem put_iff_of_present (value : String) (keys : List String) {member : Nat × Nat}
    (present : (graph.membersOf node)[graph.position node key]? = some member) (kept : after.data node = graph.data node)
    (depth : Nat) :
    (graph.unfold (depth + 1 + 1) node).put value (key :: keys) = some (after.unfold (depth + 1 + 1) node) ↔
      (graph.unfold (depth + 1) member.2).put value keys = some (after.unfold (depth + 1) member.2) ∧
        ∀ step child, step ≠ .value (graph.position node key) → (graph.data node).step step = some child →
          graph.unfold (depth + 1) child = after.unfold (depth + 1) child := by
  rw [put_present present, unfold_succ after, kept, Option.map_eq_some_iff, data_of_present present]
  simp only [YamlTree.node.injEq, YamlShape.map_set_eq_iff present]
  constructor
  · rintro ⟨child, isPut, rfl, same⟩
    exact ⟨isPut, same⟩
  · rintro ⟨isPut, same⟩
    exact ⟨_, isPut, rfl, same⟩

theorem admits_cons {step other : YamlStep} {path : List YamlStep} {walk : Walk} :
    (walk.behind step).Admits (other :: path) ↔ other = step ∧ walk.Admits path := by
  obtain ⟨walkPath, changed, _ | _⟩ := walk
  · exact List.cons_prefix_cons.trans (and_congr_left' eq_comm)
  · exact List.cons_eq_cons

theorem not_admits_nil {step : YamlStep} {walk : Walk} : ¬ (walk.behind step).Admits [] := by
  obtain ⟨walkPath, changed, _ | _⟩ := walk
  · exact fun above => List.cons_ne_nil _ _ (List.prefix_nil.mp above)
  · exact (List.cons_ne_nil _ _).symm

/-- The paths of a walk that goes on below a member. -/
theorem alone_cons_iff {member : Nat × Nat} {walk : Walk}
    (present : (graph.membersOf node)[graph.position node key]? = some member) :
    (walk.behind (.value (graph.position node key))).Alone graph node ↔
      node ≠ walk.node ∧ walk.Alone graph member.2 ∧
        ∀ step child, step ≠ .value (graph.position node key) → (graph.data node).step step = some child →
          ∀ path, graph.follow path child ≠ some walk.node := by
  have atMember : (graph.data node).step (.value (graph.position node key)) = some member.2 := by
    rw [data_of_present present, YamlShape.step, present, Option.map_some]
  constructor
  · intro alone
    refine ⟨?_, ⟨alone.isMap, ?_⟩, ?_⟩
    · rintro isChanged
      exact not_admits_nil (alone.only [] (congrArg some isChanged))
    · intro path follows
      exact (admits_cons.mp (alone.only _ (follow_cons_iff.mpr ⟨member.2, atMember, follows⟩))).2
    · intro step child different found path follows
      exact different (admits_cons.mp (alone.only _ (follow_cons_iff.mpr ⟨child, found, follows⟩))).1
  · rintro ⟨isOther, alone, unreached⟩
    refine ⟨alone.isMap, ?_⟩
    rintro (_ | ⟨step, path⟩) follows
    · exact absurd (Option.some.inj follows) isOther
    · obtain ⟨child, found, later⟩ := follow_cons_iff.mp follows
      by_cases isValue : step = .value (graph.position node key)
      · obtain rfl := Option.some.inj (atMember.symm.trans (isValue ▸ found))
        exact admits_cons.mpr ⟨isValue, alone.only path later⟩
      · exact absurd later (unreached step child isValue found path)

/-- An assignment changes what the keys stand for and nothing else exactly if the node that it changes is met
nowhere else. -/
theorem put_iff (below : node < graph.size)
    (assigned : Assigned graph after value (graph.walk keys node).node (graph.walk keys node).rest)
    (differs : ∀ depth, after.unfold (depth + 1) (graph.walk keys node).node ≠
      graph.unfold (depth + 1) (graph.walk keys node).node) :
    (∀ depth, (graph.unfold (depth + keys.length + 1) node).put value keys =
        some (after.unfold (depth + keys.length + 1) node)) ↔ (graph.walk keys node).Alone graph node := by
  induction keys generalizing node with
  | nil =>
    refine ⟨fun _ => ⟨fun isRest => absurd rfl isRest, fun path _ => List.nil_prefix⟩, fun _ depth => ?_⟩
    exact congrArg some (assigned.unfold_of_nil depth).symm
  | cons key keys inductionHypothesis =>
    cases present : (graph.membersOf node)[graph.position node key]? with
    | some member =>
      rw [walk_of_present present] at assigned differs ⊢
      have memberBelow := (graph.membersOf_below (List.mem_of_getElem? present)).2
      rw [alone_cons_iff present, ← inductionHypothesis memberBelow assigned differs]
      by_cases isChanged : node = (graph.walk keys member.2).node
      · have assignedHere : Assigned graph after value node (graph.walk keys member.2).rest := by
          rw [isChanged]
          exact assigned
        exact ⟨fun same => absurd (same 0) (not_put_changed present assignedHere _), fun alone => absurd isChanged alone.1⟩
      · have atDepth (depth : Nat) := put_iff_of_present value keys present
          (assigned.others node below isChanged) (depth + keys.length)
        have unreached (step : YamlStep) (child : Nat) (found : (graph.data node).step step = some child) :=
          unfold_eq_iff assigned.others differs (keys.length + 1) (graph.closed node step child found)
        constructor
        · intro same
          refine ⟨isChanged, fun depth => ((atDepth depth).mp (same depth)).1, ?_⟩
          intro step child different found
          refine (unreached step child found).mp fun depth => Eq.symm ?_
          exact ((atDepth depth).mp (same depth)).2 step child different found
        · rintro ⟨_, isPut, avoids⟩ depth
          refine (atDepth depth).mpr ⟨isPut depth, fun step child different found => Eq.symm ?_⟩
          exact (unreached step child found).mpr (avoids step child different found) depth
    | none =>
      rw [walk_of_absent present] at assigned differs ⊢
      exact put_iff_of_absent present assigned differs

/-- The value is there already. -/
theorem put_same (isPresent : (graph.walk keys node).rest = [])
    (isSame : graph.data (graph.walk keys node).node = .scalar value) (depth : Nat) :
    (graph.unfold (depth + keys.length + 1) node).put value keys = some (graph.unfold (depth + keys.length + 1) node) := by
  induction keys generalizing node with
  | nil =>
    have isScalar : graph.data node = .scalar value := isSame
    rw [unfold, isScalar]
    rfl
  | cons key keys inductionHypothesis =>
    cases present : (graph.membersOf node)[graph.position node key]? with
    | some member =>
      rw [walk_of_present present] at isPresent isSame
      refine (put_iff_of_present value keys present rfl (depth + keys.length)).mpr ⟨inductionHypothesis isPresent isSame, ?_⟩
      intros
      rfl
    | none =>
      rw [walk_of_absent present] at isPresent
      cases isPresent

theorem put_none (value : String) (isRest : (graph.walk keys node).rest ≠ [])
    (noMap : (graph.data (graph.walk keys node).node).entries = none) (depth : Nat) :
    (graph.unfold (depth + keys.length + 1) node).put value keys = none := by
  induction keys generalizing node with
  | nil => exact absurd rfl isRest
  | cons key keys inductionHypothesis =>
    cases present : (graph.membersOf node)[graph.position node key]? with
    | some member =>
      rw [walk_of_present present] at isRest noMap
      have below := inductionHypothesis isRest noMap
      rw [List.length_cons, ← Nat.add_assoc, put_present present, below]
      rfl
    | none =>
      rw [walk_of_absent present] at noMap
      rw [List.length_cons, ← Nat.add_assoc, unfold, YamlTree.put, YamlShape.entries_image, noMap]
      rfl

/-- The value is under the keys already, or what the assignment changes is met nowhere else. -/
def OnlyThere (graph : YamlGraph) (value : String) (keys : List String) : Prop :=
  (graph.walk keys graph.root).rest = [] ∧ graph.data (graph.walk keys graph.root).node = .scalar value ∨
    (graph.walk keys graph.root).Alone graph graph.root

theorem setAt_put_iff (returns : graph.setAt value keys graph.root = .ok after) :
    (∀ depth, (graph.unfold (depth + keys.length + 1) graph.root).put value keys =
      some (after.unfold (depth + keys.length + 1) after.root)) ↔ graph.OnlyThere value keys := by
  by_cases isMap : (graph.walk keys graph.root).rest ≠ [] → (graph.data (graph.walk keys graph.root).node).entries.isSome
  · obtain ⟨_, returned, assigned⟩ := assigned_of_setAt value graph.rootBelow isMap
    obtain rfl := Except.ok.inj (returned.symm.trans returns)
    rw [assigned.root]
    by_cases isSame : (graph.walk keys graph.root).rest = [] ∧ graph.data (graph.walk keys graph.root).node = .scalar value
    · refine iff_of_true (fun depth => ?_) (.inl isSame)
      rw [put_same isSame.1 isSame.2]
      refine congrArg some (unfold_congr (fun path reached follows => ?_) _).symm
      by_cases isChanged : reached = (graph.walk keys graph.root).node
      · rw [isChanged, isSame.2, assigned.scalar isSame.1]
      · exact assigned.others reached (follow_below graph.rootBelow follows) isChanged
    · rw [OnlyThere, or_iff_right isSame]
      exact put_iff graph.rootBelow assigned (assigned.differs fun isPresent same => isSame ⟨isPresent, same⟩)
  · obtain ⟨isRest, noMap⟩ := Classical.not_imp.mp isMap
    refine iff_of_false (fun same => ?_) ?_
    · have isNone := put_none value isRest (Option.not_isSome_iff_eq_none.mp noMap) 0
      rw [same 0] at isNone
      cases isNone
    · rintro (⟨isPresent, _⟩ | alone)
      · exact isRest isPresent
      · exact noMap (alone.isMap isRest)

end YamlGraph

end AbilityFramework.Library
