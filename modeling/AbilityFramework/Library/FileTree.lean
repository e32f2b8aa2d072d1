import Mathlib.Data.List.Infix

/-! # File trees

A path is the list of names from the root, so that joining with a text resolves `.`, `..` and empty
names at once.  A tree says what is at each path.  Links, permissions and the difference between a
missing parent and a missing file are left out. -/

namespace AbilityFramework.Library

abbrev Path := List String

namespace Path

def child (base : Path) (name : String) : Path :=
  if name = "" ∨ name = "." then base
  else if name = ".." then base.dropLast
  else base ++ [name]

/-- `base / text`, where an absolute text starts again from the root. -/
def join (base : Path) (text : String) : Path :=
  let start := if text.toList.head? = some '/' then [] else base
  ((text.toList.splitOn '/').map String.ofList).foldl child start

@[simp] theorem join_empty (base : Path) : base.join "" = base := by
  simp [join, child]

/-- Neither path is at or below the other. -/
def Apart (path other : Path) : Prop := ¬ path <+: other ∧ ¬ other <+: path

theorem Apart.not_above {path other below : Path} (apart : path.Apart other) (above : path <+: below) : ¬ other <+: below :=
  fun otherAbove => (List.prefix_or_prefix_of_prefix above otherAbove).elim apart.1 apart.2

/-- One of the paths is at or below the other. -/
def Aligned (path other : Path) : Prop := path <+: other ∨ other <+: path

theorem Aligned.above {path other above : Path} (aligned : path.Aligned other) (isAbove : above <+: path) :
    above.Aligned other := by
  rcases aligned with isPrefix | below
  · exact .inl (isAbove.trans isPrefix)
  · exact List.prefix_or_prefix_of_prefix isAbove below

def StrictlyInside (path base : Path) : Prop := base <+: path ∧ path ≠ base

instance (path base : Path) : Decidable (StrictlyInside path base) :=
  inferInstanceAs (Decidable (base <+: path ∧ path ≠ base))

/-- The system takes a path to end at the first null character. -/
def IsUnbroken (text : String) : Prop := '\x00' ∉ text.toList

instance (text : String) : Decidable (IsUnbroken text) := inferInstanceAs (Decidable ('\x00' ∉ text.toList))

/-- A name that is not empty, not `.` or `..`, has no separator in it and does not end the path. -/
structure IsName (text : String) : Prop where
  notDots : text ∉ ["", ".", ".."]
  noSeparator : '/' ∉ text.toList
  unbroken : IsUnbroken text

instance (text : String) : Decidable (IsName text) :=
  decidable_of_iff (text ∉ ["", ".", ".."] ∧ '/' ∉ text.toList ∧ IsUnbroken text)
    ⟨fun ⟨notDots, noSeparator, unbroken⟩ => ⟨notDots, noSeparator, unbroken⟩,
      fun isName => ⟨isName.notDots, isName.noSeparator, isName.unbroken⟩⟩

/-- `relative`, with `none` for each `..` that leads up from the base. -/
def relative : Path → Path → List (Option String)
  | path, [] => path.map some
  | [], base => base.map fun _ => none
  | name :: path, other :: base =>
    if name = other then relative path base
    else (other :: base).map (fun _ => none) ++ (name :: path).map some

/-- A relative path leads up first, unless it leads to something at or below the base. -/
theorem head_relative {path base : Path} : (relative path base).head? = some none ↔ ¬ base <+: path := by
  induction path, base using relative.induct with
  | case1 path => cases path <;> simp [relative]
  | case2 base nonempty =>
    cases base with
    | nil => exact absurd rfl nonempty
    | cons other base => simp [relative]
  | case3 name path base inductionHypothesis =>
    rw [relative, if_pos rfl, inductionHypothesis, List.prefix_cons_inj]
  | case4 name path other base different =>
    rw [relative, if_neg different]
    simp [List.cons_prefix_cons, Ne.symm different]

theorem splitOn_of_no_separator {text : String} (single : '/' ∉ text.toList) :
    text.toList.splitOn '/' = [text.toList] := by
  rw [List.splitOn, List.splitOnP_eq_singleton]
  intro character member
  rw [beq_eq_false_iff_ne]
  exact fun isSeparator => single (isSeparator ▸ member)

@[simp] theorem child_name (base : Path) {name : String} (isName : name ∉ ["", ".", ".."]) :
    base.child name = base ++ [name] := by
  simp only [List.mem_cons, List.not_mem_nil, or_false, not_or] at isName
  simp [child, isName]

end Path

inductive Entry where
  | directory
  | file (content : String)
  deriving DecidableEq

structure FileTree where
  entry : Path → Option Entry

namespace FileTree

variable (tree : FileTree) (path : Path)

/-- `exists`; the source's name is a keyword. -/
def hasEntry : Bool := (tree.entry path).isSome

/-- What a `remove_all` that throws part-way leaves: of the entries at or below the path, `removed` says
which are gone. -/
def removeSome (removed : Path → Bool) : FileTree where
  entry other := if path <+: other ∧ removed other = true then none else tree.entry other

def removeAll : FileTree := tree.removeSome path fun _ => true

/-- `create_directories`, which fails where a file is in the way. -/
def createDirectories : Option FileTree :=
  if path.inits.any (fun above => tree.entry above matches some (.file _)) then none
  else some { entry := fun other => if other <+: path then some .directory else tree.entry other }

/-- `rename` of a directory with the given content to a path where there is nothing. -/
def moveHere (content : FileTree) : FileTree where
  entry other := if path <+: other then content.entry (other.drop path.length) else tree.entry other

/-- Files are written below the path; those that are there stay or are overwritten. -/
def writeBelow (content : FileTree) : FileTree where
  entry other :=
    if path <+: other then (content.entry (other.drop path.length)).or (tree.entry other)
    else tree.entry other

variable {tree path}

@[simp] theorem hasEntry_removeAll_self : (tree.removeAll path).hasEntry path = false := by
  simp [hasEntry, removeAll, removeSome]

theorem hasEntry_writeBelow (path : Path) (content : FileTree) {other : Path} (present : tree.hasEntry other = true) :
    (tree.writeBelow path content).hasEntry other = true := by
  unfold hasEntry at *
  simp only [writeBelow]
  split
  · rw [Option.isSome_or, present, Bool.or_true]
  · exact present

end FileTree

end AbilityFramework.Library
