import AbilityFramework.Library.FileTree
import Mathlib.Data.List.DropRight

/-! # Paths as they are spelled

A program joins texts to a path and hands what comes out to the system.  The system takes it to end at a null
character and walks it name by name: whatever it walks through, also with `..`, has to be a directory.  A path at
which there is nothing can still be resolved by its names alone. -/

namespace AbilityFramework.Library

/-- What has been joined to a path: the names between the separators; after a separator at the end comes an
empty name. -/
structure SpelledPath where
  start : Path
  names : List String
  deriving DecidableEq

namespace SpelledPath

instance : Coe Path SpelledPath where
  coe path := ⟨path, []⟩

/-- `path / text` -/
def slash (path : SpelledPath) (text : String) : SpelledPath :=
  let base := if text.toList.head? = some '/' then ⟨[], []⟩ else path
  ⟨base.start, base.names ++ (text.toList.splitOn '/').map String.ofList⟩

/-- `parent_path`, once something has been joined. -/
def parentPath (path : SpelledPath) : SpelledPath := ⟨path.start, path.names.dropLast⟩

def beforeNull (name : String) : String := String.ofList (name.toList.takeWhile (· ≠ '\x00'))

/-- The names up to the first null character. -/
def unbroken : List String → List String
  | [] => []
  | name :: names => if Path.IsUnbroken name then name :: unbroken names else [beforeNull name]

/-- What the system sees of the names. -/
def seen (path : SpelledPath) : List String := unbroken path.names

/-- Where the names lead, if everything on the way is there. -/
def leadsTo (path : SpelledPath) : Path := path.seen.foldl Path.child path.start

/-- The names of a normal path, without the separator at the end. -/
def elements (path : SpelledPath) : Path := (path.start ++ path.names).filter (· ≠ "")

/-- `lexically_normal`, in which a null character is one like others. -/
def lexicallyNormal (path : SpelledPath) : SpelledPath :=
  let resolved := path.names.foldl Path.child path.start
  ⟨[], if (path.start ++ path.names).getLast?.getD "" ∈ ["", ".", ".."] ∧ resolved ≠ [] then resolved ++ [""] else resolved⟩

/-! ## Names that lead down, and others -/

/-- What the system sees without the separators at the end. -/
def trimmed (path : SpelledPath) : List String := path.seen.rdropWhile (· = "")

/-- The system neither removes nor moves what is named in this way. -/
def endsInDots (path : SpelledPath) : Bool := path.trimmed.getLast?.any (· ∈ [".", ".."])

/-- Where the names lead.  Before a name that does not lead further down there has to be a directory. -/
def follow (isDirectory : Path → Bool) : Path → List String → Option Path
  | path, [] => some path
  | path, name :: names =>
    if name ∈ ["", ".", ".."] then if isDirectory path then follow isDirectory (path.child name) names else none
    else follow isDirectory (path ++ [name]) names

/-- The directories that have to be there before each name that does not lead further down, and at the end. -/
def stationsFrom : Path → Bool → List String → List Path
  | path, isAhead, [] => if isAhead then [path] else []
  | path, isAhead, name :: names =>
    if name ∈ ["", ".", ".."] then (if isAhead then [path] else []) ++ stationsFrom (path.child name) false names
    else stationsFrom (path ++ [name]) true names

/-- With these directories the whole path is there. -/
def stations (path : SpelledPath) : List Path := stationsFrom path.start true path.seen

/-- Every name leads further down. -/
def IsPlain (path : SpelledPath) : Prop := ∀ name ∈ path.names, Path.IsName name

instance (path : SpelledPath) : Decidable path.IsPlain := inferInstanceAs (Decidable (∀ name ∈ path.names, Path.IsName name))

variable {path : SpelledPath} {start found : Path} {names : List String} {isDirectory : Path → Bool}

theorem child_isPrefix {name : String} (isDots : name ∈ ["", ".", ".."]) : start.child name <+: start := by
  simp only [List.mem_cons, List.not_mem_nil, or_false] at isDots
  rcases isDots with rfl | rfl | rfl
  · exact List.prefix_rfl
  · exact List.prefix_rfl
  · exact List.dropLast_prefix start

theorem eq_of_follow (follows : follow isDirectory start names = some found) : found = names.foldl Path.child start := by
  induction names generalizing start with
  | nil => exact (Option.some.inj follows).symm
  | cons name names inductionHypothesis =>
    rw [follow] at follows
    rw [List.foldl_cons]
    split_ifs at follows with isDots
    · exact inductionHypothesis follows
    · rw [Path.child_name start isDots]
      exact inductionHypothesis follows

theorem slash_name (path : SpelledPath) {text : String} (isName : Path.IsName text) :
    path.slash text = ⟨path.start, path.names ++ [text]⟩ := by
  have isRelative : text.toList.head? ≠ some '/' := fun isHead => isName.noSeparator (List.mem_of_head? isHead)
  simp [slash, isRelative, Path.splitOn_of_no_separator isName.noSeparator, String.ofList_toList]

theorem isPlain_slash (isPlain : path.IsPlain) {text : String} (isName : Path.IsName text) : (path.slash text).IsPlain := by
  rw [slash_name path isName]
  intro name member
  rcases List.mem_append.mp member with earlier | isLast
  · exact isPlain name earlier
  · exact List.mem_singleton.mp isLast ▸ isName

theorem isPlain_name (path : Path) {text : String} (isName : Path.IsName text) : (slash path text).IsPlain :=
  isPlain_slash (fun _ member => absurd member List.not_mem_nil) isName

theorem IsPlain.seen_eq (isPlain : path.IsPlain) : path.seen = path.names := by
  rw [seen]
  revert isPlain
  rw [IsPlain]
  induction path.names with
  | nil => exact fun _ => rfl
  | cons name names inductionHypothesis =>
    intro isPlain
    rw [List.forall_mem_cons] at isPlain
    rw [unbroken, if_pos isPlain.1.unbroken, inductionHypothesis isPlain.2]

theorem follow_of_names (plain : ∀ name ∈ names, name ∉ ["", ".", ".."]) :
    follow isDirectory start names = some (start ++ names) := by
  induction names generalizing start with
  | nil => rw [follow, List.append_nil]
  | cons name names inductionHypothesis =>
    rw [List.forall_mem_cons] at plain
    rw [follow, if_neg plain.1, inductionHypothesis plain.2, List.append_assoc, List.singleton_append]

theorem stationsFrom_of_names (plain : ∀ name ∈ names, name ∉ ["", ".", ".."]) :
    stationsFrom start true names = [start ++ names] := by
  induction names generalizing start with
  | nil => rw [stationsFrom, if_pos rfl, List.append_nil]
  | cons name names inductionHypothesis =>
    rw [List.forall_mem_cons] at plain
    rw [stationsFrom, if_neg plain.1, inductionHypothesis plain.2, List.append_assoc, List.singleton_append]

theorem IsPlain.notDots (isPlain : path.IsPlain) : ∀ name ∈ path.seen, name ∉ ["", ".", ".."] := by
  rw [isPlain.seen_eq]
  exact fun name member => (isPlain name member).notDots

theorem IsPlain.follow_eq (isPlain : path.IsPlain) : follow isDirectory path.start path.seen = some path.leadsTo := by
  have follows : follow isDirectory path.start path.seen = some (path.start ++ path.seen) := follow_of_names isPlain.notDots
  rw [follows, leadsTo, eq_of_follow follows]

theorem IsPlain.leadsTo_eq (isPlain : path.IsPlain) : path.leadsTo = path.start ++ path.names := by
  have follows : follow (fun _ => true) path.start path.seen = some (path.start ++ path.seen) := follow_of_names isPlain.notDots
  rw [leadsTo, ← eq_of_follow follows, isPlain.seen_eq]

theorem IsPlain.stations_eq (isPlain : path.IsPlain) : path.stations = [path.leadsTo] := by
  rw [stations, stationsFrom_of_names isPlain.notDots, isPlain.leadsTo_eq, isPlain.seen_eq]

theorem IsPlain.trimmed_eq (isPlain : path.IsPlain) : path.trimmed = path.seen := by
  rw [trimmed, List.rdropWhile_eq_self_iff]
  intro nonempty isEmpty
  exact isPlain.notDots _ (List.getLast_mem nonempty) (by simp_all)

theorem IsPlain.endsInDots_eq (isPlain : path.IsPlain) : path.endsInDots = false := by
  rw [endsInDots, isPlain.trimmed_eq, Option.any_eq_false]
  intro name isLast
  have notDots := isPlain.notDots name (List.mem_of_getLast? isLast)
  simp_all

theorem unbroken_concat (names : List String) (name : String) :
    unbroken (names ++ [name]) = unbroken names ∨ unbroken (names ++ [name]) = unbroken names ++ unbroken [name] := by
  induction names with
  | nil => exact .inr rfl
  | cons first names inductionHypothesis =>
    rw [List.cons_append, unbroken, unbroken]
    split
    · exact inductionHypothesis.imp (congrArg _) (congrArg _)
    · exact .inl rfl

theorem seen_parentPath (nonempty : path.names ≠ []) :
    path.seen = path.parentPath.seen ∨ ∃ last, path.seen = path.parentPath.seen ++ [last] := by
  have split := unbroken_concat path.names.dropLast (path.names.getLast nonempty)
  rw [List.dropLast_append_getLast nonempty] at split
  refine split.imp id fun same => ?_
  rw [unbroken] at same
  split at same <;> exact ⟨_, same⟩

/-- The last name leads on from where its parent leads. -/
theorem leadsTo_parentPath (nonempty : path.names ≠ []) :
    path.leadsTo = path.parentPath.leadsTo ∨ ∃ last, path.leadsTo = path.parentPath.leadsTo.child last := by
  rw [leadsTo]
  rcases seen_parentPath nonempty with same | ⟨last, same⟩
  · exact .inl (congrArg _ same)
  · refine .inr ⟨last, ?_⟩
    rw [same, List.foldl_append]
    rfl

theorem names_slash_ne_nil (path : SpelledPath) (text : String) : (path.slash text).names ≠ [] := by
  simp [slash, List.splitOn_ne_nil]

/-- Where all stations are directories, so is what the names lead to. -/
theorem isDirectory_of_stationsFrom {isAhead : Bool}
    (upwards : ∀ path above, above <+: path → isDirectory path = true → isDirectory above = true)
    (atStart : isAhead = false → isDirectory start = true)
    (atStations : ∀ station ∈ stationsFrom start isAhead names, isDirectory station = true) :
    isDirectory (names.foldl Path.child start) = true ∧
      follow isDirectory start names = some (names.foldl Path.child start) := by
  induction names generalizing start isAhead with
  | nil =>
    refine ⟨?_, rfl⟩
    cases isAhead with
    | true => exact atStations start List.mem_cons_self
    | false => exact atStart rfl
  | cons name names inductionHypothesis =>
    rw [stationsFrom] at atStations
    rw [List.foldl_cons, follow]
    by_cases isDots : name ∈ ["", ".", ".."]
    · rw [if_pos isDots] at atStations
      have isHere : isDirectory start = true := by
        cases isAhead with
        | true => exact atStations start (List.mem_append_left _ List.mem_cons_self)
        | false => exact atStart rfl
      rw [if_pos isDots, if_pos isHere]
      exact inductionHypothesis (fun _ => upwards _ _ (child_isPrefix isDots) isHere) fun station member =>
        atStations station (List.mem_append_right _ member)
    · rw [if_neg isDots] at atStations
      rw [if_neg isDots, Path.child_name start isDots]
      have notPast (impossible : true = false) : isDirectory (start ++ [name]) = true := Bool.noConfusion impossible
      exact inductionHypothesis notPast atStations

theorem parentPath_slash_name (path : SpelledPath) {text : String} (isName : Path.IsName text) :
    (path.slash text).parentPath = path := by
  rw [slash_name path isName, parentPath]
  simp

/-- A name leads down, unless the path has ended before it. -/
theorem leadsTo_slash_name (path : SpelledPath) {text : String} (isName : Path.IsName text) :
    (path.slash text).leadsTo = path.leadsTo ∨ (path.slash text).leadsTo = path.leadsTo ++ [text] := by
  have isSeen : unbroken [text] = [text] := by rw [unbroken, if_pos isName.unbroken, unbroken]
  rw [slash_name path isName, leadsTo, leadsTo, seen, seen]
  rcases unbroken_concat path.names text with same | same
  · exact .inl (congrArg _ same)
  · right
    rw [same, isSeen, List.foldl_append, List.foldl_cons, List.foldl_nil, Path.child_name _ isName.notDots]

/-- The last name adds no station but the end. -/
theorem mem_stationsFrom_concat {isAhead : Bool} {name : String} {station : Path}
    (member : station ∈ stationsFrom start isAhead (names ++ [name])) :
    station ∈ stationsFrom start isAhead names ∨ station = (names ++ [name]).foldl Path.child start := by
  induction names generalizing start isAhead with
  | nil =>
    rw [List.nil_append, stationsFrom] at member
    split at member
    · left
      simpa [stationsFrom] using member
    · rename_i down
      right
      simpa [stationsFrom, Path.child_name start down] using member
  | cons first names inductionHypothesis =>
    rw [List.cons_append, stationsFrom] at member
    rw [List.cons_append, stationsFrom, List.foldl_cons]
    split at member
    · rename_i isDots
      rw [if_pos isDots]
      rcases List.mem_append.mp member with here | later
      · exact .inl (List.mem_append_left _ here)
      · exact (inductionHypothesis later).imp_left (List.mem_append_right _)
    · rename_i down
      rw [if_neg down, Path.child_name start down]
      exact inductionHypothesis member

theorem mem_stations_parentPath (nonempty : path.names ≠ []) {station : Path} (member : station ∈ path.stations) :
    station ∈ path.parentPath.stations ∨ station = path.leadsTo := by
  rw [stations] at member
  rw [leadsTo]
  rcases seen_parentPath nonempty with same | ⟨last, same⟩ <;> rw [same] at member ⊢
  · exact .inl member
  · exact mem_stationsFrom_concat member

/-- Separators at the end lead nowhere. -/
theorem foldl_trimmed (path : SpelledPath) : path.trimmed.foldl Path.child path.start = path.leadsTo := by
  rw [leadsTo, trimmed]
  induction path.seen using List.reverseRecOn with
  | nil => rfl
  | append_singleton names name inductionHypothesis =>
    rw [List.rdropWhile_concat]
    split
    · rename_i isEmpty
      rw [inductionHypothesis, List.foldl_append]
      simp [Path.child, of_decide_eq_true isEmpty]
    · rfl

/-- An empty text adds a separator at the end. -/
theorem trimmed_slash_empty (path : SpelledPath) : (path.slash "").trimmed = path.trimmed := by
  have names : (path.slash "").names = path.names ++ [""] := by simp [slash]
  rw [trimmed, trimmed, seen, seen, names]
  rcases unbroken_concat path.names "" with same | same
  · rw [same]
  · have isEmpty : unbroken [""] = [""] := by decide
    rw [same, isEmpty, List.rdropWhile_concat_pos _ _ _ (by decide)]

theorem leadsTo_slash_empty (path : SpelledPath) : (path.slash "").leadsTo = path.leadsTo := by
  have start : (path.slash "").start = path.start := by simp [slash]
  rw [← foldl_trimmed, ← foldl_trimmed, trimmed_slash_empty, start]

end SpelledPath

namespace FileTree

variable (tree : FileTree)

/-- Where the names lead from a path, if there is something. -/
def walk : Path → List String → Option Path
  | path, [] => if tree.hasEntry path then some path else none
  | path, name :: names => if tree.entry path = some .directory then walk (path.child name) names else none

/-- What the system finds at a path. -/
def find (path : SpelledPath) : Option Path := tree.walk [] (path.start ++ path.seen)

/-- `canonical` where there is something; links are left out. -/
def weaklyCanonical (path : SpelledPath) : SpelledPath :=
  match tree.find path with
  | some found => ⟨[], found⟩
  | none => path.lexicallyNormal

/-- `relative`, which takes both paths to be canonical first. -/
def relative (path base : SpelledPath) : List (Option String) :=
  Path.relative (tree.weaklyCanonical path).elements (tree.weaklyCanonical base).elements

variable {tree} {start found : Path} {names : List String}

/-- Everything above what is found has been walked through. -/
theorem isDirectory_of_walk (walks : tree.walk start names = some found)
    (aboveStart : ∀ above, above <+: start → above ≠ start → tree.entry above = some .directory) {above : Path}
    (isAbove : above <+: found) (different : above ≠ found) : tree.entry above = some .directory := by
  induction names generalizing start with
  | nil =>
    rw [walk] at walks
    split at walks
    · obtain rfl := Option.some.inj walks
      exact aboveStart above isAbove different
    · cases walks
  | cons name names inductionHypothesis =>
    rw [walk] at walks
    split at walks
    · rename_i isDirectory
      have walked (other : Path) (isPrefix : other <+: start) : tree.entry other = some .directory := by
        by_cases same : other = start
        · exact same ▸ isDirectory
        · exact aboveStart other isPrefix same
      refine inductionHypothesis walks fun other isPrefix isProper => walked other ?_
      rw [Path.child] at isPrefix isProper
      split_ifs at isPrefix isProper
      · exact isPrefix
      · exact isPrefix.trans (List.dropLast_prefix start)
      · exact (List.prefix_concat_iff.mp isPrefix).resolve_left isProper
    · cases walks

/-- A walk resolves empty names. -/
theorem noEmpty_of_walk (walks : tree.walk start names = some found) (noEmpty : "" ∉ start) : "" ∉ found := by
  induction names generalizing start with
  | nil =>
    rw [walk] at walks
    split at walks
    · exact Option.some.inj walks ▸ noEmpty
    · cases walks
  | cons name names inductionHypothesis =>
    rw [walk] at walks
    split at walks
    · refine inductionHypothesis walks ?_
      rw [Path.child]
      split_ifs with isHere isUp
      · exact noEmpty
      · exact fun member => noEmpty (List.mem_of_mem_dropLast member)
      · rw [List.mem_append, List.mem_singleton, not_or]
        exact ⟨noEmpty, fun isEmpty => isHere (.inl isEmpty.symm)⟩
    · cases walks

theorem elements_weaklyCanonical {path : SpelledPath} (finds : tree.find path = some found) :
    (tree.weaklyCanonical path).elements = found := by
  rw [weaklyCanonical, finds]
  refine List.filter_eq_self.mpr fun name member => decide_eq_true fun isEmpty => ?_
  exact noEmpty_of_walk finds List.not_mem_nil (isEmpty ▸ member)

end FileTree

end AbilityFramework.Library
