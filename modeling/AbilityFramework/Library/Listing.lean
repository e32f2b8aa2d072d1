import AbilityFramework.Library.FileSystem
import Mathlib.Data.List.Perm.Basic

/-! # Listings of directories

A file system lists the entries of a directory in an order of its own.  The order is that of the rows of a disk, so
that another order is another disk with the same entries (`SameEntries`).  Below a directory, files are listed one
directory after the other (`walk`); each of them can come last, and first (`regularFiles_lastAt`,
`regularFiles_firstAt`). -/

namespace AbilityFramework.Library.Disk

/-- The same entries in any order. -/
def SameEntries (first second : Disk) : Prop := first.rows.Perm second.rows

variable {first second disk : Disk} {path start target : Path}

theorem SameEntries.trans {third : Disk} (same : SameEntries first second) (alsoSame : SameEntries second third) :
    SameEntries first third := List.Perm.trans same alsoSame

theorem SameEntries.mem_iff (same : SameEntries first second) {row : Path × Entry} : row ∈ first ↔ row ∈ second :=
  List.Perm.mem_iff same

theorem SameEntries.entry (same : SameEntries first second) (path : Path) : first.entry path = second.entry path := by
  rw [Disk.entry, Disk.entry, Relation.lookup_congr fun row => same.mem_iff]

/-- The entries of a directory. -/
def listing (path : Path) (disk : Disk) : List (Path × Entry) :=
  disk.rows.filter fun row => row.1 ≠ [] ∧ row.1.dropLast = path

theorem mem_listing {row : Path × Entry} :
    row ∈ listing path disk ↔ row ∈ disk ∧ row.1 ≠ [] ∧ row.1.dropLast = path := by
  rw [listing, List.mem_filter, decide_eq_true_eq, Relation.mem_def]

theorem SameEntries.listing (same : SameEntries first second) (path : Path) :
    (listing path first).Perm (listing path second) := List.Perm.filter _ same

/-- The regular files below a directory, as `recursive_directory_iterator` comes upon them. -/
def walk : Nat → Path → Disk → List (Path × String)
  | 0, _, _ => []
  | depth + 1, path, disk => (listing path disk).flatMap fun row =>
    match row.2 with
    | .file content => [(row.1, content)]
    | .directory => walk depth row.1 disk

/-- No path is longer. -/
def depth (disk : Disk) : Nat := (disk.rows.map fun row => row.1.length).foldr max 0

theorem SameEntries.depth (same : SameEntries first second) : first.depth = second.depth :=
  List.Perm.foldr_eq (List.Perm.map _ same) 0

def regularFiles (path : Path) (disk : Disk) : List (Path × String) := walk disk.depth path disk

theorem SameEntries.walk (same : SameEntries first second) (depth : Nat) (path : Path) :
    (walk depth path first).Perm (walk depth path second) := by
  induction depth generalizing path with
  | zero => exact .refl _
  | succ depth inductionHypothesis =>
    refine List.Perm.flatMap (same.listing path) fun row _ => ?_
    cases row.2 with
    | file content => exact .refl _
    | directory => exact inductionHypothesis row.1

theorem SameEntries.regularFiles (same : SameEntries first second) (path : Path) :
    (regularFiles path first).Perm (regularFiles path second) := by
  rw [Disk.regularFiles, Disk.regularFiles, same.depth]
  exact same.walk second.depth path

/-! ## The ends of a listing -/

/-- The other way round. -/
def reversed (disk : Disk) : Disk where
  rows := disk.rows.reverse
  keyed := by
    rw [List.map_reverse, List.nodup_reverse]
    exact disk.keyed

theorem sameEntries_reversed (disk : Disk) : SameEntries disk.reversed disk := List.reverse_perm _

theorem listing_reversed (path : Path) (disk : Disk) : listing path disk.reversed = (listing path disk).reverse :=
  List.filter_reverse

theorem walk_reversed (depth : Nat) (path : Path) (disk : Disk) :
    walk depth path disk.reversed = (walk depth path disk).reverse := by
  induction depth generalizing path with
  | zero => rfl
  | succ depth inductionHypothesis =>
    rw [walk, walk, listing_reversed, List.reverse_flatMap]
    refine congrArg (List.flatMap · _) (funext fun row => ?_)
    obtain ⟨child, entry⟩ := row
    cases entry with
    | file content => rfl
    | directory => exact inductionHypothesis child

/-- These entries are listed before the others. -/
def arrange (isEarly : Path → Bool) (disk : Disk) : Disk where
  rows := disk.rows.filter (fun row => isEarly row.1) ++ disk.rows.filter fun row => !isEarly row.1
  keyed := (List.Perm.map Prod.fst (List.filter_append_perm (fun row => isEarly row.1) disk.rows)).nodup_iff.mpr disk.keyed

theorem sameEntries_arrange (isEarly : Path → Bool) (disk : Disk) : SameEntries (disk.arrange isEarly) disk :=
  List.filter_append_perm (fun row : Path × Entry => isEarly row.1) disk.rows

theorem listing_arrange (isEarly : Path → Bool) (path : Path) (disk : Disk) :
    listing path (disk.arrange isEarly) =
      (listing path disk).filter (fun row => isEarly row.1) ++ (listing path disk).filter fun row => !isEarly row.1 := by
  simp only [listing, arrange, List.filter_append, List.filter_filter, Bool.and_comm]

theorem prefix_of_mem_listing {row : Path × Entry} (member : row ∈ listing path disk) : path <+: row.1 := by
  obtain ⟨_, _, rfl⟩ := mem_listing.mp member
  exact List.dropLast_prefix _

/-- Of the entries of a directory one leads to the target. -/
theorem filter_listing_prefix {row : Path × Entry} (member : row ∈ listing path disk) (leads : row.1 <+: target) :
    (listing path disk).filter (fun row => row.1.isPrefixOf target) = [row] := by
  have distinct : ((listing path disk).filter fun row => row.1.isPrefixOf target).Nodup :=
    (((List.filter_sublist.trans List.filter_sublist).map Prod.fst).nodup disk.keyed).of_map Prod.fst
  refine List.perm_singleton.mp ((List.perm_ext_iff_of_nodup distinct (List.nodup_singleton row)).mpr fun other => ?_)
  rw [List.mem_filter, List.mem_singleton, List.isPrefixOf_iff_prefix]
  constructor
  · rintro ⟨otherMember, otherLeads⟩
    obtain ⟨isRow, nonempty, isParent⟩ := mem_listing.mp member
    obtain ⟨isOther, otherNonempty, otherParent⟩ := mem_listing.mp otherMember
    have sameLength : other.1.length = row.1.length := by
      have lengths := congrArg List.length (otherParent.trans isParent.symm)
      have positive := List.length_pos_iff.mpr nonempty
      have otherPositive := List.length_pos_iff.mpr otherNonempty
      rw [List.length_dropLast, List.length_dropLast] at lengths
      omega
    have samePath : other.1 = row.1 := by
      rw [List.prefix_iff_eq_take.mp otherLeads, sameLength, ← List.prefix_iff_eq_take.mp leads]
    exact Relation.eq_of_key isOther isRow samePath
  · rintro rfl
    exact ⟨member, leads⟩

/-- A file is in the directory itself, or below one that is. -/
theorem mem_walk_succ {depth : Nat} {content : String} (member : (target, content) ∈ walk (depth + 1) start disk) :
    (target, .file content) ∈ listing start disk ∨
      ∃ child, (child, .directory) ∈ listing start disk ∧ (target, content) ∈ walk depth child disk := by
  obtain ⟨row, isRow, found⟩ := List.mem_flatMap.mp member
  obtain ⟨child, entry⟩ := row
  cases entry with
  | file text =>
    cases List.mem_singleton.mp found
    exact .inl isRow
  | directory => exact .inr ⟨child, isRow, found⟩

theorem prefix_of_mem_walk {depth : Nat} {content : String} (member : (target, content) ∈ walk depth start disk) :
    start <+: target := by
  induction depth generalizing start with
  | zero => cases member
  | succ depth inductionHypothesis =>
    obtain isFile | ⟨child, isChild, below⟩ := mem_walk_succ member
    · exact prefix_of_mem_listing isFile
    · exact (prefix_of_mem_listing isChild).trans (inductionHypothesis below)

/-- Where all that leads to a file is listed last, the file is the last of all. -/
theorem walk_lastAt {depth : Nat} {content : String} (member : (target, content) ∈ walk depth start disk) :
    ∃ earlier, walk depth start (disk.arrange fun path => !path.isPrefixOf target) = earlier ++ [(target, content)] := by
  induction depth generalizing start with
  | zero => cases member
  | succ depth inductionHypothesis =>
    obtain isFile | ⟨child, isChild, below⟩ := mem_walk_succ member
    · simp only [walk, listing_arrange, Bool.not_not, filter_listing_prefix isFile (List.prefix_refl target),
        List.flatMap_append, List.flatMap_singleton]
      exact ⟨_, rfl⟩
    · simp only [walk, listing_arrange, Bool.not_not, filter_listing_prefix isChild (prefix_of_mem_walk below),
        List.flatMap_append, List.flatMap_singleton]
      obtain ⟨earlier, isLast⟩ := inductionHypothesis below
      rw [isLast, ← List.append_assoc]
      exact ⟨_, rfl⟩

theorem regularFiles_lastAt {content : String} (member : (target, content) ∈ regularFiles path disk) :
    ∃ arranged, SameEntries arranged disk ∧ ∃ earlier, regularFiles path arranged = earlier ++ [(target, content)] := by
  have same := sameEntries_arrange (fun path => !path.isPrefixOf target) disk
  refine ⟨_, same, ?_⟩
  rw [Disk.regularFiles, same.depth]
  exact walk_lastAt member

theorem regularFiles_firstAt {content : String} (member : (target, content) ∈ regularFiles path disk) :
    ∃ arranged, SameEntries arranged disk ∧ ∃ later, regularFiles path arranged = (target, content) :: later := by
  obtain ⟨arranged, same, earlier, isLast⟩ := regularFiles_lastAt member
  have reversedSame := sameEntries_reversed arranged
  refine ⟨arranged.reversed, reversedSame.trans same, earlier.reverse, ?_⟩
  rw [Disk.regularFiles] at isLast ⊢
  rw [reversedSame.depth, walk_reversed, isLast, List.reverse_append, List.reverse_singleton, List.singleton_append]

end AbilityFramework.Library.Disk
