import AbilityFramework.ResourceMgr.StoreManager

/-! # Reading skill files

`read_skill` compares the file that is asked for with the directory of the package's skills, and asks
nothing of that directory itself.  A package or a version named `..` makes it a directory above the skills,
whose files are then returned (`skillRead_contained_iff`). -/

namespace AbilityFramework.ResourceMgr

open Library StoreManager

def isRegularFile (tree : FileTree) (path : Path) : Option String :=
  match tree.entry path with
  | some (.file content) => some content
  | some .directory | none => none

/-- The regular file that is opened. -/
def openedSkill (env : StoreEnvironment) (tree : FileTree) (pkgName version filename : String) : Option Path :=
  if pkgName.isEmpty || version.isEmpty || filename.isEmpty then none
  else
    let base := mirroredPkgSkillsDir env pkgName version
    let target := tree.weaklyCanonical (base.slash filename)
    let baseCanon := tree.weaklyCanonical base
    -- The guard against traversals.
    if (tree.relative target baseCanon).head? = some none then none
    else (tree.find target).filter fun file => (isRegularFile tree file).isSome

def readSkill (env : StoreEnvironment) (tree : FileTree) (pkgName version filename : String) : Option String :=
  (openedSkill env tree pkgName version filename).bind (isRegularFile tree)

inductive SkillResponse where
  | content (text : String)
  /-- 404 -/
  | skillNotFound (package version filename : String)
  deriving DecidableEq

/-- `GET /api/skill/:package/:version/:filename` -/
def getSkill (env : StoreEnvironment) (tree : FileTree) (pkg version filename : String) : SkillResponse :=
  match readSkill env tree pkg version filename with
  | none => .skillNotFound pkg version filename
  | some content => .content content

/-- Where package and version lead: `relative` takes the canonical form of the directory to be canonical once
more, which makes a difference only for names with a null character. -/
def skillsDirectory (env : StoreEnvironment) (tree : FileTree) (pkg version : String) : Path :=
  (tree.weaklyCanonical (tree.weaklyCanonical (mirroredPkgSkillsDir env pkg version))).elements

/-- What is returned is the content of a file inside the directory of the package's skills, which is inside
that of all skills; every other request gets an error. -/
def SkillReadContained (env : StoreEnvironment) (tree : FileTree) (pkg version filename : String) : Prop :=
  getSkill env tree pkg version filename = .skillNotFound pkg version filename ∨
    ∃ file content, openedSkill env tree pkg version filename = some file ∧
      tree.entry file = some (.file content) ∧ getSkill env tree pkg version filename = .content content ∧
      file.StrictlyInside (skillsDirectory env tree pkg version) ∧
      (skillsDirectory env tree pkg version).StrictlyInside (mirrorRoot env "skills")

/-- Package and version lead to something inside the directory of all skills that is not a file itself. -/
structure LeadsToSkills (env : StoreEnvironment) (tree : FileTree) (pkg version : String) : Prop where
  inside : (skillsDirectory env tree pkg version).StrictlyInside (mirrorRoot env "skills")
  notFile : isRegularFile tree (skillsDirectory env tree pkg version) = none

/-- The request names a regular file at or below where package and version lead. -/
structure NamesFile (env : StoreEnvironment) (tree : FileTree) (pkg version filename : String) (file : Path) : Prop where
  complete : pkg ≠ "" ∧ version ≠ "" ∧ filename ≠ ""
  found : tree.find (tree.weaklyCanonical ((mirroredPkgSkillsDir env pkg version).slash filename)) = some file
  isFile : (isRegularFile tree file).isSome = true
  below : skillsDirectory env tree pkg version <+: file

variable {env : StoreEnvironment} {file : Path} {tree : FileTree} {pkg version filename : String}

theorem isRegularFile_eq_some {path : Path} {content : String} :
    isRegularFile tree path = some content ↔ tree.entry path = some (.file content) := by
  rw [isRegularFile]
  cases tree.entry path with
  | none => simp
  | some entry => cases entry <;> simp

theorem openedSkill_eq_some :
    openedSkill env tree pkg version filename = some file ↔ NamesFile env tree pkg version filename file := by
  rw [openedSkill]
  split
  · rename_i incomplete
    refine iff_of_false nofun fun names => ?_
    simp [names.complete] at incomplete
  · rename_i complete
    simp only [Bool.or_eq_true, String.isEmpty_iff, not_or] at complete
    simp only [FileTree.relative, Path.head_relative]
    split
    · rename_i notBelow
      refine iff_of_false nofun fun names => notBelow ?_
      rw [FileTree.elements_weaklyCanonical names.found]
      exact names.below
    · rename_i below
      rw [Option.filter_eq_some_iff]
      constructor
      · rintro ⟨found, isFile⟩
        rw [FileTree.elements_weaklyCanonical found, not_not] at below
        exact ⟨⟨complete.1.1, complete.1.2, complete.2⟩, found, isFile, below⟩
      · exact fun names => ⟨names.found, names.isFile⟩

/-- What is opened is below a directory, unless it is what package and version lead to. -/
theorem NamesFile.strictlyInside (names : NamesFile env tree pkg version filename file) :
    file.StrictlyInside (skillsDirectory env tree pkg version) ↔
      isRegularFile tree (skillsDirectory env tree pkg version) = none := by
  constructor
  · rintro ⟨isPrefix, different⟩
    have isDirectory := FileTree.isDirectory_of_walk names.found
      (fun above isAbove isProper => absurd (List.prefix_nil.mp isAbove) isProper) isPrefix (Ne.symm different)
    rw [isRegularFile, isDirectory]
  · intro notFile
    refine ⟨names.below, fun same => ?_⟩
    have isFile := names.isFile
    rw [same, notFile] at isFile
    cases isFile

/-- Reads are contained exactly if package and version lead to a directory among the skills, or to no file at all. -/
theorem skillRead_contained_iff (env : StoreEnvironment) (tree : FileTree) (pkg version filename : String) :
    SkillReadContained env tree pkg version filename ↔
      LeadsToSkills env tree pkg version ∨ ¬ ∃ file, NamesFile env tree pkg version filename file := by
  rw [SkillReadContained, getSkill, readSkill]
  cases opened : openedSkill env tree pkg version filename with
  | none =>
    refine iff_of_true (.inl rfl) (.inr ?_)
    rintro ⟨file, names⟩
    rw [openedSkill_eq_some.mpr names] at opened
    cases opened
  | some file =>
    have names := openedSkill_eq_some.mp opened
    obtain ⟨content, reads⟩ := Option.isSome_iff_exists.mp names.isFile
    simp only [Option.bind_some, reads]
    constructor
    · rintro (notFound | ⟨_, _, same, _, _, below, inside⟩)
      · cases notFound
      · obtain rfl := Option.some.inj same
        exact .inl ⟨inside, names.strictlyInside.mp below⟩
    · rintro (leads | noFile)
      · refine .inr ⟨file, content, rfl, isRegularFile_eq_some.mp reads, rfl, ?_, leads.inside⟩
        exact names.strictlyInside.mpr leads.notFile
      · exact absurd ⟨file, names⟩ noFile

/-- A file of the framework beside its directories. -/
def configTree : FileTree where
  entry path :=
    if path = ["home", "config.json"] then some (.file "secret")
    else if path <+: ["home", "skills", "_packages"] then some .directory
    else none

/-- Package and version `..` lead to the home directory. -/
theorem dots_not_contained : ¬ SkillReadContained ⟨["home"], ""⟩ configTree ".." ".." "config.json" := by
  rintro (notFound | ⟨_, _, _, _, _, _, inside⟩)
  · exact absurd notFound (by decide)
  · exact absurd inside (by decide)

end AbilityFramework.ResourceMgr
