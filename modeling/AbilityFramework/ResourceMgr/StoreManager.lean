import AbilityFramework.ResourceMgr.PackageTasks
import AbilityFramework.ResourceMgr.StoreFiles

/-! # The package store

`StoreManager` unpacks archives into a temporary directory, moves what it has unpacked to the packages and
copies the CRs and the skills of a package to where the framework looks for them. -/

namespace AbilityFramework.ResourceMgr

open Library FileProgram

structure StoreEnvironment where
  home : Path
  /-- The architecture of the host. -/
  arch : String

namespace StoreManager

/-! ## Archives -/

inductive ZipEntry where
  /-- `mz_zip_reader_file_stat` fails. -/
  | unreadable
  | directory (name : String)
  /-- With its content, if it can be extracted. -/
  | file (name : String) (content : Option String)

/-- The entries, if the data is an archive. -/
abbrev ZipArchive := Option (List ZipEntry)

def unzipFile (path : Path) (name content : String) : StoreProgram Unit := do
  let targetPath := SpelledPath.slash path name
  let _ ← createDirectories targetPath.parentPath
  require (.write targetPath.leadsTo "") (.messageAt "Failed to write to file: " targetPath)
  -- The stream is not asked whether everything has been written.
  let _ ← attempt (.write targetPath.leadsTo content)
  require (.access targetPath.leadsTo) (.messageAt "Failed to set executable permissions for file: " targetPath)

def unzipEntries (path : Path) : Nat → List ZipEntry → StoreProgram Unit
  | _, [] => pure ()
  | index, .unreadable :: _ => fails (.message ("Failed to get file information for index " ++ toString index))
  | index, .directory name :: entries => do
    let targetPath := SpelledPath.slash path name
    if !(← hasEntry targetPath) then
      if !(← createDirectories targetPath) then fails (.messageAt "Failed to create directory: " targetPath)
    unzipEntries path (index + 1) entries
  | _, .file name none :: _ => fails (.message ("Failed to extract file: " ++ name))
  | index, .file name (some content) :: entries => do
    unzipFile path name content
    unzipEntries path (index + 1) entries

def unzip (archive : ZipArchive) (path : Path) : StoreProgram Unit := do
  if !(← hasEntry path) then
    if !(← createDirectories path) then fails (.messageAt "Failed to create target directory: " path)
  match archive with
  | none => fails (.message "Failed to initialize ZIP archive")
  | some entries => unzipEntries path 0 entries

/-- The first file of this name, at any depth. -/
def findPackageBaseDir (start : Path) : StoreProgram (Option Path) :=
  lookUp start fun disk =>
    (((filesBelow start disk).map Prod.fst).find? fun file => file.getLast? = some "package.yaml").map fun file =>
      start ++ file.dropLast

def firstWithPackageYaml : List Path → StoreProgram (Option Path)
  | [] => pure none
  | path :: paths => do
    if ← hasEntry (path ++ ["package.yaml"]) then return some path
    firstWithPackageYaml paths

def findPackageYamlInDeeper (path : Path) : StoreProgram (Option Path) := do
  if !(← isDirectory path) then return none
  let paths ← lookUp path (subdirectories path)
  firstWithPackageYaml paths

/-! ## Mirrors -/

section Mirrors

variable (env : StoreEnvironment)

/-- The folders of a package that are mirrored. -/
def mirroredFolders : List String := ["crs", "skills"]

/-- The directory with the mirrors of all packages, for one of the folders of a package. -/
def mirrorRoot (folder : String) : Path := env.home ++ [folder, "_packages"]

/-- All versions that are mirrored of a package. -/
def mirroredPkg (folder pkgName : String) : SpelledPath := SpelledPath.slash (mirrorRoot env folder) pkgName

def mirroredPkgDir (folder pkgName version : String) : SpelledPath := (mirroredPkg env folder pkgName).slash version

def mirroredPkgCrsDir (pkgName version : String) : SpelledPath := mirroredPkgDir env "crs" pkgName version

def mirroredPkgSkillsDir (pkgName version : String) : SpelledPath := mirroredPkgDir env "skills" pkgName version

/-- The files that could be copied are counted. -/
def copyFiles (destDir : Path) : Nat → List (Path × String) → StoreProgram Nat
  | count, [] => pure count
  | count, (rel, content) :: files => do
    -- Going on with the iteration.
    require (.access destDir) .fileSystem
    let _ ← attempt (.createDirectories (destDir ++ rel.dropLast))
    let copied ← attempt (.write (destDir ++ rel) content)
    copyFiles destDir (if copied then count + 1 else count) files

def mirrorFolder (folder : String) (pkgInstallDir : SpelledPath) (pkgName version : String) : StoreProgram Nat := do
  let srcDir := pkgInstallDir.slash folder
  if !(← hasEntry srcDir) then return 0
  if !(← isDirectory srcDir) then return 0
  let destDir := mirroredPkgDir env folder pkgName version
  if !(← attemptDirectories destDir) then return 0
  let files ← lookUp srcDir (filesBelow srcDir.leadsTo)
  copyFiles destDir.leadsTo 0 files

def mirrorPackageCrs (pkgInstallDir : SpelledPath) (pkgName version : String) : StoreProgram Nat :=
  mirrorFolder env "crs" pkgInstallDir pkgName version

def mirrorPackageSkills (pkgInstallDir : SpelledPath) (pkgName version : String) : StoreProgram Nat :=
  mirrorFolder env "skills" pkgInstallDir pkgName version

def unmirrorFolder (folder pkgName version : String) : StoreProgram Unit := do
  let path := if version.isEmpty then mirroredPkg env folder pkgName else mirroredPkgDir env folder pkgName version
  if ← hasEntry path then
    let _ ← removeAll path

def unmirrorPackageCrs (pkgName version : String) : StoreProgram Unit := unmirrorFolder env "crs" pkgName version

def unmirrorPackageSkills (pkgName version : String) : StoreProgram Unit := unmirrorFolder env "skills" pkgName version

end Mirrors

/-! ## Packages -/

section Packages

variable (env : StoreEnvironment)

def packagesPath : Path := env.home ++ ["packages"]

def destPath (package version : String) : SpelledPath := (SpelledPath.slash (packagesPath env) package).slash version

def mirrorPackage (dest : SpelledPath) (spec : PackageSpec) : StoreProgram Unit := do
  let _ ← mirrorPackageCrs env dest spec.package spec.version
  let _ ← mirrorPackageSkills env dest spec.package spec.version

def extractPackage (spec : PackageSpec) (archive : ZipArchive) (tmpPath : Path) : StoreProgram Unit := do
  if !spec.isComplete then fails (.invalidArgument "spec is not complete")
  let dest := destPath env spec.package spec.version
  if ← hasEntry dest then fails (.messageAt "already exists path " dest)
  let _ ← createDirectories dest.parentPath
  unzip archive tmpPath
  match ← findPackageBaseDir tmpPath with
  | none => fails (.message "no \"package.yaml\" found at package content")
  | some base =>
    rename base dest
    mirrorPackage env dest spec

structure AddPackageRes where
  actuallyInstalled : Bool
  spec : PackageSpec

/-- Where the package is unpacked. -/
def unpackedBase (archive : ZipArchive) (tmpPath : Path) : StoreProgram Path := do
  unzip archive tmpPath
  if ← hasEntry (tmpPath ++ ["package.yaml"]) then return tmpPath
  match ← findPackageYamlInDeeper tmpPath with
  | none => fails (.message "need /package.yaml in package")
  | some deepPath => return deepPath

/-- `exists(dest_path) && exists(dest_path / "package.yaml")` -/
def packageAlreadyExists (dest : SpelledPath) : StoreProgram Bool := do
  if ← hasEntry dest then hasEntry (dest.slash "package.yaml") else return false

/-- What is left of `prepare` once the spec has been read. -/
def prepareUnpacked (spec : PackageSpec) (base : Path) (force : Bool) : StoreProgram (PackageSpec × Option Path) := do
  if spec.arch ≠ env.arch then
    fails (.message ("unsupported architecture, host expected " ++ env.arch ++ ", but package has " ++ spec.arch))
  let dest := destPath env spec.package spec.version
  if (← packageAlreadyExists dest) && !force then return (spec, none)
  let _ ← createDirectories dest.parentPath
  return (spec, some base)

/-- What comes before a package is replaced: its spec, and where it is unpacked, unless the one that is
there is to stay. -/
def prepare (packageYaml : Except StoreError PackageSpec) (archive : ZipArchive) (tmpPath : Path) (force : Bool) :
    StoreProgram (PackageSpec × Option Path) := do
  let base ← unpackedBase archive tmpPath
  let spec ← done packageYaml
  prepareUnpacked env spec base force

def replacePackage (base : Path) (spec : PackageSpec) : StoreProgram Unit := do
  let dest := destPath env spec.package spec.version
  if !(← removeAll dest) then fails .fileSystem
  rename base dest
  mirrorPackage env dest spec

/-- The spec is what `read_package_spec_from_yaml` makes of the `package.yaml` that is found. -/
def addPackage (packageYaml : Except StoreError PackageSpec) (fileType : String) (archive : ZipArchive)
    (tmpPath : Path) (force : Bool) : StoreProgram AddPackageRes := do
  if fileType ≠ "zip" then fails (.invalidArgument "currently only zip is supported")
  match ← prepare env packageYaml archive tmpPath force with
  | (spec, none) => return ⟨false, spec⟩
  | (spec, some base) =>
    replacePackage env base spec
    return ⟨true, spec⟩

/-- The result is what is sent back. -/
def removePackage (package version : String) : StoreProgram String := do
  let dest := destPath env package version
  if !(← packageAlreadyExists dest) then return "not-exist"
  if !(← removeAll dest) then fails .fileSystem
  unmirrorPackageCrs env package version
  unmirrorPackageSkills env package version
  return "success"

/-- `task_remove_package` of the resource manager. -/
def taskRemovePackage (package version : String) : StoreProgram Unit := do
  let dir := SpelledPath.slash (packagesPath env) package
  let dir := if !version.isEmpty then dir.slash version else dir
  if !(← removeAll dir) then fails .fileSystem

end Packages

end StoreManager

end AbilityFramework.ResourceMgr
