import AbilityFramework.ResourceMgr.FtpClient
import AbilityFramework.ResourceMgr.PackageTasks

/-! # The store on an FTP server

`find_package` takes any archive whose name contains the version, and `download` asks for the archive that is named
after it.  The two agree unless the directory has archives of the first kind only (`findPackage_iff`). -/

namespace AbilityFramework.ResourceMgr

open Library

structure HostInfo where
  os : String
  osVersion : String
  arch : String

def versionMatch (filename version : ByteText) : Bool := (filename.find version).isSome

def zip : ByteText := .ofString ".zip"

structure ClientImplFtp where
  hostInfo : HostInfo
  cli : FtpClient

namespace ClientImplFtp

variable (curl : Curl) (client : ClientImplFtp) (spec : PackageSpec)

/-- Where the archives of a package are. -/
def packageDir : ByteText := .ofString (client.hostInfo.arch ++ "/" ++ client.hostInfo.os ++ "/" ++ spec.package)

/-- The archive that is named after the version. -/
def requestedFile : ByteText := .ofString spec.version ++ zip

def isFound (filename : ByteText) : Bool := zip.isSuffixOf filename && versionMatch filename (.ofString spec.version)

def findPackage : Option PackageSpec :=
  match client.cli.listFiles curl (client.packageDir spec) with
  | .error _ => none
  | .ok filenames => if filenames.any (isFound spec) then some spec else none

/-- No bytes stand for a failure. -/
def download : ByteText :=
  match client.cli.downloadFile curl (client.packageDir spec ++ slash :: requestedFile spec) with
  | .error _ => []
  | .ok data => data

/-! ## Finding and downloading -/

/-- There are archives whose names contain the version, but none that is named after it. -/
def OnlySimilar (listing : List ByteText) : Prop :=
  requestedFile spec ∉ listing ∧ ∃ filename ∈ listing, zip <:+ filename ∧ ByteText.ofString spec.version <:+: filename

variable {spec}

theorem isFound_iff {filename : ByteText} :
    isFound spec filename = true ↔ zip <:+ filename ∧ ByteText.ofString spec.version <:+: filename := by
  rw [isFound, versionMatch, Bool.and_eq_true, List.isSuffixOf_iff_suffix, ByteText.find_isSome]

theorem requestedFile_found : isFound spec (requestedFile spec) = true :=
  isFound_iff.mpr ⟨List.suffix_append _ _, (List.prefix_append _ _).isInfix⟩

variable (spec)

/-- A package is found exactly if its download asks for a file that is there, but for directories with similar archives
only. -/
theorem findPackage_iff {listing : List ByteText}
    (listed : client.cli.listFiles curl (client.packageDir spec) = .ok listing) :
    ((client.findPackage curl spec).isSome = true ↔ requestedFile spec ∈ listing) ↔ ¬ OnlySimilar spec listing := by
  have found : (client.findPackage curl spec).isSome = true ↔ ∃ filename ∈ listing, isFound spec filename = true := by
    rw [findPackage, listed, ← List.any_eq_true]
    simp only
    split
    · rename_i any
      exact iff_of_true rfl any
    · rename_i none
      exact iff_of_false Bool.false_ne_true none
  rw [found]
  constructor
  · rintro agree ⟨absent, filename, member, similar⟩
    exact absent (agree.mp ⟨filename, member, isFound_iff.mpr similar⟩)
  · intro notOnlySimilar
    constructor
    · rintro ⟨filename, member, isFound⟩
      by_contra absent
      exact notOnlySimilar ⟨absent, filename, member, isFound_iff.mp isFound⟩
    · exact fun member => ⟨_, member, requestedFile_found⟩

def linuxStore : ClientImplFtp := { hostInfo := ⟨"linux", "6.1", "x86_64"⟩, cli := {} }

def lampPackage : PackageSpec := ⟨"lamp", "1.1", "x86_64"⟩

theorem lampPackage_found :
    (linuxStore.findPackage (fun _ => .ok [.ofString "1.1.zip\n"]) lampPackage).isSome = true := by
  have listed : linuxStore.cli.listFiles (fun _ => .ok [.ofString "1.1.zip\n"]) (linuxStore.packageDir lampPackage) =
      .ok [.ofString "1.1.zip"] := by rfl
  have notSimilar : ¬ OnlySimilar lampPackage [.ofString "1.1.zip"] := fun similar => similar.1 (by decide)
  exact ((findPackage_iff _ linuxStore lampPackage listed).mpr notSimilar).mpr (by decide)

/-- Version 1.10 is found for version 1.1. -/
theorem similarVersion_found :
    linuxStore.cli.listFiles (fun _ => .ok [.ofString "1.10.zip\n"]) (linuxStore.packageDir lampPackage) =
      .ok [.ofString "1.10.zip"] ∧
    ¬ ((linuxStore.findPackage (fun _ => .ok [.ofString "1.10.zip\n"]) lampPackage).isSome = true ↔
      requestedFile lampPackage ∈ [ByteText.ofString "1.10.zip"]) := by
  decide

end ClientImplFtp

end AbilityFramework.ResourceMgr
