import AbilityFramework.Library.JsonText
import AbilityFramework.ResourceMgr.StoredCR
import Mathlib.Data.Nat.Digits.Lemmas

/-! # Plain documents

The libraries on documents without finite floating-point values, as far as a table of documents goes: the text of
a document is the one that `dump()` makes of it, and an id is written in hexadecimal digits. -/

namespace AbilityFramework.ResourceMgr.Document

open Library

/-! ## Ids -/

/-- Groups of these lengths, with a dash after each. -/
def dashed : List Nat → List Char → List Char
  | [], chars => chars
  | length :: lengths, chars => chars.take length ++ '-' :: dashed lengths (chars.drop length)

def hexText (id : Uuid) : String :=
  let digits := (Nat.digits 16 id).map fun digit => Json.hexDigits.getD digit '0'
  String.ofList (dashed [8, 4, 4, 4] (digits ++ List.replicate (32 - digits.length) '0').reverse)

def readHexText (text : String) : Option Uuid :=
  some (Nat.ofDigits 16 ((text.toList.filter (· ≠ '-')).reverse.map fun char => Json.hexDigits.idxOf char))

theorem filter_dashed (lengths : List Nat) {chars : List Char} (noDash : ∀ char ∈ chars, char ≠ '-') :
    (dashed lengths chars).filter (· ≠ '-') = chars := by
  induction lengths generalizing chars with
  | nil => exact List.filter_eq_self.mpr fun char isChar => decide_eq_true (noDash char isChar)
  | cons length lengths inductionHypothesis =>
    have taken : (chars.take length).filter (· ≠ '-') = chars.take length :=
      List.filter_eq_self.mpr fun char isChar => decide_eq_true (noDash char (List.mem_of_mem_take isChar))
    rw [dashed, List.filter_append, taken, List.filter_cons_of_neg (by simp),
      inductionHypothesis fun char isChar => noDash char (List.mem_of_mem_drop isChar), List.take_append_drop]

theorem hexDigit_spec : ∀ digit < 16, Json.hexDigits.getD digit '0' ≠ '-' ∧
    Json.hexDigits.idxOf (Json.hexDigits.getD digit '0') = digit := by decide

theorem readHexText_hexText (id : Uuid) : readHexText (hexText id) = some id := by
  have small : ∀ digit ∈ Nat.digits 16 id, digit < 16 := fun digit isDigit => Nat.digits_lt_base (by decide) isDigit
  have noDash (count : Nat) : ∀ char ∈ ((Nat.digits 16 id).map (fun digit => Json.hexDigits.getD digit '0') ++
      List.replicate count '0').reverse, char ≠ '-' := by
    intro char isChar
    rw [List.mem_reverse, List.mem_append, List.mem_map] at isChar
    obtain ⟨digit, isDigit, rfl⟩ | isZero := isChar
    · exact (hexDigit_spec digit (small digit isDigit)).1
    · rw [List.eq_of_mem_replicate isZero]
      decide
  have values : ((Nat.digits 16 id).map fun digit => Json.hexDigits.getD digit '0').map
      (fun char => Json.hexDigits.idxOf char) = Nat.digits 16 id := by
    rw [List.map_map]
    exact (List.map_congr_left fun digit isDigit => (hexDigit_spec digit (small digit isDigit)).2).trans (List.map_id _)
  have zero : Json.hexDigits.idxOf '0' = 0 := by decide
  rw [readHexText, hexText, String.toList_ofList, filter_dashed _ (noDash _), List.reverse_reverse, List.map_append,
    values, List.map_replicate, zero, Nat.ofDigits_append_replicate_zero, Nat.ofDigits_digits]

/-! ## Documents -/

abbrev Documents := Relation (Prod.snd (α := Json) (β := String))

def textOf (json : Json) : String := String.ofList (json.text fun _ => "")

def plainDocuments (documents : Documents) : DocumentEnvironment where
  version := some
  version_version _ := rfl
  idText := hexText
  readId := readHexText
  readId_idText := readHexText_hexText
  dump json := (documents.rows.find? fun entry => entry.1 = json.asWritten).map Prod.snd
  parse text := (documents.lookup text).map Prod.fst
  parse_dump := by
    intro json text dumped
    obtain ⟨entry, found, rfl⟩ := Option.map_eq_some_iff.mp dumped
    have same : entry.1 = json.asWritten := by simpa using List.find?_some found
    rw [Relation.lookup_eq_some.mpr ⟨List.mem_of_find?_eq_some found, rfl⟩, Option.map_some, same]

/-! ## A camera -/

def cameraSpec : AbilitySpec where
  id := none
  status := none
  package := "vision"
  version := "1.0.0"
  abilityName := "Camera"
  position := "localhost"
  priority := none
  activityCondition := .null
  autoStart := none
  keepAlive := none
  singleton := none
  config := .null
  debugOption := .null
  subabilities := []
  devices := []
  models := []

def onPlainNode : StringMap := ⟨[("fwk.io/onNode/id", "node"), ("fwk.io/onNode/name", "node")], by decide⟩

def cameraCr : AbilityCR where
  tag := ⟨"file", "file"⟩
  sharers := ∅
  owner := {}
  metadata := ⟨"camera", onPlainNode, ∅⟩
  id := 6
  kind := "AtomAbility"
  status := .null
  runInfo := some {}
  subabilities := []
  devices := []
  spec := cameraSpec

/-- The snapshot of the instance with id 9. -/
def cameraSnapshot : AbilityCR :=
  { cameraCr with
    id := 9
    spec := { cameraSpec with autoStart := some false, keepAlive := some false, singleton := some true } }

def cameraJson : Json := cameraCr.toJson (plainDocuments ∅)

def cameraSnapshotJson : Json := cameraSnapshot.toJson (plainDocuments ∅)

theorem cameraTexts_distinct : [textOf cameraJson, textOf cameraSnapshotJson].Nodup := by
  rw [List.nodup_cons, List.mem_singleton, textOf, textOf, String.ofList_inj]
  exact ⟨by decide, List.nodup_singleton _⟩

def cameraDocuments : DocumentEnvironment :=
  plainDocuments
    ⟨[(cameraJson, textOf cameraJson), (cameraSnapshotJson, textOf cameraSnapshotJson)], cameraTexts_distinct⟩

/-- As the tables have the template. -/
def cameraContent : AbilityCRContent where
  id := 6
  kind := "AtomAbility"
  metadata := ⟨"camera", onPlainNode, ∅⟩
  spec := ⟨"vision", "1.0.0", "Camera", "localhost", none, none, none⟩
  detail := textOf cameraJson

end AbilityFramework.ResourceMgr.Document
