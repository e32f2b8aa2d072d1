import AbilityFramework.Library.FileReplace
import AbilityFramework.Library.YamlNodes
import AbilityFramework.ResourceMgr.HttpErrors
import AbilityFramework.ResourceMgr.ResourceUpdate

/-! # Editing autoStart

`POST /api/crs/autostart`: the handler reads a YAML file of the CR directory, sets `spec.autoStart` and puts the
file back through a temporary one.  The file name of the request is joined to the directory as it is, and an
assignment changes every place at which the document has the node. -/

namespace AbilityFramework.Library

namespace Disk

/-- The file system follows a path through directories, and a NUL ends its text. -/
def resolve (disk : Disk) (base : Path) (text : String) : Option Path :=
  let characters := text.toList.takeWhile (· ≠ Char.ofNat 0)
  let start := if characters.head? = some '/' then [] else base
  ((characters.splitOn '/').map String.ofList).foldlM
    (fun directory name => if disk.isDirectory directory then some (directory.child name) else none) start

/-- What a stream reads; a directory can be opened, but nothing is read of it. -/
def textAt (disk : Disk) (path : Path) : Option String :=
  (disk.entry path).map fun
    | .file content => content
    | .directory => ""

end Disk

end AbilityFramework.Library

namespace AbilityFramework.ResourceMgr

open Library

def autoStartKeys : List String := ["spec", "autoStart"]

def boolText (value : Bool) : String := if value then "true" else "false"

/-- The YAML library.  A document that has been read and edited is written so that it reads as it is. -/
structure YamlFiles where
  /-- The first document of a text. -/
  load : String → Option YamlGraph
  /-- Whether there is nothing after it. -/
  single : String → Bool
  emit : YamlGraph → String
  reads : ∀ {text graph value after}, load text = some graph →
    graph.setAt (boolText value) autoStartKeys graph.root = .ok after →
      single (emit after) = true ∧ ∃ written, load (emit after) = some written ∧
        ∀ depth, written.unfold depth written.root = after.unfold depth after.root

/-- The new text is the old document with the value at `spec.autoStart`, and nothing else is different. -/
def YamlFiles.Edits (yaml : YamlFiles) (value : Bool) (old new : String) : Prop :=
  yaml.single old = true ∧ yaml.single new = true ∧
    ∃ before after, yaml.load old = some before ∧ yaml.load new = some after ∧
      ∀ depth, (before.unfold (depth + autoStartKeys.length + 1) before.root).put (boolText value) autoStartKeys =
        some (after.unfold (depth + autoStartKeys.length + 1) after.root)

theorem YamlFiles.edits_emit_iff (yaml : YamlFiles) {value : Bool} {old : String} {graph edited : YamlGraph}
    (loads : yaml.load old = some graph) (returns : graph.setAt (boolText value) autoStartKeys graph.root = .ok edited) :
    yaml.Edits value old (yaml.emit edited) ↔ yaml.single old = true ∧ graph.OnlyThere (boolText value) autoStartKeys := by
  obtain ⟨isSingle, written, isWritten, sameTree⟩ := yaml.reads loads returns
  rw [← YamlGraph.setAt_put_iff returns]
  constructor
  · rintro ⟨wasSingle, _, before, after, isBefore, isAfter, isPut⟩
    obtain rfl := Option.some.inj (isBefore.symm.trans loads)
    obtain rfl := Option.some.inj (isAfter.symm.trans isWritten)
    refine ⟨wasSingle, fun depth => ?_⟩
    rw [isPut, sameTree]
  · rintro ⟨wasSingle, isPut⟩
    refine ⟨wasSingle, isSingle, graph, written, loads, isWritten, fun depth => ?_⟩
    rw [isPut, sameTree]

/-! ## The handler -/

/-- `home_path() / "crs"`, the YAML library, and the texts of the exceptions of libraries. -/
structure EditEnvironment where
  crs : Path
  yaml : YamlFiles
  subscriptError : String → String
  renameError : String
  removeError : String

structure EditFaults extends ReplaceFaults where
  reads : Bool := true

namespace EditEnvironment

variable (env : EditEnvironment) (faults : EditFaults) (disk : Disk)

def filePath (filename : String) : String :=
  if filename.toList.head? = some '/' then filename else "/" ++ "/".intercalate env.crs ++ "/" ++ filename

/-- `extension_is_yaml` -/
def extensionIsYaml (path : String) : Bool :=
  let extension := ResourceManager.extension (((path.toList.splitOn '/').map String.ofList).getLast?.getD "")
  "yaml".toList.isSuffixOf extension.toList || "yml".toList.isSuffixOf extension.toList

def readYamlFromPath (filename : String) (target : Path) : Option YamlGraph :=
  if !extensionIsYaml filename || !faults.reads then none else (disk.textAt target).bind env.yaml.load

def whatYaml : YamlGraph.YamlException → String
  | .badSubscript key => env.subscriptError key

def what : ReplaceError → String
  | .notCreated => "Failed to create temporary file"
  | .notWritten => "Failed to flush temporary file"
  | .notRenamed => "Failed to replace original file after 3 attempts: " ++ env.renameError
  | .notRemoved => env.removeError

/-- The `try` block.  The test whether there is a member makes the nodes that the assignment then finds, and both
branches assign. -/
def modifyFile (filename : String) (value : Bool) (target : Path) : Except String Unit × TrackedDisk :=
  match env.readYamlFromPath faults disk filename target with
  | none => (.error "failed to read yaml file", ⟨disk, []⟩)
  | some graph =>
    match graph.setAt (boolText value) autoStartKeys graph.root with
    | .error exception => (.error (env.whatYaml exception), ⟨disk, []⟩)
    | .ok edited =>
      match disk.resolve env.crs (filename ++ ".tmp") with
      | none => (.error (env.what .notCreated), ⟨disk, []⟩)
      | some temporary =>
        let replaced := replaceThrough faults.toReplaceFaults temporary target (env.yaml.emit edited) 2 disk
        (replaced.1.mapError env.what, replaced.2)

def readEditRequest (body : Json) : Except HttpException (String × Bool) :=
  match body.find "filename" with
  | some (.string filename) =>
    match body.find "autoStart" with
    | some (.boolean value) => .ok (filename, value)
    | _ => .error (.invalidArgument "request body must contain boolean 'autoStart' field")
  | _ => .error (.invalidArgument "request body must contain string 'filename' field")

def editAutoStart (filename : String) (value : Bool) : Except HttpException Json × TrackedDisk :=
  match (disk.resolve env.crs filename).filter disk.hasEntry with
  | none => (.error (.invalidArgument ("CR file not found: " ++ env.filePath filename)), ⟨disk, []⟩)
  | some target =>
    match env.modifyFile faults disk filename value target with
    | (.ok (), after) =>
      (.ok (.object [("autoStart", .boolean value), ("filename", .string filename), ("success", .boolean true)]), after)
    | (.error message, after) =>
      (.error (.problem {
        status := 500
        type := "file_operation_error"
        title := "File operation error"
        detail := "Failed to modify CR file: " ++ message
        occurrence := filename }), after)

def postAutoStart (body : Json) : HttpReply × TrackedDisk :=
  match readEditRequest body with
  | .error exception => (handleErrorToHttp "/api/crs/autostart" exception, ⟨disk, []⟩)
  | .ok (filename, value) =>
    match env.editAutoStart faults disk filename value with
    | (.ok content, after) => ({ content }, after)
    | (.error exception, after) => (handleErrorToHttp "/api/crs/autostart" exception, after)

/-! ## What the edit is safe for -/

/-- What the handler is about to write, where it gets so far. -/
structure EditPlan (filename : String) (value : Bool) where
  target : Path
  text : String
  graph : YamlGraph
  temporary : Path
  resolved : disk.resolve env.crs filename = some target
  isRead : disk.textAt target = some text
  isYaml : extensionIsYaml filename = true
  loads : env.yaml.load text = some graph
  /-- Neither the document nor its `spec` is a scalar. -/
  editable : ∃ edited, graph.setAt (boolText value) autoStartKeys graph.root = .ok edited
  temporaryResolved : disk.resolve env.crs (filename ++ ".tmp") = some temporary

/-- The temporary file cannot be opened, or there is nothing in its place and the target is no file, or a file of the
CR directory with one document, which has the changed node nowhere else. -/
def EditPlan.Safe {env : EditEnvironment} {disk : Disk} {filename : String} {value : Bool}
    (plan : EditPlan env disk filename value) : Prop :=
  disk.isDirectory plan.temporary = true ∨ disk.hasEntry plan.temporary = false ∧
    (disk.isDirectory plan.target = true ∨
      plan.target.StrictlyInside env.crs ∧ env.yaml.single plan.text = true ∧
        plan.graph.OnlyThere (boolText value) autoStartKeys)

variable {env faults disk} {filename : String} {value : Bool} {target : Path}

theorem readYamlFromPath_eq_some {graph : YamlGraph} : env.readYamlFromPath faults disk filename target = some graph ↔
    (extensionIsYaml filename = true ∧ faults.reads = true) ∧
      ∃ text, disk.textAt target = some text ∧ env.yaml.load text = some graph := by
  rw [readYamlFromPath, ← Option.bind_eq_some_iff]
  cases extensionIsYaml filename <;> cases faults.reads <;> simp

theorem EditPlan.isThere (plan : EditPlan env disk filename value) :
    (disk.resolve env.crs filename).filter disk.hasEntry = some plan.target := by
  obtain ⟨entry, found, _⟩ := Option.map_eq_some_iff.mp plan.isRead
  exact Option.filter_eq_some_iff.mpr ⟨plan.resolved, Disk.hasEntry_iff.mpr ⟨entry, found⟩⟩

theorem modifyFile_plan (plan : EditPlan env disk filename value) (reads : faults.reads = true) {edited : YamlGraph}
    (edits : plan.graph.setAt (boolText value) autoStartKeys plan.graph.root = .ok edited) :
    env.modifyFile faults disk filename value plan.target =
      ((replaceThrough faults.toReplaceFaults plan.temporary plan.target (env.yaml.emit edited) 2 disk).1.mapError env.what,
        (replaceThrough faults.toReplaceFaults plan.temporary plan.target (env.yaml.emit edited) 2 disk).2) := by
  have isGraph : env.readYamlFromPath faults disk filename plan.target = some plan.graph :=
    readYamlFromPath_eq_some.mpr ⟨⟨plan.isYaml, reads⟩, plan.text, plan.isRead, plan.loads⟩
  unfold modifyFile
  rw [isGraph]
  simp only [edits, plan.temporaryResolved]

/-- Without a plan the handler gives up before it writes. -/
theorem modifyFile_unplanned (resolved : disk.resolve env.crs filename = some target)
    (unplanned : faults.reads = true → IsEmpty (EditPlan env disk filename value)) :
    ∃ message, env.modifyFile faults disk filename value target = (.error message, ⟨disk, []⟩) := by
  unfold modifyFile
  cases isGraph : env.readYamlFromPath faults disk filename target with
  | none => exact ⟨_, rfl⟩
  | some graph =>
    obtain ⟨⟨isYaml, reads⟩, text, isRead, loads⟩ := readYamlFromPath_eq_some.mp isGraph
    cases edits : graph.setAt (boolText value) autoStartKeys graph.root with
    | error =>
      simp only [edits]
      exact ⟨_, rfl⟩
    | ok edited =>
      cases temporaryResolved : disk.resolve env.crs (filename ++ ".tmp") with
      | none =>
        simp only [edits]
        exact ⟨_, rfl⟩
      | some temporary =>
        exact ((unplanned reads).false
          ⟨target, text, graph, temporary, resolved, isRead, isYaml, loads, ⟨edited, edits⟩, temporaryResolved⟩).elim

variable {body : Json} (isRequest : readEditRequest body = .ok (filename, value))

include isRequest

theorem postAutoStart_plan (plan : EditPlan env disk filename value) (reads : faults.reads = true) {edited : YamlGraph}
    (edits : plan.graph.setAt (boolText value) autoStartKeys plan.graph.root = .ok edited) :
    ((env.postAutoStart faults disk body).1.status = 200 ↔
        (replaceThrough faults.toReplaceFaults plan.temporary plan.target (env.yaml.emit edited) 2 disk).1 = .ok ()) ∧
      (env.postAutoStart faults disk body).2 =
        (replaceThrough faults.toReplaceFaults plan.temporary plan.target (env.yaml.emit edited) 2 disk).2 := by
  unfold postAutoStart editAutoStart
  simp only [isRequest, plan.isThere, modifyFile_plan plan reads edits]
  generalize replaceThrough faults.toReplaceFaults plan.temporary plan.target (env.yaml.emit edited) 2 disk = replaced
  obtain ⟨_ | _, after⟩ := replaced
  · simp [Except.mapError, handleErrorToHttp]
  · simp [Except.mapError]

theorem postAutoStart_unplanned (unplanned : faults.reads = true → IsEmpty (EditPlan env disk filename value)) :
    (env.postAutoStart faults disk body).1.status ≠ 200 ∧ (env.postAutoStart faults disk body).2 = ⟨disk, []⟩ := by
  unfold postAutoStart editAutoStart
  simp only [isRequest]
  cases isThere : (disk.resolve env.crs filename).filter disk.hasEntry with
  | none => simp [handleErrorToHttp]
  | some target =>
    obtain ⟨message, fails⟩ := modifyFile_unplanned (Option.filter_eq_some_iff.mp isThere).1 unplanned
    simp [fails, handleErrorToHttp]

omit isRequest in
theorem EditPlan.safe_iff (plan : EditPlan env disk filename value) {edited : YamlGraph}
    (edits : plan.graph.setAt (boolText value) autoStartKeys plan.graph.root = .ok edited) :
    plan.Safe ↔ ∀ faults, SoundReplace (env.yaml.Edits value) env.crs disk
      ((replaceThrough faults plan.temporary plan.target (env.yaml.emit edited) 2 disk).1 = .ok ())
      (replaceThrough faults plan.temporary plan.target (env.yaml.emit edited) 2 disk).2 := by
  rw [sound_replaceThrough_iff (Option.filter_eq_some_iff.mp plan.isThere).2, Safe]
  refine or_congr_right (and_congr_right fun _ => ?_)
  cases isDirectory : disk.isDirectory plan.target with
  | true => exact iff_of_true (.inl rfl) (.inl rfl)
  | false =>
    rw [or_iff_right Bool.false_ne_true, or_iff_right Bool.false_ne_true]
    refine and_congr_right fun _ => ?_
    have isFile : disk.fileAt plan.target = some plan.text := by
      obtain ⟨_ | content, found, same⟩ := Option.map_eq_some_iff.mp plan.isRead
      · rw [Disk.isDirectory, found] at isDirectory
        simp at isDirectory
      · rw [Disk.fileAt_eq_some, found, ← same]
    rw [← env.yaml.edits_emit_iff plan.loads edits, isFile]
    simp

variable (env disk) in
/-- The edit is sound however its calls end exactly if what it is about to write is safe. -/
theorem postAutoStart_sound_iff :
    (∀ faults, SoundReplace (env.yaml.Edits value) env.crs disk ((env.postAutoStart faults disk body).1.status = 200)
        (env.postAutoStart faults disk body).2) ↔ ∀ plan : EditPlan env disk filename value, plan.Safe := by
  constructor
  · intro sound plan
    obtain ⟨edited, edits⟩ := plan.editable
    refine (plan.safe_iff edits).mpr fun faults => ?_
    let readable : EditFaults := { toReplaceFaults := faults }
    obtain ⟨succeeds, after⟩ := postAutoStart_plan isRequest plan (show readable.reads = true from rfl) edits
    have atFaults := sound readable
    rw [succeeds, after] at atFaults
    exact atFaults
  · intro safe faults
    by_cases planned : faults.reads = true ∧ Nonempty (EditPlan env disk filename value)
    · obtain ⟨reads, ⟨plan⟩⟩ := planned
      obtain ⟨edited, edits⟩ := plan.editable
      obtain ⟨succeeds, after⟩ := postAutoStart_plan isRequest plan reads edits
      rw [succeeds, after]
      exact (plan.safe_iff edits).mp (safe plan) faults.toReplaceFaults
    · obtain ⟨fails, after⟩ := postAutoStart_unplanned isRequest fun reads =>
        not_nonempty_iff.mp fun isPlanned => planned ⟨reads, isPlanned⟩
      rw [after]
      exact soundReplace_unchanged _

end EditEnvironment

/-! ### Outside the directory -/

open EditEnvironment

def lampText (value : Bool) : String := "spec:\n  autoStart: " ++ boolText value

def lampDocument (value : Bool) : YamlGraph where
  size := 5
  data
    | 0 => .map [(1, 2)]
    | 1 => .scalar "spec"
    | 2 => .map [(3, 4)]
    | 3 => .scalar "autoStart"
    | 4 => .scalar (boolText value)
    | _ => .null
  root := 0
  rootBelow := by decide
  closed := by
    intro node step child found
    match node with
    | 0 | 2 => exact YamlShape.step_below (by decide) step child found
    | 1 | 3 | 4 | _ + 5 => cases found

/-- A library that reads nothing but these two documents. -/
def lampFiles : YamlFiles where
  load text :=
    if text = lampText true then some (lampDocument true)
    else if text = lampText false then some (lampDocument false)
    else none
  single text := text = lampText true || text = lampText false
  emit graph := lampText (graph.data 4 = .scalar "true")
  reads := by
    intro text graph value after loads returns
    obtain ⟨before, rfl⟩ : ∃ before, graph = lampDocument before := by
      split_ifs at loads
      · exact ⟨true, (Option.some.inj loads).symm⟩
      · exact ⟨false, (Option.some.inj loads).symm⟩
    have assigns : (lampDocument before).setAt (boolText value) autoStartKeys (lampDocument before).root =
        .ok ((lampDocument before).assign 4 (boolText value)) := rfl
    obtain rfl := Except.ok.inj (assigns.symm.trans returns)
    have sameData (node : Nat) :
        (lampDocument value).data node = ((lampDocument before).assign 4 (boolText value)).data node := by
      match node with
      | 0 | 1 | 2 | 3 | 4 | _ + 5 => rfl
    have isText : lampText (((lampDocument before).assign 4 (boolText value)).data 4 = .scalar "true") = lampText value := by
      cases value <;> rfl
    rw [isText]
    refine ⟨by cases value <;> decide, lampDocument value, by cases value <;> rfl, fun depth => ?_⟩
    exact YamlGraph.unfold_congr (fun _ reached _ => sameData reached) depth

def lampDisk : Disk where
  rows :=
    [([], .directory), (["home"], .directory), (["home", "config.yaml"], .file (lampText false)),
      (["home", "crs"], .directory), (["home", "crs", "lamp.yaml"], .file (lampText false))]
  keyed := by decide

def lampEnvironment : EditEnvironment where
  crs := ["home", "crs"]
  yaml := lampFiles
  subscriptError := fun _ => ""
  renameError := ""
  removeError := ""

def editBody (filename : String) (value : Bool) : Json :=
  .object [("autoStart", .boolean value), ("filename", .string filename)]

theorem isLampRequest : readEditRequest (editBody "lamp.yaml" true) = .ok ("lamp.yaml", true) := rfl

theorem lamp_edit_sound :
    (∀ faults, SoundReplace (lampEnvironment.yaml.Edits true) lampEnvironment.crs lampDisk
        ((lampEnvironment.postAutoStart faults lampDisk (editBody "lamp.yaml" true)).1.status = 200)
        (lampEnvironment.postAutoStart faults lampDisk (editBody "lamp.yaml" true)).2) ↔
      ∀ plan : EditPlan lampEnvironment lampDisk "lamp.yaml" true, plan.Safe :=
  postAutoStart_sound_iff lampEnvironment lampDisk isLampRequest

def configPlan : EditPlan lampEnvironment lampDisk "../config.yaml" true where
  target := ["home", "config.yaml"]
  text := lampText false
  graph := lampDocument false
  temporary := ["home", "config.yaml.tmp"]
  resolved := by decide +kernel
  isRead := by decide +kernel
  isYaml := by decide +kernel
  loads := rfl
  editable := ⟨_, rfl⟩
  temporaryResolved := by decide +kernel

theorem config_edited :
    ¬ SoundReplace (lampEnvironment.yaml.Edits true) lampEnvironment.crs lampDisk
      ((lampEnvironment.postAutoStart {} lampDisk (editBody "../config.yaml" true)).1.status = 200)
      (lampEnvironment.postAutoStart {} lampDisk (editBody "../config.yaml" true)).2 := by
  intro sound
  have isRequest : readEditRequest (editBody "../config.yaml" true) = .ok ("../config.yaml", true) := rfl
  obtain ⟨edited, edits⟩ := configPlan.editable
  obtain ⟨succeeds, after⟩ := postAutoStart_plan isRequest configPlan (show ({} : EditFaults).reads = true from rfl) edits
  have noDirectory : lampDisk.isDirectory configPlan.temporary = false := by decide
  have targetFile : lampDisk.isDirectory configPlan.target = false := by decide
  rw [succeeds, after, replaceThrough_clean _ _ noDirectory targetFile] at sound
  have inside := sound.inside configPlan.target List.mem_cons_self (by decide)
  exact absurd inside (by decide)

end AbilityFramework.ResourceMgr
