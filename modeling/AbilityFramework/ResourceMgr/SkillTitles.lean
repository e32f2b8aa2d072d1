import AbilityFramework.Library.LastOf
import AbilityFramework.Library.Loops
import AbilityFramework.Library.Utf8

/-! # Titles of skills

`extract_skill_title` reads a skill file up to its sixtieth line.  What it finds is the first heading behind the front
matter; the front matter gives a title only if there is no heading (`extractSkillTitle_eq`).  What is cut off a line is
of ASCII, so that a title is UTF-8 exactly if the line is from which it is taken (`extractSkillTitle_isUtf8`). -/

namespace AbilityFramework.ResourceMgr.Skills

open Library

/-! ## Lines -/

/-- What `std::getline` gives, one line after the other.  No line begins behind the last line feed. -/
def readLines (content : ByteText) : List ByteText :=
  let pieces := content.splitOn 10
  if pieces.getLast? = some [] then pieces.dropLast else pieces

/-- A space or a tab. -/
def isBlank (byte : UInt8) : Bool := byte = 32 || byte = 9

def isBlankOrReturn (byte : UInt8) : Bool := byte = 32 || byte = 13 || byte = 9

/-- At the end of a heading a tab stays. -/
def isSpaceOrReturn (byte : UInt8) : Bool := byte = 32 || byte = 13

def fence : ByteText := .ofString "---"

def headingMark : ByteText := .ofString "# "

def isHeading (line : ByteText) : Bool := headingMark.isPrefixOf line

def headingText (line : ByteText) : ByteText := (line.drop headingMark.length).rdropWhile isSpaceOrReturn

inductive FrontMatterKey where
  | name
  | title
  deriving DecidableEq

def FrontMatterKey.text : FrontMatterKey → ByteText
  | .name => .ofString "name:"
  | .title => .ofString "title:"

def keys : List FrontMatterKey := [.name, .title]

def unquote (value : ByteText) : ByteText :=
  if value ≠ [] ∧ value.head? = some 34 ∧ value.getLast? = some 34 ∧ 2 ≤ value.length then value.tail.dropLast else value

def fieldValue (key : FrontMatterKey) (line : ByteText) : ByteText :=
  unquote (((line.drop key.text.length).dropWhile isBlank).rdropWhile isBlankOrReturn)

/-! ## The scan -/

structure FrontMatterFields where
  fromName : ByteText := []
  fromTitle : ByteText := []

def FrontMatterFields.set (fields : FrontMatterFields) (key : FrontMatterKey) (value : ByteText) : FrontMatterFields :=
  match key with
  | .name => { fields with fromName := value }
  | .title => { fields with fromTitle := value }

def FrontMatterFields.readKey (line : ByteText) (fields : FrontMatterFields) (key : FrontMatterKey) : FrontMatterFields :=
  if key.text.isPrefixOf line then fields.set key (fieldValue key line) else fields

def FrontMatterFields.readLine (fields : FrontMatterFields) (line : ByteText) : FrontMatterFields :=
  keys.foldl (FrontMatterFields.readKey line) fields

/-- What is returned if no heading has been found. -/
def FrontMatterFields.title (fields : FrontMatterFields) : ByteText :=
  if fields.fromTitle ≠ [] then fields.fromTitle
  else if fields.fromName ≠ [] then fields.fromName
  else []

structure TitleScan where
  lineNo : Nat := 0
  inFrontMatter : Bool := false
  fields : FrontMatterFields := {}

/-- The body of the loop. -/
def TitleScan.readLine (scan : TitleScan) (line : ByteText) : Loops.Turn TitleScan ByteText :=
  let lineNo := scan.lineNo + 1
  if lineNo = 1 ∧ line = fence then .again { scan with lineNo, inFrontMatter := true }
  else if scan.inFrontMatter then
    if line = fence then .again { scan with lineNo, inFrontMatter := false }
    else .again { scan with lineNo, fields := scan.fields.readLine line }
  else if isHeading line then .leave (headingText line)
  else .again { scan with lineNo }

def TitleScan.loop (scan : TitleScan) : List ByteText → ByteText
  | [] => scan.fields.title
  | line :: lines =>
    if scan.lineNo < 60 then
      match scan.readLine line with
      | .again next => next.loop lines
      | .leave title => title
    else scan.fields.title

/-- A file that cannot be opened has no content. -/
def extractSkillTitle (content : Option ByteText) : ByteText :=
  match content with
  | none => []
  | some content => TitleScan.loop {} (readLines content)

/-! ## Where a title stands -/

/-- The lines between a fence that is the first line and the next fence. -/
def frontMatter : List ByteText → List ByteText
  | [] => []
  | first :: lines => if first = fence then lines.takeWhile (· ≠ fence) else []

/-- What is behind the front matter. -/
def bodyLines : List ByteText → List ByteText
  | [] => []
  | first :: lines => if first = fence then (lines.dropWhile (· ≠ fence)).tail else first :: lines

/-- The last line with the key. -/
def keyLine (key : FrontMatterKey) (lines : List ByteText) : Option ByteText :=
  lastOf (fun line => key.text.isPrefixOf line) true lines

def keyValue (key : FrontMatterKey) (lines : List ByteText) : ByteText := ((keyLine key lines).map (fieldValue key)).getD []

/-- The title of a file that begins with these lines. -/
def titleOf (lines : List ByteText) : ByteText :=
  match (bodyLines lines).find? isHeading with
  | some heading => headingText heading
  | none =>
    if keyValue .title (frontMatter lines) ≠ [] then keyValue .title (frontMatter lines)
    else keyValue .name (frontMatter lines)

/-- The line from which the title is taken. -/
def titleLine (lines : List ByteText) : Option ByteText :=
  match (bodyLines lines).find? isHeading with
  | some heading => some heading
  | none =>
    if keyValue .title (frontMatter lines) ≠ [] then keyLine .title (frontMatter lines)
    else keyLine .name (frontMatter lines)

variable {lines : List ByteText} {line : ByteText}

/-! ## Front matter -/

theorem fields_readLine (fields : FrontMatterFields) (line : ByteText) :
    fields.readLine line =
      { fromName := if FrontMatterKey.text .name <+: line then fieldValue .name line else fields.fromName
        fromTitle := if FrontMatterKey.text .title <+: line then fieldValue .title line else fields.fromTitle } := by
  simp only [FrontMatterFields.readLine, keys, List.foldl_cons, List.foldl_nil, FrontMatterFields.readKey,
    List.isPrefixOf_iff_prefix]
  split_ifs <;> rfl

theorem keyValue_concat (key : FrontMatterKey) (lines : List ByteText) (line : ByteText) :
    keyValue key (lines ++ [line]) = if key.text <+: line then fieldValue key line else keyValue key lines := by
  rw [keyValue, keyLine]
  split
  · rename_i starts
    have isLast : lastOf (fun line => key.text.isPrefixOf line) (key.text.isPrefixOf line) (lines ++ [line]) = some line :=
      lastOf_concat_self
    rw [List.isPrefixOf_iff_prefix.mpr starts] at isLast
    rw [isLast]
    rfl
  · rename_i starts
    rw [lastOf_concat_other (by rwa [Ne, List.isPrefixOf_iff_prefix])]
    rfl

theorem fields_foldl (lines : List ByteText) :
    lines.foldl FrontMatterFields.readLine {} = ⟨keyValue .name lines, keyValue .title lines⟩ := by
  induction lines using List.reverseRecOn with
  | nil => rfl
  | append_singleton lines line inductionHypothesis =>
    rw [List.foldl_concat, inductionHypothesis, fields_readLine, keyValue_concat, keyValue_concat]

/-! ## The loop -/

/-- The loop without its bound on the lines. -/
def TitleScan.loopAll (scan : TitleScan) : List ByteText → ByteText
  | [] => scan.fields.title
  | line :: lines =>
    match scan.readLine line with
    | .again next => next.loopAll lines
    | .leave title => title

theorem lineNo_readLine {scan next : TitleScan} (again : scan.readLine line = .again next) :
    next.lineNo = scan.lineNo + 1 := by
  simp only [TitleScan.readLine] at again
  split_ifs at again <;>
  · cases again
    rfl

theorem loop_eq_take (scan : TitleScan) (lines : List ByteText) :
    scan.loop lines = scan.loopAll (lines.take (60 - scan.lineNo)) := by
  induction lines generalizing scan with
  | nil =>
    rw [List.take_nil]
    rfl
  | cons line lines inductionHypothesis =>
    rw [TitleScan.loop]
    split
    · rename_i more
      obtain ⟨count, isCount⟩ : ∃ count, 60 - scan.lineNo = count + 1 := ⟨59 - scan.lineNo, by omega⟩
      rw [isCount, List.take_succ_cons, TitleScan.loopAll]
      cases read : scan.readLine line with
      | again next =>
        have left : 60 - next.lineNo = count := by
          have counted := lineNo_readLine read
          omega
        simp only [inductionHypothesis next, left]
      | leave title => rfl
    · rename_i enough
      have noMore : 60 - scan.lineNo = 0 := by omega
      rw [noMore, List.take_zero, TitleScan.loopAll]

variable {scan : TitleScan}

/-- Outside of front matter the first heading ends the loop. -/
theorem loopAll_body (notOpened : scan.lineNo = 0 → lines.head? ≠ some fence) (outside : scan.inFrontMatter = false) :
    scan.loopAll lines = match lines.find? isHeading with
      | some heading => headingText heading
      | none => scan.fields.title := by
  induction lines generalizing scan with
  | nil => rfl
  | cons line lines inductionHypothesis =>
    have notFence : ¬ (scan.lineNo + 1 = 1 ∧ line = fence) := by
      intro ⟨isFirst, isFence⟩
      exact notOpened (by omega) (congrArg some isFence)
    have inside : ¬ scan.inFrontMatter = true := by simp [outside]
    by_cases heading : isHeading line = true
    · have leaves : scan.readLine line = .leave (headingText line) := by
        rw [TitleScan.readLine, if_neg notFence, if_neg inside, if_pos heading]
      rw [TitleScan.loopAll, leaves, List.find?_cons_of_pos heading]
    · have goesOn : scan.readLine line = .again { scan with lineNo := scan.lineNo + 1 } := by
        rw [TitleScan.readLine, if_neg notFence, if_neg inside, if_neg heading]
      rw [TitleScan.loopAll, goesOn, List.find?_cons_of_neg heading]
      exact inductionHypothesis (fun isZero => absurd isZero (Nat.succ_ne_zero _)) outside

/-- Inside, the fields are read up to the next fence. -/
theorem loopAll_frontMatter (begun : 1 ≤ scan.lineNo) (inside : scan.inFrontMatter = true) (lines : List ByteText) :
    scan.loopAll lines = match (lines.dropWhile (· ≠ fence)).tail.find? isHeading with
      | some heading => headingText heading
      | none => ((lines.takeWhile (· ≠ fence)).foldl FrontMatterFields.readLine scan.fields).title := by
  induction lines generalizing scan with
  | nil => rfl
  | cons line lines inductionHypothesis =>
    have notFirst : ¬ (scan.lineNo + 1 = 1 ∧ line = fence) := by omega
    by_cases closes : line = fence
    · have goesOn : scan.readLine line = .again { scan with lineNo := scan.lineNo + 1, inFrontMatter := false } := by
        rw [TitleScan.readLine, if_neg notFirst, if_pos inside, if_pos closes]
      rw [TitleScan.loopAll, goesOn, List.dropWhile_cons_of_neg (by simpa using closes),
        List.takeWhile_cons_of_neg (by simpa using closes)]
      exact loopAll_body (fun isZero => absurd isZero (Nat.succ_ne_zero _)) rfl
    · have goesOn : scan.readLine line =
          .again { scan with lineNo := scan.lineNo + 1, fields := scan.fields.readLine line } := by
        rw [TitleScan.readLine, if_neg notFirst, if_pos inside, if_neg closes]
      rw [TitleScan.loopAll, goesOn, List.dropWhile_cons_of_pos (by simpa using closes),
        List.takeWhile_cons_of_pos (by simpa using closes), List.foldl_cons]
      exact inductionHypothesis (Nat.le_add_left 1 _) inside

theorem title_foldl (lines : List ByteText) :
    (lines.foldl FrontMatterFields.readLine {}).title =
      if keyValue .title lines ≠ [] then keyValue .title lines else keyValue .name lines := by
  rw [fields_foldl, FrontMatterFields.title]
  dsimp only
  split
  · rfl
  · split
    · rfl
    · rename_i noName
      exact (not_not.mp noName).symm

theorem loopAll_eq_titleOf (lines : List ByteText) : TitleScan.loopAll {} lines = titleOf lines := by
  cases lines with
  | nil => rfl
  | cons first lines =>
    by_cases opens : first = fence
    · have goesOn : TitleScan.readLine {} first = .again { lineNo := 1, inFrontMatter := true } := by
        rw [TitleScan.readLine, if_pos ⟨rfl, opens⟩]
      rw [TitleScan.loopAll, goesOn, titleOf, bodyLines, frontMatter, if_pos opens, if_pos opens, ← title_foldl]
      exact loopAll_frontMatter (Nat.le_refl 1) rfl lines
    · rw [titleOf, bodyLines, frontMatter, if_neg opens, if_neg opens]
      exact loopAll_body (fun _ isFence => opens (Option.some.inj isFence)) rfl

/-- The loop finds the title of the first sixty lines. -/
theorem extractSkillTitle_eq (content : ByteText) :
    extractSkillTitle (some content) = titleOf ((readLines content).take 60) := by
  rw [extractSkillTitle, loop_eq_take, loopAll_eq_titleOf, Nat.sub_zero]

/-! ## Titles that are UTF-8 -/

theorem isUtf8_unquote (value : ByteText) : (unquote value).IsUtf8 ↔ value.IsUtf8 := by
  rw [unquote]
  split
  · rename_i quoted
    obtain ⟨_, opens, closes, long⟩ := quoted
    cases value with
    | nil => cases opens
    | cons first rest =>
      rw [List.head?_cons, Option.some.injEq] at opens
      cases rest using List.reverseRecOn with
      | nil => simp at long
      | append_singleton inner last =>
        rw [← List.cons_append, List.getLast?_concat, Option.some.injEq] at closes
        rw [opens, closes, List.tail_cons, List.dropLast_concat, ByteText.isUtf8_cons (by decide),
          ByteText.isUtf8_concat (by decide)]
  · exact Iff.rfl

theorem isUtf8_fieldValue {key : FrontMatterKey} (starts : key.text <+: line) :
    (fieldValue key line).IsUtf8 ↔ line.IsUtf8 := by
  obtain ⟨value, rfl⟩ := starts
  have keyIsUtf8 : key.text.IsUtf8 := by
    cases key <;> exact ByteText.isUtf8_ofString _
  have blanks (byte : UInt8) (blank : isBlank byte = true) : byte < 128 := by
    simp only [isBlank, Bool.or_eq_true, decide_eq_true_eq] at blank
    obtain rfl | rfl := blank <;> decide
  have ends (byte : UInt8) (isEnd : isBlankOrReturn byte = true) : byte < 128 := by
    simp only [isBlankOrReturn, Bool.or_eq_true, decide_eq_true_eq] at isEnd
    obtain (rfl | rfl) | rfl := isEnd <;> decide
  rw [fieldValue, isUtf8_unquote, List.drop_left, ByteText.isUtf8_rdropWhile ends, ByteText.isUtf8_dropWhile blanks,
    keyIsUtf8.append_iff]

theorem isUtf8_headingText (heading : isHeading line = true) : (headingText line).IsUtf8 ↔ line.IsUtf8 := by
  obtain ⟨title, rfl⟩ := List.isPrefixOf_iff_prefix.mp heading
  have ends (byte : UInt8) (isEnd : isSpaceOrReturn byte = true) : byte < 128 := by
    simp only [isSpaceOrReturn, Bool.or_eq_true, decide_eq_true_eq] at isEnd
    obtain rfl | rfl := isEnd <;> decide
  have mark : headingMark.IsUtf8 := ByteText.isUtf8_ofString "# "
  rw [headingText, List.drop_left, ByteText.isUtf8_rdropWhile ends, mark.append_iff]

theorem isUtf8_keyValue (key : FrontMatterKey) (lines : List ByteText) :
    (keyValue key lines).IsUtf8 ↔ ∀ line ∈ keyLine key lines, line.IsUtf8 := by
  rw [keyValue]
  cases isLast : keyLine key lines with
  | none => simp [ByteText.isUtf8_nil]
  | some line =>
    have starts : key.text <+: line := List.isPrefixOf_iff_prefix.mp (mem_of_lastOf isLast).2
    simp [isUtf8_fieldValue starts]

theorem titleOf_isUtf8 (lines : List ByteText) : (titleOf lines).IsUtf8 ↔ ∀ line ∈ titleLine lines, line.IsUtf8 := by
  rw [titleOf, titleLine]
  cases found : (bodyLines lines).find? isHeading with
  | some heading => simp [isUtf8_headingText (List.find?_some found)]
  | none =>
    dsimp only
    split <;> exact isUtf8_keyValue _ _

theorem extractSkillTitle_isUtf8 (content : ByteText) :
    (extractSkillTitle (some content)).IsUtf8 ↔ ∀ line ∈ titleLine ((readLines content).take 60), line.IsUtf8 := by
  rw [extractSkillTitle_eq, titleOf_isUtf8]

/-- The first heading of the first sixty lines behind the front matter gives the title, whatever the front matter says,
and only that line has to be UTF-8. -/
theorem title_of_first_lines (content : ByteText) :
    extractSkillTitle (some content) = titleOf ((readLines content).take 60) ∧
      ((extractSkillTitle (some content)).IsUtf8 ↔
        ∀ line ∈ titleLine ((readLines content).take 60), line.IsUtf8) :=
  ⟨extractSkillTitle_eq content, extractSkillTitle_isUtf8 content⟩

/-- A heading goes before the title of the front matter. -/
example : extractSkillTitle (some (.ofString "---\ntitle: \"Front\"\n---\n# Heading \r\n")) = .ofString "Heading" := by
  decide

/-! ## The listing -/

structure SkillEntry where
  package : ByteText
  version : ByteText
  filename : ByteText
  sizeBytes : Nat
  title : ByteText

/-- What a recursive iterator comes upon below the directory of a version. -/
structure ListedFile where
  /-- Relative to the directory of the version. -/
  path : ByteText
  isRegularFile : Bool
  size : Nat
  content : Option ByteText

/-- What is listed in a directory, and there if it is a directory itself. -/
structure Listed (Inner : Type) where
  name : ByteText
  inside : Option (List Inner)

/-- What is below `skills/_packages`, in the order in which the file system lists it, if there is the directory. -/
abbrev MirroredSkills := Option (List (Listed (Listed ListedFile)))

def skillEntry (package version : ByteText) (file : ListedFile) : SkillEntry :=
  ⟨package, version, file.path, file.size, extractSkillTitle file.content⟩

def listAllSkills : MirroredSkills → List SkillEntry
  | none => []
  | some packages =>
    packages.flatMap fun package =>
      match package.inside with
      | none => []
      | some versions =>
        versions.flatMap fun version =>
          match version.inside with
          | none => []
          | some files => (files.filter ListedFile.isRegularFile).map (skillEntry package.name version.name)

/-- The regular file is below the directory of the version of the package. -/
def IsMirrored (root : MirroredSkills) (package version : ByteText) (file : ListedFile) : Prop :=
  ∃ packages versions files, root = some packages ∧ ⟨package, some versions⟩ ∈ packages ∧
    ⟨version, some files⟩ ∈ versions ∧ file ∈ files ∧ file.isRegularFile = true

theorem mem_listAllSkills {root : MirroredSkills} {entry : SkillEntry} :
    entry ∈ listAllSkills root ↔
      ∃ package version file, IsMirrored root package version file ∧ entry = skillEntry package version file := by
  constructor
  · intro member
    cases root with
    | none => cases member
    | some packages =>
      obtain ⟨⟨package, inPackage⟩, isPackage, member⟩ := List.mem_flatMap.mp member
      cases inPackage with
      | none => cases member
      | some versions =>
        obtain ⟨⟨version, inVersion⟩, isVersion, member⟩ := List.mem_flatMap.mp member
        cases inVersion with
        | none => cases member
        | some files =>
          obtain ⟨file, isFile, rfl⟩ := List.mem_map.mp member
          rw [List.mem_filter] at isFile
          exact ⟨package, version, file, ⟨packages, versions, files, rfl, isPackage, isVersion, isFile⟩, rfl⟩
  · intro mirrored
    obtain ⟨package, version, file, ⟨packages, versions, files, rfl, isPackage, isVersion, isFile⟩, rfl⟩ := mirrored
    apply List.mem_flatMap.mpr
    refine ⟨_, isPackage, ?_⟩
    apply List.mem_flatMap.mpr
    refine ⟨_, isVersion, ?_⟩
    exact List.mem_map_of_mem (List.mem_filter.mpr isFile)

end AbilityFramework.ResourceMgr.Skills
