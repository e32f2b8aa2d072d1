import AbilityFramework.Library.ByteText
import AbilityFramework.Library.Pieces

/-! # The FTP client of the store

`list_files` hands each chunk that libcurl delivers to `seperated`, which drops the first byte of a chunk without a line
break, and nothing is carried over from one chunk to the next.  So the listing is that of the whole text exactly if the
chunks are split at line breaks (`listFiles_iff`). -/

namespace AbilityFramework.ResourceMgr

open Library

/-- The loop of `seperated`; `current` is what lies between `from` and `until`. -/
def seperatedFrom (sep : UInt8) (current : ByteText) : ByteText → List ByteText
  | [] => if current.length > 1 then [current.tail] else []
  | byte :: rest =>
    if byte = sep then
      -- `*from` is the byte itself where nothing lies between.
      (if (current ++ [byte]).head? ≠ some sep then [current]
      else if current.length > 1 then [current.tail]
      else []) ++ seperatedFrom sep [byte] rest
    else seperatedFrom sep (current ++ [byte]) rest

def seperated (sv : ByteText) (sep : UInt8) : List ByteText := if sv = [] then [] else seperatedFrom sep [] sv

def slash : UInt8 := 47

def pathJoin (base deriv : ByteText) : ByteText :=
  if base.getLast? ≠ some slash then base ++ slash :: deriv else base ++ deriv

structure FtpClient where
  baseUrl : ByteText := []
  username : ByteText := []
  password : ByteText := []

/-- What libcurl is told. -/
structure Transfer where
  url : ByteText
  usrpwd : Option ByteText
  listOnly : Bool

/-- A transfer fails, or delivers the bytes of the server in chunks. -/
abbrev Curl := Transfer → Except String (List ByteText)

namespace FtpClient

variable (curl : Curl) (client : FtpClient)

def usrpwd : Option ByteText :=
  if client.password = [] then none else some (client.username ++ .ofString ":" ++ client.password)

def listing (dir : ByteText) : Transfer :=
  let ftpUrl := pathJoin client.baseUrl dir
  { url := if ftpUrl.getLast? = some slash then ftpUrl else ftpUrl ++ [slash]
    usrpwd := client.usrpwd
    listOnly := true }

def newline : UInt8 := 10

/-- The write function of `list_files`. -/
def receiveNames (out : List ByteText) (data : ByteText) : List ByteText :=
  out ++ (seperated data newline).filter (· ≠ [])

def listFiles (dir : ByteText) : Except String (List ByteText) :=
  match curl (client.listing dir) with
  | .error message => .error ("curl perform failed: " ++ message)
  | .ok chunks => .ok (chunks.foldl receiveNames [])

def downloadFile (filePath : ByteText) : Except String ByteText :=
  match curl { url := pathJoin client.baseUrl filePath, usrpwd := client.usrpwd, listOnly := false } with
  | .error message => .error ("curl perform failed: " ++ message)
  | .ok chunks => .ok chunks.flatten

end FtpClient

/-! ## Lines of a chunk -/

section Chunks

variable {sep : UInt8}

/-- Behind the first separator. -/
theorem seperatedFrom_sep {word : ByteText} (lacks : sep ∉ word) (rest : ByteText) :
    seperatedFrom sep (sep :: word) rest = pieces sep (word ++ rest) := by
  induction rest generalizing word with
  | nil =>
    rw [seperatedFrom, List.append_nil, pieces_of_notMem sep lacks]
    cases word <;> simp
  | cons byte rest inductionHypothesis =>
    rw [seperatedFrom]
    by_cases isSep : byte = sep
    · have next := @inductionHypothesis [] List.not_mem_nil
      rw [if_pos isSep, isSep, next, pieces_append_cons, pieces_of_notMem sep lacks]
      cases word <;> simp
    · have stillLacks : sep ∉ word ++ [byte] := by simp [lacks, Ne.symm isSep]
      rw [if_neg isSep, List.cons_append, inductionHypothesis stillLacks, List.append_assoc, List.singleton_append]

theorem seperatedFrom_mem {current : ByteText} (lacks : sep ∉ current) {rest : ByteText} (has : sep ∈ rest) :
    seperatedFrom sep current rest = pieces sep (current ++ rest) := by
  induction rest generalizing current with
  | nil => cases has
  | cons byte rest inductionHypothesis =>
    rw [seperatedFrom]
    by_cases isSep : byte = sep
    · have next := @seperatedFrom_sep sep [] List.not_mem_nil rest
      rw [if_pos isSep, isSep, next, pieces_append_cons, pieces_of_notMem sep lacks]
      cases current with
      | nil => simp
      | cons first current =>
        have isOther : first ≠ sep := fun same => lacks (by simp [same])
        simp [isOther]
    · have stillLacks : sep ∉ current ++ [byte] := by simp [lacks, Ne.symm isSep]
      have stillHas : sep ∈ rest := (List.mem_cons.mp has).resolve_left (Ne.symm isSep)
      rw [if_neg isSep, inductionHypothesis stillLacks stillHas, List.append_assoc, List.singleton_append]

theorem seperatedFrom_notMem (current : ByteText) {rest : ByteText} (lacks : sep ∉ rest) :
    seperatedFrom sep current rest = if (current ++ rest).length > 1 then [(current ++ rest).tail] else [] := by
  induction rest generalizing current with
  | nil => rw [seperatedFrom, List.append_nil]
  | cons byte rest inductionHypothesis =>
    rw [List.mem_cons, not_or] at lacks
    rw [seperatedFrom, if_neg (Ne.symm lacks.1), inductionHypothesis _ lacks.2, List.append_assoc,
      List.singleton_append]

theorem seperated_of_mem {chunk : ByteText} (has : sep ∈ chunk) : seperated chunk sep = pieces sep chunk := by
  rw [seperated, if_neg (List.ne_nil_of_mem has), seperatedFrom_mem List.not_mem_nil has, List.nil_append]

/-- A chunk without a separator loses its first byte. -/
theorem seperated_of_notMem {chunk : ByteText} (lacks : sep ∉ chunk) :
    seperated chunk sep = if chunk.length > 1 then [chunk.tail] else [] := by
  rw [seperated]
  split
  · rename_i empty
    simp [empty]
  · exact seperatedFrom_notMem [] lacks

/-- The bytes of the names from a chunk are those of its lines, or one less. -/
theorem length_seperated {chunk : ByteText} (nonempty : chunk ≠ []) : (seperated chunk sep).flatten.length +
    (if sep ∈ chunk then 0 else 1) = (pieces sep chunk).flatten.length := by
  by_cases has : sep ∈ chunk
  · rw [seperated_of_mem has, if_pos has, Nat.add_zero]
  · rw [seperated_of_notMem has, if_neg has, pieces_of_notMem sep has, if_neg nonempty]
    cases chunk with
    | nil => exact absurd rfl nonempty
    | cons first rest => cases rest <;> simp

theorem seperated_ne_nil {chunk name : ByteText} (yielded : name ∈ seperated chunk sep) : name ≠ [] := by
  by_cases has : sep ∈ chunk
  · rw [seperated_of_mem has] at yielded
    exact ne_nil_of_mem_pieces sep yielded
  · rw [seperated_of_notMem has] at yielded
    split at yielded
    · rename_i long
      rw [List.mem_singleton.mp yielded, ← List.length_pos_iff, List.length_tail]
      omega
    · cases yielded

end Chunks

/-! ## Listings -/

namespace FtpClient

/-- Each chunk has a line break, and a line break is at the end of one chunk or at the start of the next. -/
def SplitAtLines (chunks : List ByteText) : Prop :=
  (∀ chunk ∈ chunks, chunk ≠ [] → newline ∈ chunk) ∧
    (chunks.filter (· ≠ [])).IsChain fun first second => parted newline first second = true

instance (chunks : List ByteText) : Decidable (SplitAtLines chunks) := inferInstanceAs (Decidable (_ ∧ _))

theorem foldl_receiveNames (out : List ByteText) (chunks : List ByteText) :
    chunks.foldl receiveNames out = out ++ (chunks.filter (· ≠ [])).flatMap (seperated · newline) := by
  induction chunks generalizing out with
  | nil => simp
  | cons chunk chunks inductionHypothesis =>
    have allNames : (seperated chunk newline).filter (· ≠ []) = seperated chunk newline :=
      List.filter_eq_self.mpr fun name yielded => decide_eq_true (seperated_ne_nil yielded)
    rw [List.foldl_cons, inductionHypothesis, receiveNames, allNames, List.append_assoc]
    by_cases empty : chunk = []
    · simp [empty, seperated]
    · simp [empty]

/-- Each chunk without a line break costs one byte. -/
theorem length_flatMap_seperated {chunks : List ByteText} (nonempty : ∀ chunk ∈ chunks, chunk ≠ []) :
    (chunks.flatMap (seperated · newline)).flatten.length + (chunks.filter (newline ∉ ·)).length =
      (pieces newline chunks.flatten).flatten.length := by
  induction chunks with
  | nil => simp
  | cons chunk chunks inductionHypothesis =>
    have rest := inductionHypothesis fun chunk member => nonempty chunk (List.mem_cons_of_mem _ member)
    have first := @length_seperated newline chunk (nonempty chunk List.mem_cons_self)
    rw [flatten_pieces] at first rest ⊢
    rw [List.flatMap_cons, List.flatten_append, List.length_append, List.flatten_cons, List.filter_append,
      List.length_append, ← first, ← rest, List.filter_cons]
    by_cases has : newline ∈ chunk
    · simp [has]
      omega
    · simp [has]
      omega

/-- The names are the non-empty lines of what the server sends if and only if it comes in split at lines. -/
theorem listFiles_iff (curl : Curl) (client : FtpClient) (dir : ByteText) {chunks : List ByteText}
    (delivered : curl (client.listing dir) = .ok chunks) :
    client.listFiles curl dir = .ok (pieces newline chunks.flatten) ↔ SplitAtLines chunks := by
  have nonempty : ∀ chunk ∈ chunks.filter (· ≠ []), chunk ≠ [] := fun chunk member =>
    of_decide_eq_true (List.mem_filter.mp member).2
  have whole : (chunks.filter (· ≠ [])).flatten = chunks.flatten := List.flatten_filter_ne_nil
  have mem_filter (chunk : ByteText) : chunk ∈ chunks.filter (· ≠ []) ↔ chunk ∈ chunks ∧ chunk ≠ [] := by simp
  rw [listFiles, delivered]
  simp only [foldl_receiveNames, List.nil_append, Except.ok.injEq]
  rw [← whole, SplitAtLines, ← flatMap_pieces_eq_iff newline nonempty]
  have lines (allHave : ∀ chunk ∈ chunks, chunk ≠ [] → newline ∈ chunk) :
      (chunks.filter (· ≠ [])).flatMap (seperated · newline) = (chunks.filter (· ≠ [])).flatMap (pieces newline) := by
    refine List.flatMap_congr fun chunk member => seperated_of_mem ?_
    exact allHave chunk ((mem_filter chunk).mp member).1 ((mem_filter chunk).mp member).2
  constructor
  · intro same
    -- Every chunk without a line break would leave a byte missing.
    have counted := length_flatMap_seperated nonempty
    rw [same, Nat.add_eq_left, List.length_eq_zero_iff, List.filter_eq_nil_iff] at counted
    have allHave : ∀ chunk ∈ chunks, chunk ≠ [] → newline ∈ chunk := fun chunk member some => by
      simpa using counted chunk ((mem_filter chunk).mpr ⟨member, some⟩)
    exact ⟨allHave, (lines allHave).symm.trans same⟩
  · rintro ⟨allHave, same⟩
    exact (lines allHave).trans same

/-- Two chunks that end with lines. -/
def wholeLines : List ByteText := [.ofString "1.0.zip\n", .ofString "1.1.zip\n"]

theorem wholeLines_listed : FtpClient.listFiles (fun _ => .ok wholeLines) {} [] =
    .ok (pieces newline wholeLines.flatten) :=
  (listFiles_iff (fun _ => .ok wholeLines) {} [] rfl).mpr (by decide)

/-- The same bytes with the second line on both. -/
def cutLine : List ByteText := [.ofString "1.0.zip\n1.1", .ofString ".zip\n"]

theorem cutLine_misread :
    ¬ FtpClient.listFiles (fun _ => .ok cutLine) {} [] = .ok (pieces newline cutLine.flatten) := by
  decide

end FtpClient

end AbilityFramework.ResourceMgr
