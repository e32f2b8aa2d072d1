import AbilityFramework.Library.LastOf
import AbilityFramework.Library.Sqlite
import AbilityFramework.TaskMgr.Task
import AbilityFramework.Uuid

/-! # The store of task statuses

`TaskStatusManager` keeps the statuses that it is sent in a table of a SQLite database, with a task and a second as
the key.  `get` asks for the newest row of a task.  `query` asks for the newest rows of all tasks, and reads the first
one of them.

`statusStore_iff`: for every history, what the two return is right exactly if no more than one row is to be returned,
and no text that `get` returns has a NUL character. -/

namespace AbilityFramework.TaskMgr

open Library Library.Runs

inductive ExecutorType where
  | unknown
  | ability
  | controller
  | framework
  deriving DecidableEq

/-- The payload is JSON, which the store knows only by its text. -/
structure TaskStatus (Payload : Type) where
  id : Uuid
  executorId : Uuid
  executorType : ExecutorType
  state : TaskState
  /-- Empty until the task has begun. -/
  startTime : String
  /-- Empty until the task has ended. -/
  endTime : String
  /-- In seconds. -/
  timeout : Int
  payload : Payload
  message : String

/-- The libraries for ids and JSON texts, which have no NUL characters. -/
structure StatusTexts (Payload : Type) where
  idText : Uuid → String
  readId : String → Option Uuid
  readId_idText : ∀ id, readId (idText id) = some id
  nul_not_mem_idText : ∀ id, Char.ofNat 0 ∉ (idText id).toList
  dump : Payload → String
  parse : String → Option Payload
  parse_dump : ∀ payload, parse (dump payload) = some payload
  nul_not_mem_dump : ∀ payload, Char.ofNat 0 ∉ (dump payload).toList

/-! ## Rows -/

/-- A text as it is bound by `sqlite3_bind_text(…, c_str(), -1, …)`. -/
def cString (text : String) : String := String.ofList (text.toList.takeWhile fun char => char ≠ Char.ofNat 0)

def ExecutorType.toString : ExecutorType → String
  | .ability => "ability"
  | .controller => "controller"
  | .framework => "framework"
  | .unknown => "unknown"

def executorTypeFromString (text : String) : ExecutorType :=
  if text = "ability" then .ability
  else if text = "controller" then .controller
  else if text = "framework" then .framework
  else .unknown

def TaskState.toString : TaskState → String
  | .unstarted => "unstarted"
  | .running => "running"
  | .pending => "pending"
  | .fine => "fine"
  | .finished => "finished"
  | .error => "error"
  | .cancelled => "cancelled"

def taskStateFromString (text : String) : Except String TaskState :=
  if text = "unstarted" then .ok .unstarted
  else if text = "running" then .ok .running
  else if text = "pending" then .ok .pending
  else if text = "fine" then .ok .fine
  else if text = "finished" then .ok .finished
  else if text = "error" then .ok .error
  else if text = "cancelled" then .ok .cancelled
  else .error ("invalid task state str: " ++ text)

structure StatusRow where
  id : String
  executorId : String
  executorType : String
  state : String
  startTime : Option String
  endTime : Option String
  /-- `datetime('now')`, in seconds -/
  inputTime : Nat
  timeout : Int
  payload : String
  message : String
  deriving DecidableEq

def StatusRow.key (row : StatusRow) : String × Nat := (row.id, row.inputTime)

abbrev TaskStatusTable := Relation StatusRow.key

variable {Payload : Type} (texts : StatusTexts Payload)

def bindUnlessEmpty (text : String) : Option String := if text = "" then none else some (cString text)

/-- The row that `insert` writes. -/
def statusRow (now : Nat) (status : TaskStatus Payload) : StatusRow where
  id := cString (texts.idText status.id)
  executorId := cString (texts.idText status.executorId)
  executorType := cString status.executorType.toString
  state := cString status.state.toString
  startTime := bindUnlessEmpty status.startTime
  endTime := bindUnlessEmpty status.endTime
  inputTime := now
  timeout := status.timeout
  payload := cString (texts.dump status.payload)
  message := cString status.message

def parseId (text message : String) : Except String Uuid :=
  match texts.readId text with
  | none => .error ("invalid " ++ message ++ " " ++ text)
  | some id => .ok id

/-- `from_db_row_except_id` -/
def fromDbRowExceptId (id : Uuid) (row : StatusRow) : Except String (TaskStatus Payload) :=
  match parseId texts row.executorId "executor_id", taskStateFromString row.state, texts.parse row.payload with
  | .error error, _, _ => .error error
  | _, .error error, _ => .error error
  | _, _, none => .error "[json.exception.parse_error]"
  | .ok executorId, .ok state, some payload => .ok {
      id, executorId, state, payload
      executorType := executorTypeFromString row.executorType
      startTime := row.startTime.getD ""
      endTime := row.endTime.getD ""
      timeout := row.timeout
      message := row.message }

def fromDbRow (row : StatusRow) : Except String (TaskStatus Payload) :=
  match parseId texts row.id "id" with
  | .error error => .error error
  | .ok id => fromDbRowExceptId texts id row

/-! ## The store -/

/-- A call of `push_back`, with the clock of the database. -/
structure Push (Payload : Type) where
  now : Nat
  status : TaskStatus Payload

/-- `REPLACE INTO TaskStatus` -/
def pushBack (table : TaskStatusTable) (push : Push Payload) : TaskStatusTable :=
  table.replaceInto (statusRow texts push.now push.status)

/-- `ORDER BY input_time DESC`; the order of rows of the same second is up to the database. -/
structure OrderByInputTimeDesc where
  sort : List StatusRow → List StatusRow
  perm : ∀ rows, (sort rows).Perm rows
  newestFirst : ∀ rows, (sort rows).Pairwise fun earlier later => later.inputTime ≤ earlier.inputTime

variable (order : OrderByInputTimeDesc)

def queryTaskStatus (table : TaskStatusTable) (id : Uuid) : Except String (Option (TaskStatus Payload)) :=
  match ((order.sort (table.select fun row => row.id = cString (texts.idText id))).take 1).head? with
  | none => .ok none
  | some row => (fromDbRowExceptId texts id row).map some

/-- Only one row of the result is stepped to. -/
def rangeQuery (table : TaskStatusTable) (limit : Nat) : Except String (List (TaskStatus Payload)) :=
  match ((order.sort table.rows).take limit).head? with
  | none => .ok []
  | some row => (fromDbRow texts row).map fun status => [status]

def store (history : List (Push Payload)) : TaskStatusTable := run (pushBack texts) ∅ history

/-! ## What the store is for -/

def lastPushed (id : Uuid) (history : List (Push Payload)) : Option (TaskStatus Payload) :=
  (lastOf (fun push : Push Payload => push.status.id) id history).map Push.status

/-- The result of a query with this limit. -/
def ReturnsMostRecent (table : TaskStatusTable) (limit : Nat) (result : Except String (List (TaskStatus Payload))) :
    Prop :=
  ∃ rows statuses, result = .ok statuses ∧
    List.Forall₂ (fun row status => fromDbRow texts row = .ok status) rows statuses ∧
    rows.Nodup ∧ (∀ row ∈ rows, row ∈ table) ∧ rows.length = min limit table.rows.length ∧
    (rows.Pairwise fun earlier later => later.inputTime ≤ earlier.inputTime) ∧
    ∀ row ∈ table, row ∉ rows → ∀ other ∈ rows, row.inputTime ≤ other.inputTime

/-- None of the texts that are stored as they are has a NUL character. -/
def TaskStatus.NoNul (status : TaskStatus Payload) : Prop :=
  Char.ofNat 0 ∉ status.startTime.toList ∧ Char.ofNat 0 ∉ status.endTime.toList ∧ Char.ofNat 0 ∉ status.message.toList

variable {texts order} {status : TaskStatus Payload} {history : List (Push Payload)}

/-! ## Reading a row back -/

theorem cString_eq_self {text : String} : cString text = text ↔ Char.ofNat 0 ∉ text.toList := Sqlite.cText_eq_self

theorem executorType_readsBack (type : ExecutorType) : executorTypeFromString (cString type.toString) = type := by
  cases type <;> rfl

theorem taskState_readsBack (state : TaskState) : taskStateFromString (cString state.toString) = .ok state := by
  cases state <;> rfl

theorem getD_bindUnlessEmpty (text : String) : (bindUnlessEmpty text).getD "" = cString text := by
  unfold bindUnlessEmpty
  split
  · rename_i isEmpty
    subst isEmpty
    rfl
  · rfl

/-- The status that is left when its texts have been bound. -/
def TaskStatus.stored (status : TaskStatus Payload) : TaskStatus Payload :=
  { status with
    startTime := cString status.startTime
    endTime := cString status.endTime
    message := cString status.message }

theorem stored_eq_self : status.stored = status ↔ status.NoNul := by
  rw [TaskStatus.NoNul, ← cString_eq_self, ← cString_eq_self, ← cString_eq_self]
  obtain ⟨id, executorId, executorType, state, startTime, endTime, timeout, payload, message⟩ := status
  simp [TaskStatus.stored]

theorem fromDbRowExceptId_statusRow (now : Nat) :
    fromDbRowExceptId texts status.id (statusRow texts now status) = .ok status.stored := by
  have executor : parseId texts (statusRow texts now status).executorId "executor_id" = .ok status.executorId := by
    simp only [statusRow, cString_eq_self.mpr (texts.nul_not_mem_idText _), parseId, texts.readId_idText]
  have payload : texts.parse (statusRow texts now status).payload = some status.payload := by
    simp only [statusRow, cString_eq_self.mpr (texts.nul_not_mem_dump _), texts.parse_dump]
  have state : taskStateFromString (statusRow texts now status).state = .ok status.state :=
    taskState_readsBack status.state
  simp only [fromDbRowExceptId, executor, payload, state]
  simp only [statusRow, executorType_readsBack, getD_bindUnlessEmpty, TaskStatus.stored]

theorem fromDbRow_statusRow (now : Nat) : fromDbRow texts (statusRow texts now status) = .ok status.stored := by
  have id : parseId texts (statusRow texts now status).id "id" = .ok status.id := by
    simp only [statusRow, cString_eq_self.mpr (texts.nul_not_mem_idText _), parseId, texts.readId_idText]
  simp only [fromDbRow, id, fromDbRowExceptId_statusRow]

/-! ## The table -/

def Push.row (texts : StatusTexts Payload) (push : Push Payload) : StatusRow := statusRow texts push.now push.status

theorem id_row_eq_iff (push : Push Payload) (id : Uuid) :
    (push.row texts).id = cString (texts.idText id) ↔ push.status.id = id := by
  simp only [Push.row, statusRow, cString_eq_self.mpr (texts.nul_not_mem_idText _)]
  refine ⟨fun sameText => ?_, congrArg texts.idText⟩
  have sameRead := congrArg texts.readId sameText
  rw [texts.readId_idText, texts.readId_idText] at sameRead
  exact Option.some.inj sameRead

theorem mem_store {row : StatusRow} :
    row ∈ store texts history ↔ lastOf StatusRow.key row.key (history.map (Push.row texts)) = some row := by
  have isFold : store texts history = (history.map (Push.row texts)).foldl Relation.replaceInto ∅ := by
    rw [List.foldl_map]
    rfl
  rw [isFold, mem_foldl_replaceInto_iff]
  simp

theorem exists_push_of_mem {row : StatusRow} (member : row ∈ store texts history) :
    ∃ push ∈ history, push.row texts = row :=
  List.mem_map.mp (mem_of_lastOf (mem_store.mp member)).1

/-- The row of the last status of a task is in the table, and is the newest of that task. -/
theorem last_mem_store (texts : StatusTexts Payload)
    (clock : history.Pairwise fun earlier later => earlier.now ≤ later.now) {id : Uuid} {last : Push Payload}
    (isLast : lastOf (fun push : Push Payload => push.status.id) id history = some last) :
    last.row texts ∈ store texts history ∧
      ∀ row ∈ store texts history, row.id = cString (texts.idText id) → row.inputTime ≤ last.now := by
  obtain ⟨isLastPair, newest⟩ := lastOf_newest clock isLast
  obtain ⟨_, rfl⟩ := mem_of_lastOf isLast
  -- A row is replaced by the later ones of the same task and second.
  have sameKey : ∀ push : Push Payload, StatusRow.key (push.row texts) = StatusRow.key (last.row texts) ↔
      (push.status.id, push.now) = (last.status.id, last.now) := by
    intro push
    rw [StatusRow.key, StatusRow.key, Prod.mk.injEq, Prod.mk.injEq]
    exact and_congr_left fun _ => id_row_eq_iff push last.status.id
  refine ⟨?_, fun row member sameId => ?_⟩
  · rw [mem_store, lastOf_map sameKey, isLastPair]
    rfl
  · obtain ⟨push, pushed, rfl⟩ := exists_push_of_mem member
    exact newest push pushed ((id_row_eq_iff push _).mp sameId)

/-! ## The two queries -/

/-- The first row of a sorted result is one of the newest. -/
theorem head_sort {rows : List StatusRow} {row : StatusRow} (first : (order.sort rows).head? = some row) :
    row ∈ rows ∧ ∀ other ∈ rows, other.inputTime ≤ row.inputTime := by
  obtain ⟨rest, isSorted⟩ := List.head?_eq_some_iff.mp first
  have member : ∀ other, other ∈ rows ↔ other = row ∨ other ∈ rest := by
    intro other
    rw [← (order.perm rows).mem_iff, isSorted, List.mem_cons]
  have newestFirst := order.newestFirst rows
  rw [isSorted, List.pairwise_cons] at newestFirst
  refine ⟨(member row).mpr (.inl rfl), fun other isOther => ?_⟩
  obtain rfl | later := (member other).mp isOther
  · exact Nat.le_refl _
  · exact newestFirst.1 other later

theorem head_sort_isSome (order : OrderByInputTimeDesc) {rows : List StatusRow} {row : StatusRow} (member : row ∈ rows) :
    ∃ first, (order.sort rows).head? = some first := by
  rw [← Option.isSome_iff_exists, List.isSome_head?]
  intro isEmpty
  have inSorted := (order.perm rows).mem_iff.mpr member
  rw [isEmpty] at inSorted
  cases inSorted

/-- What `get` returns is the last status as it was stored. -/
theorem queryTaskStatus_store (clock : history.Pairwise fun earlier later => earlier.now ≤ later.now) (id : Uuid) :
    queryTaskStatus texts order (store texts history) id = .ok ((lastPushed id history).map TaskStatus.stored) := by
  have takesFirst : ∀ rows : List StatusRow, (rows.take 1).head? = rows.head? := by
    intro rows
    cases rows <;> rfl
  rw [queryTaskStatus, takesFirst, lastPushed]
  cases isLast : lastOf (fun push : Push Payload => push.status.id) id history with
  | none =>
    cases first : (order.sort ((store texts history).select fun row => row.id = cString (texts.idText id))).head? with
    | none => rfl
    -- Every row of the task comes from a status that was pushed for it.
    | some row =>
      obtain ⟨member, sameId⟩ := Relation.mem_select.mp (head_sort first).1
      obtain ⟨push, pushed, rfl⟩ := exists_push_of_mem member
      obtain ⟨last, isLast'⟩ := exists_lastOf (fun push : Push Payload => push.status.id) pushed
      rw [(id_row_eq_iff push id).mp (of_decide_eq_true sameId), isLast] at isLast'
      cases isLast'
  | some last =>
    obtain ⟨stored, newest⟩ := last_mem_store texts clock isLast
    obtain ⟨_, rfl⟩ := mem_of_lastOf isLast
    have selected :
        last.row texts ∈ (store texts history).select fun row => row.id = cString (texts.idText last.status.id) :=
      Relation.mem_select.mpr ⟨stored, decide_eq_true rfl⟩
    obtain ⟨row, first⟩ := head_sort_isSome order selected
    obtain ⟨isSelected, isNewest⟩ := head_sort first
    obtain ⟨member, sameId⟩ := Relation.mem_select.mp isSelected
    -- A row that is as new as the last one has its key, and the key is the row's own.
    have sameRow : row = last.row texts := by
      apply Relation.eq_of_key member stored
      rw [StatusRow.key, StatusRow.key, Prod.mk.injEq]
      have sameTime := Nat.le_antisymm (newest row member (of_decide_eq_true sameId)) (isNewest _ selected)
      exact ⟨of_decide_eq_true sameId, sameTime⟩
    simp only [first, sameRow, Push.row, fromDbRowExceptId_statusRow]
    rfl

/-- What `query` returns is the first of the newest rows, and nothing else. -/
theorem rangeQuery_store (texts : StatusTexts Payload) (order : OrderByInputTimeDesc) (history : List (Push Payload))
    {limit : Nat} (positive : 1 ≤ limit) :
    (store texts history).rows = [] ∧ rangeQuery texts order (store texts history) limit = .ok [] ∨
      ∃ row status, row ∈ store texts history ∧ (∀ other ∈ store texts history, other.inputTime ≤ row.inputTime) ∧
        fromDbRow texts row = .ok status ∧ rangeQuery texts order (store texts history) limit = .ok [status] := by
  have takesFirst : ∀ rows : List StatusRow, (rows.take limit).head? = rows.head? := by
    intro rows
    rw [List.head?_take, if_neg (by omega)]
  rw [rangeQuery, takesFirst]
  cases first : (order.sort (store texts history).rows).head? with
  | none =>
    refine .inl ⟨?_, rfl⟩
    rw [List.head?_eq_none_iff] at first
    exact List.Perm.nil_eq (first ▸ order.perm (store texts history).rows) |>.symm
  | some row =>
    obtain ⟨member, newest⟩ := head_sort first
    obtain ⟨push, _, isRow⟩ := exists_push_of_mem member
    -- Every row can be read, since it was written by `insert`.
    have reads : fromDbRow texts row = .ok push.status.stored := by
      rw [← isRow]
      exact fromDbRow_statusRow push.now
    exact .inr ⟨row, push.status.stored, member, newest, reads, by simp only [reads]; rfl⟩

/-- A query returns what it is to return exactly if that is no more than one row. -/
theorem returnsMostRecent_iff {limit : Nat} (positive : 1 ≤ limit) :
    ReturnsMostRecent texts (store texts history) limit (rangeQuery texts order (store texts history) limit) ↔
      limit = 1 ∨ (store texts history).rows.length ≤ 1 := by
  obtain ⟨isEmpty, returned⟩ | ⟨row, status, member, newest, reads, returned⟩ :=
    rangeQuery_store texts order history positive
  · refine iff_of_true ⟨[], [], returned, .nil, List.nodup_nil, nofun, ?_, .nil, fun _ _ _ => nofun⟩ (.inr ?_)
    · simp [isEmpty]
    · simp [isEmpty]
  · have some : 1 ≤ (store texts history).rows.length := List.length_pos_of_mem member
    constructor
    · intro returns
      obtain ⟨rows, statuses, isStatuses, readBack, _, _, length, _⟩ := returns
      rw [returned, Except.ok.injEq] at isStatuses
      -- One status comes back, so that one row must be what was asked for.
      have sameLength := readBack.length_eq
      rw [← isStatuses, List.length_singleton, length] at sameLength
      omega
    · intro few
      refine ⟨[row], [status], returned, .cons reads .nil, List.nodup_singleton row, ?_, ?_,
        List.pairwise_singleton _ row, ?_⟩
      · intro other isRow
        rw [List.mem_singleton.mp isRow]
        exact member
      · rw [List.length_singleton]
        omega
      · intro other isOther _ first isRow
        rw [List.mem_singleton.mp isRow]
        exact newest other isOther

/-- For every history and limit, `get` and `query` return what they are to return exactly if the query is for one row,
or there is no more than one, and the last statuses have no NUL characters in their texts. -/
theorem statusStore_iff (texts : StatusTexts Payload) (order : OrderByInputTimeDesc) (history : List (Push Payload))
    (clock : history.Pairwise fun earlier later => earlier.now ≤ later.now) (limit : Nat) (positive : 1 ≤ limit) :
    ((∀ id, queryTaskStatus texts order (store texts history) id = .ok (lastPushed id history)) ∧
        ReturnsMostRecent texts (store texts history) limit (rangeQuery texts order (store texts history) limit)) ↔
      (∀ id, ∀ status ∈ lastPushed id history, status.NoNul) ∧
        (limit = 1 ∨ (store texts history).rows.length ≤ 1) := by
  refine and_congr (forall_congr' fun id => ?_) (returnsMostRecent_iff positive)
  rw [queryTaskStatus_store clock, Except.ok.injEq]
  cases lastPushed id history with
  | none => simp
  | some status => simp [stored_eq_self]

/-- Texts of ids in unary notation, and of the payload null. -/
def unaryTexts : StatusTexts Unit where
  idText id := String.ofList (List.replicate id 'i')
  readId text := some text.length
  readId_idText id := by simp
  nul_not_mem_idText id := by
    rw [String.toList_ofList, List.mem_replicate]
    exact fun nul => absurd nul.2 (by decide)
  dump _ := "null"
  parse text := if text = "null" then some () else none
  parse_dump _ := rfl
  nul_not_mem_dump _ := by decide

def mergeSortRows : OrderByInputTimeDesc where
  sort rows := rows.mergeSort fun first second => second.inputTime ≤ first.inputTime
  perm rows := List.mergeSort_perm rows _
  newestFirst rows := by
    have sorted : (rows.mergeSort fun first second => second.inputTime ≤ first.inputTime).Pairwise
        fun earlier later => decide (later.inputTime ≤ earlier.inputTime) = true :=
      List.pairwise_mergeSort (fun first second third => by simp only [decide_eq_true_eq]; omega)
        (fun first second => by simp only [Bool.or_eq_true, decide_eq_true_eq]; omega) rows
    exact sorted.imp fun inOrder => of_decide_eq_true inOrder

def finishedTask (id : Uuid) : TaskStatus Unit where
  id
  executorId := 1
  executorType := .framework
  state := .finished
  startTime := "2025-03-29 16:18:06.952"
  endTime := "2025-03-29 16:18:07.104"
  timeout := 3600
  payload := ()
  message := ""

/-- Two tasks, of which one row is asked for. -/
theorem twoTasks_one :
    (∀ id, queryTaskStatus unaryTexts mergeSortRows (store unaryTexts [⟨5, finishedTask 2⟩, ⟨5, finishedTask 3⟩]) id =
        .ok (lastPushed id [⟨5, finishedTask 2⟩, ⟨5, finishedTask 3⟩])) ∧
      ReturnsMostRecent unaryTexts (store unaryTexts [⟨5, finishedTask 2⟩, ⟨5, finishedTask 3⟩]) 1
        (rangeQuery unaryTexts mergeSortRows (store unaryTexts [⟨5, finishedTask 2⟩, ⟨5, finishedTask 3⟩]) 1) :=
  (statusStore_iff unaryTexts mergeSortRows [⟨5, finishedTask 2⟩, ⟨5, finishedTask 3⟩] (by simp) 1 (by decide)).mpr
    ⟨fun id status isLast => by
      obtain ⟨push, isPush, rfl⟩ := Option.map_eq_some_iff.mp isLast
      have pushed := (mem_of_lastOf isPush).1
      simp only [List.mem_cons, List.not_mem_nil, or_false] at pushed
      obtain rfl | rfl := pushed <;> exact ⟨by decide, by decide, by decide⟩, .inl rfl⟩

/-- Of two rows that are asked for, one comes back. -/
theorem twoTasks_two : ¬ ReturnsMostRecent unaryTexts (store unaryTexts [⟨5, finishedTask 2⟩, ⟨5, finishedTask 3⟩]) 2
    (rangeQuery unaryTexts mergeSortRows (store unaryTexts [⟨5, finishedTask 2⟩, ⟨5, finishedTask 3⟩]) 2) := by
  rw [returnsMostRecent_iff (by decide)]
  decide

end AbilityFramework.TaskMgr
