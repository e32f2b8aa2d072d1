import AbilityFramework.Library.Runs
import AbilityFramework.ResourceMgr.HttpErrors
import AbilityFramework.ResourceMgr.SkillTitles

/-! # Texts of requests in answers

The path of a request is decoded to whatever bytes the client has sent, and `dump()` throws for a text that is no
UTF-8.  A handler may throw so; `handle_error_to_http` may not, since it is `noexcept`, but it puts the path and the
text of the exception into a JSON text itself.

`getSkills_listed_iff`: the skills are listed exactly if each of their names and titles is UTF-8.
`requests_answered_iff`: requests are answered one after the other up to the first one after which the error handler
throws, which ends the process. -/

namespace AbilityFramework.ResourceMgr.RequestTexts

open Library Library.Runs Skills

/-! ## JSON texts -/

inductive JsonValue where
  | text (value : ByteText)
  | integer (number : Nat)

/-- The keys are in the order of the library's map. -/
abbrev JsonObject := List (String × JsonValue)

inductive Payload where
  | object (members : JsonObject)
  | array (objects : List JsonObject)

def JsonValue.texts : JsonValue → List ByteText
  | .text value => [value]
  | .integer _ => []

def JsonObject.texts (members : JsonObject) : List ByteText := members.flatMap fun member => member.2.texts

def Payload.texts : Payload → List ByteText
  | .object members => members.texts
  | .array objects => objects.flatMap JsonObject.texts

/-- `ProblemDetail`, of texts that need not be UTF-8. -/
structure ProblemDetail where
  status : Nat
  type : ByteText
  title : ByteText
  detail : ByteText
  /-- `instance` is a keyword. -/
  occurrence : ByteText

def ProblemDetail.toJson (problem : ProblemDetail) : JsonObject :=
  [("detail", .text problem.detail), ("instance", .text problem.occurrence), ("status", .integer problem.status),
    ("title", .text problem.title), ("type", .text problem.type)]

/-- What a handler throws.  Of a `FormatError` the content is sent too. -/
inductive Thrown where
  | problem (detail : ProblemDetail)
  | invalidArgument (text : ByteText)
  | formatError (message content : ByteText)
  | exception (text : ByteText)
  | other

/-- What `dump()` throws. -/
def invalidUtf8 : Thrown := .exception (.ofString "[json.exception.type_error.316] invalid UTF-8 byte")

def dump (payload : Payload) : Except Thrown Payload :=
  if ∀ text ∈ payload.texts, text.IsUtf8 then .ok payload else .error invalidUtf8

inductive Content where
  | json (payload : Payload)
  | plain (text : ByteText)

structure Reply where
  status : Nat := 200
  content : Content

/-! ## Answers to exceptions -/

/-- An exception inside of `noexcept` ends the process. -/
def respond (status : Nat) (members : JsonObject) : Option Reply :=
  match dump (.object members) with
  | .ok payload => some ⟨status, .json payload⟩
  | .error _ => none

/-- `what()` is read as a C string. -/
def handleErrorToHttp (path : ByteText) : Thrown → Option Reply
  | .problem detail =>
    let named := { detail with occurrence := if detail.occurrence = [] then path else detail.occurrence }
    respond named.status named.toJson
  | .invalidArgument text =>
    respond 400 (ProblemDetail.mk 400 (.ofString "exception") (.ofString "invalid argument") text.cString path).toJson
  | .formatError message content =>
    let what := ByteText.cString (.ofString "FormatError: " ++ message)
    respond 500
      [("detail", .text what), ("instance", .text path), ("message_content", .text content), ("status", .integer 500),
        ("title", .text (.ofString "invalid message format")), ("type", .text (.ofString "exception"))]
  | .exception text =>
    respond 500 (ProblemDetail.mk 500 (.ofString "exception") (.ofString "exception") text.cString path).toJson
  | .other =>
    respond 500 (ProblemDetail.mk 500 (.ofString "internal error") (.ofString "Unknown exception") [] path).toJson

/-- The texts of the exception that come into the answer. -/
def Thrown.texts : Thrown → List ByteText
  | .problem detail => [detail.type, detail.title, detail.detail, detail.occurrence]
  | .invalidArgument text | .exception text => [text.cString]
  | .formatError message content => [message.cString, content]
  | .other => []

/-- The path comes into the answer. -/
def Thrown.NeedsPath : Thrown → Prop
  | .problem detail => detail.occurrence = []
  | .invalidArgument _ | .formatError _ _ | .exception _ | .other => True

/-- The answer to the exception would have a text that is no UTF-8. -/
def Unanswerable (path : ByteText) (thrown : Thrown) : Prop :=
  (thrown.NeedsPath ∧ ¬ path.IsUtf8) ∨ ∃ text ∈ thrown.texts, ¬ text.IsUtf8

/-! ## Handlers -/

def pathParam (pathParams : List (String × ByteText)) (key : String) : Except Thrown ByteText :=
  (pathParams.lookup key).elim (.error (.exception (.ofString "unordered_map::at"))) .ok

/-- What the handlers find. -/
structure Environment where
  findCrdByName : ByteText → ByteText → Except Thrown (Option Payload)
  mirroredSkills : MirroredSkills
  readSkill : ByteText → ByteText → ByteText → Except Thrown (Option ByteText)
  /-- The other routes. -/
  handleOther : ByteText → Except Thrown Reply

def setContent (status : Nat) (payload : Payload) : Except Thrown Reply := do
  let payload ← dump payload
  return { status, content := .json payload }

/-- The handler of `GET /api/crd/:name/:version`. -/
def getCrd (environment : Environment) (pathParams : List (String × ByteText)) : Except Thrown Reply := do
  -- The log line, which is evaluated whether it is printed or not.
  let _ ← pathParam pathParams "id"
  let abilityOrDeviceName ← pathParam pathParams "name"
  let version ← pathParam pathParams "version"
  let named := .ofString "name " ++ abilityOrDeviceName ++ .ofString " version " ++ version
  match ← environment.findCrdByName abilityOrDeviceName version with
  | some payload => setContent 200 payload
  | none => .error (.problem {
      status := 400
      type := .ofString "invalid_argument"
      title := .ofString "invalid argument"
      detail := named ++ .ofString " is neither a device name nor an abiility name"
      occurrence := named })

def skillToJson (skill : SkillEntry) : JsonObject :=
  [("filename", .text skill.filename), ("package", .text skill.package), ("size", .integer skill.sizeBytes),
    ("title", .text skill.title), ("version", .text skill.version)]

def listing (root : MirroredSkills) : Payload := .array ((listAllSkills root).map skillToJson)

/-- The handler of `GET /api/skill`. -/
def getSkills (environment : Environment) : Except Thrown Reply := setContent 200 (listing environment.mirroredSkills)

def skillNotFound (pkg version filename : ByteText) : Payload :=
  .object
    [("error", .text (.ofString "skill not found")), ("filename", .text filename), ("package", .text pkg),
      ("version", .text version)]

/-- The handler of `GET /api/skill/:package/:version/:filename`. -/
def getSkill (environment : Environment) (pkg version filename : ByteText) : Except Thrown Reply := do
  match ← environment.readSkill pkg version filename with
  | none => setContent 404 (skillNotFound pkg version filename)
  | some content => return { content := .plain content }

inductive Request where
  | crd (name version : ByteText)
  | skills
  | skill (pkg version filename : ByteText)
  | other (path : ByteText)

def Request.path : Request → ByteText
  | .crd name version => .ofString "/api/crd/" ++ name ++ .ofString "/" ++ version
  | .skills => .ofString "/api/skill"
  | .skill pkg version filename =>
    .ofString "/api/skill/" ++ pkg ++ .ofString "/" ++ version ++ .ofString "/" ++ filename
  | .other path => path

def handle (environment : Environment) : Request → Except Thrown Reply
  | .crd name version => getCrd environment [("name", name), ("version", version)]
  | .skills => getSkills environment
  | .skill pkg version filename => getSkill environment pkg version filename
  | .other path => environment.handleOther path

/-- What the server makes of a request.  There is no answer if the process has ended. -/
def answer (environment : Environment) (request : Request) : Option Reply :=
  match handle environment request with
  | .ok reply => some reply
  | .error thrown => handleErrorToHttp request.path thrown

/-! ## The server -/

structure Server where
  replies : List Reply := []
  terminated : Bool := false

/-- The requests come one after the other, and each finds an environment of its own. -/
def step (server : Server) (event : Environment × Request) : Server :=
  if server.terminated then server
  else
    match answer event.1 event.2 with
    | some reply => { server with replies := server.replies ++ [reply] }
    | none => { server with terminated := true }

/-! ## When there is an answer -/

section Answers

variable {path : ByteText} {thrown : Thrown} {environment : Environment}

theorem dump_eq_ok {payload : Payload} (readable : ∀ text ∈ payload.texts, text.IsUtf8) : dump payload = .ok payload :=
  if_pos readable

theorem dump_eq_error {payload : Payload} (unreadable : ¬ ∀ text ∈ payload.texts, text.IsUtf8) :
    dump payload = .error invalidUtf8 :=
  if_neg unreadable

theorem status_respond {status : Nat} {members : JsonObject} {reply : Reply}
    (answered : respond status members = some reply) : reply.status = status := by
  rw [respond] at answered
  split at answered
  · cases answered
    rfl
  · cases answered

theorem respond_eq_none {status : Nat} {members : JsonObject} :
    respond status members = none ↔ ∃ text ∈ members.texts, ¬ text.IsUtf8 := by
  rw [respond, dump]
  by_cases readable : ∀ text ∈ members.texts, text.IsUtf8
  · rw [if_pos (by exact readable)]
    simpa using readable
  · rw [if_neg (by exact readable)]
    simpa using readable

theorem texts_problem (problem : ProblemDetail) :
    problem.toJson.texts = [problem.detail, problem.occurrence, problem.title, problem.type] := rfl

theorem isUtf8_what (message : ByteText) :
    (ByteText.cString (.ofString "FormatError: " ++ message)).IsUtf8 ↔ message.cString.IsUtf8 :=
  ByteText.isUtf8_cString_append (by decide) message

/-- The error handler throws exactly if it meets a text that is no UTF-8. -/
theorem handleErrorToHttp_eq_none (path : ByteText) (thrown : Thrown) :
    handleErrorToHttp path thrown = none ↔ Unanswerable path thrown := by
  cases thrown with
  | problem detail =>
    by_cases unnamed : detail.occurrence = []
    · simp [handleErrorToHttp, respond_eq_none, texts_problem, Unanswerable, Thrown.NeedsPath, Thrown.texts, unnamed,
        ByteText.isUtf8_nil]
      tauto
    · simp [handleErrorToHttp, respond_eq_none, texts_problem, Unanswerable, Thrown.NeedsPath, Thrown.texts, unnamed]
      tauto
  | invalidArgument text | exception text =>
    simp [handleErrorToHttp, respond_eq_none, texts_problem, Unanswerable, Thrown.NeedsPath, Thrown.texts,
      ByteText.isUtf8_ofString]
    tauto
  | formatError message content =>
    simp [handleErrorToHttp, respond_eq_none, JsonObject.texts, JsonValue.texts, Unanswerable, Thrown.NeedsPath,
      Thrown.texts, ByteText.isUtf8_ofString, isUtf8_what]
    tauto
  | other =>
    simp [handleErrorToHttp, respond_eq_none, texts_problem, Unanswerable, Thrown.NeedsPath, Thrown.texts,
      ByteText.isUtf8_ofString, ByteText.isUtf8_nil]

/-- An exception whose texts are strings. -/
def Thrown.ofHttp : HttpException → Thrown
  | .problem detail =>
    .problem {
      status := detail.status
      type := .ofString detail.type
      title := .ofString detail.title
      detail := .ofString detail.detail
      occurrence := .ofString detail.occurrence }
  | .invalidArgument message => .invalidArgument (.ofString message)
  | .exception message => .exception (.ofString message)

/-- It is answered, with the status that it has where texts are strings. -/
theorem handleErrorToHttp_ofHttp (path : String) (exception : HttpException) :
    ∃ reply, handleErrorToHttp (.ofString path) (.ofHttp exception) = some reply ∧
      reply.status = (ResourceMgr.handleErrorToHttp path exception).status := by
  have answerable : ¬ Unanswerable (.ofString path) (.ofHttp exception) := by
    cases exception <;>
      simp [Unanswerable, Thrown.ofHttp, Thrown.texts, ByteText.isUtf8_ofString, (ByteText.isUtf8_ofString _).cString]
  rw [← handleErrorToHttp_eq_none] at answerable
  obtain ⟨reply, answered⟩ := Option.ne_none_iff_exists'.mp answerable
  refine ⟨reply, answered, ?_⟩
  cases exception <;>
  · rw [Thrown.ofHttp, handleErrorToHttp] at answered
    exact status_respond answered

/-- What a handler throws decides whether there is an answer. -/
theorem answer_eq_none {request : Request} :
    answer environment request = none ↔
      ∃ thrown, handle environment request = .error thrown ∧ Unanswerable request.path thrown := by
  rw [answer]
  cases handled : handle environment request with
  | ok reply => simp
  | error thrown => simp [handleErrorToHttp_eq_none]

/-! ### Paths -/

theorem isUtf8_slash (front back : ByteText) :
    (front ++ .ofString "/" ++ back).IsUtf8 ↔ front.IsUtf8 ∧ back.IsUtf8 := by
  have slash : (47 : UInt8) < 128 := by decide
  rw [List.append_assoc]
  exact ByteText.isUtf8_append_cons slash

theorem isUtf8_crdPath (name version : ByteText) :
    (Request.crd name version).path.IsUtf8 ↔ name.IsUtf8 ∧ version.IsUtf8 := by
  rw [Request.path, isUtf8_slash, (ByteText.isUtf8_ofString _).append_iff]

theorem isUtf8_skillPath (pkg version filename : ByteText) :
    (Request.skill pkg version filename).path.IsUtf8 ↔ pkg.IsUtf8 ∧ version.IsUtf8 ∧ filename.IsUtf8 := by
  rw [Request.path, isUtf8_slash, isUtf8_slash, (ByteText.isUtf8_ofString _).append_iff, and_assoc]

/-! ### Handlers -/

/-- Every request for a CRD is answered by the error handler. -/
theorem crd_eq_none (name version : ByteText) :
    answer environment (.crd name version) = none ↔ ¬ (name.IsUtf8 ∧ version.IsUtf8) := by
  have throws : handle environment (.crd name version) = .error (.exception (.ofString "unordered_map::at")) := rfl
  rw [answer_eq_none, throws, ← isUtf8_crdPath]
  simp [Unanswerable, Thrown.NeedsPath, Thrown.texts, (ByteText.isUtf8_ofString _).cString]

/-- One byte is enough. -/
example : answer environment (.crd [0xff] []) = none := (crd_eq_none _ _).mpr (by decide)

theorem setContent_eq (status : Nat) (payload : Payload) :
    setContent status payload = (dump payload).map fun payload => { status, content := .json payload } := by
  rw [setContent]
  cases dump payload <;> rfl

/-- With a path that is UTF-8, what `dump()` throws is answered. -/
theorem unanswerable_invalidUtf8 : Unanswerable path invalidUtf8 ↔ ¬ path.IsUtf8 := by
  simp [Unanswerable, invalidUtf8, Thrown.NeedsPath, Thrown.texts, (ByteText.isUtf8_ofString _).cString]

/-- What comes into the listing of the file can be sent. -/
def IsListable (package version : ByteText) (file : ListedFile) : Prop :=
  package.IsUtf8 ∧ version.IsUtf8 ∧ file.path.IsUtf8 ∧
    ∀ content ∈ file.content, ∀ line ∈ titleLine ((readLines content).take 60), line.IsUtf8

theorem extractSkillTitle_readable (content : Option ByteText) :
    (extractSkillTitle content).IsUtf8 ↔
      ∀ text ∈ content, ∀ line ∈ titleLine ((readLines text).take 60), line.IsUtf8 := by
  cases content with
  | none => simp [extractSkillTitle, ByteText.isUtf8_nil]
  | some content => simp [extractSkillTitle_isUtf8]

theorem texts_skillToJson (skill : SkillEntry) :
    (skillToJson skill).texts = [skill.filename, skill.package, skill.title, skill.version] := rfl

theorem isListable_iff (package version : ByteText) (file : ListedFile) :
    (∀ text ∈ (skillToJson (skillEntry package version file)).texts, text.IsUtf8) ↔ IsListable package version file := by
  rw [texts_skillToJson, skillEntry, IsListable, ← extractSkillTitle_readable]
  simp
  tauto

/-- The texts of the listing are those of the files. -/
theorem listing_readable (root : MirroredSkills) :
    (∀ text ∈ (listing root).texts, text.IsUtf8) ↔
      ∀ package version file, IsMirrored root package version file → IsListable package version file := by
  simp only [listing, Payload.texts, List.mem_flatMap, List.mem_map]
  constructor
  · intro readable package version file mirrored
    rw [← isListable_iff]
    intro text isText
    exact readable text ⟨_, ⟨_, mem_listAllSkills.mpr ⟨package, version, file, mirrored, rfl⟩, rfl⟩, isText⟩
  · intro listable text isText
    obtain ⟨_, ⟨entry, isEntry, rfl⟩, isText⟩ := isText
    obtain ⟨package, version, file, mirrored, rfl⟩ := mem_listAllSkills.mp isEntry
    exact (isListable_iff package version file).mpr (listable package version file mirrored) text isText

theorem getSkills_eq (environment : Environment) :
    handle environment .skills =
      (dump (listing environment.mirroredSkills)).map fun payload => { content := .json payload } := setContent_eq 200 _

theorem skills_ne_none (environment : Environment) : answer environment .skills ≠ none := by
  intro noAnswer
  obtain ⟨thrown, threw, unanswerable⟩ := answer_eq_none.mp noAnswer
  have isPath : (Request.path .skills).IsUtf8 := ByteText.isUtf8_ofString _
  rw [getSkills_eq] at threw
  by_cases readable : ∀ text ∈ (listing environment.mirroredSkills).texts, text.IsUtf8
  · rw [dump_eq_ok readable] at threw
    cases threw
  · rw [dump_eq_error readable] at threw
    cases threw
    exact unanswerable_invalidUtf8.mp unanswerable isPath

/-- One file with a title that is no UTF-8 keeps all skills from being listed. -/
theorem getSkills_listed_iff (environment : Environment) :
    ∃ reply, answer environment .skills = some reply ∧
      (reply.status = 200 ∧ reply.content = .json (listing environment.mirroredSkills) ∨ reply.status = 500) ∧
      (reply.status = 200 ↔ ∀ package version file,
        IsMirrored environment.mirroredSkills package version file → IsListable package version file) := by
  rw [← listing_readable]
  by_cases readable : ∀ text ∈ (listing environment.mirroredSkills).texts, text.IsUtf8
  · have answered : answer environment .skills = some { content := .json (listing environment.mirroredSkills) } := by
      rw [answer, getSkills_eq, dump_eq_ok readable]
      rfl
    exact ⟨_, answered, .inl ⟨rfl, rfl⟩, iff_of_true rfl readable⟩
  · obtain ⟨reply, answered⟩ := Option.ne_none_iff_exists'.mp (skills_ne_none environment)
    have failed : reply.status = 500 := by
      rw [answer, getSkills_eq, dump_eq_error readable] at answered
      simp only [Except.map, invalidUtf8, handleErrorToHttp] at answered
      exact status_respond answered
    refine ⟨reply, answered, .inr failed, iff_of_false ?_ readable⟩
    rw [failed]
    decide

theorem texts_skillNotFound (pkg version filename : ByteText) :
    (∀ text ∈ (skillNotFound pkg version filename).texts, text.IsUtf8) ↔
      pkg.IsUtf8 ∧ version.IsUtf8 ∧ filename.IsUtf8 := by
  simp [skillNotFound, Payload.texts, JsonObject.texts, JsonValue.texts, ByteText.isUtf8_ofString]
  tauto

/-- A request for a skill that is not there is answered exactly if it is UTF-8. -/
theorem skill_eq_none {pkg version filename : ByteText} :
    answer environment (.skill pkg version filename) = none ↔
      (environment.readSkill pkg version filename = .ok none ∧
        ¬ (pkg.IsUtf8 ∧ version.IsUtf8 ∧ filename.IsUtf8)) ∨
      ∃ thrown, environment.readSkill pkg version filename = .error thrown ∧
        Unanswerable (Request.path (.skill pkg version filename)) thrown := by
  rw [answer_eq_none, handle, getSkill]
  cases read : environment.readSkill pkg version filename with
  | error thrown => simp [bind, Except.bind]
  | ok found =>
    cases found with
    | some content => simp [bind, Except.bind, pure, Except.pure]
    | none =>
      simp only [bind, Except.bind, setContent_eq]
      by_cases readable : ∀ text ∈ (skillNotFound pkg version filename).texts, text.IsUtf8
      · rw [dump_eq_ok readable]
        rw [texts_skillNotFound] at readable
        simp [Except.map, readable]
      · rw [dump_eq_error readable]
        rw [texts_skillNotFound] at readable
        simp [Except.map, unanswerable_invalidUtf8, isUtf8_skillPath, readable]

theorem other_eq_none {path : ByteText} :
    answer environment (.other path) = none ↔
      ∃ thrown, environment.handleOther path = .error thrown ∧ Unanswerable path thrown := answer_eq_none

/-- The request ends the process. -/
def EndsProcess (environment : Environment) : Request → Prop
  | .crd name version => ¬ (name.IsUtf8 ∧ version.IsUtf8)
  | .skills => False
  | .skill pkg version filename =>
    (environment.readSkill pkg version filename = .ok none ∧ ¬ (pkg.IsUtf8 ∧ version.IsUtf8 ∧ filename.IsUtf8)) ∨
      ∃ thrown, environment.readSkill pkg version filename = .error thrown ∧
        Unanswerable (Request.path (.skill pkg version filename)) thrown
  | .other path => ∃ thrown, environment.handleOther path = .error thrown ∧ Unanswerable path thrown

theorem answer_eq_none_iff (environment : Environment) (request : Request) :
    answer environment request = none ↔ EndsProcess environment request := by
  cases request with
  | crd name version => exact crd_eq_none name version
  | skills => exact iff_of_false (skills_ne_none environment) id
  | skill pkg version filename => exact skill_eq_none
  | other path => exact other_eq_none

end Answers

/-! ## Runs -/

/-- The events before the first one without an answer have been answered. -/
def Answered (server : Server) (events : List (Environment × Request)) : Prop :=
  ∃ before after, events = before ++ after ∧
    server.replies.map some = before.map (fun event => answer event.1 event.2) ∧
    if server.terminated then ∃ first rest, after = first :: rest ∧ answer first.1 first.2 = none else after = []

theorem answered_step (server : Server) (events : List (Environment × Request)) (event : Environment × Request)
    (given : Answered server events) : Answered (step server event) (events ++ [event]) := by
  obtain ⟨before, after, rfl, replies, ends⟩ := given
  rw [step]
  by_cases terminated : server.terminated = true
  · rw [if_pos terminated] at ends ⊢
    obtain ⟨first, rest, rfl, unanswered⟩ := ends
    refine ⟨before, first :: (rest ++ [event]), by simp, replies, ?_⟩
    rw [if_pos terminated]
    exact ⟨first, rest ++ [event], rfl, unanswered⟩
  · rw [if_neg terminated] at ends ⊢
    subst ends
    cases isAnswer : answer event.1 event.2 with
    | some reply =>
      refine ⟨before ++ [event], [], by simp, ?_, ?_⟩
      · simp [replies, isAnswer]
      · simp [terminated]
    | none => exact ⟨before, [event], by simp, replies, event, [], rfl, isAnswer⟩

theorem answered_run (events : List (Environment × Request)) : Answered (run step {} events) events :=
  run_history Answered answered_step ⟨[], [], rfl, rfl, by simp⟩ events

/-- In every run the process ends exactly with the first request that does so; every request before it gets its answer,
and none after it. -/
theorem requests_answered_iff (events : List (Environment × Request)) :
    ((run step {} events).terminated = true ↔ ∃ event ∈ events, EndsProcess event.1 event.2) ∧
      ∃ before after, events = before ++ after ∧
        (run step {} events).replies.map some = before.map (fun event => answer event.1 event.2) ∧
        (∀ event ∈ before, ¬ EndsProcess event.1 event.2) ∧ ∀ event ∈ after.head?, EndsProcess event.1 event.2 := by
  obtain ⟨before, after, split, replies, ends⟩ := answered_run events
  have answered : ∀ event ∈ before, ¬ EndsProcess event.1 event.2 := by
    intro event member
    rw [← answer_eq_none_iff]
    have isReply := List.mem_map_of_mem (f := fun event => answer event.1 event.2) member
    rw [← replies] at isReply
    obtain ⟨reply, _, isAnswer⟩ := List.mem_map.mp isReply
    rw [← isAnswer]
    exact Option.some_ne_none reply
  by_cases terminated : (run step {} events).terminated = true
  · rw [if_pos terminated] at ends
    obtain ⟨first, rest, rfl, unanswered⟩ := ends
    have endsProcess := (answer_eq_none_iff first.1 first.2).mp unanswered
    refine ⟨iff_of_true terminated ⟨first, by simp [split], endsProcess⟩, before, first :: rest, split, replies, answered, ?_⟩
    simpa using endsProcess
  · rw [if_neg terminated] at ends
    subst ends
    rw [List.append_nil] at split
    subst split
    refine ⟨iff_of_false terminated ?_, events, [], by simp, replies, answered, by simp⟩
    intro ⟨event, member, endsProcess⟩
    exact answered event member endsProcess

end AbilityFramework.ResourceMgr.RequestTexts
