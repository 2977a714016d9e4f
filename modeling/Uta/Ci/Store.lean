/- The store of CI records. A record is one JSON file, and a summary is taken from
the ends of the file without reading all of it. -/
import Uta.Ci.Service
import Uta.Lib.JsonText

namespace Uta.Ci.Store
open Uta.Lib Json Places

/-! Requests. -/

def string? : Json → Option String
  | .str s => some s
  | _ => none

def bool? : Json → Option Bool
  | .bool b => some b
  | _ => none

def optional : Option String → Json
  | none => .null
  | some s => .str s

/-- A text, or nothing; `none` for a value of another type. -/
def optional? : Json → Option (Option String)
  | .null => some none
  | .str s => some (some s)
  | _ => none

def optionalObject : Option (List (String × Json)) → Json
  | none => .null
  | some fields => .obj fields

def optionalObject? : Json → Option (Option (List (String × Json)))
  | .null => some none
  | .obj fields => some (some fields)
  | _ => none

structure CiTriggerRequest where
  appName : String
  gitUrl : String
  branch : String
  commitId : Option String
  jiraId : Option String
  operator : Option String
  specContext : Option String
  taskId : Option String
  recordId : Option String
  parentId : Option String
  taskTemplateId : Option String
  pipelineId : Option String
  sprintId : Option String
  appType : Option String
  stage : Option String
  language : String
  metadata : List (String × Json)

/-- `model_dump`. -/
def CiTriggerRequest.dump (r : CiTriggerRequest) : Json :=
  .obj [("app_name", .str r.appName), ("git_url", .str r.gitUrl), ("branch", .str r.branch),
    ("commit_id", optional r.commitId), ("jira_id", optional r.jiraId),
    ("operator", optional r.operator), ("spec_context", optional r.specContext),
    ("task_id", optional r.taskId), ("record_id", optional r.recordId),
    ("parent_id", optional r.parentId), ("task_template_id", optional r.taskTemplateId),
    ("pipeline_id", optional r.pipelineId), ("sprint_id", optional r.sprintId),
    ("app_type", optional r.appType), ("stage", optional r.stage), ("language", .str r.language),
    ("metadata", .obj r.metadata)]

def nonEmpty (value : String) : Option String :=
  let value := String.ofList (PyText.strip value.toList)
  if value = "" then none else some value

/-- `str.lower`, as far as the result is ASCII: the Kelvin sign is the one other
character whose lower case is an ASCII letter. -/
def lowerChar (c : Char) : Char := if c.toNat = 0x212a then 'k' else c.toLower

/-- `[a-z][a-z0-9_.+-]*`. -/
def isLanguageWord : List Char → Bool
  | [] => false
  | c :: cs => c.isLower && cs.all fun d => d.isLower || d.isDigit || "_.+-".toList.contains d

/-- `registered` are the languages that have an adapter. -/
def supportedLanguage (registered : List String) (value : String) : Option String :=
  let word := if value = "" then "java" else value
  let lowered := String.ofList ((PyText.strip word.toList).map lowerChar)
  let normalized := if lowered ∈ ["py", "python2", "python3"] then "python" else lowered
  if isLanguageWord normalized.toList && decide (normalized ∈ registered) then some normalized
  else none

/-- `AliasChoices`: the first name that is there. -/
def choose (names : List String) (fields : List (String × Json)) : Option Json :=
  names.findSome? (Dict.get? fields)

def requiredText (names : List String) (fields : List (String × Json)) : Option String :=
  (choose names fields).bind string?

def optionalText (names : List String) (fields : List (String × Json)) : Option (Option String) :=
  match choose names fields with
  | none => some none
  | some value => optional? value

/-- `model_validate`. -/
def CiTriggerRequest.validate (registered : List String) (value : Json) :
    Option CiTriggerRequest := do
  let fields ← value.fields?
  let appName ← (requiredText ["app_name", "appName"] fields).bind nonEmpty
  let gitUrl ← (requiredText ["git_url", "gitUrl", "repoUrl", "repo_url"] fields).bind nonEmpty
  let branch ← (requiredText ["branch", "gitBranchName"] fields).bind nonEmpty
  let commitId ← optionalText ["commit_id", "commitId"] fields
  let jiraId ← optionalText ["jira_id", "jiraId", "jiraKey"] fields
  let operator ← optionalText ["operator"] fields
  let specContext ← optionalText ["spec_context", "specContext"] fields
  let taskId ← optionalText ["task_id", "taskId"] fields
  let recordId ← optionalText ["record_id", "recordId"] fields
  let parentId ← optionalText ["parent_id", "parentId"] fields
  let taskTemplateId ← optionalText ["task_template_id", "taskTemplateId"] fields
  let pipelineId ← optionalText ["pipeline_id", "pipelineId"] fields
  let sprintId ← optionalText ["sprint_id", "sprintId"] fields
  let appType ← optionalText ["app_type", "appType"] fields
  let stage ← optionalText ["stage"] fields
  let language ← match choose ["language", "projectLanguage", "backendLanguage"] fields with
    | none => some "java"
    | some value => (string? value).bind (supportedLanguage registered)
  let metadata ← match Dict.get? fields "metadata" with
    | none => some []
    | some value => value.fields?
  some { appName, gitUrl, branch, commitId, jiraId, operator, specContext, taskId, recordId,
         parentId, taskTemplateId, pipelineId, sprintId, appType, stage, language, metadata }

/-! Records. -/

/-- Times, their JSON texts and the two ways to read one: that of the model's
validation and `datetime.fromisoformat`. `earlier` compares two times as aware ones. -/
structure Times (D : Type) where
  isoText : D → String
  validate : String → Option D
  fromisoformat : String → Option D
  earlier : D → D → Bool
  isoText_filled : ∀ d, isoText d ≠ ""
  same_reading : ∀ d, fromisoformat (String.ofList ((isoText d).toList.flatMap fun c =>
    if c = 'Z' then "+00:00".toList else [c])) = validate (isoText d)

def statusText : CiTaskStatus → String
  | .pending => "pending"
  | .queued => "queued"
  | .running => "running"
  | .success => "success"
  | .failed => "failed"
  | .stopped => "stopped"

/-- `CiTaskStatus(text)`. -/
def statusOf (text : String) : Option CiTaskStatus :=
  [CiTaskStatus.pending, .queued, .running, .success, .failed, .stopped].find? fun s =>
    statusText s = text

structure CiTaskRecord (D : Type) where
  taskId : String
  status : CiTaskStatus
  request : CiTriggerRequest
  protocol : String := "rdc"
  createdAt : D
  updatedAt : D
  reportUrl : Option String := none
  taskUrl : Option String := none
  workspacePath : Option String := none
  summary : Option String := none
  enforcementResult : Option (List (String × Json)) := none
  callbackHistory : List (List (String × Json)) := []
  callbackSucceeded : Bool := false
  callbackError : Option String := none
  callbackOverride : Option (List (String × Json)) := none
  fixSessions : List (List (String × Json)) := []
  gateOverride : Option (List (String × Json)) := none

variable {D : Type} (times : Times D) (registered : List String)

/-- `model_dump`, with the times as texts. -/
def CiTaskRecord.fields (r : CiTaskRecord D) : List (String × Json) :=
  [("task_id", .str r.taskId), ("status", .str (statusText r.status)), ("request", r.request.dump),
    ("protocol", .str r.protocol), ("created_at", .str (times.isoText r.createdAt)),
    ("updated_at", .str (times.isoText r.updatedAt)), ("report_url", optional r.reportUrl),
    ("task_url", optional r.taskUrl), ("workspace_path", optional r.workspacePath),
    ("summary", optional r.summary), ("enforcement_result", optionalObject r.enforcementResult),
    ("callback_history", .arr (r.callbackHistory.map .obj)),
    ("callback_succeeded", .bool r.callbackSucceeded),
    ("callback_error", optional r.callbackError),
    ("callback_override", optionalObject r.callbackOverride),
    ("fix_sessions", .arr (r.fixSessions.map .obj)),
    ("gate_override", optionalObject r.gateOverride)]

def field (fields : List (String × Json)) (key : String) (absent : α) (read : Json → Option α) :
    Option α :=
  match Dict.get? fields key with
  | none => some absent
  | some value => read value

def objects? : Json → Option (List (List (String × Json)))
  | .arr items => items.mapM Json.fields?
  | _ => none

/-- `model_validate_json` after the reading of the text; `now` is the default of a
time that is missing. -/
def CiTaskRecord.validate (now : D) (value : Json) : Option (CiTaskRecord D) := do
  let fields ← value.fields?
  let taskId ← requiredText ["task_id"] fields
  let status ← (requiredText ["status"] fields).bind statusOf
  let request ← (Dict.get? fields "request").bind (CiTriggerRequest.validate registered)
  let protocol ← field fields "protocol" "rdc" string?
  let createdAt ← field fields "created_at" now fun value => (string? value).bind times.validate
  let updatedAt ← field fields "updated_at" now fun value => (string? value).bind times.validate
  let reportUrl ← optionalText ["report_url"] fields
  let taskUrl ← optionalText ["task_url"] fields
  let workspacePath ← optionalText ["workspace_path"] fields
  let summary ← optionalText ["summary"] fields
  let enforcementResult ← field fields "enforcement_result" none optionalObject?
  let callbackHistory ← field fields "callback_history" [] objects?
  let callbackSucceeded ← field fields "callback_succeeded" false bool?
  let callbackError ← optionalText ["callback_error"] fields
  let callbackOverride ← field fields "callback_override" none optionalObject?
  let fixSessions ← field fields "fix_sessions" [] objects?
  let gateOverride ← field fields "gate_override" none optionalObject?
  some { taskId, status, request, protocol, createdAt, updatedAt, reportUrl, taskUrl,
         workspacePath, summary, enforcementResult, callbackHistory, callbackSucceeded,
         callbackError, callbackOverride, fixSessions, gateOverride }

/-! Saving and loading. -/

def fixSessionSummaryKeys : List String :=
  ["sessionId", "status", "repoTaskId", "repoTaskStatus", "repoTaskStage", "repoTaskDetail",
    "retryCount", "createdAt", "updatedAt", "canonicalTaskId", "canonicalTaskUrl"]

/-- The keys of the summary go first. -/
def compactSession (session : List (String × Json)) : List (String × Json) :=
  fixSessionSummaryKeys.filterMap (fun key => (Dict.get? session key).map fun v => (key, v)) ++
    session.filter fun e => e.1 ∉ fixSessionSummaryKeys

def compactReadableRecord (r : CiTaskRecord D) : CiTaskRecord D :=
  { r with fixSessions := r.fixSessions.map compactSession }

/-- The text of the file that `save` writes. -/
def saved (r : CiTaskRecord D) : List Char :=
  print false (.obj ((compactReadableRecord r).fields times))

def load (now : D) (text : List Char) : Option (CiTaskRecord D) :=
  (loads text).bind (CiTaskRecord.validate times registered now)

/-! Reading fields out of a part of the text. -/

/-- What keeps a summary from being made; `running` when the fuel does not last. -/
inductive Failure where
  | valueError (message : String)
  | jsonDecodeError
  | validationError
  | running

def decode (literal : List Char) : Except Failure Json :=
  match loads literal with
  | some value => .ok value
  | none => .error .jsonDecodeError

def extractJsonScalar (text : List Char) (key : String) : Except Failure Json :=
  match first (keyed key scalarText) text with
  | some literal => decode literal
  | none => .ok .null

def extractString (text : List Char) (key : String) : Except Failure (Option String) :=
  (extractJsonScalar text key).map string?

def extractBool (text : List Char) (key : String) : Except Failure (Option Bool) :=
  (extractJsonScalar text key).map bool?

/-- `-?\d+`. -/
def integerText (text : List Char) : Option ℤ :=
  let digits := (signOf text).2.takeWhile Char.isDigit
  let n : ℤ := PyText.intOf (digits.map fun c => c.toNat - '0'.toNat)
  if digits.isEmpty then none else some (if (signOf text).1 then -n else n)

def extractInt (text : List Char) (key : String) : Option ℤ := first (keyed key integerText) text

def closing (opening : Char) : Char := if opening = '[' then ']' else '}'

/-- The loop of `_json_value_end`; `index` is the offset of the next character. -/
def bracketEnd : List Char → (stack : List Char) → (inString escaped : Bool) → (index : ℕ) → Option ℕ
  | [], _, _, _, _ => none
  | c :: cs, stack, inString, escaped, index =>
    if inString then
      if escaped then bracketEnd cs stack true false (index + 1)
      else if c = '\\' then bracketEnd cs stack true true (index + 1)
      else bracketEnd cs stack (c != '"') false (index + 1)
    else if c = '"' then bracketEnd cs stack true false (index + 1)
    else if c = '[' ∨ c = '{' then bracketEnd cs (closing c :: stack) false false (index + 1)
    else if c = ']' ∨ c = '}' then
      match stack with
      | [] => none
      | top :: stack =>
        if c ≠ top then none
        else if stack.isEmpty then some (index + 1)
        else bracketEnd cs stack false false (index + 1)
    else bracketEnd cs stack false false (index + 1)

/-- How much of `text` its first value takes. -/
def jsonValueEnd : List Char → Option ℕ
  | [] => none
  | opening :: rest =>
    if opening = '[' ∨ opening = '{' then bracketEnd rest [closing opening] false false 1
    else (scalarText (opening :: rest)).map List.length

/-- `reverse` takes the last occurrence of the key. -/
def extractJsonValue (text : List Char) (key : String) (reverse : Bool) : Except Failure Json :=
  match (if reverse then last else first) (fun place => place.dropPrefix? (mark key)) text with
  | none => .ok .null
  | some rest =>
    let value := (rest.dropWhile (· ≠ ':')).tail.dropWhile PyText.isSpace
    match jsonValueEnd value with
    | none => .ok .null
    | some stop => decode (value.take stop)

/-! The ends of the file. -/

/-- What `decode(errors="ignore")` makes of the last bytes: the character that is
cut is left out. -/
def readTail (text : List Char) : List Char := tailWithin Char.utf8Size (128 * 1024) text

def readPrefix (text : List Char) : List Char := text.take (64 * 1024)

def readFromOffset (text : List Char) (offset size : ℕ) : List Char :=
  headWithin Char.utf8Size size (text.drop offset)

/-- The loop of `_find_last_marker_offset`, backwards in chunks that overlap. -/
def markerBefore (chunkSize : ℕ) (file marker : List Char) : ℕ → ℕ → List Char → Option ℕ
  | 0, _, _ => none
  | fuel + 1, position, overlap =>
    if position = 0 then none
    else
      let readSize := min chunkSize position
      let data := (file.drop (position - readSize)).take readSize ++ overlap
      match rfind marker data data.length with
      | some index => some (position - readSize + index)
      | none => markerBefore chunkSize file marker fuel (position - readSize)
          (data.take (marker.length - 1))

def findLastMarkerOffset (chunkSize : ℕ) (file marker : List Char) : Option ℕ :=
  markerBefore chunkSize file marker file.length file.length []

/-! Sessions that are too large to read whole. -/

/-- Where the part of the session at `objectStart` ends that is read. -/
def sessionEnd (fragment : List Char) (sessionMarker objectStart : ℕ) : ℕ :=
  let heavyStarts := [find ",\"rdcContext\"".toList fragment objectStart,
    find ",\"rerunEnforcement\"".toList fragment objectStart,
    find "\x7b\"sessionId\"".toList fragment
      (sessionMarker + (mark "sessionId").length)].filterMap id
  match heavyStarts.min? with
  | some stop => stop
  | none => min fragment.length (objectStart + 16 * 1024)

/-- The fields of one session, or `none` without an id. -/
def sessionSummary (segment : List Char) : Except Failure (Option (List (String × Json))) := do
  match ← extractString segment "sessionId" with
  | none => pure none
  | some sessionId =>
    if sessionId = "" then pure none
    else
      let texts ← ["status", "repoTaskStatus", "repoTaskStage", "repoTaskDetail", "createdAt",
        "updatedAt", "canonicalTaskId", "canonicalTaskUrl"].mapM fun key =>
          (extractString segment key).map fun value => value.toList.map fun v => (key, Json.str v)
      let numbers := ["repoTaskId", "retryCount"].map fun key =>
        (extractInt segment key).toList.map fun v => (key, Json.int v)
      pure (some (("sessionId", .str sessionId) :: (texts ++ numbers).flatten))

/-- The loop of `_extract_fix_session_summaries`. -/
def sessionsFrom (fragment : List Char) : ℕ → ℕ → Except Failure (List (List (String × Json)))
  | 0, _ => .error .running
  | fuel + 1, position =>
    if fragment.length ≤ position then pure []
    else
      match find (mark "sessionId") fragment position with
      | none => pure []
      | some sessionMarker =>
        match rfind ['{'] fragment sessionMarker with
        | none => pure []
        | some objectStart => do
          let objectEnd := sessionEnd fragment sessionMarker objectStart
          let session ← sessionSummary ((fragment.take objectEnd).drop objectStart)
          let sessions ← sessionsFrom fragment fuel (objectEnd + 1)
          pure (session.toList ++ sessions)

def sessionFragment (text : List Char) : List Char :=
  match findLastMarkerOffset (1024 * 1024) text (mark "fix_sessions") with
  | none => []
  | some offset => readFromOffset text offset (256 * 1024)

def extractFixSessionSummaries (fuel : ℕ) (text : List Char) :
    Except Failure (List (List (String × Json))) :=
  let fragment := sessionFragment text
  match find ['['] fragment 0 with
  | none => pure []
  | some arrayStart => sessionsFrom fragment fuel (arrayStart + 1)

/-! A summary. -/

def parseDatetime : Option String → Except Failure (Option D)
  | none => pure none
  | some value =>
    if value = "" then pure none
    else
      match times.fromisoformat (String.ofList (value.toList.flatMap fun c =>
          if c = 'Z' then "+00:00".toList else [c])) with
      | some time => pure (some time)
      | none => throw (.valueError "Invalid isoformat string")

def extractEnforcementSummary (head : List Char) : Except Failure (List (String × Json)) :=
  match first (fun place => if (mark "enforcement_result").isPrefixOf place then some place else none)
      head with
  | none => pure []
  | some snippet => do
    let status ← extractString snippet "status"
    let passed ← extractBool snippet "passed"
    pure ((status.toList.map fun v => ("status", .str v)) ++
      passed.toList.map fun v => ("passed", .bool v))

/-- The sessions of the end of the file, or what can be told of larger ones. -/
def summarySessions (fuel : ℕ) (text : List Char) : Except Failure (List (List (String × Json))) := do
  let items := match ← extractJsonValue (readTail text) "fix_sessions" true with
    | .arr items => items
    | _ => []
  if items.isEmpty then extractFixSessionSummaries fuel text
  else
    match items.mapM Json.fields? with
    | some sessions => pure sessions
    | none => throw .validationError

def orInvalid {α : Type} : Option α → Except Failure α
  | some a => pure a
  | none => throw .validationError

def loadRecordSummary (fuel : ℕ) (text : List Char) (since : Option D) :
    Except Failure (Option (CiTaskRecord D)) := do
  let head := readPrefix text
  let requestRaw ← extractJsonValue head "request" false
  if requestRaw.fields? = none then throw (.valueError "record request not found")
  let taskId ← extractString head "task_id"
  let status ← extractString head "status"
  let createdAt ← parseDatetime times (← extractString head "created_at")
  let updatedAt ← parseDatetime times (← extractString head "updated_at")
  match taskId, status, createdAt, updatedAt with
  | some taskId, some status, some createdAt, some updatedAt =>
    if taskId = "" ∨ status = "" then
      throw (.valueError "required record summary fields not found")
    else if since.any fun s => times.earlier createdAt s then pure none
    else
      let end_ := readTail text
      let fixSessions ← summarySessions fuel text
      let enforcementResult ← extractEnforcementSummary head
      let callbackSucceeded := (← extractBool end_ "callback_succeeded").getD false
      let callbackOverride := (← extractJsonValue end_ "callback_override" false).fields?
      let status ← orInvalid (statusOf status)
      let request ← orInvalid (CiTriggerRequest.validate registered requestRaw)
      let protocol := ((← extractString head "protocol").filter (· ≠ "")).getD "rdc"
      let reportUrl ← extractString head "report_url"
      let taskUrl ← extractString head "task_url"
      let workspacePath ← extractString head "workspace_path"
      let summary ← extractString head "summary"
      let callbackError ← extractString end_ "callback_error"
      pure (some { taskId, status, request, protocol, createdAt, updatedAt, reportUrl, taskUrl,
                   workspacePath, summary, enforcementResult := some enforcementResult,
                   callbackSucceeded, callbackError, callbackOverride, fixSessions })
  | _, _, _, _ => throw (.valueError "required record summary fields not found")

/-! The listing. -/

/-- A record's file: when it was changed last, and its text. -/
structure File (D : Type) where
  mtime : D
  text : List Char

/-- The records that a file or its summary gives, newest first; a record whose
summary fails is left out. `none` when one of them does not come to an end. -/
def listRecordSummaries (fuel : ℕ) (files : List (File D)) (since : Option D) (limit : ℕ) :
    Option (List (CiTaskRecord D)) := do
  let candidates := files.mergeSort fun a b => !times.earlier a.mtime b.mtime
  let recent := candidates.takeWhile fun f => !since.any fun s => times.earlier f.mtime s
  let records ← recent.mapM fun f =>
    match loadRecordSummary times registered fuel f.text since with
    | .error .running => none
    | .error _ => some none
    | .ok record => some (record.filter fun r => !since.any fun s => times.earlier r.createdAt s)
  let sorted := (records.filterMap id).mergeSort fun a b => !times.earlier a.createdAt b.createdAt
  some (sorted.take (max 1 limit))

end Uta.Ci.Store
