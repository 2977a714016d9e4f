/- A summary against the whole record: when the ends of the file tell the record's
own fields, and what they tell otherwise. -/
import Uta.Ci.Extraction

namespace Uta.Ci.Store
open Uta.Lib Json Places

variable {D : Type} (times : Times D) (registered : List String)

/-! Loading a saved record. -/

theorem objects?_map (sessions : List (List (String × Json))) :
    objects? (.arr (sessions.map .obj)) = some sessions := by
  induction sessions with
  | nil => rfl
  | cons session sessions ih =>
      simp only [objects?, List.map_cons, List.mapM_cons, Json.fields?] at ih ⊢
      rw [ih]
      rfl

theorem optional?_optional (value : Option String) :
    optional? (optional value) = some value := by
  cases value <;> rfl

theorem optionalObject?_optionalObject (value : Option (List (String × Json))) :
    optionalObject? (optionalObject value) = some value := by
  cases value <;> rfl

theorem statusOf_statusText (s : CiTaskStatus) : statusOf (statusText s) = some s := by
  cases s <;> decide

theorem fields_distinct (r : CiTaskRecord D) : ((r.fields times).map Prod.fst).Nodup := by
  have keys : (r.fields times).map Prod.fst = ["task_id", "status", "request", "protocol",
    "created_at", "updated_at", "report_url", "task_url", "workspace_path", "summary",
    "enforcement_result", "callback_history", "callback_succeeded", "callback_error",
    "callback_override", "fix_sessions", "gate_override"] := rfl
  rw [keys]
  decide

theorem get_field {r : CiTaskRecord D} {i : ℕ} {key : String} {v : Json}
    (at_ : (r.fields times)[i]? = some (key, v)) : Dict.get? (r.fields times) key = some v := by
  have distinct := fields_distinct times r
  generalize r.fields times = fields at *
  exact Dict.get?_of_mem (e := (key, v)) distinct (List.mem_of_getElem? at_)

/-- The first of the names is there. -/
theorem choose_first {fields : List (String × Json)} {key : String} {v : Json}
    (found : Dict.get? fields key = some v) (others : List String) :
    choose (key :: others) fields = some v := by
  rw [choose, List.findSome?_cons, found]

theorem requiredText_first {fields : List (String × Json)} {key : String} {v : Json}
    (found : Dict.get? fields key = some v) (others : List String) :
    requiredText (key :: others) fields = string? v := by
  rw [requiredText, choose_first found, Option.bind_some]

theorem optionalText_first {fields : List (String × Json)} {key : String} {v : Json}
    (found : Dict.get? fields key = some v) (others : List String) :
    optionalText (key :: others) fields = optional? v := by
  rw [optionalText, choose_first found]

theorem field_one {α : Type} {fields : List (String × Json)} {key : String} {v : Json} (absent : α)
    {read : Json → Option α} (found : Dict.get? fields key = some v) :
    field fields key absent read = read v := by
  rw [field, found]

theorem validate_fields (r : CiTaskRecord D) (now : D) :
    CiTaskRecord.validate times registered now (.obj (r.fields times)) =
      (CiTriggerRequest.validate registered r.request.dump).bind fun request =>
      (times.validate (times.isoText r.createdAt)).bind fun createdAt =>
      (times.validate (times.isoText r.updatedAt)).bind fun updatedAt =>
        some { r with request, createdAt, updatedAt } := by
  have get : ∀ i key v, (r.fields times)[i]? = some (key, v) →
      Dict.get? (r.fields times) key = some v := fun _ _ _ at_ => get_field times at_
  have status : (string? (.str (statusText r.status))).bind statusOf = some r.status :=
    statusOf_statusText r.status
  rw [CiTaskRecord.validate, Json.fields?, Option.bind_eq_bind, Option.bind_some]
  rw [requiredText_first (get 0 "task_id" _ rfl) [], requiredText_first (get 1 "status" _ rfl) [],
    get 2 "request" _ rfl, field_one _ (get 3 "protocol" _ rfl),
    field_one _ (get 4 "created_at" _ rfl), field_one _ (get 5 "updated_at" _ rfl),
    optionalText_first (get 6 "report_url" _ rfl) [], optionalText_first (get 7 "task_url" _ rfl) [],
    optionalText_first (get 8 "workspace_path" _ rfl) [], optionalText_first (get 9 "summary" _ rfl) [],
    field_one _ (get 10 "enforcement_result" _ rfl), field_one _ (get 11 "callback_history" _ rfl),
    field_one _ (get 12 "callback_succeeded" _ rfl), optionalText_first (get 13 "callback_error" _ rfl) [],
    field_one _ (get 14 "callback_override" _ rfl), field_one _ (get 15 "fix_sessions" _ rfl),
    field_one _ (get 16 "gate_override" _ rfl), objects?_map, objects?_map, optional?_optional,
    optional?_optional, optional?_optional, optional?_optional, optional?_optional,
    optionalObject?_optionalObject, optionalObject?_optionalObject,
    optionalObject?_optionalObject, status]
  simp only [string?, bool?, Option.bind_eq_bind, Option.bind_some]

/-- The pairs that a request is saved as. -/
def requestFields (r : CiTriggerRequest) : List (String × Json) :=
  match r.dump with
  | .obj fields => fields
  | _ => []

theorem request_distinct (r : CiTriggerRequest) : ((requestFields r).map Prod.fst).Nodup := by
  have keys : (requestFields r).map Prod.fst = ["app_name", "git_url", "branch", "commit_id",
    "jira_id", "operator", "spec_context", "task_id", "record_id", "parent_id",
    "task_template_id", "pipeline_id", "sprint_id", "app_type", "stage", "language",
    "metadata"] := rfl
  rw [keys]
  decide

/-- What the validation makes of the request that a record was saved with. -/
theorem validate_dump (r : CiTriggerRequest) : CiTriggerRequest.validate registered r.dump =
    (nonEmpty r.appName).bind fun appName => (nonEmpty r.gitUrl).bind fun gitUrl =>
      (nonEmpty r.branch).bind fun branch =>
      (supportedLanguage registered r.language).bind fun language =>
        some { r with appName, gitUrl, branch, language } := by
  have get : ∀ (i : ℕ) {key : String} {v : Json}, (requestFields r)[i]? = some (key, v) →
      Dict.get? (requestFields r) key = some v := fun i key v at_ =>
    Dict.get?_of_mem (e := (key, v)) (request_distinct r) (List.mem_of_getElem? at_)
  have dumped : r.dump = .obj (requestFields r) := rfl
  rw [dumped, CiTriggerRequest.validate, Json.fields?, Option.bind_eq_bind, Option.bind_some]
  rw [requiredText_first (get 0 rfl), requiredText_first (get 1 rfl),
    requiredText_first (get 2 rfl), optionalText_first (get 3 rfl), optionalText_first (get 4 rfl),
    optionalText_first (get 5 rfl), optionalText_first (get 6 rfl), optionalText_first (get 7 rfl),
    optionalText_first (get 8 rfl), optionalText_first (get 9 rfl),
    optionalText_first (get 10 rfl), optionalText_first (get 11 rfl),
    optionalText_first (get 12 rfl), optionalText_first (get 13 rfl),
    optionalText_first (get 14 rfl), choose_first (get 15 rfl), get 16 rfl,
    optional?_optional, optional?_optional, optional?_optional, optional?_optional,
    optional?_optional, optional?_optional, optional?_optional, optional?_optional,
    optional?_optional, optional?_optional, optional?_optional, optional?_optional]
  simp only [string?, Option.bind_eq_bind, Option.bind_some, Json.fields?]

theorem load_saved (r : CiTaskRecord D) (now : D) :
    load times registered now (saved times r) =
      (CiTriggerRequest.validate registered r.request.dump).bind fun request =>
      (times.validate (times.isoText r.createdAt)).bind fun createdAt =>
      (times.validate (times.isoText r.updatedAt)).bind fun updatedAt =>
        some { compactReadableRecord r with request, createdAt, updatedAt } := by
  rw [load, saved, loads_print, Option.bind_some, validate_fields]
  rfl

/-! The saved text, split at a field. -/

def fieldsText (fields : List (String × Json)) : List Char :=
  fields.flatMap fun f => quote false f.1 ++ ':' :: (print false f.2 ++ [','])

/-- The text before a field. -/
def before (fields : List (String × Json)) (key : String) : List Char :=
  '{' :: fieldsText (fields.takeWhile fun f => f.1 ≠ key)

/-- The text from a field on. -/
def own (fields : List (String × Json)) (key : String) : List Char :=
  printFields false (fields.dropWhile fun f => f.1 ≠ key) ++ ['}']

theorem printFields_append (xs : List (String × Json)) {ys : List (String × Json)}
    (filled : ys ≠ []) :
    printFields false (xs ++ ys) = fieldsText xs ++ printFields false ys := by
  induction xs with
  | nil => rfl
  | cons x xs ih =>
      obtain ⟨y, rest, shape⟩ := List.exists_cons_of_ne_nil (l := xs ++ ys) (by simp [filled])
      rw [List.cons_append, printFields, shape, printMoreFields_cons, ← shape, ih, fieldsText,
        fieldsText, List.flatMap_cons]
      simp [List.append_assoc]

theorem split_at {fields : List (String × Json)} (distinct : (fields.map Prod.fst).Nodup) {i : ℕ}
    {key : String} {v : Json} (at_ : fields[i]? = some (key, v)) :
    fields.takeWhile (fun f => f.1 ≠ key) = fields.take i ∧
      fields.dropWhile (fun f => f.1 ≠ key) = (key, v) :: fields.drop (i + 1) := by
  induction fields generalizing i with
  | nil => cases at_
  | cons f fields ih =>
      rw [List.map_cons, List.nodup_cons] at distinct
      cases i with
      | zero =>
          obtain rfl : f = (key, v) := by simpa using at_
          simp
      | succ i =>
          rw [List.getElem?_cons_succ] at at_
          have member : key ∈ fields.map Prod.fst :=
            List.mem_map.mpr ⟨_, List.mem_of_getElem? at_, rfl⟩
          have other : f.1 ≠ key := fun same => distinct.1 (same ▸ member)
          obtain ⟨front, back⟩ := ih distinct.2 at_
          have keep : decide (f.1 ≠ key) = true := decide_eq_true other
          rw [List.takeWhile_cons, List.dropWhile_cons, if_pos keep, if_pos keep, front, back]
          exact ⟨rfl, rfl⟩

section

variable {times} {r : CiTaskRecord D} {i : ℕ} {key : String} {v : Json}

theorem own_eq (at_ : (r.fields times)[i]? = some (key, v)) : own (r.fields times) key =
    keyedText key v (printMoreFields false ((r.fields times).drop (i + 1)) ++ ['}']) := by
  rw [own, (split_at (fields_distinct times r) at_).2, printFields, keyedText]
  simp [List.append_assoc]

theorem text_split (at_ : (r.fields times)[i]? = some (key, v)) :
    print false (.obj (r.fields times)) = before (r.fields times) key ++ own (r.fields times) key := by
  have filled : (r.fields times).dropWhile (fun f => f.1 ≠ key) ≠ [] := by
    rw [(split_at (fields_distinct times r) at_).2]
    exact List.cons_ne_nil _ _
  have parts := List.takeWhile_append_dropWhile (p := fun f : String × Json => decide (f.1 ≠ key))
    (l := r.fields times)
  rw [print, before, own]
  conv_lhs => rw [← parts]
  rw [printFields_append _ filled]
  simp [List.append_assoc]

theorem before_eq (at_ : (r.fields times)[i]? = some (key, v)) :
    before (r.fields times) key = '{' :: fieldsText ((r.fields times).take i) := by
  rw [before, (split_at (fields_distinct times r) at_).1]

end

/-! When the ends of the file tell the record's own fields. -/

/-- The field is within the end of the file, and nothing is read there before it. -/
def Told {β : Type} (read : List Char → Option β) (end_ own : List Char) : Prop :=
  own <:+ end_ ∧ Silent read (end_.take (end_.length - own.length)) own

instance {β : Type} (read : List Char → Option β) (end_ own : List Char) :
    Decidable (Told read end_ own) := inferInstanceAs (Decidable (_ ∧ _))

/-- The part of a session that is read reaches the marker it was found by. -/
def Progresses (fragment : List Char) : Prop :=
  ∀ sessionMarker ∈ List.range fragment.length, mark "sessionId" <+: fragment.drop sessionMarker →
    ∀ objectStart ∈ rfind ['{'] fragment sessionMarker,
      sessionMarker ≤ sessionEnd fragment sessionMarker objectStart

instance (fragment : List Char) : Decidable (Progresses fragment) :=
  inferInstanceAs (Decidable (∀ _ ∈ List.range fragment.length, _))

def marked (key : String) (place : List Char) : Option (List Char) := place.dropPrefix? (mark key)

/-- The record's own fields are what a search of the ends of its text meets. -/
structure Readable (r : CiTaskRecord D) : Prop where
  named : r.taskId ≠ ""
  history : r.callbackHistory = []
  fits : (before ((compactReadableRecord r).fields times) "report_url").length ≤ 64 * 1024 + 1
  request : Silent (marked "request") (before ((compactReadableRecord r).fields times) "request")
    (own ((compactReadableRecord r).fields times) "request")
  created : Silent (keyed "created_at" scalarText)
    (before ((compactReadableRecord r).fields times) "created_at")
    (own ((compactReadableRecord r).fields times) "created_at")
  updated : Silent (keyed "updated_at" scalarText)
    (before ((compactReadableRecord r).fields times) "updated_at")
    (own ((compactReadableRecord r).fields times) "updated_at")
  succeeded : Told (keyed "callback_succeeded" scalarText) (readTail (saved times r))
      (own ((compactReadableRecord r).fields times) "callback_succeeded") ∨
    r.callbackSucceeded = false ∧
      Mute (keyed "callback_succeeded" scalarText) (readTail (saved times r))
  error : Told (keyed "callback_error" scalarText) (readTail (saved times r))
      (own ((compactReadableRecord r).fields times) "callback_error") ∨
    r.callbackError = none ∧ Mute (keyed "callback_error" scalarText) (readTail (saved times r))
  override : Told (marked "callback_override") (readTail (saved times r))
      (own ((compactReadableRecord r).fields times) "callback_override") ∨
    r.callbackOverride = none ∧ Mute (marked "callback_override") (readTail (saved times r))
  sessions : Final (marked "fix_sessions")
    (own ((compactReadableRecord r).fields times) "fix_sessions")
  progress : r.fixSessions = [] ∨
      ¬ own ((compactReadableRecord r).fields times) "fix_sessions" <:+ readTail (saved times r) →
    Progresses (sessionFragment (saved times r))

/-- What the claim is about: who the record is, what it asked for, how it stands
and how it was called back. -/
structure Agrees (s r : CiTaskRecord D) : Prop where
  taskId : s.taskId = r.taskId
  request : s.request = r.request
  status : s.status = r.status
  createdAt : s.createdAt = r.createdAt
  updatedAt : s.updatedAt = r.updatedAt
  callbackHistory : s.callbackHistory = r.callbackHistory
  callbackSucceeded : s.callbackSucceeded = r.callbackSucceeded
  callbackError : s.callbackError = r.callbackError
  callbackOverride : s.callbackOverride = r.callbackOverride

/-! The beginning of the file. -/

theorem marked_grows (key : String) : Grows (marked key) := by
  intro text more found
  obtain ⟨rest, found⟩ := Option.isSome_iff_exists.mp found
  obtain ⟨front, rfl, same⟩ := List.dropPrefix?_eq_some_iff.mp found
  rw [marked, List.append_assoc, List.dropPrefix?_append_of_beq _ same]
  rfl

theorem scalar_grows (key : String) : Grows (keyed key scalarText) :=
  keyed_grows key (fun _ more _ read => scalarText_append read more) rfl

theorem fieldsText_take_length (fields : List (String × Json)) {m n : ℕ} (le : m ≤ n) :
    (fieldsText (fields.take m)).length ≤ (fieldsText (fields.take n)).length := by
  obtain ⟨more, split⟩ : fields.take m <+: fields.take n := List.take_prefix_take_left le
  rw [← split, fieldsText, fieldsText, List.flatMap_append, List.length_append]
  exact Nat.le_add_right _ _

section

variable {times} {r : CiTaskRecord D} {i : ℕ} {key : String} {v : Json}
  (fits : (before (r.fields times) "report_url").length ≤ 64 * 1024 + 1)
include fits

/-- A field up to the times is within the beginning. -/
theorem readPrefix_own (at_ : (r.fields times)[i]? = some (key, v)) (early : i < 6) :
    ∃ rest more, readPrefix (print false (.obj (r.fields times))) =
        before (r.fields times) key ++ keyedText key v rest ∧
      own (r.fields times) key = keyedText key v rest ++ more := by
  have inside : (before (r.fields times) key ++ keyedText key v []).length ≤ 64 * 1024 := by
    have next := List.take_add_one (l := r.fields times) (i := i)
    rw [at_] at next
    have whole : (before (r.fields times) key ++ keyedText key v []).length + 1 =
        ('{' :: fieldsText ((r.fields times).take (i + 1))).length := by
      rw [before_eq at_, next, fieldsText, fieldsText, List.flatMap_append, keyedText]
      simp
      omega
    have bound := fieldsText_take_length (r.fields times) (m := i + 1) (n := 6) early
    have last : before (r.fields times) "report_url" =
        '{' :: fieldsText ((r.fields times).take 6) := before_eq (i := 6) rfl
    rw [last, List.length_cons] at fits
    rw [List.length_cons] at whole
    omega
  have shape := own_eq at_
  generalize printMoreFields false ((r.fields times).drop (i + 1)) ++ ['}'] = rest at shape
  have apart : keyedText key v rest = keyedText key v [] ++ rest := by simp [keyedText]
  let room := 64 * 1024 - (before (r.fields times) key ++ keyedText key v []).length
  refine ⟨rest.take room, rest.drop room, ?_, ?_⟩
  · rw [text_split at_, shape, apart, ← List.append_assoc, readPrefix, List.take_append,
      List.take_of_length_le inside]
    simp [keyedText, room]
  · rw [shape]
    simp [keyedText, List.take_append_drop]

/-- What a search for a key of the beginning finds. -/
theorem extractString_own (at_ : (r.fields times)[i]? = some (key, v)) (early : i < 6)
    (plain : PlainKey key) (literal : ∀ rest, scalarText (print false v ++ rest) = some (print false v))
    (silent : Silent (keyed key scalarText) (before (r.fields times) key) (own (r.fields times) key)) :
    extractString (readPrefix (print false (.obj (r.fields times)))) key = .ok (string? v) := by
  obtain ⟨rest, more, shape, whole⟩ := readPrefix_own fits at_ early
  rw [whole] at silent
  rw [shape, extractString, extractJsonScalar_own plain (literal rest)
    (silent.shrink (scalar_grows key))]
  rfl

theorem extractRequest_own (at_ : (r.fields times)[i]? = some (key, v)) (early : i < 6)
    (plain : PlainKey key) (delimited : Delimited v)
    (silent : Silent (marked key) (before (r.fields times) key) (own (r.fields times) key)) :
    extractJsonValue (readPrefix (print false (.obj (r.fields times)))) key false = .ok v := by
  obtain ⟨rest, more, shape, whole⟩ := readPrefix_own fits at_ early
  rw [whole] at silent
  rw [shape]
  exact extractJsonValue_first plain delimited (silent.shrink (marked_grows key))

end

/-! The end of the file. -/

theorem Told.split {β : Type} {read : List Char → Option β} {end_ own : List Char}
    (told : Told read end_ own) : ∃ front, end_ = front ++ own ∧ Silent read front own :=
  ⟨_, (List.suffix_iff_eq_append.mp told.1).symm, told.2⟩

theorem scalarText_bool (b : Bool) (rest : List Char) :
    scalarText (print false (.bool b) ++ rest) = some (print false (.bool b)) := by
  cases b with
  | true => rw [print]; exact scalarText_word (by decide) rest
  | false => rw [print]; exact scalarText_word (by decide) rest

theorem scalarText_str (s : String) (rest : List Char) :
    scalarText (print false (.str s) ++ rest) = some (print false (.str s)) := by
  rw [print]
  exact scalarText_quote s rest

theorem scalarText_optional (value : Option String) (rest : List Char) :
    scalarText (print false (optional value) ++ rest) = some (print false (optional value)) := by
  cases value with
  | none => rw [optional, print]; exact scalarText_word (by decide) rest
  | some s => exact scalarText_str s rest

section

variable {times} {r : CiTaskRecord D} {i : ℕ} {key : String} {v : Json} {end_ : List Char}

theorem extractJsonScalar_told (at_ : (r.fields times)[i]? = some (key, v)) (plain : PlainKey key)
    (literal : ∀ rest, scalarText (print false v ++ rest) = some (print false v))
    (told : Told (keyed key scalarText) end_ (own (r.fields times) key)) :
    extractJsonScalar end_ key = .ok v := by
  obtain ⟨front, rfl, silent⟩ := told.split
  rw [own_eq at_] at silent ⊢
  exact extractJsonScalar_own plain (literal _) silent

theorem extractBool_told {b : Bool} (at_ : (r.fields times)[i]? = some (key, .bool b))
    (plain : PlainKey key)
    (told : Told (keyed key scalarText) end_ (own (r.fields times) key) ∨
      b = false ∧ Mute (keyed key scalarText) end_) :
    ∃ found, extractBool end_ key = .ok found ∧ found.getD false = b := by
  rcases told with told | ⟨rfl, mute⟩
  · refine ⟨some b, ?_, rfl⟩
    rw [extractBool, extractJsonScalar_told at_ plain (scalarText_bool b) told]
    rfl
  · refine ⟨none, ?_, rfl⟩
    rw [extractBool, extractJsonScalar_mute mute]
    rfl

theorem extractString_told {value : Option String}
    (at_ : (r.fields times)[i]? = some (key, optional value)) (plain : PlainKey key)
    (told : Told (keyed key scalarText) end_ (own (r.fields times) key) ∨
      value = none ∧ Mute (keyed key scalarText) end_) :
    extractString end_ key = .ok value := by
  rcases told with told | ⟨rfl, mute⟩
  · rw [extractString, extractJsonScalar_told at_ plain (scalarText_optional value) told]
    cases value <;> rfl
  · rw [extractString, extractJsonScalar_mute mute]
    rfl

theorem extractObject_told {value : Option (List (String × Json))}
    (at_ : (r.fields times)[i]? = some (key, optionalObject value)) (plain : PlainKey key)
    (told : Told (marked key) end_ (own (r.fields times) key) ∨
      value = none ∧ Mute (marked key) end_) :
    ∃ found, extractJsonValue end_ key false = .ok found ∧ found.fields? = value := by
  rcases told with told | ⟨rfl, mute⟩
  · refine ⟨optionalObject value, ?_, by cases value <;> rfl⟩
    obtain ⟨front, rfl, silent⟩ := told.split
    rw [own_eq at_] at silent ⊢
    have delimited : Delimited (optionalObject value) := by cases value <;> trivial
    exact extractJsonValue_first plain delimited silent
  · exact ⟨.null, extractJsonValue_mute false mute, rfl⟩

end

/-! Sessions. -/

section

variable {text fragment : List Char} (lexed : Lexed text)
include lexed

theorem sessionSummary_within {segment : List Char} (within : segment <:+: text) :
    ∃ session, sessionSummary segment = .ok session := by
  obtain ⟨id, found⟩ := extractString_within lexed within (show PlainKey "sessionId" by decide)
  have texts : ∀ keys : List String, (∀ key ∈ keys, PlainKey key) →
      ∃ values, (keys.mapM fun key => (extractString segment key).map fun value =>
        value.toList.map fun v => (key, Json.str v)) = Except.ok values := by
    intro keys plain
    induction keys with
    | nil => exact ⟨[], rfl⟩
    | cons key keys ih =>
        obtain ⟨value, read⟩ := extractString_within lexed within (plain key (by simp))
        obtain ⟨values, rest⟩ := ih fun k member => plain k (by simp [member])
        refine ⟨(value.toList.map fun v => (key, Json.str v)) :: values, ?_⟩
        rw [List.mapM_cons, rest, read]
        rfl
  obtain ⟨values, read⟩ := texts ["status", "repoTaskStatus", "repoTaskStage", "repoTaskDetail",
    "createdAt", "updatedAt", "canonicalTaskId", "canonicalTaskUrl"] (by decide)
  rw [sessionSummary, found]
  cases id with
  | none => exact ⟨none, rfl⟩
  | some id =>
      by_cases empty : id = ""
      · exact ⟨none, if_pos empty⟩
      · change ∃ session, (if id = "" then pure none else _) = Except.ok session
        rw [if_neg empty, read]
        exact ⟨_, rfl⟩

/-- The loop over the sessions comes to an end. -/
theorem sessionsFrom_ends (within : fragment <:+: text) (progresses : Progresses fragment)
    {fuel position : ℕ} (enough : fragment.length - position < fuel) :
    ∃ sessions, sessionsFrom fragment fuel position = .ok sessions := by
  induction fuel generalizing position with
  | zero => exact absurd enough (Nat.not_lt_zero _)
  | succ fuel ih =>
      rw [sessionsFrom]
      by_cases past : fragment.length ≤ position
      · exact ⟨[], if_pos past⟩
      · rw [if_neg past]
        cases met : find (mark "sessionId") fragment position with
        | none => exact ⟨[], rfl⟩
        | some sessionMarker =>
            obtain ⟨after, inside, occurs⟩ := find_spec met
            cases opened : rfind ['{'] fragment sessionMarker with
            | none => exact ⟨[], by simp only [opened]; rfl⟩
            | some objectStart =>
                have reaches := progresses sessionMarker (List.mem_range.mpr inside) occurs
                  objectStart (by rw [opened]; rfl)
                let objectEnd := sessionEnd fragment sessionMarker objectStart
                have segment : (fragment.take objectEnd).drop objectStart <:+: text :=
                  ((List.drop_suffix _ _).isInfix.trans (List.take_prefix _ _).isInfix).trans within
                obtain ⟨session, read⟩ := sessionSummary_within lexed segment
                have later : fragment.length - (objectEnd + 1) < fuel := by
                  have bound : sessionMarker ≤ objectEnd := reaches
                  omega
                obtain ⟨sessions, rest⟩ := ih later
                refine ⟨session.toList ++ sessions, ?_⟩
                simp only [objectEnd] at read rest
                simp only [opened, read, rest]
                rfl

omit lexed in
theorem sessionFragment_within : sessionFragment text <:+: text := by
  rw [sessionFragment]
  cases findLastMarkerOffset (1024 * 1024) text (mark "fix_sessions") with
  | none => exact List.nil_infix
  | some offset =>
      exact (headWithin_front _ _ _).isInfix.trans (List.drop_suffix offset text).isInfix

theorem extractFixSessionSummaries_ends (progresses : Progresses (sessionFragment text)) {fuel : ℕ}
    (enough : text.length < fuel) :
    ∃ sessions, extractFixSessionSummaries fuel text = .ok sessions := by
  rw [extractFixSessionSummaries]
  have within : sessionFragment text <:+: text := sessionFragment_within
  cases found : find ['['] (sessionFragment text) 0 with
  | none => exact ⟨[], rfl⟩
  | some arrayStart =>
      have shorter := within.length_le
      have room : (sessionFragment text).length - (arrayStart + 1) < fuel := by omega
      obtain ⟨sessions, ends⟩ := sessionsFrom_ends lexed within progresses room
      exact ⟨sessions, ends⟩

theorem extractEnforcementSummary_within {head : List Char} (within : head <:+: text) :
    ∃ result, extractEnforcementSummary head = .ok result := by
  rw [extractEnforcementSummary]
  cases found : first (fun place =>
      if (mark "enforcement_result").isPrefixOf place then some place else none) head with
  | none => exact ⟨[], rfl⟩
  | some snippet =>
      obtain ⟨place, suffix, reads⟩ := exists_of_first found
      obtain rfl : place = snippet := by
        split at reads
        · exact Option.some.inj reads
        · cases reads
      have part := suffix.isInfix.trans within
      obtain ⟨status, first⟩ := extractString_within lexed part (show PlainKey "status" by decide)
      obtain ⟨passed, second⟩ := extractBool_within lexed part (show PlainKey "passed" by decide)
      simp only [first, second]
      exact ⟨_, rfl⟩

end

section

variable {times} {r : CiTaskRecord D}

theorem saved_lexed : Lexed (saved times r) := by
  have lexed := print_lexed (.obj ((compactReadableRecord r).fields times)) []
    (fun _ none_ => by cases none_) .nil
  rwa [List.append_nil] at lexed

theorem mapM_fields (sessions : List (List (String × Json))) :
    (sessions.map Json.obj).mapM Json.fields? = some sessions := objects?_map sessions

theorem summarySessions_array {fuel : ℕ} {text : List Char}
    {sessions : List (List (String × Json))}
    (read : extractJsonValue (readTail text) "fix_sessions" true = .ok (.arr (sessions.map .obj)))
    (filled : sessions ≠ []) : summarySessions fuel text = .ok sessions := by
  have more : ¬ (sessions.map Json.obj).isEmpty = true := by simpa using filled
  rw [summarySessions, read]
  refine (if_neg more).trans ?_
  rw [mapM_fields]
  rfl

theorem summarySessions_none {fuel : ℕ} {text : List Char} {v : Json} (absent : v = .null ∨ v = .arr [])
    (read : extractJsonValue (readTail text) "fix_sessions" true = .ok v) :
    summarySessions fuel text = extractFixSessionSummaries fuel text := by
  rw [summarySessions, read]
  rcases absent with rfl | rfl <;> rfl

theorem sessions_own : own ((compactReadableRecord r).fields times) "fix_sessions" =
    keyedText "fix_sessions" (.arr ((r.fixSessions.map compactSession).map .obj))
      (printMoreFields false (((compactReadableRecord r).fields times).drop 16) ++ ['}']) :=
  own_eq (i := 15) rfl

/-- The field is read when it is within the end of the file. -/
theorem sessions_told (readable : Readable times r)
    (inside : own ((compactReadableRecord r).fields times) "fix_sessions" <:+
      readTail (saved times r)) :
    extractJsonValue (readTail (saved times r)) "fix_sessions" true =
      .ok (.arr ((r.fixSessions.map compactSession).map .obj)) := by
  have final := readable.sessions
  obtain ⟨front, split⟩ := inside
  rw [← split]
  rw [sessions_own] at final ⊢
  have delimited : Delimited (.arr ((r.fixSessions.map compactSession).map .obj)) := True.intro
  exact extractJsonValue_last (by decide) delimited front final

/-- Nothing is read when it is not. -/
theorem sessions_untold (readable : Readable times r)
    (outside : ¬ own ((compactReadableRecord r).fields times) "fix_sessions" <:+
      readTail (saved times r)) :
    extractJsonValue (readTail (saved times r)) "fix_sessions" true = .ok .null := by
  have at_ : ((compactReadableRecord r).fields times)[15]? =
      some ("fix_sessions", .arr ((r.fixSessions.map compactSession).map .obj)) := rfl
  have whole : own ((compactReadableRecord r).fields times) "fix_sessions" <:+ saved times r :=
    ⟨_, (text_split at_).symm⟩
  have part : readTail (saved times r) <:+ own ((compactReadableRecord r).fields times) "fix_sessions" :=
    (List.suffix_or_suffix_of_suffix (tailWithin_back _ _ _) whole).resolve_right outside
  have final := readable.sessions
  refine extractJsonValue_mute true (Mute.of_suffix final ?_)
  generalize own ((compactReadableRecord r).fields times) "fix_sessions" = text at part outside
  cases text with
  | nil => exact part
  | cons c rest =>
      rcases List.suffix_cons_iff.mp part with same | within
      · exact absurd (same ▸ List.suffix_rfl) outside
      · exact within

/-- The sessions are found, in the end of the file or by the loop. -/
theorem summarySessions_ends (readable : Readable times r) {fuel : ℕ}
    (enough : (saved times r).length < fuel) :
    ∃ sessions, summarySessions fuel (saved times r) = .ok sessions := by
  by_cases inside : own ((compactReadableRecord r).fields times) "fix_sessions" <:+
      readTail (saved times r)
  · have read := sessions_told readable inside
    by_cases none_ : r.fixSessions = []
    · rw [none_] at read
      rw [summarySessions_none (.inr rfl) read]
      exact extractFixSessionSummaries_ends saved_lexed (readable.progress (.inl none_)) enough
    · exact ⟨_, summarySessions_array read (by simpa using none_)⟩
  · rw [summarySessions_none (.inl rfl) (sessions_untold readable inside)]
    exact extractFixSessionSummaries_ends saved_lexed (readable.progress (.inr inside)) enough

/-! The two first keys meet nothing before them. -/

theorem taskId_silent : Silent (keyed "task_id" scalarText)
    (before (r.fields times) "task_id") (own (r.fields times) "task_id") := by
  rw [before_eq (i := 0) (v := .str r.taskId) rfl]
  exact silent_char (by decide) _

theorem status_silent : Silent (keyed "status" scalarText)
    (before (r.fields times) "status") (own (r.fields times) "status") := by
  have front : before (r.fields times) "status" =
      ['{'] ++ (quote false "task_id" ++ ([':'] ++ (quote false r.taskId ++ [',']))) := by
    rw [before_eq (i := 1) (v := .str (statusText r.status)) rfl]
    simp [CiTaskRecord.fields, fieldsText, print]
  rw [front]
  refine silent_append.mpr ⟨silent_char (by decide) _, silent_append.mpr ⟨?_, silent_append.mpr
    ⟨silent_char (by decide) _, silent_append.mpr ⟨?_, silent_char (by decide) _⟩⟩⟩⟩
  · exact silent_quote (by decide) (.cons (by decide) _) (.inl (by decide))
  · exact silent_quote (by decide) (.cons (by decide) _) (.inr fun more same => by cases same)

variable (times) in
theorem parseDatetime_isoText (d : D) : parseDatetime times (some (times.isoText d)) =
    match times.validate (times.isoText d) with
    | some time => pure (some time)
    | none => throw (.valueError "Invalid isoformat string") := by
  rw [parseDatetime]
  cases read : times.validate (times.isoText d) <;>
    simp only [times.isoText_filled d, if_false, times.same_reading d, read]

/-- What the beginning of the file tells. -/
theorem head_read (readable : Readable times r) :
    extractJsonValue (readPrefix (saved times r)) "request" false = .ok r.request.dump ∧
    extractString (readPrefix (saved times r)) "task_id" = .ok (some r.taskId) ∧
    extractString (readPrefix (saved times r)) "status" = .ok (some (statusText r.status)) ∧
    extractString (readPrefix (saved times r)) "created_at" =
      .ok (some (times.isoText r.createdAt)) ∧
    extractString (readPrefix (saved times r)) "updated_at" =
      .ok (some (times.isoText r.updatedAt)) := by
  have fits := readable.fits
  refine ⟨?_, ?_, ?_, ?_, ?_⟩
  · exact extractRequest_own fits (i := 2) rfl (by decide) (by decide) True.intro readable.request
  · exact extractString_own fits (i := 0) (v := .str r.taskId) rfl (by decide) (by decide)
      (scalarText_str _) taskId_silent
  · exact extractString_own fits (i := 1) (v := .str (statusText r.status)) rfl (by decide)
      (by decide) (scalarText_str _) status_silent
  · exact extractString_own fits (i := 4) (v := .str (times.isoText r.createdAt)) rfl (by decide)
      (by decide) (scalarText_str _) readable.created
  · exact extractString_own fits (i := 5) (v := .str (times.isoText r.updatedAt)) rfl (by decide)
      (by decide) (scalarText_str _) readable.updated

/-- What the end of the file tells. -/
theorem tail_read (readable : Readable times r) :
    (∃ found, extractBool (readTail (saved times r)) "callback_succeeded" = .ok found ∧
      found.getD false = r.callbackSucceeded) ∧
    extractString (readTail (saved times r)) "callback_error" = .ok r.callbackError ∧
    ∃ found, extractJsonValue (readTail (saved times r)) "callback_override" false = .ok found ∧
      found.fields? = r.callbackOverride := by
  refine ⟨?_, ?_, ?_⟩
  · exact extractBool_told (r := compactReadableRecord r) (i := 12) rfl (by decide)
      readable.succeeded
  · exact extractString_told (r := compactReadableRecord r) (i := 13) rfl (by decide)
      readable.error
  · exact extractObject_told (r := compactReadableRecord r) (i := 14) rfl (by decide)
      readable.override

end

theorem ok_bind {α β : Type} (a : α) (f : α → Except Failure β) : (Except.ok a >>= f) = f a := rfl

/-- A summary is made of what is read. -/
theorem loadRecordSummary_reads {text : List Char} {fuel : ℕ} (since : Option D)
    {requestRaw override : Json} {id status created updated : String} {createdAt updatedAt : D}
    {sessions : List (List (String × Json))} {result : List (String × Json)}
    {succeeded : Option Bool} {status' : CiTaskStatus} {request : CiTriggerRequest}
    {protocol reportUrl taskUrl workspacePath summary error : Option String}
    (readRequest : extractJsonValue (readPrefix text) "request" false = .ok requestRaw)
    (object : ¬ requestRaw.fields? = none)
    (readId : extractString (readPrefix text) "task_id" = .ok (some id))
    (readStatus : extractString (readPrefix text) "status" = .ok (some status))
    (readCreated : extractString (readPrefix text) "created_at" = .ok (some created))
    (readUpdated : extractString (readPrefix text) "updated_at" = .ok (some updated))
    (parsedCreated : parseDatetime times (some created) = .ok (some createdAt))
    (parsedUpdated : parseDatetime times (some updated) = .ok (some updatedAt))
    (filled : ¬ (id = "" ∨ status = ""))
    (readSessions : summarySessions fuel text = .ok sessions)
    (readResult : extractEnforcementSummary (readPrefix text) = .ok result)
    (readSucceeded : extractBool (readTail text) "callback_succeeded" = .ok succeeded)
    (readOverride : extractJsonValue (readTail text) "callback_override" false = .ok override)
    (known : statusOf status = some status')
    (valid : CiTriggerRequest.validate registered requestRaw = some request)
    (readProtocol : extractString (readPrefix text) "protocol" = .ok protocol)
    (readReportUrl : extractString (readPrefix text) "report_url" = .ok reportUrl)
    (readTaskUrl : extractString (readPrefix text) "task_url" = .ok taskUrl)
    (readWorkspacePath : extractString (readPrefix text) "workspace_path" = .ok workspacePath)
    (readSummary : extractString (readPrefix text) "summary" = .ok summary)
    (readError : extractString (readTail text) "callback_error" = .ok error) :
    loadRecordSummary times registered fuel text since =
      if since.any fun s => times.earlier createdAt s then .ok none
      else .ok (some {
        taskId := id, status := status', request, createdAt, updatedAt, reportUrl, taskUrl,
        workspacePath, summary, protocol := (protocol.filter (· ≠ "")).getD "rdc",
        enforcementResult := some result, callbackSucceeded := succeeded.getD false,
        callbackError := error, callbackOverride := override.fields?, fixSessions := sessions }) := by
  rw [loadRecordSummary, readRequest]
  change (if requestRaw.fields? = none then _ else _) = _
  rw [if_neg object]
  rw [readId, readStatus, readCreated, readUpdated]
  simp only [ok_bind, parsedCreated, parsedUpdated]
  rw [if_neg filled]
  split
  · rfl
  · rw [readSessions, readResult, readSucceeded, readOverride, known, valid, readProtocol,
      readReportUrl, readTaskUrl, readWorkspacePath, readSummary, readError]
    rfl

/-- Where the ends of a record's file tell its own fields, its summary agrees with
the whole record. -/
theorem summary_agrees (r : CiTaskRecord D) (readable : Readable times r) (now : D)
    (full : CiTaskRecord D) (loaded : load times registered now (saved times r) = some full)
    (since : Option D) (fuel : ℕ) (enough : (saved times r).length < fuel) :
    if since.any fun s => times.earlier full.createdAt s then
      loadRecordSummary times registered fuel (saved times r) since = .ok none
    else ∃ summary, loadRecordSummary times registered fuel (saved times r) since =
      .ok (some summary) ∧ Agrees summary full := by
  rw [load_saved] at loaded
  obtain ⟨request, requested, loaded⟩ := Option.bind_eq_some_iff.mp loaded
  obtain ⟨createdAt, created, loaded⟩ := Option.bind_eq_some_iff.mp loaded
  obtain ⟨updatedAt, updated, loaded⟩ := Option.bind_eq_some_iff.mp loaded
  obtain rfl := Option.some.inj loaded
  obtain ⟨readRequest, readId, readStatus, readCreated, readUpdated⟩ := head_read readable
  obtain ⟨⟨succeeded, readSucceeded, sameSucceeded⟩, readError, override, readOverride,
    sameOverride⟩ := tail_read readable
  obtain ⟨sessions, readSessions⟩ := summarySessions_ends readable enough
  have head : readPrefix (saved times r) <:+: saved times r := (List.take_prefix _ _).isInfix
  obtain ⟨result, readResult⟩ := extractEnforcementSummary_within saved_lexed head
  have others : ∀ key, PlainKey key → ∃ s, extractString (readPrefix (saved times r)) key = .ok s :=
    fun key plain => extractString_within saved_lexed head plain
  obtain ⟨protocol, readProtocol⟩ := others "protocol" (by decide)
  obtain ⟨reportUrl, readReportUrl⟩ := others "report_url" (by decide)
  obtain ⟨taskUrl, readTaskUrl⟩ := others "task_url" (by decide)
  obtain ⟨workspacePath, readWorkspacePath⟩ := others "workspace_path" (by decide)
  obtain ⟨summary, readSummary⟩ := others "summary" (by decide)
  have parsedCreated := parseDatetime_isoText times r.createdAt
  have parsedUpdated := parseDatetime_isoText times r.updatedAt
  rw [created] at parsedCreated
  rw [updated] at parsedUpdated
  have named := readable.named
  have statusFilled : statusText r.status ≠ "" := by cases r.status <;> decide
  have object : ¬ r.request.dump.fields? = none := by simp [CiTriggerRequest.dump, Json.fields?]
  have reads := loadRecordSummary_reads times registered since readRequest object readId readStatus
    readCreated readUpdated parsedCreated parsedUpdated
    (fun empty => empty.elim named statusFilled) readSessions readResult readSucceeded readOverride
    (statusOf_statusText r.status) requested readProtocol readReportUrl readTaskUrl
    readWorkspacePath readSummary readError
  rw [reads]
  change if (since.any fun s => times.earlier createdAt s) = true then _ else _
  by_cases early : (since.any fun s => times.earlier createdAt s) = true
  · rw [if_pos early]
    exact if_pos early
  · rw [if_neg early]
    refine ⟨_, if_neg early, ?_⟩
    exact {
      taskId := rfl
      request := rfl
      status := rfl
      createdAt := rfl
      updatedAt := rfl
      callbackHistory := readable.history.symm
      callbackSucceeded := sameSucceeded
      callbackError := rfl
      callbackOverride := sameOverride }

/-- The first ten seconds of a year. -/
def secondText (zone : String) (second : Fin 10) : String :=
  "2026-01-01T00:00:0" ++ String.ofList [Nat.digitChar second] ++ zone

def seconds : Times (Fin 10) where
  isoText := secondText "Z"
  validate text := (List.finRange 10).find? fun second => secondText "Z" second = text
  fromisoformat text := (List.finRange 10).find? fun second => secondText "+00:00" second = text
  earlier a b := decide (a < b)
  isoText_filled := by decide +kernel
  same_reading := by decide +kernel

def sampleRequest (metadata : List (String × Json)) : CiTriggerRequest where
  appName := "demo-app"
  gitUrl := "git@example:demo.git"
  branch := "main"
  commitId := none
  jiraId := none
  operator := none
  specContext := none
  taskId := none
  recordId := none
  parentId := none
  taskTemplateId := none
  pipelineId := none
  sprintId := none
  appType := none
  stage := none
  language := "java"
  metadata := metadata

def sampleRecord (metadata : List (String × Json)) : CiTaskRecord (Fin 10) where
  taskId := "ci-1"
  status := .running
  request := sampleRequest metadata
  createdAt := 1
  updatedAt := 2
  callbackError := some "no route to \"host\""
  callbackOverride := some [("passed", .bool true)]
  fixSessions := [[("rdcContext", .obj [("note", .str "created_at")]), ("sessionId", .str "s-1")]]

theorem sample_loads (metadata : List (String × Json)) :
    ∃ full, load seconds ["java"] 0 (saved seconds (sampleRecord metadata)) = some full ∧
      full.createdAt = 1 := by
  have valid : CiTriggerRequest.validate ["java"] (sampleRequest metadata).dump =
      some (sampleRequest metadata) := by
    have texts : ["demo-app", "git@example:demo.git", "main"].map nonEmpty =
        [some "demo-app", some "git@example:demo.git", some "main"] := by decide
    have language : supportedLanguage ["java"] "java" = some "java" := by decide
    simp only [List.map_cons, List.map_nil, List.cons.injEq, and_true] at texts
    rw [validate_dump]
    simp only [sampleRequest, texts, language, Option.bind_some]
  have first : seconds.validate (secondText "Z" 1) = some 1 := by decide
  have second : seconds.validate (secondText "Z" 2) = some 2 := by decide
  refine ⟨{ compactReadableRecord (sampleRecord metadata) with request := sampleRequest metadata }, ?_, rfl⟩
  rw [load_saved]
  change ((CiTriggerRequest.validate ["java"] (sampleRequest metadata).dump).bind fun request =>
    (seconds.validate (secondText "Z" 1)).bind fun createdAt =>
    (seconds.validate (secondText "Z" 2)).bind fun updatedAt => _) = _
  rw [valid, first, second]
  rfl

theorem sample_readable : Readable seconds (sampleRecord [("note", .str "\"created_at\":")]) where
  named := by decide
  history := rfl
  fits := by decide +kernel
  request := by decide +kernel
  created := by decide +kernel
  updated := by decide +kernel
  succeeded := by decide +kernel
  error := by decide +kernel
  override := by decide +kernel
  sessions := by decide +kernel
  progress := by decide +kernel

theorem summary_of_sample : ∃ full summary,
    load seconds ["java"] 0 (saved seconds (sampleRecord [("note", .str "\"created_at\":")])) =
      some full ∧
    loadRecordSummary seconds ["java"] 1000
      (saved seconds (sampleRecord [("note", .str "\"created_at\":")])) none = .ok (some summary) ∧
    Agrees summary full := by
  obtain ⟨full, loaded, _⟩ := sample_loads [("note", .str "\"created_at\":")]
  have agrees := summary_agrees seconds ["java"] _ sample_readable 0 full loaded none 1000
    (by decide +kernel)
  obtain ⟨summary, read, same⟩ := agrees
  exact ⟨full, summary, loaded, read, same⟩

theorem summary_disagrees : ¬ ∀ (r full : CiTaskRecord (Fin 10)),
    load seconds ["java"] 0 (saved seconds r) = some full →
      ∃ summary, loadRecordSummary seconds ["java"] ((saved seconds r).length + 1) (saved seconds r)
        none = .ok (some summary) ∧ Agrees summary full := by
  intro agrees
  obtain ⟨full, loaded, created⟩ := sample_loads [("created_at", .str "2026-01-01T00:00:09Z")]
  obtain ⟨summary, read, same⟩ := agrees _ full loaded
  have shadowed : ((loadRecordSummary seconds ["java"]
      ((saved seconds (sampleRecord [("created_at", .str "2026-01-01T00:00:09Z")])).length + 1)
      (saved seconds (sampleRecord [("created_at", .str "2026-01-01T00:00:09Z")])) none).toOption.join.elim
        0 fun summary => summary.createdAt) = 9 := by decide +kernel
  rw [read] at shadowed
  have wrong := same.createdAt.symm.trans shadowed
  rw [created] at wrong
  exact absurd wrong (by decide)

end Uta.Ci.Store
