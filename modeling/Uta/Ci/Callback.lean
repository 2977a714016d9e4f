/- Reporting the outcome of a check: the verdict a protocol sends, the attempts to send it, and what
an answer is read as. -/
import Uta.Lib.JsonLaws

namespace Uta.Ci.Callback
open Uta.Lib

/-- `CiResult`. -/
structure CiResult where
  passed : Bool
  summary : String
  reportUrl : String

/-- What comes of one request: an answer with its text, or an exception. -/
inductive Reply where
  | response (statusCode : ℤ) (text : List Char)
  | raised (error : String)

/-- A request as its endpoint gets it: the acknowledgement of a task, or a completed check run. -/
inductive Sent where
  | ack (state : ℤ) (passed : String) (score : ℕ) (taskId recordId taskTemplateId parentId operator
    url summary : String)
  | checkRun (owner repo name headSha conclusion title summary detailsUrl : String)

/-- An entry of the history, without its elapsed time; `request` is the request it repeats. -/
structure Entry where
  attempt : ℕ
  statusCode : Option ℤ := none
  body : Option (List Char) := none
  request : Option Sent := none
  error : Option String := none

/-- `CiCallbackOutcome`, and the requests that were sent for it. -/
structure Report where
  succeeded : Bool
  history : List Entry := []
  error : Option String := none
  sent : List Sent := []

/-! The attempts. -/

def answered (shown : Option Sent) (attempt : ℕ) (statusCode : ℤ) (text : List Char) : Entry :=
  { attempt, statusCode := some statusCode, body := some (text.take 1000), request := shown }

section Attempts
variable (request : Sent) (shown : Option Sent) (settle : List Char → Option String)
  (exhausted : String) (answer : ℕ → Reply)

/-- The loop over the attempts that are left, from one on. -/
def attempts : ℕ → ℕ → List Entry → List Sent → Report
  | 0, _, history, sent =>
    { succeeded := false, history := history, error := some exhausted, sent := sent }
  | left + 1, attempt, history, sent =>
    match answer attempt with
    | .raised error =>
      attempts left (attempt + 1) (history ++ [{ attempt, error := some error }]) (sent ++ [request])
    | .response statusCode text =>
      let history := history ++ [answered shown attempt statusCode text]
      if 200 ≤ statusCode ∧ statusCode < 300 then
        match settle text with
        | some mismatch =>
          { succeeded := false, history := history, error := some mismatch, sent := sent ++ [request] }
        | none => { succeeded := true, history := history, sent := sent ++ [request] }
      else attempts left (attempt + 1) history (sent ++ [request])

end Attempts

/-- `range(1, retry_times + 2)`, counted. -/
def rounds (retryTimes : ℤ) : ℕ := (retryTimes + 1).toNat

/-! RDC. -/

/-- `CiTriggerRequest`, as far as a callback reads it. -/
structure CiTriggerRequest where
  appName : String
  taskId : Option String
  recordId : Option String
  parentId : Option String
  taskTemplateId : Option String
  operator : Option String

/-- `RdcCallbackPayload`. -/
structure RdcCallbackPayload where
  passed : Bool
  score : ℕ
  reportUrl : String
  summary : String

/-- `str(value).lower()` of a truth value. -/
def spellBool (value : Bool) : String := if value then "true" else "false"

/-- `str(value)`; `repr` spells floats, lists and objects. -/
def spell (repr : Json → List Char) : Json → List Char
  | .null => "None".toList
  | .bool true => "True".toList
  | .bool false => "False".toList
  | .int n => Json.intText n
  | .str s => s.toList
  | v => repr v

/-- `str(value).strip().lower()`. -/
def spelled (repr : Json → List Char) (v : Json) : String :=
  String.ofList ((PyText.strip (spell repr v)).map Char.toLower)

def successStates : List String := ["0", "success", "succeeded", "passed"]

def failureStates : List String := ["-1024", "failed", "failure", "error"]

/-- A field of a JSON object. -/
def member (key : String) (v : Json) : Option Json := v.fields?.bind fun fields => Dict.get? fields key

/-- `data` of the answer, if both are objects. -/
def dataOf (text : List Char) : Option Json :=
  ((Json.loads text).bind (member "data")).filter fun v => v.fields?.isSome

/-- What the answer says under `result.passed`. -/
def appliedPassed (repr : Json → List Char) (data : Json) : Option String :=
  ((member "result" data).bind (member "passed")).map (spelled repr)

/-- What it says under `state`. -/
def appliedState (repr : Json → List Char) (data : Json) : Option String :=
  match member "state" data with
  | none | some .null => none
  | some v => some (spelled repr v)

/-- `_applied_result_mismatch`. -/
def appliedResultMismatch (repr : Json → List Char) (text : List Char)
    (payload : RdcCallbackPayload) : Option String :=
  match dataOf text with
  | none => none
  | some data =>
    let expected := spellBool payload.passed
    match (appliedPassed repr data).filter fun applied => applied ≠ "" ∧ applied ≠ expected with
    | some applied =>
      some s!"RDC callback did not apply requested passed={expected}; response passed={applied}"
    | none =>
      match appliedState repr data with
      | none => none
      | some state =>
        if payload.passed = true ∧ state ∈ failureStates then
          some s!"RDC callback did not apply requested success state; response state={state}"
        else if payload.passed = false ∧ state ∈ successStates then
          some s!"RDC callback did not apply requested failure state; response state={state}"
        else none

/-- `RdcCallbackClient`. -/
structure RdcCallbackClient where
  ackUrl : String
  retryTimes : ℤ

/-- The value is there and not empty. -/
def given (value : Option String) : Bool := value.any (· ≠ "")

namespace RdcCallbackClient
variable (client : RdcCallbackClient) (repr : Json → List Char)

def buildBody (request : CiTriggerRequest) (payload : RdcCallbackPayload) : Sent :=
  .ack (if payload.passed then 0 else -1024) (spellBool payload.passed) payload.score
    (request.taskId.getD "") (request.recordId.getD "") (request.taskTemplateId.getD "")
    (request.parentId.getD "") (request.operator.getD "") payload.reportUrl payload.summary

def canSend (request : CiTriggerRequest) : Bool :=
  client.ackUrl ≠ "" && given request.taskId && given request.recordId && given request.parentId &&
    given request.taskTemplateId

def send (request : CiTriggerRequest) (payload : RdcCallbackPayload) (answer : ℕ → Reply) : Report :=
  if client.canSend request then
    let body := buildBody request payload
    attempts body (some body) (fun text => appliedResultMismatch repr text payload)
      s!"RDC callback failed after {client.retryTimes + 1} attempts" answer
      (rounds client.retryTimes) 1 [] []
  else { succeeded := false, error := some "no RDC callback target configured" }

end RdcCallbackClient

def overriddenApp : String := "fd_wmonitor_default_store"

/-- The summary sent with an overridden verdict. -/
def overrideSummary (summary : String) : String :=
  "Temporary compatibility override: UTA reported success to RDC for " ++
    s!"fd_wmonitor_default_store. Original UTA result: {summary}"

/-- `RdcProtocol.report_result`. -/
def rdcReportResult (client : Option RdcCallbackClient) (repr : Json → List Char)
    (request : CiTriggerRequest) (result : CiResult) (answer : ℕ → Reply) : Report :=
  match client with
  | none => { succeeded := false, error := some "no RDC callback target configured" }
  | some client =>
    let overridden := request.appName = overriddenApp ∧ result.passed = false
    let passed := if overridden then true else result.passed
    let summary := if overridden then overrideSummary result.summary else result.summary
    client.send repr request
      { passed, score := if passed then 100 else 0, reportUrl := result.reportUrl, summary } answer

/-! GitHub. -/

/-- The `github` part of a record's metadata; every field as it is spelled. -/
structure GithubMeta where
  owner : String
  repo : String
  headSha : String
  installationId : String

/-- `GithubChecksClient`; the token of an installation, or why there is none. -/
structure GithubChecksClient where
  installationToken : String → Except String String
  retryTimes : ℤ

/-- `create_check_run`. -/
def GithubChecksClient.createCheckRun (client : GithubChecksClient) (meta_ : GithubMeta)
    (name conclusion title summary detailsUrl : String) (answer : ℕ → Reply) : Report :=
  match client.installationToken meta_.installationId with
  | .error reason => { succeeded := false, error := some s!"installation token failed: {reason}" }
  | .ok _ =>
    attempts (.checkRun meta_.owner meta_.repo name meta_.headSha conclusion title summary detailsUrl)
      none (fun _ => none) s!"GitHub check-run failed after {client.retryTimes + 1} attempts" answer
      (rounds client.retryTimes) 1 [] []

/-- `GithubWebhookProtocol.report_result`. -/
def githubReportResult (client : Option GithubChecksClient) (checkName : String)
    (meta_ : GithubMeta) (result : CiResult) (answer : ℕ → Reply) : Report :=
  match client with
  | none => { succeeded := false, error := some "no GitHub checks client configured" }
  | some client =>
    client.createCheckRun meta_ checkName (if result.passed then "success" else "failure") checkName
      (if result.summary ≠ "" then result.summary else if result.passed then "Passed" else "Failed")
      result.reportUrl answer

/-! Both protocols. -/

inductive Protocol where
  | rdc (client : Option RdcCallbackClient)
  | github (client : Option GithubChecksClient) (checkName : String)

/-- `CiTaskRecord`, as far as a protocol reads it. -/
structure CiTaskRecord where
  request : CiTriggerRequest
  github : GithubMeta

namespace Protocol

def reportResult (p : Protocol) (repr : Json → List Char) (record : CiTaskRecord)
    (result : CiResult) (answer : ℕ → Reply) : Report :=
  match p with
  | .rdc client => rdcReportResult client repr record.request result answer
  | .github client checkName => githubReportResult client checkName record.github result answer

/-- The number of requests that the retries allow. -/
def limit : Protocol → ℕ
  | .rdc client => client.elim 0 fun c => rounds c.retryTimes
  | .github client _ => client.elim 0 fun c => rounds c.retryTimes

/-- The answer states the outcome opposite to a verdict. -/
def opposes (p : Protocol) (repr : Json → List Char) (verdict : Bool) (text : List Char) : Prop :=
  match p with
  | .rdc _ => ∃ data, dataOf text = some data ∧
      (appliedPassed repr data = some (spellBool !verdict) ∨
        ∃ state ∈ if verdict then failureStates else successStates,
          appliedState repr data = some state)
  | .github _ _ => (Json.loads text).bind (member "conclusion") =
      some (.str (if verdict then "failure" else "success"))

end Protocol

/-- The verdict a request carries. -/
def Sent.verdict : Sent → Option Bool
  | .ack state passed _ _ _ _ _ _ _ _ =>
    if state = 0 ∧ passed = "true" then some true
    else if state = -1024 ∧ passed = "false" then some false
    else none
  | .checkRun _ _ _ _ conclusion _ _ _ =>
    if conclusion = "success" then some true
    else if conclusion = "failure" then some false
    else none

def Sent.summary : Sent → String
  | .ack _ _ _ _ _ _ _ _ _ summary => summary
  | .checkRun _ _ _ _ _ _ summary _ => summary

/-- A report that tells the truth: every request carries the verdict, a success was accepted by an
answer that does not oppose it, and every request has its entry. -/
structure Report.Honest (report : Report) (verdict : Bool) (opposed : List Char → Prop) (limit : ℕ)
    (answer : ℕ → Reply) : Prop where
  sent : ∀ s ∈ report.sent, s.verdict = some verdict
  accepted : report.succeeded = true → report.sent ≠ [] ∧ ∃ statusCode text,
    answer report.sent.length = .response statusCode text ∧
      (200 ≤ statusCode ∧ statusCode < 300) ∧ ¬ opposed text
  bounded : report.sent.length ≤ limit
  listed : report.history.length = report.sent.length

/-! The attempts, whatever they send. -/

section Attempts
variable {request : Sent} {shown : Option Sent} {settle : List Char → Option String}
  {exhausted : String} {answer : ℕ → Reply}

theorem attempts_honest {verdict : Bool} {opposed : List Char → Prop}
    (carries : request.verdict = some verdict) (settles : ∀ text, settle text = none → ¬ opposed text)
    (left : ℕ) : ∀ (attempt : ℕ) (history : List Entry) (sent : List Sent),
      sent.length + 1 = attempt → history.length = sent.length →
      (∀ s ∈ sent, s.verdict = some verdict) →
      (attempts request shown settle exhausted answer left attempt history sent).Honest verdict
        opposed (sent.length + left) answer := by
  induction left with
  | zero =>
      intro attempt history sent _ entries every
      exact ⟨every, nofun, le_refl _, entries⟩
  | succ left ih =>
      intro attempt history sent count entries every
      have more : ∀ s ∈ sent ++ [request], s.verdict = some verdict := by
        intro s member
        rcases List.mem_append.mp member with member | member
        · exact every s member
        · rw [List.mem_singleton.mp member, carries]
      have length : (sent ++ [request]).length = attempt := by simpa using count
      have later : ∀ entry, (attempts request shown settle exhausted answer left (attempt + 1)
          (history ++ [entry]) (sent ++ [request])).Honest verdict opposed
          (sent.length + (left + 1)) answer := by
        intro entry
        have next := ih (attempt + 1) (history ++ [entry]) (sent ++ [request]) (by omega)
          (by simp [entries]) more
        have size : (sent ++ [request]).length + left = sent.length + (left + 1) := by
          rw [List.length_append, List.length_singleton]
          omega
        rwa [size] at next
      unfold attempts
      split
      · exact later _
      · rename_i statusCode text replied
        dsimp only
        split
        · rename_i accepted
          split
          · exact ⟨more, nofun, by rw [length]; omega, by simp [entries]⟩
          · rename_i settled
            refine ⟨more, fun _ => ⟨by simp, statusCode, text, ?_, accepted, settles text settled⟩,
              by rw [length]; omega, by simp [entries]⟩
            rw [length, replied]
        · exact later _

theorem attempts_honest_start {verdict : Bool} {opposed : List Char → Prop}
    (carries : request.verdict = some verdict) (settles : ∀ text, settle text = none → ¬ opposed text)
    (left : ℕ) :
    (attempts request shown settle exhausted answer left 1 [] []).Honest verdict opposed left
      answer := by
  have run := @attempts_honest request shown settle exhausted answer verdict opposed carries settles
    left 1 [] [] rfl rfl nofun
  rwa [List.length_nil, Nat.zero_add] at run

/-- Every request of the attempts is the one. -/
theorem attempts_sent (left : ℕ) : ∀ (attempt : ℕ) (history : List Entry) (sent : List Sent),
    ∀ s ∈ (attempts request shown settle exhausted answer left attempt history sent).sent,
      s ∈ sent ∨ s = request := by
  induction left with
  | zero =>
      intro attempt history sent s member
      exact .inl member
  | succ left ih =>
      intro attempt history sent s member
      have here : s ∈ sent ++ [request] → s ∈ sent ∨ s = request := by simp
      have later : ∀ entry, s ∈ (attempts request shown settle exhausted answer left (attempt + 1)
          (history ++ [entry]) (sent ++ [request])).sent → s ∈ sent ∨ s = request := by
        intro entry member
        rcases ih _ _ _ s member with member | same
        · exact here member
        · exact .inr same
      unfold attempts at member
      split at member
      · exact later _ member
      · dsimp only at member
        split at member
        · split at member <;> exact here member
        · exact later _ member

end Attempts

/-- A report without a request. -/
theorem silent_honest {verdict : Bool} {opposed : List Char → Prop} {limit : ℕ}
    {answer : ℕ → Reply} {error : Option String} :
    ({ succeeded := false, error } : Report).Honest verdict opposed limit answer :=
  ⟨nofun, nofun, Nat.zero_le _, rfl⟩

/-! The answers of RDC. -/

theorem not_opposed_of_settled {client : Option RdcCallbackClient} {repr : Json → List Char}
    {payload : RdcCallbackPayload} {text : List Char}
    (settled : appliedResultMismatch repr text payload = none) :
    ¬ (Protocol.rdc client).opposes repr payload.passed text := by
  rintro ⟨data, found, opposite | ⟨state, listed, opposite⟩⟩
  · have other : spellBool (!payload.passed) ≠ "" ∧
        spellBool (!payload.passed) ≠ spellBool payload.passed := by
      cases payload.passed <;> decide
    rw [appliedResultMismatch, found] at settled
    simp only [opposite, Option.filter_some, decide_eq_true other, if_true] at settled
    exact absurd settled nofun
  · rw [appliedResultMismatch, found] at settled
    dsimp only at settled
    split at settled
    · exact absurd settled nofun
    · rw [opposite] at settled
      cases passed : payload.passed with
      | true =>
          rw [passed, if_pos rfl] at listed
          simp [passed, listed] at settled
      | false =>
          rw [passed, if_neg (by decide)] at listed
          simp [passed, listed] at settled

theorem buildBody_verdict (request : CiTriggerRequest) (payload : RdcCallbackPayload) :
    (RdcCallbackClient.buildBody request payload).verdict = some payload.passed := by
  cases passed : payload.passed <;> simp [RdcCallbackClient.buildBody, Sent.verdict, passed, spellBool]

theorem send_honest (client : RdcCallbackClient) (repr : Json → List Char)
    (request : CiTriggerRequest) (payload : RdcCallbackPayload) (answer : ℕ → Reply) :
    (client.send repr request payload answer).Honest payload.passed
      ((Protocol.rdc (some client)).opposes repr payload.passed) (rounds client.retryTimes)
      answer := by
  unfold RdcCallbackClient.send
  split
  · have settles : ∀ text, appliedResultMismatch repr text payload = none →
        ¬ (Protocol.rdc (some client)).opposes repr payload.passed text :=
      fun _ => not_opposed_of_settled
    have carries := buildBody_verdict request payload
    exact attempts_honest_start carries settles (rounds client.retryTimes)
  · exact silent_honest

theorem send_summary {client : RdcCallbackClient} {repr : Json → List Char}
    {request : CiTriggerRequest} {payload : RdcCallbackPayload} {answer : ℕ → Reply} :
    ∀ s ∈ (client.send repr request payload answer).sent, s.summary = payload.summary := by
  intro s member
  unfold RdcCallbackClient.send at member
  split at member
  · rcases attempts_sent _ _ _ _ s member with nothing | rfl
    · exact absurd nothing List.not_mem_nil
    · rfl
  · exact absurd member List.not_mem_nil

theorem createCheckRun_honest (client : GithubChecksClient) (meta_ : GithubMeta)
    (name title summary detailsUrl : String) (passed : Bool) (answer : ℕ → Reply) :
    (client.createCheckRun meta_ name (if passed then "success" else "failure") title summary
      detailsUrl answer).Honest passed (fun _ => False) (rounds client.retryTimes) answer := by
  unfold GithubChecksClient.createCheckRun
  split
  · exact silent_honest
  · have carries : (Sent.checkRun meta_.owner meta_.repo name meta_.headSha
        (if passed then "success" else "failure") title summary detailsUrl).verdict =
          some passed := by
      cases passed <;> simp [Sent.verdict]
    exact attempts_honest_start carries (fun _ _ => not_false) (rounds client.retryTimes)

/-! The reports. -/

namespace Protocol

/-- The verdict that is sent. -/
def verdict (p : Protocol) (record : CiTaskRecord) (result : CiResult) : Bool :=
  match p with
  | .rdc _ => result.passed || record.request.appName = overriddenApp
  | .github _ _ => result.passed

/-- The answers that keep a report from succeeding; GitHub's are not read. -/
def opposesRead (p : Protocol) (repr : Json → List Char) (verdict : Bool) (text : List Char) : Prop :=
  match p with
  | .rdc _ => p.opposes repr verdict text
  | .github _ _ => False

/-- A report tells the truth, except that RDC gets a pass for one application, under a summary
that gives the original result, and that the text of GitHub's answers is not read. -/
theorem reportResult_honest (p : Protocol) (repr : Json → List Char) (record : CiTaskRecord)
    (result : CiResult) (answer : ℕ → Reply) :
    (p.reportResult repr record result answer).Honest (p.verdict record result)
        (p.opposesRead repr (p.verdict record result)) p.limit answer ∧
      (p.verdict record result ≠ result.passed →
        ∀ s ∈ (p.reportResult repr record result answer).sent,
          s.summary = overrideSummary result.summary) := by
  cases p with
  | rdc client =>
      cases client with
      | none => exact ⟨silent_honest, fun _ => nofun⟩
      | some client =>
          unfold reportResult rdcReportResult verdict
          dsimp only
          by_cases overridden : record.request.appName = overriddenApp ∧ result.passed = false
          · have passes : (result.passed || decide (record.request.appName = overriddenApp)) =
                true := by simp [overridden.1]
            rw [if_pos overridden, if_pos overridden, passes]
            exact ⟨send_honest client repr record.request _ answer, fun _ => send_summary⟩
          · have same : (result.passed || decide (record.request.appName = overriddenApp)) =
                result.passed := by
              cases passed : result.passed with
              | true => rfl
              | false => simpa using fun app => overridden ⟨app, passed⟩
            rw [if_neg overridden, if_neg overridden, same]
            exact ⟨send_honest client repr record.request _ answer, fun other => absurd rfl other⟩
  | github client checkName =>
      cases client with
      | none => exact ⟨silent_honest, fun _ => nofun⟩
      | some client =>
          exact ⟨createCheckRun_honest client record.github checkName checkName _ _ _ answer,
            fun other => absurd rfl other⟩

end Protocol

/-- A record of the application with the override. -/
def overriddenRecord : CiTaskRecord where
  request :=
    { appName := overriddenApp
      taskId := some "1"
      recordId := some "2"
      parentId := some "3"
      taskTemplateId := some "4"
      operator := none }
  github := ⟨"o", "r", "sha", "7"⟩

/-- GitHub's answer to a check run that failed. -/
def failedAnswer : List Char := Json.print true (.obj [("conclusion", .str "failure")])

/-- Its failing check reaches RDC as a pass, and GitHub's answer that a passing check failed is
taken for its acceptance. -/
theorem reports_not_honest :
    (¬ ((Protocol.rdc (some ⟨"https://rdc/ack", 3⟩)).reportResult (fun _ => [])
        overriddenRecord ⟨false, "12 failures", "url"⟩ fun _ => .response 200 []).Honest false
          ((Protocol.rdc (some ⟨"https://rdc/ack", 3⟩)).opposes (fun _ => []) false) 4
          fun _ => .response 200 []) ∧
      ¬ ((Protocol.github (some ⟨.ok, 3⟩) "check").reportResult (fun _ => [])
        overriddenRecord ⟨true, "", "url"⟩ fun _ => .response 201 failedAnswer).Honest true
          ((Protocol.github (some ⟨.ok, 3⟩) "check").opposes (fun _ => []) true) 4
          fun _ => .response 201 failedAnswer := by
  constructor
  · intro honest
    have sent := honest.sent _ (List.mem_singleton.mpr rfl)
    exact absurd sent (by decide)
  · intro honest
    obtain ⟨_, statusCode, text, replied, _, agrees⟩ := honest.accepted rfl
    injection replied with _ shown
    apply agrees
    rw [← shown]
    unfold Protocol.opposes failedAnswer
    rw [Json.loads_print]
    rfl

end Uta.Ci.Callback
