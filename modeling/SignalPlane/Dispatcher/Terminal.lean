/-
SignalPlane.Dispatcher.Terminal — terminal results, their comment and the
report outbox (`terminal.go`).

`validateTerminalResult` binds a broker projection to its job,
`renderTerminalComment` builds the issue comment, and `queueTerminalResult`
stores the result and its outbox row once per job: a replay has to match what
is stored. The report operations then deliver the outbox row or give up on it.
-/
import SignalPlane.Dispatcher.Store

namespace SignalPlane.Dispatcher

open Clock

def terminalResultVersion : GoString := lit "repository-task-terminal-result/v1"
def workerResultVersion : GoString := lit "repository-task-worker-result/v1"
def maxTerminalTextBytes : Nat := 32768
def maxCommentBytes : Nat := 65536

/-! ## Validation -/

/-- `terminalOutcomeMatchesStatus`. -/
def terminalOutcomeMatchesStatus (status outcome failureStage : GoString) : Bool :=
  if status = lit "completed" then
    outcome = lit "no_change_required" || outcome = lit "ready_for_review" ||
      (outcome = lit "failed" && failureStage ≠ [])
  else if status = lit "failed" then outcome = lit "failed"
  else if status = lit "timed_out" then outcome = lit "timed_out"
  else if status = lit "stopped" then outcome = lit "stopped"
  else if status = lit "cancelled" then outcome = lit "cancelled"
  else false

/-- The texts of a result that have to be bounded UTF-8. -/
def TerminalResult.texts (r : TerminalResult) : List GoString :=
  [r.branch, r.status, r.outcome, r.finalizeReason, r.terminalSource, r.idempotencyKeyDigest,
    r.requestFingerprint, r.launchConfigVersion, r.finalSummary, r.failureStage, r.failureReason]

/-- The synthetic result of a launch that no broker run acknowledged. -/
def TerminalResult.isPrelaunchFailure (r : TerminalResult) : Bool :=
  r.runID = [] && r.terminalSource = lit "signal_plane" && r.status = lit "failed" &&
    r.outcome = lit "failed" && r.failureStage = lit "broker_launch"

/-- The part of `ValidateTerminalResult` that looks into the worker's own result. -/
def validateWorkerResult (lib : GoLib) (r : TerminalResult) (encoded : GoString) :
    Except GoError Unit := do
  require (encoded.length ≤ maxTerminalTextBytes) (newError "invalid bounded worker result")
  let (worker, decoded) := lib.unmarshalWorker encoded
  require (decoded = true) (newError "invalid worker result")
  require (worker.version = workerResultVersion ∧ worker.outcome = r.outcome ∧
      worker.runID = r.runID ∧ worker.repository = r.repo ∧ worker.branch = r.branch)
    (newError "invalid worker result correlation")
  require (worker.verificationStatus ∈ [lit "passed", lit "failed", lit "not_run"])
    (newError "invalid worker verification status")
  require (r.finalSummary ≠ []) (newError "worker result is missing final summary")
  if worker.outcome = lit "ready_for_review" then
    require (worker.pullRequest.any (fun pr => 1 ≤ pr.number && validHTTPSURL lib pr.htmlURL &&
        validHTTPSURL lib pr.url) = true ∧ isGithubSHA worker.deliveredHeadSHA = true ∧
        isGithubSHA worker.validatedTreeSHA = true)
      (newError "ready worker result is missing pull request identity")
  else
    require (worker.pullRequest = none)
      (newError "non-review worker result contains pull request identity")

/-- `ValidateTerminalResult`. -/
def validateTerminalResult (lib : GoLib) (job : Job) (r : TerminalResult) :
    Except GoError Unit := do
  require (r.version = terminalResultVersion ∧ r.runID = job.brokerRunID ∧
      r.profile = job.profile ∧ r.repo = job.repository)
    (newError "invalid terminal result correlation")
  require (¬ (r.runID = [] ∧ r.isPrelaunchFailure = false))
    (newError "terminal result is missing broker run correlation")
  require (∀ value ∈ r.texts, GoString.validUTF8 value = true ∧ value.length ≤ maxTerminalTextBytes)
    (newError "invalid terminal result text")
  require (r.status ≠ [] ∧ r.outcome ≠ [] ∧ r.idempotencyKeyDigest ≠ [] ∧
      r.requestFingerprint ≠ [] ∧ r.launchConfigVersion ≠ [])
    (newError "terminal result is missing correlation fields")
  require (r.finalSummary.length ≤ maxTerminalTextBytes)
    (newError "invalid terminal result final summary")
  require (r.outcome ∈ [lit "no_change_required", lit "ready_for_review", lit "failed",
      lit "timed_out", lit "stopped", lit "cancelled"])
    (newError "invalid terminal result outcome")
  require (terminalOutcomeMatchesStatus r.status r.outcome r.failureStage = true)
    (newError "terminal result outcome does not match broker status")
  match r.result with
  | none =>
    require (¬ (r.failureStage = [] ∨ r.failureReason = [] ∨ r.finalSummary ≠ []))
      (newError "terminal result fallback is incomplete")
  | some encoded => validateWorkerResult lib r encoded

/-! ## The comment -/

/-- `displayBrokerRun`. -/
def displayBrokerRun (runID : GoString) : GoString :=
  if runID = [] then lit "not acknowledged" else runID

/-- A markdown item whose value is in code style. -/
def codeItem (label : String) (value : GoString) : GoString :=
  lit ("- " ++ label ++ ": \x60") ++ value ++ lit "\x60"

/-- One optional line. -/
def lineIf (c : Bool) (line : GoString) : List GoString := if c then [line] else []

/-- The worker result a comment is rendered from, with the verification word it shows. -/
def commentWorker (lib : GoLib) (r : TerminalResult) : WorkerTerminalResult × GoString :=
  match r.result with
  | none => ({}, lit "not_run")
  | some encoded =>
    let worker := (lib.unmarshalWorker encoded).1
    (worker, worker.verificationStatus)

/-- The last line of a comment about a result without a summary. -/
def noFinalSummary : GoString :=
  lit ("The worker did not produce a valid final summary; this harness-generated terminal " ++
    "result is reported instead.")

/-- The lines of `RenderTerminalComment`. -/
def commentLines (lib : GoLib) (job : Job) (r : TerminalResult) : List GoString :=
  let (worker, verification) := commentWorker lib r
  [ lit "## Repository task terminal result", [],
    codeItem "Outcome" r.outcome,
    codeItem "Semantic job" (GoString.decimal job.id),
    codeItem "Semantic key" job.semanticKey,
    codeItem "Broker run" (displayBrokerRun r.runID),
    codeItem "Result version" r.version,
    codeItem "Launch config" r.launchConfigVersion,
    codeItem "Launch idempotency digest" r.idempotencyKeyDigest,
    codeItem "Request fingerprint" r.requestFingerprint,
    codeItem "Verification" verification ] ++
  lineIf (r.branch ≠ []) (codeItem "Branch" r.branch) ++
  (if r.outcome = lit "failed" then
    lineIf (worker.stage ≠ []) (codeItem "Failure stage" worker.stage) ++
    lineIf (worker.detail ≠ []) (lit "- Diagnostic: " ++ worker.detail)
  else
    lineIf (worker.detail ≠ []) (lit "- Detail: " ++ worker.detail) ++
    lineIf (worker.stage ≠ []) (codeItem "Worker stage" worker.stage)) ++
  (if r.outcome = lit "no_change_required" then
    [if verification = lit "passed" then
      lit ("- Result: the task and verification succeeded; the repository already satisfied " ++
        "the request.")
    else
      lit ("- Result: the task succeeded; no verification task ran, and the repository already " ++
        "satisfied the request.")]
  else []) ++
  (match worker.pullRequest with
  | some pr => [lit "- Pull request: [#" ++ GoString.decimal pr.number ++ lit "](" ++ pr.htmlURL ++
      lit ")"]
  | none => []) ++
  lineIf (r.failureStage ≠ [] && worker.stage = []) (codeItem "Failure stage" r.failureStage) ++
  lineIf (r.failureReason ≠ [] && worker.detail = []) (lit "- Diagnostic: " ++ r.failureReason) ++
  (if r.finalSummary = [] then
    [[], noFinalSummary]
  else [[], lit "---", [], r.finalSummary])

/-- `RenderTerminalComment`. -/
def renderTerminalComment (lib : GoLib) (job : Job) (r : TerminalResult) :
    Except GoError GoString :=
  let body := GoString.join (commentLines lib job r) [10] ++ [10]
  if GoString.validUTF8 body && body.length ≤ maxCommentBytes then .ok body
  else .error (newError "terminal comment exceeds GitHub comment limit")

/-! ## Queueing a result -/

/-- The JSON text `QueueTerminalResult` stores: empty for a nil map. -/
def TerminalResult.resultJSON (r : TerminalResult) : GoString := r.result.getD []

/-- The row `QueueTerminalResult` inserts. -/
def TerminalResult.toRow (jobID : Int) (r : TerminalResult) (now : Int) : TerminalResultRow where
  jobID := jobID
  version := r.version
  runID := r.runID
  profile := r.profile
  repository := r.repo
  branch := r.branch
  status := r.status
  outcome := r.outcome
  finalizeReason := r.finalizeReason
  terminalSource := r.terminalSource
  idempotencyKeyDigest := r.idempotencyKeyDigest
  requestFingerprint := r.requestFingerprint
  launchConfigVersion := r.launchConfigVersion
  resultJSON := r.resultJSON
  finalSummary := r.finalSummary
  failureStage := r.failureStage
  failureReason := r.failureReason
  recordedAt := unixMilli now

/-- `sameStoredTerminalResult` and the comparison of the stored JSON text. -/
def sameStoredTerminalResult (a : TerminalResultRow) (b : TerminalResult) : Bool :=
  a.version = b.version && a.runID = b.runID && a.profile = b.profile && a.repository = b.repo &&
    a.branch = b.branch && a.status = b.status && a.outcome = b.outcome &&
    a.finalizeReason = b.finalizeReason && a.terminalSource = b.terminalSource &&
    a.idempotencyKeyDigest = b.idempotencyKeyDigest &&
    a.requestFingerprint = b.requestFingerprint &&
    a.launchConfigVersion = b.launchConfigVersion && a.finalSummary = b.finalSummary &&
    a.failureStage = b.failureStage && a.failureReason = b.failureReason &&
    a.resultJSON = b.resultJSON

/-- The row `QueueTerminalResult` inserts into `notification_outbox`. -/
def Store.newOutboxRow (s : Store) (jobID : Int) (version body key : GoString) (now : Int) :
    OutboxRow where
  id := nextID (s.outbox.rows.map OutboxRow.id)
  jobID := jobID
  terminalResultVersion := version
  body := body
  idempotencyKey := key
  status := .pending
  dueAt := unixMilli now
  createdAt := unixMilli now
  updatedAt := unixMilli now

/-- The statuses from which a result may be queued. -/
def JobRow.acceptsResult (r : JobRow) : Bool :=
  r.status = .launched || r.status = .reportPending || r.status = .reportRetry ||
    r.status = .failed || r.status.isQueued

/-- `UNIQUE(idempotency_key)`, apart from the job's own row. -/
def Store.reportKeyTaken (s : Store) (jobID : Int) (key : GoString) : Bool :=
  s.outbox.rows.any (fun o => o.jobID ≠ jobID && o.idempotencyKey = key)

/-- The transaction of `QueueTerminalResult`, with the comment already rendered. -/
def storeTerminalResult (job : Job) (r : TerminalResult) (body key : GoString) (now : Int)
    (s : Store) : Except GoError Store := do
  require ((s.jobs.find? job.id).isSome = true) (constraintFailed "FOREIGN KEY")
  let terminal := (s.terminalResults.find? job.id).getD (r.toRow job.id now)
  require (sameStoredTerminalResult terminal r = true)
    (newError "terminal result conflicts with durable job result")
  let stored := (s.outbox.find? job.id).getD (s.newOutboxRow job.id r.version body key now)
  require (¬ ((s.outbox.find? job.id).isNone = true ∧ s.reportKeyTaken job.id key = true))
    (constraintFailed "UNIQUE notification_outbox.idempotency_key")
  require (stored.terminalResultVersion = r.version ∧ stored.body = body ∧
      stored.idempotencyKey = key)
    (newError "notification outbox conflicts with durable terminal result")
  require (s.jobs.hits job.id JobRow.acceptsResult = true)
    (newError "terminal result job state changed concurrently")
  return { s with
    terminalResults := s.terminalResults.insert (r.toRow job.id now)
    outbox := s.outbox.insert (s.newOutboxRow job.id r.version body key now)
    jobs := s.jobs.updateKey job.id JobRow.acceptsResult
      (fun row => { row with
        status := .reportPending
        dueAt := unixMilli now
        updatedAt := unixMilli now
        lastError := []
        preOutboxAttempts := 0 }) (fun _ => rfl) }

/-- `Store.QueueTerminalResult`. -/
def queueTerminalResult (lib : GoLib) (job : Job) (r : TerminalResult) (now : Int) (s : Store) :
    Except GoError Store := do
  validateTerminalResult lib job r
  let body ← renderTerminalComment lib job r
  storeTerminalResult job r body (reportKey lib job r.version) now s

/-- The rows that exist are kept. -/
theorem storeTerminalResult_ok {job : Job} {r : TerminalResult} {body key : GoString} {now : Int}
    {s s' : Store} (h : storeTerminalResult job r body key now s = .ok s') :
    s.jobs.hits job.id JobRow.acceptsResult = true ∧ s' = { s with
      terminalResults := s.terminalResults.insert (r.toRow job.id now)
      outbox := s.outbox.insert (s.newOutboxRow job.id r.version body key now)
      jobs := s.jobs.updateKey job.id JobRow.acceptsResult
        (fun row => { row with
          status := .reportPending
          dueAt := unixMilli now
          updatedAt := unixMilli now
          lastError := []
          preOutboxAttempts := 0 }) (fun _ => rfl) } := by
  simp only [storeTerminalResult, require_bind_eq_ok, pure_eq_ok] at h
  obtain ⟨-, -, -, -, hhits, rfl⟩ := h
  exact ⟨hhits, rfl⟩

theorem queueTerminalResult_ok {lib : GoLib} {job : Job} {r : TerminalResult} {now : Int}
    {s s' : Store} :
    queueTerminalResult lib job r now s = .ok s' ↔
      validateTerminalResult lib job r = .ok () ∧
      ∃ body, renderTerminalComment lib job r = .ok body ∧
        storeTerminalResult job r body (reportKey lib job r.version) now s = .ok s' := by
  simp only [queueTerminalResult, bind_eq_ok]
  exact ⟨fun ⟨_, hvalid, h⟩ => ⟨hvalid, h⟩, fun ⟨hvalid, h⟩ => ⟨(), hvalid, h⟩⟩

/-- The result `QueueLaunchFailure` reports. -/
def launchFailureResult (lib : GoLib) (job : Job) (reason : GoString) : TerminalResult :=
  let reason := GoString.trimSpace reason
  let reason := if reason = [] then lit "broker launch failed before a run was acknowledged"
    else reason
  { version := terminalResultVersion
    runID := []
    profile := job.profile
    repo := job.repository
    status := lit "failed"
    outcome := lit "failed"
    finalizeReason := lit "broker_launch_failed"
    terminalSource := lit "signal_plane"
    idempotencyKeyDigest := lit "unavailable-before-broker-acknowledgement"
    requestFingerprint := brokerSourceID lib job
    launchConfigVersion := lit "unavailable-before-broker-acknowledgement"
    failureStage := lit "broker_launch"
    failureReason := reason.take 512 }

/-- `Store.QueueLaunchFailure`. -/
def queueLaunchFailure (lib : GoLib) (job : Job) (reason : GoString) (now : Int) :
    Store → Except GoError Store :=
  queueTerminalResult lib job (launchFailureResult lib job reason) now

/-- The result `QueuePreOutboxFailure` reports. -/
def preOutboxFailureResult (lib : GoLib) (job : Job) (stage reason : GoString) : TerminalResult :=
  let reason := safeBrokerError { text := GoString.trimSpace reason }
  { version := terminalResultVersion
    runID := job.brokerRunID
    profile := job.profile
    repo := job.repository
    status := lit "failed"
    outcome := lit "failed"
    finalizeReason := lit "signal_plane_terminal_projection_failed"
    terminalSource := lit "signal_plane"
    idempotencyKeyDigest := lit "unavailable-after-broker-acknowledgement"
    requestFingerprint := brokerSourceID lib job
    launchConfigVersion := lit "unavailable-after-broker-acknowledgement"
    failureStage := stage
    failureReason := if reason = [] then
      lit "terminal projection failed before durable reporting state was created" else reason }

/-- `Store.QueuePreOutboxFailure`. -/
def queuePreOutboxFailure (lib : GoLib) (job : Job) (stage reason : GoString) (now : Int) :
    Store → Except GoError Store :=
  queueTerminalResult lib job (preOutboxFailureResult lib job stage reason) now

/-! ## Delivering a report -/

/-- An outbox row that is still to be delivered. -/
def OutboxRow.isOpen (o : OutboxRow) : Bool := o.status = .pending || o.status = .retry

/-- `Store.ClaimReportDue`: the oldest due row whose job exists. -/
def claimReportDue (now : Int) (s : Store) : Except GoError (Option Report × Store) :=
  let due := s.outbox.rows.filter
    (fun o => o.isOpen && o.dueAt ≤ unixMilli now && (s.jobs.find? o.jobID).isSome)
  match pick (fun a b => a.id ≤ b.id) due 0 with
  | none => .ok (none, s)
  | some o =>
    match s.jobs.find? o.jobID with
    | none => .ok (none, s)
    | some j =>
      .ok (some
        { id := o.id
          jobID := o.jobID
          job := { j.toJob with preOutboxAttempts := 0, firstAttemptAt := Clock.zero }
          version := o.terminalResultVersion
          body := o.body
          idempotencyKey := o.idempotencyKey
          attempts := o.attempts }, s)

/-- `status IN (report_pending, report_retry)`. -/
def JobRow.isReporting (r : JobRow) : Bool := r.status = .reportPending || r.status = .reportRetry

/-- The job status a delivered report leaves. -/
def deliveredStatus (outcome : GoString) : JobStatus :=
  if outcome = lit "no_change_required" || outcome = lit "ready_for_review" then .completed
  else if outcome = lit "timed_out" then .timedOut
  else if outcome = lit "stopped" then .stopped
  else if outcome = lit "cancelled" then .cancelled
  else .failed

/-- `Store.MarkReportDelivered`. -/
def markReportDelivered (r : Report) (id : Int) (url : GoString) (now : Int) (s : Store) :
    Except GoError Store := do
  let p := fun o : OutboxRow => o.id = r.id && o.isOpen
  require (s.outbox.rows.countP p = 1)
    (newError "notification outbox delivery changed concurrently")
  match s.terminalResults.find? r.jobID with
  | none => .error errNoRows
  | some terminal =>
    require (s.jobs.hits r.jobID JobRow.isReporting = true)
      (newError "reported job state changed concurrently")
    return { s with
      outbox := s.outbox.update p
        (fun o => { o with
          status := .delivered
          attempts := o.attempts + 1
          commentID := some id
          commentURL := url
          deliveredAt := some (unixMilli now)
          lastError := []
          updatedAt := unixMilli now }) (fun _ => rfl)
      jobs := s.jobs.updateKey r.jobID JobRow.isReporting
        (fun row => { row with
          status := deliveredStatus terminal.outcome
          lastError := []
          updatedAt := unixMilli now }) (fun _ => rfl) }

/-- `Store.MarkReportFailure`. -/
def markReportFailure (r : Report) (retry : Bool) (safe : GoString) (now : Int) (s : Store) :
    Except GoError Store := do
  let due := if retry then now + reportRetryDelay (r.attempts + 1) else now
  let p := fun o : OutboxRow => o.id = r.id && o.isOpen
  require (s.outbox.rows.countP p = 1)
    (newError "notification outbox failure changed concurrently")
  require (s.jobs.hits r.jobID JobRow.isReporting = true)
    (newError "report failure job state changed concurrently")
  return { s with
    outbox := s.outbox.update p
      (fun o => { o with
        status := if retry then .retry else .blocked
        attempts := o.attempts + 1
        dueAt := unixMilli due
        lastError := safe
        updatedAt := unixMilli now }) (fun _ => rfl)
    jobs := s.jobs.updateKey r.jobID JobRow.isReporting
      (fun row => { row with
        status := if retry then .reportRetry else .reportBlocked
        dueAt := unixMilli due
        lastError := safe
        updatedAt := unixMilli now }) (fun _ => rfl) }

/-! ## Operator reconciliation -/

/-- `Store.ReconcileFailedLaunch` with `execute`; a plan changes nothing. -/
def reconcileFailedLaunch (lib : GoLib) (jobID : Int) (brokerRunID : GoString)
    (terminal : TerminalResult) (now : Int) (s : Store) : Except GoError Store := do
  require (¬ (jobID < 1 ∨ brokerRunID = [])) (newError "job id and broker run id are required")
  match s.jobs.find? jobID with
  | none => .error (newError "failed launch job does not exist")
  | some row =>
    require (¬ (row.status ≠ .failed ∨ row.brokerRunID ≠ []))
      (newError "job is not an unreported failed launch")
    require (s.hasTerminal jobID = false ∧ (s.outbox.find? jobID).isNone = true)
      (newError "failed launch already has terminal reporting state")
    let job := { row.toJob with brokerRunID := brokerRunID, preOutboxAttempts := 0 }
    validateTerminalResult lib job terminal
    let _ ← renderTerminalComment lib job terminal
    return s.updateJob jobID (fun r => r.status = .failed && r.brokerRunID = [])
      (fun r => { r with
        brokerRunID := brokerRunID
        status := .launched
        dueAt := unixMilli now
        updatedAt := unixMilli now }) (fun _ => rfl)

/-- `Store.ReconcileBlockedReport` with `execute`; a plan changes nothing. -/
def reconcileBlockedReport (jobID : Int) (brokerRunID idempotencyKey : GoString) (now : Int)
    (s : Store) : Except GoError Store := do
  require (¬ (jobID < 1 ∨ brokerRunID = [] ∨ idempotencyKey = []))
    (newError "job id, broker run id, and idempotency key are required")
  match s.jobs.find? jobID, s.terminalResults.find? jobID, s.outbox.find? jobID with
  | some j, some t, some o =>
    require (j.brokerRunID = brokerRunID ∧ t.runID = brokerRunID)
      (newError "broker run correlation does not match")
    require (o.idempotencyKey = idempotencyKey)
      (newError "outbox idempotency key does not match")
    require (o.terminalResultVersion = t.version)
      (newError "terminal result version does not match outbox")
    require (j.status = .reportBlocked ∧ o.status = .blocked)
      (newError "report is not durably blocked")
    require (o.commentID = none ∧ o.commentURL = [] ∧ o.deliveredAt = none)
      (newError "blocked report already has delivery identity")
    require (j.lastError ≠ [] ∧ o.lastError ≠ [] ∧ j.lastError = o.lastError)
      (newError "blocked report failure evidence is incomplete")
    let p := fun row : OutboxRow => row.id = o.id && row.status = .blocked &&
      row.commentID = none && row.commentURL = [] && row.deliveredAt = none
    require (s.outbox.rows.countP p = 1) (newError "blocked outbox changed concurrently")
    return { s with
      outbox := s.outbox.update p
        (fun row => { row with
          status := .retry
          dueAt := unixMilli now
          updatedAt := unixMilli now }) (fun _ => rfl)
      jobs := s.jobs.updateKey jobID (fun r => r.status = .reportBlocked)
        (fun r => { r with
          status := .reportRetry
          dueAt := unixMilli now
          updatedAt := unixMilli now }) (fun _ => rfl) }
  | _, _, _ => .error (newError "blocked report does not exist")

end SignalPlane.Dispatcher
