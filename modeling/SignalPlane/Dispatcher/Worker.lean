/-
SignalPlane.Dispatcher.Worker — one pass of the worker loop (`RunOne` and the
functions it calls in `dispatcher.go`).

`runOne` claims one piece of due work, asks the broker about it and stores the
outcome. It is a `Workflow`: the store operations are its transactions and
the broker calls its questions, in the order the code makes them. Each
question carries the piece of work it is asked for, which the code knows as
the row it claimed; the answer depends on the call alone.

What a broker implementation can do beyond launching and reading a status is
found out in the code by type assertions. `BrokerCapabilities` keeps these
facts with the implications between them: the reporting broker is the
production client, and it implements every interface.
-/
import SignalPlane.Lib.Workflow
import SignalPlane.Dispatcher.Terminal
import SignalPlane.Dispatcher.ExternalWait
import SignalPlane.Dispatcher.CIAttempt

namespace SignalPlane.Dispatcher

open Clock
open Workflow (atomic commit)

/-! ## The broker -/

/-- The interfaces a broker implements besides `BrokerClient`. -/
structure BrokerCapabilities where
  /-- `reportingBroker`: the production client with a reporter URL. -/
  reporting : Bool
  /-- `CIRepairBroker`. -/
  ciRepair : Bool
  /-- `TerminalProjectionClient`. -/
  projects : Bool
  /-- `ResumeRun`. -/
  resumes : Bool
  ciRepair_of_reporting : reporting = true → ciRepair = true
  projects_of_ciRepair : ciRepair = true → projects = true
  resumes_of_ciRepair : ciRepair = true → resumes = true

/-- A call to the broker. -/
inductive BrokerCall where
  | launch (job : Job)
  | status (runID : GoString)
  | terminalResult (runID : GoString)
  | comment (job : Job) (body key : GoString)
  | observeCI (task : CIRepairTask) (head : GoString)
  | launchRepair (task : CIRepairTask) (attempt : CIRepairAttempt)
  | resumeRun (runID resumeKey : GoString) (maxRuntimeSeconds : Int)
  deriving DecidableEq, Repr

/-- What a call returns. A launch returns the run id. -/
def BrokerCall.Answer : BrokerCall → Type
  | .launch _ | .launchRepair .. => Except GoError GoString
  | .status _ | .resumeRun .. => Except GoError RunStatus
  | .terminalResult _ => Except GoError TerminalResult
  | .comment .. => Except GoError CommentResult
  | .observeCI .. => Except GoError CIObservation

/-- The row a call is made for. -/
inductive WorkUnit where
  | poll (jobID : Int)
  | launch (jobID : Int)
  | reconciliation (jobID : Int) (headSHA : GoString)
  | attempt (attemptKey : GoString)
  | report (jobID : Int)
  | escalation (jobID : Int)
  deriving DecidableEq, Repr

/-- A call and the row it is made for. -/
structure Request where
  unit : WorkUnit
  call : BrokerCall
  deriving DecidableEq, Repr

/-- The answer depends on the call alone. -/
def Request.Answer (r : Request) : Type := r.call.Answer

/-- A program of the worker. -/
abbrev Dispatch := Workflow Store Request Request.Answer

/-- A party that answers every call. -/
abbrev BrokerAnswers := (r : Request) → r.Answer

def askLaunch (u : WorkUnit) (job : Job) : Dispatch (Except GoError GoString) :=
  Workflow.request (⟨u, .launch job⟩ : Request)

def askStatus (u : WorkUnit) (runID : GoString) : Dispatch (Except GoError RunStatus) :=
  Workflow.request (⟨u, .status runID⟩ : Request)

def askTerminalResult (u : WorkUnit) (runID : GoString) :
    Dispatch (Except GoError TerminalResult) :=
  Workflow.request (⟨u, .terminalResult runID⟩ : Request)

def askComment (u : WorkUnit) (job : Job) (body key : GoString) :
    Dispatch (Except GoError CommentResult) :=
  Workflow.request (⟨u, .comment job body key⟩ : Request)

def askObserveCI (u : WorkUnit) (task : CIRepairTask) (head : GoString) :
    Dispatch (Except GoError CIObservation) :=
  Workflow.request (⟨u, .observeCI task head⟩ : Request)

def askLaunchRepair (u : WorkUnit) (task : CIRepairTask) (attempt : CIRepairAttempt) :
    Dispatch (Except GoError GoString) :=
  Workflow.request (⟨u, .launchRepair task attempt⟩ : Request)

def askResumeRun (u : WorkUnit) (runID resumeKey : GoString) (maxRuntimeSeconds : Int) :
    Dispatch (Except GoError RunStatus) :=
  Workflow.request (⟨u, .resumeRun runID resumeKey maxRuntimeSeconds⟩ : Request)

/-- What stays fixed while the dispatcher runs. -/
structure Env where
  lib : GoLib
  policy : StorePolicy
  broker : BrokerCapabilities
  routes : List RepositoryTaskRoute

/-! ## Status of a launched run -/

/-- `reconcilePreOutboxFailure`: the failure is counted, and reported once it is final. -/
def reconcilePreOutboxFailure (env : Env) (job : Job) (recoverableState : JobStatus)
    (stage : String) (failure : GoError) (retryable : Bool) (now : Int) :
    Dispatch (Except GoError JobStatus) := do
  let safe := safeBrokerError failure
  match ← atomic (markPreOutboxFailure job.id recoverableState
      (now + preOutboxRetryDelay (job.preOutboxAttempts + 1)) safe now) with
  | .error e => return .error e
  | .ok attempts =>
    if retryable && attempts < preOutboxMaxAttempts then return .ok recoverableState
    else
      let safe := if retryable then
          lit "pre-outbox terminal reconciliation retry limit exhausted: " ++ safe
        else safe
      match ← commit (queuePreOutboxFailure env.lib job (lit stage) safe now) with
      | .error e => return .error e
      | .ok () => return .ok .reportPending

/-- `ReconcileStatusFailure`. -/
def reconcileStatusFailure (env : Env) (job : Job) (failure : GoError) (now : Int) :
    Dispatch (Except GoError JobStatus) := do
  if job.status = .externalWaiting then
    match ← commit (deferRepositoryRunExternalResume job (now + externalRecoveryWake) failure
        now) with
    | .error e => return .error e
    | .ok () => return .ok .externalWaiting
  else reconcilePreOutboxFailure env job .launched "broker_status" failure (isRetryable failure) now

/-- `ReconcileStatusResult` once the terminal projection is valid and renders: a result that is
ready for review enters the CI wait, any other is queued for reporting. -/
def settleProjection (env : Env) (job : Job) (projected : TerminalResult) (now : Int) :
    Dispatch (Except GoError JobStatus) := do
  if projected.outcome = lit "ready_for_review" && env.policy.1.isValid then
    match env.lib.marshalTerminalResult projected with
    | .error e =>
      reconcilePreOutboxFailure env job .reportPending "ci_wait_serialization" e false now
    | .ok encoded =>
      let (worker, decoded) := env.lib.unmarshalWorker (projected.result.getD (lit "null"))
      match (if decoded then worker.pullRequest else none) with
      | none =>
        reconcilePreOutboxFailure env job .reportPending "ci_wait_correlation"
          (newError "ready result lacks durable pull request coordinates") false now
      | some pull =>
        match ← commit (beginCIWait env.lib job pull.number projected.branch
            worker.deliveredHeadSHA projected.profile (now + env.policy.1.reconciliationWake) now
            encoded) with
        | .error e => return .error e
        | .ok () => return .ok .ciWaiting
  else
    match ← commit (queueTerminalResult env.lib job projected now) with
    | .error e => return .error e
    | .ok () => return .ok .reportPending

/-- `ReconcileStatusResult` from the broker's word for the run on, for a job that no longer
waits: a running run is polled again, a finished one is projected. -/
def settleRun (env : Env) (projects : Bool) (job : Job) (result : RunStatus) (now : Int) :
    Dispatch (Except GoError JobStatus) := do
  match reconciledStatus result.status with
  | .error e => reconcilePreOutboxFailure env job .reportPending "broker_status" e false now
  | .ok .launched =>
    match ← commit (markStatus job.id .launched (now + statusPollInterval) [] now) with
    | .error e => return .error e
    | .ok () => return .ok .launched
  | .ok _ =>
    if projects then
      match ← askTerminalResult (.poll job.id) job.brokerRunID with
      | .error e =>
        reconcilePreOutboxFailure env job .reportPending "terminal_projection" e (isRetryable e) now
      | .ok projected =>
        match validateTerminalResult env.lib job projected with
        | .error e =>
          reconcilePreOutboxFailure env job .reportPending "terminal_correlation" e false now
        | .ok () =>
          match renderTerminalComment env.lib job projected with
          | .error e =>
            reconcilePreOutboxFailure env job .reportPending "terminal_rendering" e false now
          | .ok _ => settleProjection env job projected now
    else
      reconcilePreOutboxFailure env job .reportPending "terminal_projection"
        (newError "broker does not provide terminal projection") false now

/-- `ReconcileStatusResult`. -/
def reconcileStatusResult (env : Env) (projects : Bool) (job : Job) (result : RunStatus)
    (now : Int) : Dispatch (Except GoError JobStatus) := do
  if result.runID = [] ∨ result.runID ≠ job.brokerRunID then
    reconcilePreOutboxFailure env job .reportPending "broker_status"
      (newError "broker status response has invalid run correlation") false now
  else if result.status = lit "waiting_external" then
    match result.externalWait with
    | none =>
      reconcilePreOutboxFailure env job .reportPending "broker_status"
        (newError "broker waiting_external status lacks structured external_wait") false now
    | some wait =>
      match ← atomic (recordRepositoryRunExternalWait env.policy.1 job wait now) with
      | .error e => return .error e
      | .ok _ => return .ok .externalWaiting
  else if job.status = .externalWaiting then
    match ← commit (reconcileRepositoryRunExternalResume job now) with
    | .error e => return .error e
    | .ok () => settleRun env projects { job with status := .launched } result now
  else settleRun env projects job result now

/-- A worker outcome: the work was done, or the error of the store operation. -/
def worked (r : Except GoError Unit) : Except GoError Bool := r.map (fun _ => true)

/-- The resume of `runStatus`, for a wait that a wake made ready. -/
def resumeReadyWait (env : Env) (job : Job) (wait : RepositoryRunExternalWait) (now : Int) :
    Dispatch (Except GoError Bool) := do
  let later (due : Int) (failure : GoError) : Dispatch (Except GoError Bool) :=
    return worked (← commit (deferRepositoryRunExternalResume job due failure now))
  if env.broker.resumes then
    match ← askResumeRun (.poll job.id) wait.brokerRunID wait.resumeKey wait.maxRuntimeSeconds with
    | .error e => later (now + preOutboxRetryDelay (job.preOutboxAttempts + 1)) e
    | .ok resumed =>
      if resumed.runID ≠ wait.brokerRunID then
        later (now + externalRecoveryWake)
          (newError "broker external resume run correlation is invalid")
      else
        match reconciledStatus resumed.status with
        | .error e =>
          if resumed.status ≠ lit "waiting_external" then later (now + externalRecoveryWake) e
          else return worked (← commit (markRepositoryRunExternalResumed wait now))
        | .ok _ => return worked (← commit (markRepositoryRunExternalResumed wait now))
  else later (now + externalRecoveryWake) (newError "broker does not support external wait resume")

/-- `runStatus`. -/
def runStatus (env : Env) (job : Job) (now : Int) : Dispatch (Except GoError Bool) := do
  match ← askStatus (.poll job.id) job.brokerRunID with
  | .error e =>
    if job.status = .externalWaiting then
      return worked (← commit (deferRepositoryRunExternalResume job (now + externalRecoveryWake) e
        now))
    else return (← reconcileStatusFailure env job e now).map (fun _ => true)
  | .ok result =>
    if result.runID = [] ∨ result.runID ≠ job.brokerRunID then
      return .error (newError "broker status response has invalid run correlation")
    else if result.status = lit "waiting_external" then
      match result.externalWait with
      | none =>
        return (← reconcilePreOutboxFailure env job .reportPending "broker_status"
          (newError "broker waiting_external status lacks structured external_wait") false
          now).map (fun _ => true)
      | some wait =>
        match wait.validate with
        | .error e =>
          return (← reconcilePreOutboxFailure env job .reportPending "broker_status" e false
            now).map (fun _ => true)
        | .ok () =>
          match ← atomic (recordRepositoryRunExternalWait env.policy.1 job wait now) with
          | .error e => return .error e
          | .ok stored =>
            if stored.state = .resumeReady then resumeReadyWait env job stored now
            else return .ok true
    else
      return (← reconcileStatusResult env env.broker.projects job result now).map (fun _ => true)

/-! ## Status of a repair run -/

/-- `deferOrFailCIRepairStatus`. -/
def deferOrFailCIRepairStatus (env : Env) (attempt : CIRepairAttempt) (failure : GoError)
    (now : Int) : Store → Except GoError Store :=
  if isRetryable failure then
    deferCIRepairStatus attempt.attemptKey (now + preOutboxRetryDelay (attempt.operations + 1))
      failure now
  else
    finishCIRepairFailure env.lib env.policy.1 attempt (lit "infrastructure") false
      (safeBrokerError failure) env.policy.1.maxAttempts now

/-- The worker result of a repair terminal names the task's pull request and branch, and its
five commits and trees. -/
def hasDeliveryProvenance (lib : GoLib) (task : CIRepairTask) (terminal : TerminalResult) : Bool :=
  let (worker, decoded) := lib.unmarshalWorker (terminal.result.getD (lit "null"))
  decoded && worker.pullRequest.any (fun pr => pr.number = task.pullNumber) &&
    worker.branch = task.branch && isGithubSHA worker.expectedOldHeadSHA &&
    isGithubSHA worker.candidateHeadSHA && isGithubSHA worker.deliveredHeadSHA &&
    isGithubSHA worker.validatedTreeSHA && isGithubSHA worker.deliveredTreeSHA &&
    worker.deliveredTreeSHA = worker.validatedTreeSHA

/-- `validateCIRepairTerminal`. -/
def validateCIRepairTerminal (lib : GoLib) (task : CIRepairTask) (attempt : CIRepairAttempt)
    (terminal : TerminalResult) : Except GoError Unit := do
  require (terminal.version = terminalResultVersion ∧ terminal.runID = attempt.brokerRunID ∧
      terminal.profile = attempt.agentModel ∧ terminal.repo = task.repository ∧
      terminalOutcomeMatchesStatus terminal.status terminal.outcome terminal.failureStage = true)
    (newError "repair terminal result correlation is invalid")
  if terminal.outcome = lit "ready_for_review" then
    require (hasDeliveryProvenance lib task terminal = true)
      (newError "repair terminal lacks exact delivery provenance")
  else if terminal.outcome = lit "no_change_required" then return ()
  else
    require (isFailureClass terminal.failureClass = true)
      (newError "repair terminal failure_class is invalid")

/-- The words `runCIRepairStatus` accepts from a resume. -/
def resumeStatuses : List GoString :=
  [lit "running", lit "pending", lit "waiting_external", lit "completed", lit "failed",
    lit "timed_out", lit "stopped", lit "cancelled"]

/-- `runCIRepairStatus` for a run that waits on an outside service. -/
def runCIRepairWait (task : CIRepairTask) (attempt : CIRepairAttempt)
    (wait : CIExternalWait) (now : Int) : Dispatch (Except GoError Bool) := do
  let unit := WorkUnit.attempt attempt.attemptKey
  match ← atomic (recordCIRepairExternalWait attempt wait now) with
  | .error e => return .error e
  | .ok resumeKey =>
    let observed ← askObserveCI unit task attempt.failedHeadSHA
    let blocked : Option GoError := match observed with
      | .error e => if isStalePullHead e then none else some e
      | .ok _ => none
    match blocked with
    | some e =>
      return worked (← commit (deferCIRepairStatus attempt.attemptKey (now + externalRecoveryWake) e
        now))
    | none =>
      match ← askResumeRun unit attempt.brokerRunID resumeKey attempt.maxRuntimeSeconds with
      | .error e =>
        return worked (← commit (deferCIRepairStatus attempt.attemptKey
          (now + preOutboxRetryDelay (attempt.operations + 1)) e now))
      | .ok resumed =>
        if resumed.runID ≠ attempt.brokerRunID then
          return .error (newError "broker repair resume run correlation is invalid")
        else if resumed.status ∉ resumeStatuses then
          return .error (newError "broker repair resume status is invalid")
        else
          return worked (← commit (markCIRepairExternalResumed attempt.attemptKey resumeKey
            wait.generation (now + statusPollInterval) now))

/-- `runCIRepairStatus` for a repair that delivered a candidate. -/
def deliverRepair (env : Env) (attempt : CIRepairAttempt) (terminal : TerminalResult) (now : Int) :
    Dispatch (Except GoError Bool) := do
  let (worker, decoded) := env.lib.unmarshalWorker (terminal.result.getD (lit "null"))
  if decoded then
    match ← commit (chargeCIRepairAttempt attempt.attemptKey now) with
    | .error e => return .error e
    | .ok () =>
      return worked (← commit (completeCIRepairDelivery env.policy.1 attempt.attemptKey
        { expectedOldHeadSHA := worker.expectedOldHeadSHA
          candidateHeadSHA := worker.candidateHeadSHA
          validatedTreeSHA := worker.validatedTreeSHA
          deliveredHeadSHA := worker.deliveredHeadSHA
          deliveredTreeSHA := worker.deliveredTreeSHA } now))
  else
    return worked (← commit (finishCIRepairFailure env.lib env.policy.1 attempt
      (lit "infrastructure") false (lit "repair terminal result is malformed")
      env.policy.1.maxAttempts now))

/-- `runCIRepairStatus` for a repair whose terminal result is known. -/
def settleRepair (env : Env) (task : CIRepairTask) (attempt : CIRepairAttempt)
    (terminal : TerminalResult) (now : Int) : Dispatch (Except GoError Bool) := do
  let finish (failureClass : GoString) (modelStarted : Bool) (detail : GoString) :
      Dispatch (Except GoError Bool) :=
    return worked (← commit (finishCIRepairFailure env.lib env.policy.1 attempt failureClass
      modelStarted detail env.policy.1.maxAttempts now))
  match validateCIRepairTerminal env.lib task attempt terminal with
  | .error e => finish (lit "infrastructure") false e.text
  | .ok () =>
    if terminal.outcome ≠ lit "ready_for_review" then
      if terminal.outcome = lit "no_change_required" then
        finish (lit "model_or_code") terminal.modelExecutionStarted
          (lit "repair execution produced no candidate head")
      else
        let detail := GoString.trimSpace terminal.failureReason
        finish terminal.failureClass terminal.modelExecutionStarted
          (if detail = [] then lit "repair execution failed" else detail)
    else if terminal.modelExecutionStarted = false then
      finish (lit "infrastructure") false
        (lit "successful repair terminal lacks model execution proof")
    else deliverRepair env attempt terminal now

/-- `runCIRepairStatus` for a run the broker reports as running or finished. -/
def followRepair (env : Env) (task : CIRepairTask) (attempt : CIRepairAttempt)
    (status : RunStatus) (now : Int) : Dispatch (Except GoError Bool) := do
  match reconciledStatus status.status with
  | .error e =>
    return worked (← commit (finishCIRepairFailure env.lib env.policy.1 attempt
      (lit "infrastructure") false (safeBrokerError e) env.policy.1.maxAttempts now))
  | .ok .launched =>
    return worked (← commit (scheduleCIRepairStatus attempt.attemptKey (now + statusPollInterval)
      now))
  | .ok _ =>
    match ← askTerminalResult (.attempt attempt.attemptKey) attempt.brokerRunID with
    | .error e => return worked (← commit (deferOrFailCIRepairStatus env attempt e now))
    | .ok terminal => settleRepair env task attempt terminal now

/-- The wait of an attempt that is still to be marked resumed. -/
def CIRepairAttempt.unresumedWait (a : CIRepairAttempt) : Option CIExternalWait :=
  a.externalWait.filter (fun w => w.generation > a.resumedGeneration)

/-- `runCIRepairStatus`. -/
def runCIRepairStatus (env : Env) (task : CIRepairTask) (attempt : CIRepairAttempt) (now : Int) :
    Dispatch (Except GoError Bool) := do
  match ← askStatus (.attempt attempt.attemptKey) attempt.brokerRunID with
  | .error e => return worked (← commit (deferOrFailCIRepairStatus env attempt e now))
  | .ok status =>
    if status.runID ≠ attempt.brokerRunID then
      return worked (← commit (finishCIRepairFailure env.lib env.policy.1 attempt
        (lit "infrastructure") false (lit "broker repair status run correlation is invalid")
        env.policy.1.maxAttempts now))
    else if status.status = lit "waiting_external" then
      match status.externalWait with
      | none =>
        return .error (newError "broker waiting_external status lacks structured external_wait")
      | some wait => runCIRepairWait task attempt wait now
    else
      match attempt.unresumedWait with
      | some wait =>
        match ← commit (markCIRepairExternalResumed attempt.attemptKey attempt.externalResumeKey
            wait.generation (now + statusPollInterval) now) with
        | .error e => return .error e
        | .ok () => followRepair env task attempt status now
      | none => followRepair env task attempt status now

/-! ## One pass -/

/-- `safeLaunchFailureReason`. -/
def safeLaunchFailureReason (err : GoError) : GoString :=
  match err.broker with
  | none => lit "sandbox broker launch failed before acknowledging a run"
  | some e =>
    if e.transport then lit "sandbox broker transport failed before acknowledging a run"
    else if e.status ≠ 0 ∧ e.code ≠ [] then
      lit "sandbox broker rejected the launch with HTTP " ++ GoString.decimal e.status ++
        lit " (" ++ e.code ++ lit ")"
    else if e.status ≠ 0 then
      lit "sandbox broker rejected the launch with HTTP " ++ GoString.decimal e.status
    else if e.malformed then lit "sandbox broker returned an invalid launch response"
    else lit "sandbox broker launch failed before acknowledging a run"

/-- `RunOne` for a claimed escalation. -/
def runEscalation (env : Env) (report : CIEscalationReport) (now : Int) :
    Dispatch (Except GoError Bool) := do
  match ← askComment (.escalation report.job.id) report.job report.body report.operationKey with
  | .ok result => return worked (← commit (markCIEscalationDelivered env.lib report result now))
  | .error e =>
    return worked (← commit (markCIEscalationFailure report (isRetryable e) (safeBrokerError e)
      now))

/-- `RunOne` for a claimed reconciliation. -/
def runReconciliation (env : Env) (work : CIReconciliation) (now : Int) :
    Dispatch (Except GoError Bool) := do
  match ← askObserveCI (.reconciliation work.task.jobID work.headSHA) work.task work.headSHA with
  | .error e =>
    return worked (← commit (failCIReconciliation env.policy.1 work e (isRetryable e) now))
  | .ok observation =>
    return worked (← commit (applyCIObservation env.lib env.policy.1 work observation
      env.policy.1.maxAttempts now))

/-- `RunOne` for a claimed attempt. -/
def runRepairLaunch (env : Env) (task : CIRepairTask) (attempt : CIRepairAttempt) (now : Int) :
    Dispatch (Except GoError Bool) := do
  match ← askLaunchRepair (.attempt attempt.attemptKey) task attempt with
  | .ok runID => return worked (← commit (bindCIRepairRun attempt runID now))
  | .error e =>
    if isRetryable e then
      return worked (← commit (deferCIRepairLaunch attempt.attemptKey
        (now + launchRetryDelay (attempt.operations + 1)) e now))
    else
      return worked (← commit (finishCIRepairFailure env.lib env.policy.1 attempt
        (lit "infrastructure") false (safeBrokerError e) env.policy.1.maxAttempts now))

/-- `RunOne` for a claimed report. -/
def runReport (report : Report) (now : Int) : Dispatch (Except GoError Bool) := do
  match ← askComment (.report report.jobID) report.job report.body report.idempotencyKey with
  | .ok result => return worked (← commit (markReportDelivered report result.id result.url now))
  | .error e =>
    let exhausted : Bool := isRetryable e && reportRetryMaxAttempts ≤ report.attempts + 1
    let safe := if exhausted then
        lit "terminal issue comment delivery retry limit exhausted: " ++ safeBrokerError e
      else safeBrokerError e
    return worked (← commit (markReportFailure report (isRetryable e && !exhausted) safe now))

/-- `RunOne` for a job to launch. -/
def runLaunch (env : Env) (job : Job) (now : Int) : Dispatch (Except GoError Bool) := do
  if isZero job.firstAttemptAt = false ∧ job.firstAttemptAt + launchRetryWindow ≤ now then
    return worked (← commit (queueLaunchFailure env.lib job
      (lit "launch retry window exhausted") now))
  else
    match ← askLaunch (.launch job.id) job with
    | .ok runID => return worked (← commit (markLaunched job.id runID (now + statusPollInterval)
        now))
    | .error e =>
      if isRetryable e then
        let due := min (now + launchRetryDelay job.attempts)
          (job.firstAttemptAt + launchRetryWindow)
        return worked (← commit (markLaunchFailure job.id true due (safeBrokerError e) now))
      else
        return worked (← commit (queueLaunchFailure env.lib job (safeLaunchFailureReason e) now))

/-- `RunOne` from `ClaimDue` on. -/
def runJob (env : Env) (now : Int) : Dispatch (Except GoError Bool) := do
  match ← atomic (claimDue now) with
  | .error e => return .error e
  | .ok none => return .ok false
  | .ok (some work) =>
    match work.kind with
    | .status =>
      if work.job.status = .reportPending ∧ env.broker.reporting = false then
        return worked (← commit (deferReportPending work.job.id (now + reporterUnavailableDelay)
          now))
      else runStatus env work.job now
    | .launch => runLaunch env work.job now

/-- `RunOne` from `ClaimReportDue` on. -/
def runReportOrJob (env : Env) (now : Int) : Dispatch (Except GoError Bool) := do
  if env.broker.reporting then
    match ← atomic (claimReportDue now) with
    | .error e => return .error e
    | .ok (some report) => runReport report now
    | .ok none => runJob env now
  else runJob env now

/-- `RunOne` from `ClaimCIReconciliation` on. -/
def runCIOrRest (env : Env) (tie : Nat) (now : Int) : Dispatch (Except GoError Bool) := do
  if env.broker.ciRepair && env.policy.1.isValid then
    match ← atomic (claimCIReconciliation tie now) with
    | .error e => return .error e
    | .ok (some work) => runReconciliation env work now
    | .ok none =>
      match ← atomic (claimCIRepair env.policy.1 tie now) with
      | .error e => return .error e
      | .ok (some (task, attempt)) => runRepairLaunch env task attempt now
      | .ok none =>
        match ← atomic (claimCIRepairStatus env.policy.1 tie now) with
        | .error e => return .error e
        | .ok (some (task, attempt)) => runCIRepairStatus env task attempt now
        | .ok none => runReportOrJob env now
  else runReportOrJob env now

/-- `RunOne`. The result says whether there was work to do. -/
def runOne (env : Env) (tie : Nat) (now : Int) : Dispatch (Except GoError Bool) := do
  if env.broker.reporting && env.policy.1.isValid then
    match ← atomic (claimCIEscalation now) with
    | .error e => return .error e
    | .ok (some report) => runEscalation env report now
    | .ok none => runCIOrRest env tie now
  else runCIOrRest env tie now

end SignalPlane.Dispatcher
