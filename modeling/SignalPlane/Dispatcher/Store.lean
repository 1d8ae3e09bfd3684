/-
SignalPlane.Dispatcher.Store — the dispatcher's database and the lifecycle
operations of `store.go`.

Each table is a `Table` over its primary key, so a store with two rows for one
key cannot be built. An operation is a function from the store to the store it
commits, or the error it returns; an error leaves nothing behind, because the
code runs every operation in one transaction and rolls back. The `WHERE`
guards, the affected-row checks and the constraints of the schema that an
operation can run into are conditions of the function, with the text of the
error the code reports.

`nextID` is SQLite's choice for an `INTEGER PRIMARY KEY`: one more than the
largest id in use.
-/
import SignalPlane.Lib.Table
import SignalPlane.Dispatcher.Model

namespace SignalPlane.Dispatcher

open Clock

/-! ## Rows -/

/-- `jobs`. -/
structure JobRow where
  id : Int
  semanticKey : GoString
  routeID : GoString
  launchProfile : GoString
  repository : GoString
  issueNumber : Int
  sourceDeliveryID : GoString
  brokerRunID : GoString := []
  status : JobStatus
  attempts : Int := 0
  preOutboxAttempts : Int := 0
  firstLaunchAttemptAt : Option Int := none
  dueAt : Int
  lastError : GoString := []
  createdAt : Int
  updatedAt : Int
  deriving DecidableEq, Repr

/-- `deliveries`. -/
structure DeliveryRow where
  deliveryID : GoString
  outcome : GoString
  semanticKey : GoString
  streamSequence : Nat
  recordedAt : Int
  deriving DecidableEq, Repr

/-- `terminal_results`. -/
structure TerminalResultRow where
  jobID : Int
  version : GoString
  runID : GoString
  profile : GoString
  repository : GoString
  branch : GoString
  status : GoString
  outcome : GoString
  finalizeReason : GoString
  terminalSource : GoString
  idempotencyKeyDigest : GoString
  requestFingerprint : GoString
  launchConfigVersion : GoString
  resultJSON : GoString
  finalSummary : GoString
  failureStage : GoString
  failureReason : GoString
  recordedAt : Int
  deriving DecidableEq, Repr

/-- `notification_outbox`. -/
structure OutboxRow where
  id : Int
  jobID : Int
  terminalResultVersion : GoString
  body : GoString
  idempotencyKey : GoString
  status : OutboxStatus
  attempts : Int := 0
  dueAt : Int
  commentID : Option Int := none
  commentURL : GoString := []
  deliveredAt : Option Int := none
  lastError : GoString := []
  createdAt : Int
  updatedAt : Int
  deriving DecidableEq, Repr

/-- `repository_ci_tasks`. -/
structure CITaskRow where
  jobID : Int
  repository : GoString
  issueNumber : Int
  pullNumber : Int
  branch : GoString
  currentHeadSHA : GoString
  agentModel : GoString
  state : CITaskState
  repairAttempts : Int := 0
  deadlineAt : Int
  initialResultJSON : GoString
  lastCIState : GoString := []
  lastCIJSON : GoString := []
  createdAt : Int
  updatedAt : Int
  terminalAt : Option Int := none
  deriving DecidableEq, Repr

/-- `repository_ci_events`. -/
structure CIEventRow where
  deliveryID : GoString
  repository : GoString
  pullNumber : Int
  headSHA : GoString
  eventKind : GoString
  action : GoString
  semanticIdentity : GoString
  payloadDigest : GoString
  receivedAt : Int
  recordedAt : Int
  deriving DecidableEq, Repr

/-- `repository_ci_reconciliations`. The column `operation_key` is always
`ciReconcileKey job_id head_sha`, so it is a function of the row. -/
structure ReconciliationRow where
  jobID : Int
  headSHA : GoString
  state : ReconciliationState
  deadlineWake : Bool := false
  dirty : Bool := false
  operationAttempts : Int := 0
  lastError : GoString := []
  dueAt : Int
  resultDigest : GoString := []
  createdAt : Int
  updatedAt : Int
  deriving DecidableEq, Repr

/-- The unique pair `(job_id, head_sha)`. -/
@[reducible] def ReconciliationRow.key (r : ReconciliationRow) : Int × GoString :=
  (r.jobID, r.headSHA)

/-- The primary key `operation_key`. -/
def ReconciliationRow.operationKey (r : ReconciliationRow) : GoString :=
  ciReconcileKey r.jobID r.headSHA

/-- `repository_ci_attempts`. -/
structure AttemptRow where
  attemptKey : GoString
  jobID : Int
  attemptNumber : Int
  failedHeadSHA : GoString
  agentModel : GoString
  state : AttemptState
  charged : Bool := false
  brokerRunID : GoString := []
  maxRuntimeSeconds : Int
  externalWaitService : GoString := []
  externalWaitPhase : GoString := []
  externalWaitOperation : GoString := []
  externalWaitReason : GoString := []
  externalWaitGeneration : Int := 0
  externalWaitSince : Option Int := none
  externalResumeKey : GoString := []
  resumedExternalWaitGeneration : Int := 0
  expectedOldHeadSHA : GoString
  candidateHeadSHA : GoString := []
  validatedTreeSHA : GoString := []
  deliveredHeadSHA : GoString := []
  deliveredTreeSHA : GoString := []
  failureClass : GoString := []
  operationAttempts : Int := 0
  lastError : GoString := []
  dueAt : Int
  createdAt : Int
  updatedAt : Int
  deriving DecidableEq, Repr

/-- `repository_run_external_waits`. -/
structure ExternalWaitRow where
  jobID : Int
  brokerRunID : GoString
  service : GoString
  phase : GoString
  operation : GoString
  reason : GoString
  generation : Int
  since : Int
  resumeKey : GoString
  maxRuntimeSeconds : Int
  state : WaitState
  createdAt : Int
  updatedAt : Int
  deriving DecidableEq, Repr

/-- `repository_ci_escalation_outbox`. -/
structure EscalationRow where
  jobID : Int
  operationKey : GoString
  body : GoString
  state : EscalationState
  attempts : Int := 0
  commentID : Option Int := none
  commentURL : GoString := []
  lastError : GoString := []
  dueAt : Int
  createdAt : Int
  updatedAt : Int
  deriving DecidableEq, Repr

/-- `recovery_runs.status`. -/
inductive RecoveryStatus where
  | incomplete | completed
  deriving DecidableEq, Repr

/-- `recovery_runs`. -/
structure RecoveryRunRow where
  recoveryID : GoString
  durable : GoString
  manifestSequence : Nat
  startSequence : Nat
  restoredJobCount : Int := -1
  replayCount : Nat := 0
  status : RecoveryStatus
  error : GoString := []
  startedAt : Int
  completedAt : Option Int := none
  deriving DecidableEq, Repr

/-- `recovery_jobs`. -/
structure RecoveryJobRow where
  recoveryID : GoString
  jobID : Int
  semanticKey : GoString
  routeID : GoString
  launchProfile : GoString
  repository : GoString
  issueNumber : Int
  sourceDeliveryID : GoString
  brokerRunID : GoString
  priorStatus : JobStatus
  attempts : Int
  firstLaunchAttemptAt : Option Int
  deriving DecidableEq, Repr

/-- `recovery_reconciliations`. -/
structure RecoveryReconciliationRow where
  recoveryID : GoString
  jobID : Int
  brokerRunID : GoString
  priorStatus : JobStatus
  brokerStatus : GoString
  reconciledStatus : JobStatus
  reconciledAt : Int
  deriving DecidableEq, Repr

/-- `recovery_replayed_messages`. -/
structure ReplayedMessageRow where
  recoveryID : GoString
  streamSequence : Nat
  deriving DecidableEq, Repr

@[reducible] def RecoveryJobRow.key (r : RecoveryJobRow) : GoString × Int := (r.recoveryID, r.jobID)

@[reducible] def RecoveryReconciliationRow.key (r : RecoveryReconciliationRow) : GoString × Int :=
  (r.recoveryID, r.jobID)

/-! ## The store -/

/-- The dispatcher's tables. `checkpoint` is the one row of `dispatcher_metadata`. -/
structure Store where
  deliveries : Table DeliveryRow.deliveryID
  jobs : Table JobRow.id
  checkpoint : Nat
  terminalResults : Table TerminalResultRow.jobID
  outbox : Table OutboxRow.jobID
  ciTasks : Table CITaskRow.jobID
  ciEvents : Table CIEventRow.deliveryID
  reconciliations : Table ReconciliationRow.key
  attempts : Table AttemptRow.attemptKey
  externalWaits : Table ExternalWaitRow.jobID
  escalations : Table EscalationRow.jobID
  recoveryRuns : Table RecoveryRunRow.recoveryID
  recoveryJobs : Table RecoveryJobRow.key
  recoveryReconciliations : Table RecoveryReconciliationRow.key
  recoveryReplayed : Table (id : ReplayedMessageRow → ReplayedMessageRow)
  deriving DecidableEq

/-- A database that `OpenStore` has just created. -/
def Store.empty : Store where
  deliveries := .empty
  jobs := .empty
  checkpoint := 0
  terminalResults := .empty
  outbox := .empty
  ciTasks := .empty
  ciEvents := .empty
  reconciliations := .empty
  attempts := .empty
  externalWaits := .empty
  escalations := .empty
  recoveryRuns := .empty
  recoveryJobs := .empty
  recoveryReconciliations := .empty
  recoveryReplayed := .empty

/-- The id SQLite gives the next row. -/
def nextID (ids : List Int) : Int := ids.foldl max 0 + 1

theorem le_foldl_max (ids : List Int) (a : Int) :
    a ≤ ids.foldl max a ∧ ∀ i ∈ ids, i ≤ ids.foldl max a := by
  induction ids generalizing a with
  | nil => simp
  | cons b ids ih =>
    obtain ⟨h1, h2⟩ := ih (max a b)
    refine ⟨by simp only [List.foldl_cons]; omega, fun i hi => ?_⟩
    rcases List.mem_cons.mp hi with rfl | hi
    · simp only [List.foldl_cons]; omega
    · exact h2 i hi

/-- A new id is larger than every id in use. -/
theorem lt_nextID {ids : List Int} {i : Int} (h : i ∈ ids) : i < nextID ids := by
  have := (le_foldl_max ids 0).2 i h
  simp only [nextID]
  omega

/-- The job value a query scans from a row. -/
def JobRow.toJob (r : JobRow) : Job where
  id := r.id
  semanticKey := r.semanticKey
  routeID := r.routeID
  profile := r.launchProfile
  repository := r.repository
  issueNumber := r.issueNumber
  deliveryID := r.sourceDeliveryID
  brokerRunID := r.brokerRunID
  status := r.status
  attempts := r.attempts
  preOutboxAttempts := r.preOutboxAttempts
  firstAttemptAt := match r.firstLaunchAttemptAt with
    | some ms => ofUnixMilli ms
    | none => Clock.zero

/-- `EXISTS (SELECT 1 FROM terminal_results WHERE job_id = id)`. -/
def Store.hasTerminal (s : Store) (id : Int) : Bool := (s.terminalResults.find? id).isSome

/-- `UPDATE jobs SET f WHERE id = id AND p`. -/
def Store.updateJob (s : Store) (id : Int) (p : JobRow → Bool) (f : JobRow → JobRow)
    (hf : ∀ r, (f r).id = r.id) : Store :=
  { s with jobs := s.jobs.updateKey id p f hf }

/-! ## Deliveries -/

/-- `INSERT INTO jobs … ON CONFLICT(semantic_key) DO NOTHING`. -/
def Store.insertJob (s : Store) (c : Candidate) (now : Int) : Store :=
  if s.jobs.rows.any (fun r => r.semanticKey = c.semanticKey) then s
  else
    { s with
      jobs := s.jobs.insert
        { id := nextID (s.jobs.rows.map JobRow.id)
          semanticKey := c.semanticKey
          routeID := c.routeID
          launchProfile := c.profile
          repository := c.repository
          issueNumber := c.issueNumber
          sourceDeliveryID := c.deliveryID
          status := .pendingLaunch
          dueAt := unixMilli now
          createdAt := unixMilli now
          updatedAt := unixMilli now } }

/-- The replay evidence of `Store.record`: one row per message of an incomplete recovery. -/
def recordReplay (recoveryID : GoString) (streamSequence : Nat) (s : Store) :
    Except GoError Store := do
  if recoveryID = [] then return s
  require (streamSequence < 2 ^ 63) (highBitSet "2")
  require (s.recoveryRuns.hits recoveryID (fun r => r.status = .incomplete))
    (newError "recovery is not incomplete")
  return { s with recoveryReplayed := s.recoveryReplayed.insert ⟨recoveryID, streamSequence⟩ }

/-- `Store.record`; `Record` passes the empty recovery id. The driver refuses a sequence of 2^63 or
more at the first statement that has it: the replay evidence, the delivery or the checkpoint. -/
def record (recoveryID deliveryID outcome : GoString) (streamSequence : Nat)
    (candidate : Option Candidate) (now : Int) (s : Store) : Except GoError Store := do
  require (streamSequence ≠ 0) (newError "positive JetStream stream sequence is required")
  require (∀ c ∈ candidate, deliveryID ≠ [] ∧ c.deliveryID = deliveryID)
    (newError "selected job requires matching nonempty delivery id")
  let s ← recordReplay recoveryID streamSequence s
  require (streamSequence < 2 ^ 63) (highBitSet (if deliveryID = [] then "1" else "4"))
  let checkpoint := max s.checkpoint streamSequence
  if deliveryID ≠ [] ∧ (s.deliveries.find? deliveryID).isSome then
    return { s with checkpoint := checkpoint }
  let s := if deliveryID = [] then s else
    { s with
      deliveries := s.deliveries.insert
        { deliveryID := deliveryID
          outcome := outcome
          semanticKey := (candidate.map Candidate.semanticKey).getD []
          streamSequence := streamSequence
          recordedAt := unixMilli now } }
  let s := match candidate with
    | some c => s.insertJob c now
    | none => s
  return { s with checkpoint := checkpoint }

/-! ## Claims -/

/-- `Work.Kind`. -/
inductive WorkKind where
  | launch | status
  deriving DecidableEq, Repr

/-- `Work`. -/
structure Work where
  kind : WorkKind
  job : Job
  deriving DecidableEq, Repr

/-- The rows `ClaimDue` orders: a reported job is no longer in line. -/
def Store.unfinished (s : Store) (r : JobRow) : Bool :=
  r.status.isQueued || (r.status.isPolled && (r.status ≠ .reportPending || !s.hasTerminal r.id))

/-- `ORDER BY created_at,id`. -/
def JobRow.precedes (a b : JobRow) : Bool :=
  a.createdAt < b.createdAt || (a.createdAt = b.createdAt && a.id ≤ b.id)

/-- The oldest unfinished job. -/
def Store.head (s : Store) : Option JobRow :=
  pick JobRow.precedes (s.jobs.rows.filter s.unfinished) 0

/-- The row after one more launch attempt. -/
@[reducible] def JobRow.attempted (r : JobRow) (now : Int) : JobRow :=
  { r with
    attempts := r.attempts + 1
    firstLaunchAttemptAt := some (r.firstLaunchAttemptAt.getD (unixMilli now))
    updatedAt := unixMilli now }

/-- The job value of a launch claim: the first attempt is now when the row has none. -/
def JobRow.toLaunchJob (r : JobRow) (now : Int) : Job :=
  { r.toJob with
    attempts := r.attempts + 1
    firstAttemptAt := match r.firstLaunchAttemptAt with
      | some ms => ofUnixMilli ms
      | none => now }

/-- `Store.ClaimDue`: the oldest unfinished job blocks every later one. -/
def claimDue (now : Int) (s : Store) : Except GoError (Option Work × Store) :=
  match s.head with
  | none => .ok (none, s)
  | some r =>
    if r.dueAt > unixMilli now then .ok (none, s)
    else if r.status.isPolled then .ok (some ⟨.status, r.toJob⟩, s)
    else .ok (some ⟨.launch, r.toLaunchJob now⟩,
      s.updateJob r.id (fun r => r.status.isQueued) (fun r => r.attempted now) (fun _ => rfl))

/-! ## Lifecycle updates -/

/-- `Store.MarkLaunched`. -/
def markLaunched (id : Int) (brokerRunID : GoString) (due now : Int) (s : Store) :
    Except GoError Store := do
  require (brokerRunID ≠ []) (newError "broker run id is required")
  expectOne (s.jobs.hits id (fun r => r.status.isQueued)) "mark launched"
  return s.updateJob id (fun r => r.status.isQueued)
    (fun r => { r with
      status := .launched
      brokerRunID := brokerRunID
      dueAt := unixMilli due
      updatedAt := unixMilli now
      lastError := [] }) (fun _ => rfl)

/-- `Store.MarkLaunchFailure`. -/
def markLaunchFailure (id : Int) (retry : Bool) (due : Int) (message : GoString) (now : Int)
    (s : Store) : Except GoError Store := do
  expectOne (s.jobs.hits id (fun r => r.status.isQueued)) "mark launch failure"
  return s.updateJob id (fun r => r.status.isQueued)
    (fun r => { r with
      status := if retry then .launchRetry else .failed
      dueAt := unixMilli due
      lastError := message
      updatedAt := unixMilli now }) (fun _ => rfl)

/-- `status IN (launched, report_pending)`. -/
def JobRow.isPollResult (r : JobRow) : Bool := r.status = .launched || r.status = .reportPending

/-- `Store.MarkStatus`. -/
def markStatus (id : Int) (status : JobStatus) (due : Int) (message : GoString) (now : Int)
    (s : Store) : Except GoError Store := do
  expectOne (s.jobs.hits id JobRow.isPollResult) "mark status"
  return s.updateJob id JobRow.isPollResult
    (fun r => { r with
      status := status
      dueAt := unixMilli due
      lastError := message
      updatedAt := unixMilli now
      preOutboxAttempts := if message = [] then 0 else r.preOutboxAttempts }) (fun _ => rfl)

/-- A counted failure before the outbox. -/
@[reducible] def JobRow.preOutboxFailed (r : JobRow) (status : JobStatus) (due : Int)
    (message : GoString) (now : Int) : JobRow :=
  { r with
    status := status
    preOutboxAttempts := r.preOutboxAttempts + 1
    dueAt := unixMilli due
    lastError := message
    updatedAt := unixMilli now }

/-- `Store.MarkPreOutboxFailure`; the number of attempts it returns is read back after the
update, outside any transaction. -/
def markPreOutboxFailure (id : Int) (status : JobStatus) (due : Int) (message : GoString)
    (now : Int) (s : Store) : Except GoError (Int × Store) := do
  require (¬ (status ≠ .launched ∧ status ≠ .reportPending))
    (newError "invalid pre-outbox recovery state")
  let p := fun r : JobRow => r.isPollResult && !s.hasTerminal r.id
  expectOne (s.jobs.hits id p) "mark pre-outbox failure"
  let s' := s.updateJob id p (fun r => r.preOutboxFailed status due message now) (fun _ => rfl)
  match s'.jobs.find? id with
  | some r => return (r.preOutboxAttempts, s')
  | none => .error errNoRows

theorem markPreOutboxFailure_ok {id due now attempts : Int} {status : JobStatus}
    {message : GoString} {s s' : Store} :
    markPreOutboxFailure id status due message now s = .ok (attempts, s') ↔
      (status = .launched ∨ status = .reportPending) ∧
      ∃ r, s.jobs.find? id = some r ∧ r.isPollResult = true ∧ s.hasTerminal id = false ∧
        attempts = r.preOutboxAttempts + 1 ∧
        s' = s.updateJob id (fun r => r.isPollResult && !s.hasTerminal r.id)
          (fun r => r.preOutboxFailed status due message now) (fun _ => rfl) := by
  have hstatus : ¬ (status ≠ .launched ∧ status ≠ .reportPending) ↔
      status = .launched ∨ status = .reportPending := by tauto
  simp only [markPreOutboxFailure, require_bind_eq_ok, expectOne_bind_eq_ok, hstatus]
  refine and_congr_right fun _ => ?_
  constructor
  · rintro ⟨hhit, h⟩
    obtain ⟨r, hrow, hr⟩ := Table.hits_iff.mp hhit
    have hr' : r.isPollResult = true ∧ s.hasTerminal id = false := by
      simpa [Table.key_of_find? hrow] using hr
    rw [Store.updateJob, Table.find?_updateKey_self, hrow, Option.map_some, if_pos hr] at h
    simp only [pure_eq_ok, Prod.mk.injEq] at h
    exact ⟨r, hrow, hr'.1, hr'.2, h.1.symm, h.2.symm⟩
  · rintro ⟨r, hrow, hpoll, hterminal, rfl, rfl⟩
    have hr : (r.isPollResult && !s.hasTerminal r.id) = true := by
      simp [Table.key_of_find? hrow, hpoll, hterminal]
    refine ⟨Table.hits_iff.mpr ⟨r, hrow, hr⟩, ?_⟩
    rw [Store.updateJob, Table.find?_updateKey_self, hrow, Option.map_some, if_pos hr]
    rfl

/-- A failure of a polled job without a result is counted. -/
theorem markPreOutboxFailure_counts {id : Int} {status : JobStatus} {s : Store} {row : JobRow}
    (hstatus : status = .launched ∨ status = .reportPending) (hrow : s.jobs.find? id = some row)
    (hpoll : row.isPollResult = true) (hterminal : s.hasTerminal id = false) (due : Int)
    (message : GoString) (now : Int) :
    ∃ jobs, markPreOutboxFailure id status due message now s =
        .ok (row.preOutboxAttempts + 1, { s with jobs := jobs }) ∧
      jobs.find? id = some (row.preOutboxFailed status due message now) := by
  refine ⟨_, markPreOutboxFailure_ok.mpr ⟨hstatus, row, hrow, hpoll, hterminal, rfl, rfl⟩, ?_⟩
  have hr : (row.isPollResult && !s.hasTerminal row.id) = true := by
    simp [Table.key_of_find? hrow, hpoll, hterminal]
  rw [Table.find?_updateKey_self, hrow, Option.map_some, if_pos hr]

/-- `Store.DeferReportPending`. -/
def deferReportPending (id : Int) (due now : Int) (s : Store) : Except GoError Store := do
  let p := fun r : JobRow => r.status = .reportPending && !s.hasTerminal r.id
  expectOne (s.jobs.hits id p) "defer report pending"
  return s.updateJob id p
    (fun r => { r with
      dueAt := unixMilli due
      lastError := lit "terminal reporting deferred: reporter broker is not configured"
      updatedAt := unixMilli now }) (fun _ => rfl)

end SignalPlane.Dispatcher
