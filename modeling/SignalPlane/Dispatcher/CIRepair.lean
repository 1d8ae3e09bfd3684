/-
SignalPlane.Dispatcher.CIRepair — the CI wait and repair lifecycle
(`ci_repair.go`).

A job whose work is ready for review gets a CI task. Reconciliations ask for
the authoritative CI state of one head; a code failure opens a repair attempt,
an infrastructure failure or an exhausted budget queues an escalation comment.
The claims order their rows as the SQL does; where `ORDER BY` leaves rows
equal, `tie` says which one the database returns.
-/
import SignalPlane.Dispatcher.Store

namespace SignalPlane.Dispatcher

open Clock

/-! ## Statements the operations share -/

/-- `UPDATE repository_ci_tasks SET f WHERE job_id = id AND p`. -/
def Store.updateTask (s : Store) (id : Int) (p : CITaskRow → Bool) (f : CITaskRow → CITaskRow)
    (hf : ∀ r, (f r).jobID = r.jobID) : Store :=
  { s with ciTasks := s.ciTasks.updateKey id p f hf }

/-- `UPDATE repository_ci_attempts SET f WHERE attempt_key = key AND p`. -/
def Store.updateAttempt (s : Store) (key : GoString) (p : AttemptRow → Bool)
    (f : AttemptRow → AttemptRow) (hf : ∀ r, (f r).attemptKey = r.attemptKey) : Store :=
  { s with attempts := s.attempts.updateKey key p f hf }

/-- `UPDATE repository_ci_reconciliations SET f WHERE operation_key = key AND p`. -/
def Store.updateReconciliation (s : Store) (key : GoString) (p : ReconciliationRow → Bool)
    (f : ReconciliationRow → ReconciliationRow) (hf : ∀ r, (f r).key = r.key) : Store :=
  { s with
    reconciliations := s.reconciliations.update
      (fun r => decide (r.operationKey = key) && p r) f hf }

/-- Whether that update hits a row. -/
def Store.hitsReconciliation (s : Store) (key : GoString) (p : ReconciliationRow → Bool) : Bool :=
  s.reconciliations.rows.any (fun r => decide (r.operationKey = key) && p r)

/-- `UPDATE jobs SET status, updated_at WHERE id = id`. -/
def Store.setJobStatus (s : Store) (id : Int) (status : JobStatus) (now : Int) : Store :=
  s.updateJob id (fun _ => true)
    (fun r => { r with status := status, updatedAt := unixMilli now }) (fun _ => rfl)

/-- `UPDATE jobs SET status, due_at, updated_at WHERE id = id`. -/
def Store.scheduleJob (s : Store) (id : Int) (status : JobStatus) (due now : Int) : Store :=
  s.updateJob id (fun _ => true)
    (fun r => { r with
      status := status, dueAt := unixMilli due, updatedAt := unixMilli now }) (fun _ => rfl)

/-- `UPDATE repository_ci_tasks SET state, updated_at WHERE job_id = id`. -/
def Store.setTaskState (s : Store) (id : Int) (state : CITaskState) (now : Int) : Store :=
  s.updateTask id (fun _ => true)
    (fun t => { t with state := state, updatedAt := unixMilli now }) (fun _ => rfl)

/-- A new attempt, ready to launch. -/
def newAttempt (policy : CIRepairPolicy) (jobID : Int) (agentModel head : GoString) (number : Int)
    (now : Int) : AttemptRow where
  attemptKey := ciAttemptKey jobID agentModel head number
  jobID := jobID
  attemptNumber := number
  failedHeadSHA := head
  agentModel := agentModel
  state := .ready
  maxRuntimeSeconds := durationSeconds policy.activeTimeout
  expectedOldHeadSHA := head
  dueAt := unixMilli now
  createdAt := unixMilli now
  updatedAt := unixMilli now

/-- The constraints of `repository_ci_attempts` on a new row, its primary key apart. -/
def checkAttemptConstraints (s : Store) (a : AttemptRow) : Except GoError Unit := do
  require (1 ≤ a.attemptNumber ∧ a.attemptNumber ≤ 2)
    (constraintFailed "CHECK attempt_number BETWEEN 1 AND 2")
  require (s.attempts.rows.any
      (fun r => r.jobID = a.jobID && r.attemptNumber = a.attemptNumber) = false)
    (constraintFailed "UNIQUE repository_ci_attempts.job_id, attempt_number")

/-- The task value a query scans from a row. -/
def CITaskRow.toTask (t : CITaskRow) : CIRepairTask where
  jobID := t.jobID
  repository := t.repository
  issueNumber := t.issueNumber
  pullNumber := t.pullNumber
  branch := t.branch
  currentHeadSHA := t.currentHeadSHA
  agentModel := t.agentModel
  state := t.state
  repairAttempts := t.repairAttempts
  reconcileAt := ofUnixMilli t.deadlineAt
  lastCIState := t.lastCIState

/-! ## Entering the CI wait -/

/-- The row `BeginCIWait` inserts. -/
def newTask (job : Job) (pullNumber : Int) (branch headSHA agentModel : GoString)
    (deadline now : Int) (initialResult : GoString) : CITaskRow where
  jobID := job.id
  repository := job.repository
  issueNumber := job.issueNumber
  pullNumber := pullNumber
  branch := branch
  currentHeadSHA := headSHA
  agentModel := agentModel
  state := .waitingCI
  deadlineAt := unixMilli deadline
  initialResultJSON := initialResult
  createdAt := unixMilli now
  updatedAt := unixMilli now

/-- The comparison of the stored task with the coordinates of this call: the stored deadline is
read back from its millisecond column. -/
def CITaskRow.matchesCoordinates (t : CITaskRow) (job : Job) (pullNumber : Int)
    (branch headSHA agentModel : GoString) (deadline : Int) (initialResult : GoString) : Bool :=
  t.repository = job.repository && t.issueNumber = job.issueNumber &&
    t.pullNumber = pullNumber && t.branch = branch && t.currentHeadSHA = headSHA &&
    t.agentModel = agentModel && ofUnixMilli t.deadlineAt = deadline &&
    t.initialResultJSON = initialResult

/-- The arguments `BeginCIWait` accepts. -/
def ciWaitArguments (lib : GoLib) (job : Job) (pullNumber : Int)
    (branch headSHA agentModel : GoString) (deadline now : Int) (initialResult : GoString) :
    Bool :=
  !(job.id < 1 || job.repository = [] || job.issueNumber < 1 || pullNumber < 1 || branch = [] ||
    !isGithubSHA headSHA || agentModel = [] || !(deadline > now) || initialResult.length = 0 ||
    initialResult.length > 64 * 1024 || !lib.jsonValid initialResult)

/-- The row of a reconciliation that is queued for `now`. -/
def queuedReconciliation (jobID : Int) (headSHA : GoString) (now : Int) : ReconciliationRow where
  jobID := jobID
  headSHA := headSHA
  state := .queued
  dueAt := unixMilli now
  createdAt := unixMilli now
  updatedAt := unixMilli now

/-- `status IN (launched, ci_waiting)`: the guard of `BeginCIWait` on the job row. -/
def JobRow.entersCIWait (r : JobRow) : Bool := r.status = .launched || r.status = .ciWaiting

/-- `Store.BeginCIWait`. The update of the job row is not checked. -/
def beginCIWait (lib : GoLib) (job : Job) (pullNumber : Int) (branch headSHA agentModel : GoString)
    (deadline now : Int) (initialResult : GoString) (s : Store) : Except GoError Store := do
  require (ciWaitArguments lib job pullNumber branch headSHA agentModel deadline now
      initialResult = true)
    (newError ("CI wait requires durable job, PR, branch, exact head, agent/model, and future " ++
      "reconciliation wake"))
  require ((s.ciTasks.find? job.id).isSome = true ∨ (s.jobs.find? job.id).isSome = true)
    (constraintFailed "FOREIGN KEY")
  let task := newTask job pullNumber branch headSHA agentModel deadline now initialResult
  let stored := (s.ciTasks.find? job.id).getD task
  require (stored.matchesCoordinates job pullNumber branch headSHA agentModel deadline
      initialResult = true)
    (newError "ready-for-review replay conflicts with durable CI coordinates")
  return { s with
    ciTasks := s.ciTasks.insert task
    jobs := s.jobs.updateKey job.id JobRow.entersCIWait
      (fun r => { r with
        status := .ciWaiting
        dueAt := unixMilli deadline
        updatedAt := unixMilli now
        lastError := [] }) (fun _ => rfl)
    reconciliations := s.reconciliations.insert (queuedReconciliation job.id headSHA now) }

/-! ## CI events -/

/-- `isCIWakeEvent`. -/
def isCIWakeEvent (event : GoString) : Bool :=
  event ∈ [lit "check_run", lit "check_suite", lit "status", lit "pull_request"]

/-- The pull request a CI event names, 0 when it names none. -/
def ciEventPull (lib : GoLib) (signal : Signal) : Except GoError Int :=
  if signal.objectKind = lit "pull_request" then
    match (lib.sscanInt signal.objectID).filter (fun n => 1 ≤ n) with
    | some n => .ok n
    | none => .error (newError "CI event has invalid pull request identity")
  else .ok 0

/-- The row of a CI event. -/
def ciEventRow (lib : GoLib) (signal : Signal) (pullNumber now : Int) : CIEventRow :=
  let digest := lit "sha256:" ++ lib.sha256Hex signal.payload
  { deliveryID := signal.sourceDeliveryID
    repository := signal.nameSpace
    pullNumber := pullNumber
    headSHA := signal.sourceRevision
    eventKind := signal.sourceEvent
    action := signal.sourceAction
    semanticIdentity := GoString.join
      [lit "github-ci-event/v1", signal.nameSpace, signal.sourceEvent, signal.sourceAction,
        GoString.decimal pullNumber, signal.sourceRevision, digest] (lit ":")
    payloadDigest := digest
    receivedAt := unixMilli signal.receivedAt
    recordedAt := unixMilli now }

/-- The upsert of `RecordCIEvent`: a running reconciliation is marked dirty, any other queued. -/
def requeueReconciliation (jobID : Int) (head : GoString) (now : Int)
    (rs : Table ReconciliationRow.key) : Table ReconciliationRow.key :=
  if (rs.find? (jobID, head)).isSome then
    rs.updateKey (jobID, head) (fun _ => true)
      (fun r => { r with
        state := if r.state = .running then .running else .queued
        dirty := if r.state = .running then true else r.dirty
        dueAt := unixMilli now
        updatedAt := unixMilli now }) (fun _ => rfl)
  else rs.insert (queuedReconciliation jobID head now)

/-- Whether an event of this repository, pull request and head concerns a task. -/
def CITaskRow.concernedBy (t : CITaskRow) (signal : Signal) (pullNumber : Int) : Bool :=
  t.repository = signal.nameSpace && (t.state = .waitingCI || t.state = .repairRunning) &&
    ((0 < pullNumber && t.pullNumber = pullNumber) || t.currentHeadSHA = signal.sourceRevision)

/-- An attempt that runs for the job and waits on a generation that was not resumed. -/
def AttemptRow.awaitsResume (a : AttemptRow) (jobID : Int) : Bool :=
  a.jobID = jobID && a.state = .running &&
    a.externalWaitGeneration > a.resumedExternalWaitGeneration

/-- What a CI event does to one task it concerns, and whether it queued work. -/
def wakeTask (signal : Signal) (now : Int) (acc : Bool × Store) (t : CITaskRow) : Bool × Store :=
  let (queued, s) := acc
  if t.state = .repairRunning then
    (queued || s.attempts.rows.any (fun a => a.awaitsResume t.jobID),
      { s with
        attempts := s.attempts.update (fun a => a.awaitsResume t.jobID)
          (fun a => { a with dueAt := min a.dueAt (unixMilli now), updatedAt := unixMilli now })
          (fun _ => rfl) })
  else
    (true, { s with
      reconciliations := requeueReconciliation t.jobID signal.sourceRevision now
        s.reconciliations })

/-- `Store.RecordCIEvent`. -/
def recordCIEvent (lib : GoLib) (signal : Signal) (now : Int) (s : Store) :
    Except GoError (Bool × Store) := do
  require (¬ (signal.source ≠ lit "github" ∨ signal.sourceDeliveryID = [] ∨
      signal.nameSpace = [] ∨ isGithubSHA signal.sourceRevision = false))
    (newError "CI event lacks authenticated GitHub delivery, repository, or exact head identity")
  if isCIWakeEvent signal.sourceEvent = false then return (false, s)
  let pullNumber ← ciEventPull lib signal
  let event := ciEventRow lib signal pullNumber now
  if s.ciEvents.rows.any
      (fun e => e.deliveryID = event.deliveryID || e.semanticIdentity = event.semanticIdentity) then
    return (false, s)
  let targets := s.ciTasks.rows.filter (fun t => t.concernedBy signal pullNumber)
  return targets.foldl (wakeTask signal now) (false, { s with ciEvents := s.ciEvents.insert event })

/-! ## Reconciliations -/

/-- A task whose deadline wake is due. -/
def CITaskRow.wakeDue (t : CITaskRow) (now : Int) : Bool :=
  t.state = .waitingCI && t.deadlineAt ≤ unixMilli now

/-- The deadline upsert of `ClaimCIReconciliation` for one task. -/
def wakeDeadline (now : Int) (rs : Table ReconciliationRow.key) (t : CITaskRow) :
    Table ReconciliationRow.key :=
  if (rs.find? (t.jobID, t.currentHeadSHA)).isSome then
    rs.updateKey (t.jobID, t.currentHeadSHA) (fun _ => true)
      (fun r => { r with
        state := if r.state = .completed then .queued else r.state
        deadlineWake := true
        dirty := if r.state = .running then true else r.dirty
        dueAt := min r.dueAt t.deadlineAt
        updatedAt := unixMilli now }) (fun _ => rfl)
  else rs.insert
    { jobID := t.jobID
      headSHA := t.currentHeadSHA
      state := .queued
      deadlineWake := true
      dueAt := t.deadlineAt
      createdAt := t.deadlineAt
      updatedAt := unixMilli now }

/-- The first statement of `ClaimCIReconciliation`. -/
def Store.wakeDeadlines (s : Store) (now : Int) : Store :=
  { s with
    reconciliations := (s.ciTasks.rows.filter (fun t => t.wakeDue now)).foldl (wakeDeadline now)
      s.reconciliations }

/-- A reconciliation that may be claimed, with its task. -/
def Store.claimableReconciliations (s : Store) (now : Int) :
    List (ReconciliationRow × CITaskRow) :=
  s.reconciliations.rows.filterMap fun r =>
    match s.ciTasks.find? r.jobID with
    | some t =>
      if t.state = .waitingCI ∧ (r.state = .queued ∨ r.state = .running) ∧
          r.dueAt ≤ unixMilli now then some (r, t)
      else none
    | none => none

theorem mem_claimableReconciliations {r : ReconciliationRow} {t : CITaskRow} {now : Int}
    {s : Store} :
    (r, t) ∈ s.claimableReconciliations now ↔
      r ∈ s.reconciliations.rows ∧ s.ciTasks.find? r.jobID = some t ∧ t.state = .waitingCI ∧
        (r.state = .queued ∨ r.state = .running) ∧ r.dueAt ≤ unixMilli now := by
  simp only [Store.claimableReconciliations, List.mem_filterMap]
  constructor
  · rintro ⟨r', hr', h⟩
    split at h
    · next t' ht' =>
      split at h
      · next hc =>
        cases h
        exact ⟨hr', ht', hc⟩
      · cases h
    · cases h
  · rintro ⟨hr, ht, hc⟩
    exact ⟨r, hr, by simp [ht, hc]⟩

/-- `ORDER BY r.deadline_wake DESC, r.due_at, t.job_id`. -/
def reconciliationOrder (a b : ReconciliationRow × CITaskRow) : Bool :=
  (a.1.deadlineWake && !b.1.deadlineWake) ||
    (a.1.deadlineWake = b.1.deadlineWake &&
      (a.1.dueAt < b.1.dueAt || (a.1.dueAt = b.1.dueAt && a.2.jobID ≤ b.2.jobID)))

/-- `Store.ClaimCIReconciliation`. -/
def claimCIReconciliation (tie : Nat) (now : Int) (s : Store) :
    Except GoError (Option CIReconciliation × Store) :=
  let s := s.wakeDeadlines now
  match pick reconciliationOrder (s.claimableReconciliations now) tie with
  | none => .ok (none, s)
  | some (r, t) =>
    .ok (some
      { operationKey := r.operationKey
        task := t.toTask
        headSHA := r.headSHA
        deadlineWake := r.deadlineWake
        operations := r.operationAttempts },
      s.updateReconciliation r.operationKey (fun _ => true)
        (fun r => { r with
          state := .running
          dirty := false
          dueAt := unixMilli (now + ciReconcileLease)
          updatedAt := unixMilli now }) (fun _ => rfl))

/-! ## Escalations -/

/-- `s[:12]`, which panics on a shorter string. -/
def firstTwelve (s : GoString) : Except GoError GoString :=
  if s.length < 12 then .error (newError "runtime error: slice bounds out of range")
  else .ok (s.take 12)

/-- The line of one failed check. -/
def failedCheckLine (check : FailedCheck) : GoString :=
  let summary := (GoString.trimSpace check.summary).take 160
  lit "- " ++ check.name ++ lit " (" ++ check.conclusion ++ lit ")" ++
    (if summary = [] then [] else lit ": " ++ summary)

/-- The failed checks, the first five of them in full. -/
def failedCheckLines (checks : List FailedCheck) : List GoString :=
  let sorted := checks.insertionSort (fun a b => a.name ≤ b.name)
  if sorted = [] then []
  else lit "Failed required checks:" :: (sorted.take 5).map failedCheckLine ++
    (if sorted.length > 5 then
      [lit "- Additional failures were omitted; inspect the bounded broker evidence."] else [])

/-- The line of one earlier attempt. -/
def attemptLine (a : AttemptRow) : GoString :=
  let detail := if a.failureClass ≠ [] then a.failureClass
    else if isGithubSHA a.deliveredHeadSHA then lit "delivered " ++ a.deliveredHeadSHA.take 12
    else a.state.text
  let failed := if isGithubSHA a.failedHeadSHA then a.failedHeadSHA.take 12 else a.failedHeadSHA
  lit "- Attempt " ++ GoString.decimal a.attemptNumber ++ lit " for \x60" ++ failed ++
    lit "\x60: " ++ detail

/-- The attempts of a job, in order. -/
def attemptLines (s : Store) (jobID : Int) : List GoString :=
  let history := (s.attempts.rows.filter (fun a => a.jobID = jobID)).insertionSort
    (fun a b => a.attemptNumber ≤ b.attemptNumber)
  if history = [] then [] else lit "Repair history:" :: history.map attemptLine

/-- The body of an escalation comment. -/
def escalationBody (s : Store) (jobID : Int) (observation : CIObservation)
    (attempts maxAttempts : Int) (reason : GoString) : Except GoError GoString := do
  let head ← firstTwelve observation.headSHA
  let opening :=
    if reason = lit "observation_invalid" then
      lit ("The authoritative CI observation could not be validated; no speculative code repair " ++
        "was launched.")
    else if observation.state = lit "infrastructure_failure" then
      lit ("CI reported an infrastructure or runner failure; no speculative code repair was " ++
        "launched.")
    else lit "CI repair stopped after " ++ GoString.decimal attempts ++ lit " of " ++
      GoString.decimal maxAttempts ++ lit " coding attempts."
  let lines := [opening, lit "Pull request #" ++ GoString.decimal observation.pullNumber ++
      lit " remains open at \x60" ++ head ++ lit "\x60."] ++
    failedCheckLines observation.failedChecks ++ attemptLines s jobID ++
    [lit ("A human or stronger model should inspect the failed-check evidence, prior repair " ++
      "results, and current branch before continuing.")]
  return GoString.join lines [10]

/-- `ci-escalation:v1:%d`. -/
def ciEscalationKey (jobID : Int) : GoString := lit "ci-escalation:v1:" ++ GoString.decimal jobID

/-- The row `queueCIEscalation` inserts. -/
def newEscalation (jobID : Int) (body : GoString) (now : Int) : EscalationRow where
  jobID := jobID
  operationKey := ciEscalationKey jobID
  body := body
  state := .pending
  dueAt := unixMilli now
  createdAt := unixMilli now
  updatedAt := unixMilli now

/-- `queueCIEscalation`. -/
def queueCIEscalation (jobID : Int) (observation : CIObservation) (attempts maxAttempts : Int)
    (reason : GoString) (now : Int) (s : Store) : Except GoError Store := do
  let body ← escalationBody s jobID observation attempts maxAttempts reason
  require ((s.ciTasks.find? jobID).isSome = true) (constraintFailed "FOREIGN KEY")
  let s := { s with escalations := s.escalations.insert (newEscalation jobID body now) }
  return (s.setTaskState jobID .escalationPending now).setJobStatus jobID .ciEscalation now

/-! ## The outcome of an observation -/

/-- `Store.FailCIReconciliation`. -/
def failCIReconciliation (policy : CIRepairPolicy) (work : CIReconciliation) (failure : GoError)
    (retry : Bool) (now : Int) (s : Store) : Except GoError Store := do
  require (work.operationKey ≠ [])
    (newError "CI reconciliation failure requires operation identity and error")
  let running := fun r : ReconciliationRow => decide (r.state = .running)
  if retry then
    expectOne (s.hitsReconciliation work.operationKey running) "defer CI reconciliation"
    return s.updateReconciliation work.operationKey running
      (fun r => { r with
        state := .queued
        operationAttempts := r.operationAttempts + 1
        lastError := safeBrokerError failure
        dueAt := unixMilli (now + preOutboxRetryDelay (work.operations + 1))
        updatedAt := unixMilli now }) (fun _ => rfl)
  expectOne (s.hitsReconciliation work.operationKey running) "complete failed CI reconciliation"
  let s := s.updateReconciliation work.operationKey running
    (fun r => { r with
      state := .completed
      operationAttempts := r.operationAttempts + 1
      lastError := safeBrokerError failure
      updatedAt := unixMilli now }) (fun _ => rfl)
  if isStalePullHead failure then
    let nextWake := now + policy.reconciliationWake
    let s := s.updateTask work.task.jobID (fun t => t.state = .waitingCI)
      (fun t => { t with deadlineAt := unixMilli nextWake, updatedAt := unixMilli now })
      (fun _ => rfl)
    return s.updateJob work.task.jobID (fun r => r.status = .ciWaiting)
      (fun r => { r with dueAt := unixMilli nextWake, updatedAt := unixMilli now }) (fun _ => rfl)
  else
    queueCIEscalation work.task.jobID
      { repository := work.task.repository
        pullNumber := work.task.pullNumber
        headSHA := work.task.currentHeadSHA
        state := lit "infrastructure_failure"
        failedChecks := [
          { name := lit "CI observation"
            conclusion := lit "unavailable"
            summary := safeBrokerError failure }] }
      work.task.repairAttempts policy.maxAttempts (lit "observation_invalid") now s

/-- The words of `CIObservation.State`. -/
def ciStates : List GoString :=
  [lit "pending", lit "success", lit "code_failure", lit "infrastructure_failure"]

/-- The first statements of `ApplyCIObservation`: the reconciliation is completed, or queued again
when an event marked it dirty and CI is still pending, and the task keeps the observation. -/
def Store.recordObservation (s : Store) (lib : GoLib) (work : CIReconciliation)
    (observation : CIObservation) (encoded : GoString) (task : CITaskRow) (now : Int) : Store :=
  let preserveWake : Bool := observation.state = lit "pending"
  let s := s.updateReconciliation work.operationKey (fun _ => true)
    (fun r => { r with
      state := if r.dirty && preserveWake then .queued else .completed
      dueAt := if r.dirty && preserveWake then unixMilli now else r.dueAt
      resultDigest := lit "sha256:" ++ lib.sha256Hex encoded
      updatedAt := unixMilli now }) (fun _ => rfl)
  let s := if task.currentHeadSHA = observation.headSHA then s else
    s.updateTask work.task.jobID (fun _ => true)
      (fun t => { t with
        currentHeadSHA := observation.headSHA
        state := .waitingCI
        updatedAt := unixMilli now }) (fun _ => rfl)
  s.updateTask work.task.jobID (fun _ => true)
    (fun t => { t with
      lastCIState := observation.state
      lastCIJSON := encoded
      updatedAt := unixMilli now }) (fun _ => rfl)

/-- `ApplyCIObservation` after the observation is recorded, for a task that is not finished: what
it makes of the task and the job. -/
def settleObservation (policy : CIRepairPolicy) (jobID : Int) (observation : CIObservation)
    (task : CITaskRow) (maxAttempts now : Int) (s : Store) : Except GoError Store := do
  if observation.state = lit "success" then
    let s := s.updateTask jobID (fun _ => true)
      (fun t => { t with
        state := .completed
        terminalAt := some (unixMilli now)
        updatedAt := unixMilli now }) (fun _ => rfl)
    return s.setJobStatus jobID .completed now
  if observation.state = lit "infrastructure_failure" then
    queueCIEscalation jobID observation task.repairAttempts maxAttempts
      (lit "infrastructure_failure") now s
  else if observation.state = lit "code_failure" ∧ maxAttempts ≤ task.repairAttempts then
    queueCIEscalation jobID observation task.repairAttempts maxAttempts
      (lit "attempts_exhausted") now s
  else if observation.state ≠ lit "code_failure" then
    let nextWake := now + policy.reconciliationWake
    let s := s.updateTask jobID (fun _ => true)
      (fun t => { t with
        state := .waitingCI
        deadlineAt := unixMilli nextWake
        updatedAt := unixMilli now }) (fun _ => rfl)
    return s.scheduleJob jobID .ciWaiting nextWake now
  else
    let attempt := newAttempt policy jobID task.agentModel observation.headSHA
      (task.repairAttempts + 1) now
    -- `ON CONFLICT(attempt_key) DO NOTHING` covers the primary key only.
    (if (s.attempts.find? attempt.attemptKey).isNone then checkAttemptConstraints s attempt
      else .ok ())
    let s := { s with attempts := s.attempts.insert attempt }
    return (s.setTaskState jobID .repairReady now).scheduleJob jobID .ciRepair now now

/-- `Store.ApplyCIObservation`. -/
def applyCIObservation (lib : GoLib) (policy : CIRepairPolicy) (work : CIReconciliation)
    (observation : CIObservation) (maxAttempts now : Int) (s : Store) : Except GoError Store := do
  require (¬ (maxAttempts < 1 ∨ maxAttempts > 2))
    (newError "CI repair attempts must be between one and two")
  require (observation.repository = work.task.repository ∧
      observation.pullNumber = work.task.pullNumber ∧ isGithubSHA observation.headSHA = true)
    (newError "authoritative CI observation does not match durable PR coordinates")
  require (observation.state ∈ ciStates)
    (newError "authoritative CI observation has unknown state")
  match (lib.marshalObservation observation).filter (fun e => e.length ≤ 64 * 1024) with
  | none => .error (newError "authoritative CI observation exceeds the durable bound")
  | some encoded =>
    match s.ciTasks.find? work.task.jobID with
    | none => .error errNoRows
    | some task =>
      if task.state = .completed ∨ task.state = .escalated ∨ task.state = .escalationPending ∨
          task.state = .escalationBlocked then return s
      settleObservation policy work.task.jobID observation task maxAttempts now
        (s.recordObservation lib work observation encoded task now)

end SignalPlane.Dispatcher
