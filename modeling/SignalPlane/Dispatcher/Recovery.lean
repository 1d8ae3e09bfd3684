/-
SignalPlane.Dispatcher.Recovery — reopening a database and the recovery
workflow's store operations (`OpenStore`, `BeginRecovery` … in `store.go`).

`openStore` is what the start-up statements do to the rows of a database that
already has the current schema. They run on every open.
-/
import SignalPlane.Dispatcher.Store

namespace SignalPlane.Dispatcher

open Clock

/-! ## Opening a database -/

/-- `UPDATE jobs SET status WHERE p`. -/
def Store.rewriteStatus (s : Store) (p : JobRow → Bool) (status : JobStatus) : Store :=
  { s with jobs := s.jobs.update p (fun r => { r with status := status }) (fun _ => rfl) }

/-- `UPDATE jobs SET status = 'report_pending', due_at = updated_at WHERE p`. -/
def Store.returnToReporting (s : Store) (p : JobRow → Bool) : Store :=
  { s with
    jobs := s.jobs.update p
      (fun r => { r with status := .reportPending, dueAt := r.updatedAt }) (fun _ => rfl) }

/-- The condition of the statement for finished jobs: a run, and no terminal result. -/
def Store.finishedUnreported (s : Store) (r : JobRow) : Bool :=
  r.brokerRunID ≠ [] && (r.status = .completed || r.status = .failed || r.status = .timedOut) &&
    !s.hasTerminal r.id

/-- The condition of the statement for blocked reports: a run, and neither a terminal result nor
an outbox row. -/
def Store.blockedUnreported (s : Store) (r : JobRow) : Bool :=
  r.brokerRunID ≠ [] && r.status = .reportBlocked && !s.hasTerminal r.id &&
    (s.outbox.find? r.id).isNone

/-- `OpenStore` on a database of the current schema version. -/
def openStore (s : Store) : Store :=
  let s := s.rewriteStatus (fun r => r.status = .legacyPending) .pendingLaunch
  let s := s.rewriteStatus (fun r => r.status = .legacyRetry || r.status = .legacyRunning)
    .launchRetry
  let s := s.rewriteStatus (fun r => r.status = .legacySucceeded && r.brokerRunID ≠ []) .launched
  let s := s.rewriteStatus (fun r => r.status = .legacySucceeded || r.status = .legacyTerminal)
    .failed
  let s := s.returnToReporting s.finishedUnreported
  let s := s.returnToReporting s.blockedUnreported
  { s with checkpoint := s.deliveries.rows.foldl (fun m d => max m d.streamSequence) s.checkpoint }

/-! ## Recovery -/

/-- `Store.RecoverySequence`: where a restarted consumer begins to read. -/
def recoverySequence (s : Store) : Nat := s.checkpoint + 1

/-- `Store.BeginRecovery`; the marker is inserted before the checks that can refuse it, and it
stays. -/
def beginRecovery (id durable : GoString) (manifestSequence : Nat) (now : Int) (s : Store) :
    Except GoError Unit × Store :=
  if id = [] ∨ durable = [] then (.error (newError "recovery id and durable are required"), s)
  else if s.checkpoint ≠ manifestSequence then
    (.error (newError (s!"manifest sequence {manifestSequence} does not match restored SQLite " ++
      s!"checkpoint {s.checkpoint}")), s)
  else if 2 ^ 63 ≤ manifestSequence + 1 then
    -- The driver refuses the first of the two sequences that is too large.
    (.error (highBitSet (if 2 ^ 63 ≤ manifestSequence then "3" else "4")), s)
  else
    let fresh : RecoveryRunRow :=
      { recoveryID := id
        durable := durable
        manifestSequence := manifestSequence
        startSequence := manifestSequence + 1
        status := .incomplete
        startedAt := unixMilli now }
    let inserted := (s.recoveryRuns.find? id).isNone
    let run := (s.recoveryRuns.find? id).getD fresh
    let s' := { s with recoveryRuns := s.recoveryRuns.insert fresh }
    if run.durable ≠ durable ∨ run.manifestSequence ≠ manifestSequence ∨
        run.startSequence ≠ manifestSequence + 1 ∨
        (run.status = .completed ∧ inserted = false) then
      (.error (newError "recovery id already exists with different or completed parameters"), s')
    else if s'.recoveryRuns.rows.any (fun r => r.status = .incomplete && r.recoveryID ≠ id) then
      (.error (newError "another recovery is incomplete"), s')
    else (.ok (), s')

/-- `Store.FailRecovery`. -/
def failRecovery (id : GoString) (failure : GoError) (s : Store) : Store :=
  { s with
    recoveryRuns := s.recoveryRuns.updateKey id (fun r => r.status = .incomplete)
      (fun r => { r with error := failure.text }) (fun _ => rfl) }

/-- The nonterminal statuses that recovery restores. -/
def JobStatus.isRestored (status : JobStatus) : Bool :=
  status.isQueued || status = .launched || status = .externalWaiting

/-- The frozen copy of a job. -/
def JobRow.toRecoveryJob (recoveryID : GoString) (r : JobRow) : RecoveryJobRow where
  recoveryID := recoveryID
  jobID := r.id
  semanticKey := r.semanticKey
  routeID := r.routeID
  launchProfile := r.launchProfile
  repository := r.repository
  issueNumber := r.issueNumber
  sourceDeliveryID := r.sourceDeliveryID
  brokerRunID := r.brokerRunID
  priorStatus := r.status
  attempts := r.attempts
  firstLaunchAttemptAt := r.firstLaunchAttemptAt

/-- The job value recovery reads back from a frozen copy. -/
def RecoveryJobRow.toJob (r : RecoveryJobRow) : Job where
  id := r.jobID
  semanticKey := r.semanticKey
  routeID := r.routeID
  profile := r.launchProfile
  repository := r.repository
  issueNumber := r.issueNumber
  deliveryID := r.sourceDeliveryID
  brokerRunID := r.brokerRunID
  status := r.priorStatus
  attempts := r.attempts
  preOutboxAttempts := 0
  firstAttemptAt := match r.firstLaunchAttemptAt with
    | some ms => ofUnixMilli ms
    | none => Clock.zero

/-- The transaction of `PrepareRecoveryJobs`: the restored jobs are frozen once. -/
def freezeRecoveryJobs (recoveryID : GoString) (s : Store) : Except GoError Store := do
  match (s.recoveryRuns.find? recoveryID).filter (fun r => r.status = .incomplete) with
  | none => .error errNoRows
  | some run =>
    if run.restoredJobCount < 0 then
      let restored := (s.jobs.rows.filter (fun r => r.status.isRestored)).map
        (JobRow.toRecoveryJob recoveryID)
      require (∀ r ∈ restored, s.recoveryJobs.find? r.key = none)
        (constraintFailed "PRIMARY KEY recovery_jobs")
      let recoveryJobs := restored.foldl (fun t r => t.insert r) s.recoveryJobs
      let count := recoveryJobs.rows.countP (fun r => r.recoveryID = recoveryID)
      return { s with
        recoveryJobs := recoveryJobs
        recoveryRuns := s.recoveryRuns.updateKey recoveryID (fun r => r.restoredJobCount = -1)
          (fun r => { r with restoredJobCount := count }) (fun _ => rfl) }
    else return s

/-- `Store.PrepareRecoveryJobs`. -/
def prepareRecoveryJobs (recoveryID : GoString) (s : Store) :
    Except GoError (List Job × Store) := do
  let s ← freezeRecoveryJobs recoveryID s
  let frozen := (s.recoveryJobs.rows.filter (fun r => r.recoveryID = recoveryID)).insertionSort
    (fun a b => a.jobID ≤ b.jobID)
  return (frozen.map RecoveryJobRow.toJob, s)

/-- `Store.RecordReconciliation`. -/
def recordReconciliation (recoveryID : GoString) (job : Job) (brokerStatus : GoString)
    (reconciledStatus : JobStatus) (now : Int) (s : Store) : Except GoError Store := do
  require (¬ ((job.status ≠ .launched ∧ job.status ≠ .externalWaiting) ∨ job.brokerRunID = []))
    (newError s!"restored nonterminal job {job.id} has no reconcilable broker run")
  require (reconciledStatus = .launched ∨ reconciledStatus = .externalWaiting ∨
      reconciledStatus = .reportPending)
    (newError ("invalid reconciled status \"" ++ reconciledStatus.text ++ "\""))
  if (s.recoveryReconciliations.find? (recoveryID, job.id)).isSome then return s
  let p := fun r : JobRow => r.isPollResult && r.brokerRunID = job.brokerRunID &&
    !s.hasTerminal r.id
  if reconciledStatus = .launched then
    expectOne (s.jobs.hits job.id p) "reconcile nonterminal job"
  else if reconciledStatus = .reportPending then
    require (s.hasTerminal job.id = true ∧ (s.outbox.find? job.id).isSome = true)
      (newError "terminal recovery reconciliation requires result and outbox")
  require ((s.recoveryRuns.find? recoveryID).isSome = true) (constraintFailed "FOREIGN KEY")
  let jobs := if reconciledStatus = .launched then
      s.jobs.updateKey job.id p
        (fun r => { r with
          status := .launched
          dueAt := unixMilli (now + statusPollInterval)
          updatedAt := unixMilli now }) (fun _ => rfl)
    else s.jobs
  return { s with
    jobs := jobs
    recoveryReconciliations := s.recoveryReconciliations.insert
      { recoveryID := recoveryID
        jobID := job.id
        brokerRunID := job.brokerRunID
        priorStatus := job.status
        brokerStatus := brokerStatus
        reconciledStatus := reconciledStatus
        reconciledAt := unixMilli now } }

/-- `Store.CompleteRecovery`, without the evidence it reads back. -/
def completeRecovery (id : GoString) (expectedReconciliations : Nat) (now : Int) (s : Store) :
    Except GoError Store := do
  let reconciled := s.recoveryReconciliations.rows.countP (fun r => r.recoveryID = id)
  require (reconciled = expectedReconciliations)
    (newError (s!"recorded {reconciled} reconciliations for {expectedReconciliations} restored " ++
      "nonterminal jobs"))
  expectOne (s.recoveryRuns.hits id (fun r => r.status = .incomplete)) "complete recovery"
  return { s with
    recoveryRuns := s.recoveryRuns.updateKey id (fun r => r.status = .incomplete)
      (fun r => { r with
        replayCount := s.recoveryReplayed.rows.countP (fun m => m.recoveryID = id)
        status := .completed
        error := []
        completedAt := some (unixMilli now) }) (fun _ => rfl) }

/-- `Store.AssertRecoveryComplete`. -/
def assertRecoveryComplete (durable : GoString) (startSequence : Nat) (s : Store) :
    Except GoError Unit := do
  require (s.recoveryRuns.rows.countP (fun r => r.status = .incomplete) = 0)
    (newError "dispatcher recovery is incomplete; launches are blocked")
  if startSequence = 0 then return ()
  require (startSequence < 2 ^ 63) (highBitSet "2")
  require (s.recoveryRuns.rows.countP (fun r => r.durable = durable &&
      r.startSequence = startSequence && r.status = .completed) = 1)
    (newError "dispatcher recovery configuration has no matching completed recovery")

end SignalPlane.Dispatcher
