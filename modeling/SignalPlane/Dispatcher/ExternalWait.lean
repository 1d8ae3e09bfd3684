/-
SignalPlane.Dispatcher.ExternalWait — runs that wait for an outside service
(`external_wait.go`).

The broker reports a wait with a generation. The store keeps one row per job;
a later generation replaces it and a repeated one has to match. A verified
issue event makes the row `resume_ready`, and a resume marks it `resumed`.
-/
import SignalPlane.Dispatcher.Store

namespace SignalPlane.Dispatcher

open Clock

/-- The value the code keeps of a stored row. -/
def ExternalWaitRow.toWait (r : ExternalWaitRow) : RepositoryRunExternalWait where
  jobID := r.jobID
  brokerRunID := r.brokerRunID
  wait :=
    { service := r.service
      phase := r.phase
      operation := r.operation
      reason := r.reason
      generation := r.generation
      since := ofUnixMilli r.since }
  resumeKey := r.resumeKey
  maxRuntimeSeconds := r.maxRuntimeSeconds
  state := r.state

/-- The comparison of a repeated generation with the stored row. -/
def ExternalWaitRow.matchesReplay (r : ExternalWaitRow) (job : Job) (wait : CIExternalWait)
    (key : GoString) : Bool :=
  r.brokerRunID = job.brokerRunID && r.service = wait.service && r.phase = wait.phase &&
    r.operation = wait.operation && r.reason = wait.reason &&
    ofUnixMilli r.since = ofUnixMilli (unixMilli wait.since) && r.resumeKey = key

/-- The wait value of a generation that is stored for the first time. -/
def freshWait (job : Job) (wait : CIExternalWait) (key : GoString) (seconds : Int) :
    RepositoryRunExternalWait where
  jobID := job.id
  brokerRunID := job.brokerRunID
  wait := wait
  resumeKey := key
  maxRuntimeSeconds := seconds
  state := .waiting

/-- `UNIQUE(resume_key)`, apart from the job's own row. -/
def Store.resumeKeyTaken (s : Store) (jobID : Int) (key : GoString) : Bool :=
  s.externalWaits.rows.any (fun r => r.jobID ≠ jobID && r.resumeKey = key)

/-- The constraints of `repository_run_external_waits` that a new generation can break. -/
def checkWaitConstraints (s : Store) (jobID : Int) (key : GoString) (seconds : Int) :
    Except GoError Unit := do
  require (0 < seconds) (constraintFailed "CHECK max_runtime_seconds>0")
  require (s.resumeKeyTaken jobID key = false)
    (constraintFailed "UNIQUE repository_run_external_waits.resume_key")

/-- The part of `RecordRepositoryRunExternalWait` that writes the wait row: the stored wait and
the new table. -/
def storeExternalWait (policy : CIRepairPolicy) (job : Job) (wait : CIExternalWait) (now : Int)
    (s : Store) :
    Except GoError (RepositoryRunExternalWait × Table ExternalWaitRow.jobID) := do
  let key := repositoryRunResumeKey job wait.generation
  let seconds := durationSeconds policy.activeTimeout
  match s.externalWaits.find? job.id with
  | none =>
    require ((s.jobs.find? job.id).isSome = true) (constraintFailed "FOREIGN KEY")
    checkWaitConstraints s job.id key seconds
    return (freshWait job wait key seconds, s.externalWaits.insert
      { jobID := job.id
        brokerRunID := job.brokerRunID
        service := wait.service
        phase := wait.phase
        operation := wait.operation
        reason := wait.reason
        generation := wait.generation
        since := unixMilli wait.since
        resumeKey := key
        maxRuntimeSeconds := seconds
        state := .waiting
        createdAt := unixMilli now
        updatedAt := unixMilli now })
  | some stored =>
    require (¬ wait.generation < stored.generation)
      (newError "repository run external wait generation is stale")
    if wait.generation = stored.generation then
      require (stored.matchesReplay job wait key = true)
        (newError "repository run external wait replay conflicts with durable state")
      return (stored.toWait, s.externalWaits)
    else
      -- The row of another run is not touched, so it cannot break a constraint either.
      if stored.brokerRunID = job.brokerRunID then checkWaitConstraints s job.id key seconds
      return (freshWait job wait key seconds, s.externalWaits.updateKey job.id
        (fun r => r.brokerRunID = job.brokerRunID)
        (fun r => { r with
          service := wait.service
          phase := wait.phase
          operation := wait.operation
          reason := wait.reason
          generation := wait.generation
          since := unixMilli wait.since
          resumeKey := key
          maxRuntimeSeconds := seconds
          state := .waiting
          updatedAt := unixMilli now }) (fun _ => rfl))

/-- `Store.RecordRepositoryRunExternalWait`. -/
def recordRepositoryRunExternalWait (policy : CIRepairPolicy) (job : Job) (wait : CIExternalWait)
    (now : Int) (s : Store) : Except GoError (RepositoryRunExternalWait × Store) := do
  require (¬ (job.id < 1 ∨ job.brokerRunID = []))
    (newError "repository run wait requires durable job and broker run identities")
  wait.validate
  let (stored, waits) ← storeExternalWait policy job wait now s
  return (stored, { s with
    externalWaits := waits
    jobs := s.jobs.updateKey job.id (fun r => r.brokerRunID = job.brokerRunID)
      (fun r => { r with
        status := .externalWaiting
        dueAt := unixMilli (now + policy.reconciliationWake)
        updatedAt := unixMilli now }) (fun _ => rfl) })

/-- Whether a job waits on the issue a signal is about. -/
def JobRow.awaitsIssue (r : JobRow) (repository : GoString) (issueNumber : Int) : Bool :=
  r.repository = repository && r.issueNumber = issueNumber && r.status = .externalWaiting

/-- The issue a verified GitHub issue event is about. -/
def wakeIssue (lib : GoLib) (signal : Signal) : Option Int :=
  if signal.source ≠ lit "github" ∨ signal.verified = false ∨ signal.nameSpace = [] ∨
      signal.objectKind ≠ lit "issue" then none
  else (lib.sscanInt signal.objectID).filter (fun n => 1 ≤ n)

/-- `Store.RecordRepositoryRunExternalWake`. -/
def recordRepositoryRunExternalWake (lib : GoLib) (signal : Signal) (now : Int) (s : Store) :
    Except GoError (Bool × Store) :=
  match wakeIssue lib signal with
  | none => .ok (false, s)
  | some issueNumber =>
    let wakes := fun w : ExternalWaitRow => (w.state = .waiting || w.state = .resumeReady) &&
      (s.jobs.find? w.jobID).any (fun r => r.awaitsIssue signal.nameSpace issueNumber)
    if s.externalWaits.rows.any wakes then
      .ok (true, { s with
        externalWaits := s.externalWaits.update wakes
          (fun w => { w with state := .resumeReady, updatedAt := unixMilli now }) (fun _ => rfl)
        jobs := s.jobs.update (fun r => r.awaitsIssue signal.nameSpace issueNumber)
          (fun r => { r with dueAt := unixMilli now, updatedAt := unixMilli now })
          (fun _ => rfl) })
    else .ok (false, s)

/-- The row of a job that waits, under the run the caller knows. -/
def JobRow.waitsOn (r : JobRow) (brokerRunID : GoString) : Bool :=
  r.brokerRunID = brokerRunID && r.status = .externalWaiting

/-- `Store.DeferRepositoryRunExternalResume`. -/
def deferRepositoryRunExternalResume (job : Job) (due : Int) (failure : GoError) (now : Int)
    (s : Store) : Except GoError Store := do
  let p := fun r : JobRow => r.waitsOn job.brokerRunID
  expectOne (s.jobs.hits job.id p) "defer repository run external resume"
  return s.updateJob job.id p
    (fun r => { r with
      dueAt := unixMilli due
      lastError := safeBrokerError failure
      preOutboxAttempts := r.preOutboxAttempts + 1
      updatedAt := unixMilli now }) (fun _ => rfl)

/-- What the two resume operations share: the wait row becomes `resumed` and the job `launched`
again. They differ in the row they expect, the due time and the texts of their errors. -/
def resumeExternalWait (jobID : Int) (brokerRunID : GoString) (p : ExternalWaitRow → Bool)
    (waitOperation jobOperation : String) (due now : Int) (s : Store) : Except GoError Store := do
  expectOne (s.externalWaits.hits jobID p) waitOperation
  expectOne (s.jobs.hits jobID (fun r => r.waitsOn brokerRunID)) jobOperation
  return { s with
    externalWaits := s.externalWaits.updateKey jobID p
      (fun w => { w with state := .resumed, updatedAt := unixMilli now }) (fun _ => rfl)
    jobs := s.jobs.updateKey jobID (fun r => r.waitsOn brokerRunID)
      (fun r => { r with
        status := .launched
        dueAt := unixMilli due
        lastError := []
        preOutboxAttempts := 0
        updatedAt := unixMilli now }) (fun _ => rfl) }

/-- `Store.MarkRepositoryRunExternalResumed`. -/
def markRepositoryRunExternalResumed (wait : RepositoryRunExternalWait) (now : Int) :
    Store → Except GoError Store :=
  resumeExternalWait wait.jobID wait.brokerRunID
    (fun w => w.brokerRunID = wait.brokerRunID && w.generation = wait.wait.generation &&
      w.resumeKey = wait.resumeKey && w.state = .resumeReady)
    "mark repository run external resume" "schedule resumed repository run"
    (now + statusPollInterval) now

/-- `Store.ReconcileRepositoryRunExternalResume`. -/
def reconcileRepositoryRunExternalResume (job : Job) (now : Int) :
    Store → Except GoError Store :=
  resumeExternalWait job.id job.brokerRunID
    (fun w => w.brokerRunID = job.brokerRunID && w.state = .resumeReady)
    "reconcile repository run external resume" "restore reconciled repository run" now now

end SignalPlane.Dispatcher
