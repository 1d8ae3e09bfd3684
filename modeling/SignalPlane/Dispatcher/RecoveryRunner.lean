/-
SignalPlane.Dispatcher.RecoveryRunner — the restore workflow
(`internal/recovery/recovery.go`).

`Runner.Run` checks the restored database, opens a recovery, freezes the
nonterminal jobs, replays the messages after the checkpoint and then asks the
broker about every frozen job. It never launches work. `runRecovery` is the
program in that order; `recoverFrom` is the part after `BeginRecovery`
succeeded, which an interruption may cut anywhere and whose error is written
into the marker.

The stream is what `Reset` and `Fetch` return, and the clock the readings of
`now()`, one for each place that reads it.
-/
import SignalPlane.Dispatcher.Process
import SignalPlane.Dispatcher.Recovery

namespace SignalPlane.Dispatcher

open Workflow (atomic commit perform)

/-! ## Dependencies -/

/-- `Options`. -/
structure RecoveryOptions where
  recoveryID : GoString
  durable : GoString
  subject : GoString
  manifestSequence : Nat
  execute : Bool

/-- `Stream`: the results of `Fetch`, as many as `Reset` reports pending. -/
structure ReplayStream where
  reset : (subject durable : GoString) → (start : Nat) →
    Except GoError (List (Except GoError Delivery))

/-- The readings of `now()`: by message for the replay, by job for the reconciliation. -/
structure RecoveryClock where
  begun : Int
  replayed : Nat → Int
  reconciled : Int → Int
  recorded : Int → Int
  completed : Int

/-- `Report.Mode`. -/
inductive RecoveryMode where
  | dryRun | execute
  deriving DecidableEq, Repr

/-- `Report.Status`. -/
inductive ReportStatus where
  | validated | incomplete | completed
  deriving DecidableEq, Repr

/-- `Report`. -/
structure RecoveryReport where
  mode : RecoveryMode
  recoveryID : GoString
  durable : GoString
  manifestSequence : Nat
  startSequence : Nat
  restoredNonterminalJobs : Nat
  replayCount : Nat := 0
  status : ReportStatus
  reconciliations : List RecoveryReconciliationRow := []
  deriving DecidableEq, Repr

/-- `Store.RecoveryJobs`. -/
def recoveryJobs (s : Store) : List Job :=
  ((s.jobs.rows.filter (fun r => r.status.isRestored)).insertionSort (fun a b => a.id ≤ b.id)).map
    (fun r => { r.toJob with preOutboxAttempts := 0 })

/-- `Store.RecoveryEvidence`. -/
def recoveryEvidence (id : GoString) (s : Store) :
    Except GoError (RecoveryRunRow × List RecoveryReconciliationRow) :=
  match s.recoveryRuns.find? id with
  | none => .error errNoRows
  | some run => .ok (run, (s.recoveryReconciliations.rows.filter
      (fun r => r.recoveryID = id)).insertionSort (fun a b => a.jobID ≤ b.jobID))

/-- The status a marker reports. -/
def RecoveryStatus.toReport : RecoveryStatus → ReportStatus
  | .incomplete => .incomplete
  | .completed => .completed

/-! ## `Runner.Run` -/

/-- The loop over the backlog of `pending` messages, from message `i` on. -/
def replayMessages (env : Env) (recoveryID : GoString) (clock : RecoveryClock) (pending : Nat) :
    List (Except GoError Delivery) → Nat → Dispatch (Except GoError Unit)
  | [], _ => return .ok ()
  | .error e :: _, i => return .error (e.wrap s!"fetch replay message {i + 1} of {pending}")
  | .ok delivery :: rest, i => do
    match ← process env recoveryID delivery (clock.replayed i) with
    | .error e => return .error (e.wrap s!"replay message {i + 1} of {pending}")
    | .ok () => replayMessages env recoveryID clock pending rest (i + 1)

/-- `RecordReconciliation` of the state that the reconciliation of a job returned. -/
def recordState (recoveryID : GoString) (clock : RecoveryClock) (job : Job)
    (brokerStatus : GoString) (context : String) :
    Except GoError JobStatus → Dispatch (Except GoError Unit)
  | .error e => return .error (e.wrap context)
  | .ok state => do
    return (← commit (recordReconciliation recoveryID job brokerStatus state
      (clock.recorded job.id))).mapError
        (GoError.wrap s!"record restored job {job.id} reconciliation")

/-- The body of the loop over the frozen jobs. -/
def reconcileJob (env : Env) (recoveryID : GoString) (clock : RecoveryClock) (job : Job) :
    Dispatch (Except GoError Unit) := do
  match ← askStatus (.poll job.id) job.brokerRunID with
  | .error failure =>
    recordState recoveryID clock job (lit "status_fetch_failed")
      s!"reconcile restored job {job.id} status failure"
      (← reconcileStatusFailure env job failure (clock.reconciled job.id))
  | .ok status =>
    -- The recovery broker always implements `TerminalResult`.
    recordState recoveryID clock job status.status s!"reconcile restored job {job.id}"
      (← reconcileStatusResult env true job status (clock.reconciled job.id))

/-- The loop over the frozen jobs. -/
def reconcileJobs (env : Env) (recoveryID : GoString) (clock : RecoveryClock) :
    List Job → Dispatch (Except GoError Unit)
  | [] => return .ok ()
  | job :: jobs => do
    match ← reconcileJob env recoveryID clock job with
    | .error e => return .error e
    | .ok () => reconcileJobs env recoveryID clock jobs

/-- `CompleteRecovery` and the report of what it reads back. -/
def finishRecovery (recoveryID : GoString) (clock : RecoveryClock) (report : RecoveryReport)
    (jobs : List Job) : Dispatch (Except GoError RecoveryReport) := do
  match ← commit (completeRecovery recoveryID jobs.length clock.completed) with
  | .error e => return .error (e.wrap "complete recovery")
  | .ok () =>
    match ← atomic (fun s => (recoveryEvidence recoveryID s).map (fun r => (r, s))) with
    | .error e => return .error (e.wrap "complete recovery")
    | .ok (run, outcomes) =>
      if outcomes.length ≠ jobs.length then
        return .error (newError
          (s!"recorded {outcomes.length} reconciliations for {jobs.length} restored " ++
            "nonterminal jobs"))
      else return .ok { report with
        restoredNonterminalJobs := jobs.length
        replayCount := run.replayCount
        reconciliations := outcomes
        status := run.status.toReport }

/-- `Runner.Run` after `BeginRecovery`, without the deferred `FailRecovery`. -/
def recoverJobs (env : Env) (stream : ReplayStream) (clock : RecoveryClock)
    (opts : RecoveryOptions) (report : RecoveryReport) :
    Dispatch (Except GoError RecoveryReport) := do
  match ← atomic (prepareRecoveryJobs opts.recoveryID) with
  | .error e => return .error (e.wrap "freeze restored nonterminal jobs")
  | .ok jobs =>
    match stream.reset opts.subject opts.durable report.startSequence with
    | .error e => return .error (e.wrap "reset dispatcher durable")
    | .ok backlog =>
      match ← replayMessages env opts.recoveryID clock backlog.length backlog 0 with
      | .error e => return .error e
      | .ok () =>
        match ← reconcileJobs env opts.recoveryID clock jobs with
        | .error e => return .error e
        | .ok () => finishRecovery opts.recoveryID clock report jobs

/-- `Runner.Run` after `BeginRecovery`: an error is written into the marker. -/
def recoverFrom (env : Env) (stream : ReplayStream) (clock : RecoveryClock)
    (opts : RecoveryOptions) (report : RecoveryReport) :
    Dispatch (Except GoError RecoveryReport) := do
  match ← recoverJobs env stream clock opts report with
  | .error e =>
    perform (fun s => ((), failRecovery opts.recoveryID e s))
    return .error e
  | .ok report => return .ok report

/-- The report of the dry run, for a restored database it accepts. -/
def RecoveryOptions.report (opts : RecoveryOptions) (s : Store) : RecoveryReport where
  mode := .dryRun
  recoveryID := opts.recoveryID
  durable := opts.durable
  manifestSequence := s.checkpoint
  startSequence := recoverySequence s
  restoredNonterminalJobs := (recoveryJobs s).length
  status := .validated

/-- The checks of `Runner.Run` before it writes anything. -/
def validateRestored (opts : RecoveryOptions) (s : Store) : Except GoError RecoveryReport := do
  require (¬ (opts.recoveryID = [] ∨ opts.durable = [] ∨ opts.subject = []))
    (newError "store, recovery id, durable, and subject are required")
  require (s.checkpoint = opts.manifestSequence)
    (newError (s!"manifest sequence {opts.manifestSequence} does not match restored SQLite " ++
      s!"checkpoint {s.checkpoint}"))
  match (recoveryJobs s).find? (fun job => job.status ≠ .launched || job.brokerRunID = []) with
  | some job => .error (newError
      (s!"restored nonterminal job {job.id} is \"" ++ job.status.text ++
        "\" without a reconcilable broker run id"))
  | none => return opts.report s

/-- `Runner.Run`; on success the report. -/
def runRecovery (env : Env) (stream : ReplayStream) (clock : RecoveryClock)
    (opts : RecoveryOptions) : Dispatch (Except GoError RecoveryReport) := do
  match ← atomic (fun s => (validateRestored opts s).map (fun report => (report, s))) with
  | .error e => return .error e
  | .ok report =>
    if opts.execute then
      match ← perform (beginRecovery opts.recoveryID opts.durable report.manifestSequence
          clock.begun) with
      | .error e => return .error (e.wrap "begin recovery")
      | .ok () =>
        recoverFrom env stream clock opts
          { report with mode := .execute, status := .incomplete }
    else return .ok report

end SignalPlane.Dispatcher
