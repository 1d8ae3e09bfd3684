/-
SignalPlane.Dispatcher.ReconcileTheorems — which broker answers the loop of
`Runner.Run` can store for a frozen job.

`recoveryPlan` reads off the answers what the shared reconciliation code is
going to do: poll again, report a terminal result, wait for an outside
service, retry the projection later, or hand the run to the CI wait. The
first three are states `RecordReconciliation` accepts, once the store takes
what has to be written (`Reportable`, `AcceptsWait`). The other two are not:
a projection to be retried is returned as `report_pending` without a result
or an outbox row, and `ci_waiting` is not a reconciled status at all.
-/
import SignalPlane.Dispatcher.RecoveryRunner
import SignalPlane.Dispatcher.Run
import SignalPlane.Dispatcher.Transaction

namespace SignalPlane.Dispatcher

open Workflow (Post post_pure post_bind post_atomic post_commit post_request post_mono)

variable {s s₁ : Store} {brokerStatus : GoString} {now : Int} {wait : CIExternalWait}
  {state : JobStatus} {r : TerminalResult} {plan : RecoveryPlan} {v : Except GoError JobStatus}

/-! ## What the store has to take -/

/-- The job's result can be queued: it is valid and renders, and its outbox row is the stored
one or a new one with a free key. -/
def Store.Reportable (s : Store) (lib : GoLib) (job : Job) (r : TerminalResult) : Prop :=
  validateTerminalResult lib job r = .ok () ∧ ∃ body, renderTerminalComment lib job r = .ok body ∧
    match s.outbox.find? job.id with
    | none => s.reportKeyTaken job.id (reportKey lib job r.version) = false
    | some stored => stored.terminalResultVersion = r.version ∧ stored.body = body ∧
        stored.idempotencyKey = reportKey lib job r.version

theorem sameStoredTerminalResult_toRow (r : TerminalResult) (jobID now : Int) :
    sameStoredTerminalResult (r.toRow jobID now) r = true := by
  simp [sameStoredTerminalResult, TerminalResult.toRow]

/-- A job without a terminal row that accepts results takes exactly the reportable ones. -/
theorem queueTerminalResult_succeeds_iff {lib : GoLib} {job : Job} {row : JobRow}
    (hrow : s.jobs.find? job.id = some row) (haccepts : row.acceptsResult = true)
    (hterminal : s.hasTerminal job.id = false) :
    (∃ s', queueTerminalResult lib job r now s = .ok s') ↔ s.Reportable lib job r := by
  have hnone : s.terminalResults.find? job.id = none := by
    simpa [Store.hasTerminal] using hterminal
  have hhits : s.jobs.hits job.id JobRow.acceptsResult = true :=
    Table.hits_iff.mpr ⟨row, hrow, haccepts⟩
  simp only [queueTerminalResult_ok, storeTerminalResult, require_bind_eq_ok, hrow, hnone, hhits,
    Option.isSome_some, Option.getD_none, sameStoredTerminalResult_toRow, true_and, pure_eq_ok,
    Store.Reportable]
  constructor
  · rintro ⟨_, hvalid, body, hbody, hkey, hsame, -⟩
    refine ⟨hvalid, body, hbody, ?_⟩
    cases hout : s.outbox.find? job.id with
    | none => simpa [hout] using hkey
    | some stored => simpa [hout] using hsame
  · rintro ⟨hvalid, body, hbody, hcase⟩
    refine ⟨_, hvalid, body, hbody, ?_, ?_, rfl⟩
    · cases hout : s.outbox.find? job.id with
      | none => simpa [hout] using hcase
      | some stored => simp
    · cases hout : s.outbox.find? job.id with
      | none => simp [Store.newOutboxRow]
      | some stored => simpa [hout] using hcase

/-- The wait row of a job takes a wait: a newer generation that breaks no constraint, or the
stored one again. -/
def Store.TakesWait (s : Store) (policy : CIRepairPolicy) (job : Job) (wait : CIExternalWait) :
    Prop :=
  let key := repositoryRunResumeKey job wait.generation
  let seconds := durationSeconds policy.activeTimeout
  match s.externalWaits.find? job.id with
  | none => checkWaitConstraints s job.id key seconds = .ok ()
  | some stored => stored.generation ≤ wait.generation ∧
      (wait.generation = stored.generation → stored.matchesReplay job wait key = true) ∧
      (stored.generation < wait.generation → stored.brokerRunID = job.brokerRunID →
        checkWaitConstraints s job.id key seconds = .ok ())

/-- The wait can be stored for the job. -/
def Store.AcceptsWait (s : Store) (policy : CIRepairPolicy) (job : Job) (wait : CIExternalWait) :
    Prop :=
  1 ≤ job.id ∧ wait.validate = .ok () ∧ s.TakesWait policy job wait

theorem storeExternalWait_succeeds_iff {policy : CIRepairPolicy} {job : Job}
    (hrow : (s.jobs.find? job.id).isSome = true) :
    (∃ r, storeExternalWait policy job wait now s = .ok r) ↔ s.TakesWait policy job wait := by
  unfold storeExternalWait Store.TakesWait
  cases hfind : s.externalWaits.find? job.id with
  | none =>
    simp only [bind_eq_ok, require_eq_ok, hrow, pure, Except.pure]
    constructor
    · rintro ⟨_, _, _, _, hkey, -⟩
      exact hkey
    · intro hkey
      exact ⟨_, (), trivial, (), hkey, rfl⟩
  | some stored =>
    simp only [require_bind_eq_ok, not_lt]
    rw [exists_and_left]
    refine and_congr_right fun hge => ?_
    by_cases heq : wait.generation = stored.generation
    · simp [heq, require_bind_eq_ok, pure, Except.pure]
    · have hlt : stored.generation < wait.generation := by omega
      simp only [heq, if_false, false_imp_iff, true_and, hlt, true_imp_iff]
      by_cases hown : stored.brokerRunID = job.brokerRunID
      · simp only [hown, if_true, bind_eq_ok, pure, Except.pure, true_imp_iff]
        constructor
        · rintro ⟨_, _, hkey, -⟩
          exact hkey
        · intro hkey
          exact ⟨_, (), hkey, rfl⟩
      · simp [hown, pure, Except.pure]

/-- Only the wait row can refuse a wait: the job row is updated whatever its status. -/
theorem recordRepositoryRunExternalWait_takes_iff {policy : CIRepairPolicy} {job : Job}
    (hrun : job.brokerRunID ≠ []) (hrow : (s.jobs.find? job.id).isSome = true) :
    (∃ r, recordRepositoryRunExternalWait policy job wait now s = .ok r) ↔
      s.AcceptsWait policy job wait := by
  have hid : ¬ (job.id < 1 ∨ job.brokerRunID = []) ↔ 1 ≤ job.id := by
    simp [hrun]
  rw [Store.AcceptsWait, ← storeExternalWait_succeeds_iff hrow]
  simp only [recordRepositoryRunExternalWait, bind_eq_ok, require_eq_ok, hid, pure, Except.pure]
  constructor
  · rintro ⟨_, _, hjob, _, hwait, r, hr, -⟩
    exact ⟨hjob, hwait, r, hr⟩
  · rintro ⟨hjob, hwait, r, hr⟩
    exact ⟨_, (), hjob, (), hwait, r, hr, rfl⟩

/-! ## What the answers call for -/

/-- What the reconciliation code does with a broker's answers. -/
inductive RecoveryPlan where
  /-- The run goes on: poll it again. -/
  | poll
  /-- Queue this result for reporting. -/
  | report (r : TerminalResult)
  /-- Store this wait. -/
  | wait (w : CIExternalWait)
  /-- Ask for the projection again later. -/
  | retryProjection
  /-- Enter the CI wait. -/
  | ciWait

/-- The plan of `reconcilePreOutboxFailure` for a job with `attempts` counted failures. -/
def failurePlan (env : Env) (job : Job) (attempts : Int) (recoverableState : JobStatus)
    (stage : String) (failure : GoError) (retryable : Bool) : RecoveryPlan :=
  if retryable && attempts + 1 < preOutboxMaxAttempts then
    if recoverableState = .launched then .poll else .retryProjection
  else
    .report (preOutboxFailureResult env.lib job (lit stage)
      (if retryable then
        lit "pre-outbox terminal reconciliation retry limit exhausted: " ++ safeBrokerError failure
      else safeBrokerError failure))

/-- The plan of a disposal. -/
def Disposal.recoveryPlan (env : Env) (job : Job) (attempts : Int) : Disposal → RecoveryPlan
  | .fail stage failure retryable =>
    failurePlan env job attempts .reportPending stage failure retryable
  | .poll => .poll
  | .ciWait .. => .ciWait
  | .report r => .report r

/-- The plan for a launched job: what `Status` answers, and `TerminalResult` if it is asked. -/
def recoveryPlan (env : Env) (job : Job) (attempts : Int) (status : Except GoError RunStatus)
    (projection : Except GoError TerminalResult) : RecoveryPlan :=
  match status with
  | .error e => failurePlan env job attempts .launched "broker_status" e (isRetryable e)
  | .ok result =>
    if result.runID = [] ∨ result.runID ≠ job.brokerRunID then
      failurePlan env job attempts .reportPending "broker_status"
        (newError "broker status response has invalid run correlation") false
    else if result.status = lit "waiting_external" then
      match result.externalWait with
      | none => failurePlan env job attempts .reportPending "broker_status"
          (newError "broker waiting_external status lacks structured external_wait") false
      | some wait => .wait wait
    else (disposal env true job result projection).recoveryPlan env job attempts

/-- The plans the loop can store for a job. -/
def RecoveryPlan.Accepted (env : Env) (recoveryID : GoString) (job : Job) (s : Store) :
    RecoveryPlan → Prop
  | .poll => True
  | .report r => s.Reportable env.lib job r
  | .wait w => s.AcceptsWait env.policy.1 job w
  | .retryProjection => (s.recoveryReconciliations.find? (recoveryID, job.id)).isSome = true
  | .ciWait => False

/-! ## The reconciliation code carries out the plan -/

/-- A frozen job that is still as it was restored: launched, with its run and without a terminal
row. -/
structure Restored (recoveryID : GoString) (job : Job) (row : JobRow) (s : Store) : Prop where
  status : job.status = .launched
  runID : job.brokerRunID ≠ []
  find : s.jobs.find? job.id = some row
  launched : row.status = .launched
  run : row.brokerRunID = job.brokerRunID
  terminal : s.hasTerminal job.id = false
  opened : (s.recoveryRuns.find? recoveryID).isSome = true

/-- The markers and the evidence are unchanged. -/
def SameRecovery (s s' : Store) : Prop :=
  s'.recoveryRuns = s.recoveryRuns ∧ s'.recoveryReconciliations = s.recoveryReconciliations

/-- What carrying out a plan returns and leaves. -/
def RecoveryPlan.Carried (env : Env) (job : Job) (s : Store) :
    RecoveryPlan → Except GoError JobStatus → Store → Prop
  | .poll, v, s' => SameRecovery s s' ∧ v = .ok .launched ∧
      s'.jobs.hits job.id (fun r => r.isPollResult && r.brokerRunID = job.brokerRunID &&
        !s'.hasTerminal r.id) = true
  | .report r, v, s' => SameRecovery s s' ∧
      ((s.Reportable env.lib job r ∧ v = .ok .reportPending ∧ s'.hasTerminal job.id = true ∧
          (s'.outbox.find? job.id).isSome = true) ∨
        (¬ s.Reportable env.lib job r ∧ ∃ e, v = .error e))
  | .wait w, v, s' => SameRecovery s s' ∧
      ((s.AcceptsWait env.policy.1 job w ∧ v = .ok .externalWaiting) ∨
        (¬ s.AcceptsWait env.policy.1 job w ∧ ∃ e, v = .error e))
  | .retryProjection, v, s' => SameRecovery s s' ∧ v = .ok .reportPending ∧
      s'.hasTerminal job.id = false
  | .ciWait, v, _ => v = .ok .ciWaiting ∨ ∃ e, v = .error e

section Carried

variable {env : Env} {o : BrokerAnswers} {recoveryID : GoString} {job : Job} {row : JobRow}

/-- Queueing a result for a job that accepts it. -/
theorem queueTerminalResult_carried {row1 : JobRow} (hrow : s₁.jobs.find? job.id = some row1)
    (haccepts : row1.acceptsResult = true) (hterminal : s₁.hasTerminal job.id = false)
    (hsame : SameRecovery s s₁) (houtbox : s₁.outbox = s.outbox) :
    Post (fun _ _ => True) o (settle (queueTerminalResult env.lib job r now) .reportPending) s₁
      ((RecoveryPlan.report r).Carried env job s) := by
  have hiff : (∃ s2, queueTerminalResult env.lib job r now s₁ = .ok s2) ↔
      s₁.Reportable env.lib job r := queueTerminalResult_succeeds_iff hrow haccepts hterminal
  have hreportable : s₁.Reportable env.lib job r ↔ s.Reportable env.lib job r := by
    simp only [Store.Reportable, Store.reportKeyTaken, houtbox]
  refine post_settle (fun s2 h => ?_) fun e h => ?_
  · have hok := hreportable.mp (hiff.mp ⟨s2, h⟩)
    obtain ⟨-, body, -, hstore⟩ := queueTerminalResult_ok.mp h
    obtain ⟨-, rfl⟩ := storeTerminalResult_ok hstore
    refine ⟨hsame, .inl ⟨hok, rfl, ?_, ?_⟩⟩
    · simp [Store.hasTerminal, TerminalResult.toRow]
    · simp [Store.newOutboxRow]
  · refine ⟨hsame, .inr ⟨fun hok => ?_, e, rfl⟩⟩
    obtain ⟨s2, h'⟩ := hiff.mpr (hreportable.mpr hok)
    simp [h] at h'

theorem reconcilePreOutboxFailure_carried (h : Restored recoveryID job row s)
    {recoverableState : JobStatus}
    (hstate : recoverableState = .launched ∨ recoverableState = .reportPending) (stage : String)
    (failure : GoError) (retryable : Bool) :
    Post (fun _ _ => True) o
      (reconcilePreOutboxFailure env job recoverableState stage failure retryable now) s
      ((failurePlan env job row.preOutboxAttempts recoverableState stage failure
        retryable).Carried env job s) := by
  have hpoll : row.isPollResult = true := by simp [JobRow.isPollResult, h.launched]
  -- The counted row has the recoverable state and keeps its run.
  obtain ⟨jobs, hmark, hfind⟩ := markPreOutboxFailure_counts hstate h.find hpoll h.terminal
    (now + preOutboxRetryDelay (job.preOutboxAttempts + 1)) (safeBrokerError failure) now
  have hsame : SameRecovery s { s with jobs := jobs } := ⟨rfl, rfl⟩
  have hterminal : ({ s with jobs := jobs } : Store).hasTerminal job.id = false := h.terminal
  unfold reconcilePreOutboxFailure
  refine Workflow.post_atomic_ok hmark ?_
  by_cases hretry : (retryable && row.preOutboxAttempts + 1 < preOutboxMaxAttempts) = true
  · simp only [failurePlan, hretry, if_true]
    refine post_pure.mpr ?_
    rcases hstate with rfl | rfl
    · refine ⟨hsame, rfl, Table.hits_iff.mpr ⟨_, hfind, ?_⟩⟩
      have hrow : row.id = job.id := Table.key_of_find? h.find
      simp [JobRow.isPollResult, h.run, hrow, hterminal]
    · exact ⟨hsame, rfl, hterminal⟩
  · simp only [failurePlan, hretry]
    refine queueTerminalResult_carried hfind ?_ hterminal hsame rfl
    rcases hstate with rfl | rfl <;> simp [JobRow.acceptsResult]

/-- The row of a run that goes on. -/
def JobRow.polledAgain (now : Int) (r : JobRow) : JobRow :=
  { r with
    status := .launched
    dueAt := Clock.unixMilli (now + statusPollInterval)
    lastError := []
    updatedAt := Clock.unixMilli now
    preOutboxAttempts := 0 }

theorem markStatus_launched {id : Int} (now : Int)
    (hhits : s.jobs.hits id JobRow.isPollResult = true) :
    markStatus id .launched (now + statusPollInterval) [] now s =
      .ok (s.updateJob id JobRow.isPollResult (JobRow.polledAgain now) (fun _ => rfl)) := by
  simp only [markStatus, expectOne_bind_eq_ok, hhits, true_and]
  rfl

theorem find?_polledAgain {id : Int} {row : JobRow} (now : Int)
    (hfind : s.jobs.find? id = some row) (hpoll : row.isPollResult = true) :
    (s.updateJob id JobRow.isPollResult (JobRow.polledAgain now) (fun _ => rfl)).jobs.find? id =
      some (row.polledAgain now) := by
  refine (Table.find?_updateKey_self s.jobs id _ (JobRow.polledAgain now) (fun _ => rfl)).trans ?_
  rw [hfind, Option.map_some, if_pos hpoll]

/-- Polling a restored job again. -/
theorem markStatus_carried (h : Restored recoveryID job row s) :
    Post (fun _ _ => True) o
      (settle (markStatus job.id .launched (now + statusPollInterval) [] now) .launched) s
      (RecoveryPlan.poll.Carried env job s) := by
  have hpoll : row.isPollResult = true := by simp [JobRow.isPollResult, h.launched]
  have hmark := markStatus_launched now (Table.hits_iff.mpr ⟨row, h.find, hpoll⟩)
  refine Workflow.post_commit_ok hmark (post_pure.mpr ⟨⟨rfl, rfl⟩, rfl, ?_⟩)
  refine Table.hits_iff.mpr ⟨row.polledAgain now, find?_polledAgain now h.find hpoll, ?_⟩
  have hrow : row.id = job.id := Table.key_of_find? h.find
  have hterminal : (s.terminalResults.find? job.id).isSome = false := h.terminal
  simp [JobRow.polledAgain, JobRow.isPollResult, h.run, hrow, Store.hasTerminal, Store.updateJob,
    hterminal]

theorem settleRun_carried (h : Restored recoveryID job row s) (result : RunStatus) :
    Post (fun _ _ => True) o (settleRun env true job result now) s
      (((disposal env true job result
        (o ⟨.poll job.id, .terminalResult job.brokerRunID⟩)).recoveryPlan env job
          row.preOutboxAttempts).Carried env job s) := by
  have haccepts : row.acceptsResult = true := by simp [JobRow.acceptsResult, h.launched]
  refine post_settleRun trivial fun d hd => ?_
  rw [hd]
  cases d with
  | fail => exact reconcilePreOutboxFailure_carried h (.inr rfl) _ _ _
  | poll => exact markStatus_carried h
  | ciWait => exact post_settle (fun _ _ => .inl rfl) fun e _ => .inr ⟨e, rfl⟩
  | report => exact queueTerminalResult_carried h.find haccepts h.terminal ⟨rfl, rfl⟩ rfl

/-- The reconciliation of a restored job carries out the plan of the broker's answers. -/
theorem reconcileStatusResult_carried (h : Restored recoveryID job row s) (result : RunStatus) :
    Post (fun _ _ => True) o (reconcileStatusResult env true job result now) s
      ((recoveryPlan env job row.preOutboxAttempts (.ok result)
        (o ⟨.poll job.id, .terminalResult job.brokerRunID⟩)).Carried env job s) := by
  unfold reconcileStatusResult recoveryPlan
  dsimp only
  split
  · exact reconcilePreOutboxFailure_carried h (.inr rfl) _ _ _
  split
  · cases result.externalWait with
    | none => exact reconcilePreOutboxFailure_carried h (.inr rfl) _ _ _
    | some wait =>
      have hiff : (∃ r, recordRepositoryRunExternalWait env.policy.1 job wait now s = .ok r) ↔
          s.AcceptsWait env.policy.1 job wait :=
        recordRepositoryRunExternalWait_takes_iff h.runID (by simp [h.find])
      refine post_bind.mpr (post_atomic (fun stored s₁ hs1 => ?_) fun e he => ?_)
      · have hsame : SameRecovery s s₁ := by
          simp only [recordRepositoryRunExternalWait, bind_eq_ok, pure_eq_ok, Prod.mk.injEq] at hs1
          obtain ⟨-, -, -, -, -, -, -, rfl⟩ := hs1
          exact ⟨rfl, rfl⟩
        exact post_pure.mpr ⟨hsame, .inl ⟨hiff.mp ⟨_, hs1⟩, rfl⟩⟩
      · refine post_pure.mpr ⟨⟨rfl, rfl⟩, .inr ⟨fun hok => ?_, e, rfl⟩⟩
        obtain ⟨r, hr⟩ := hiff.mpr hok
        simp [he] at hr
  · rw [if_neg (by simp [h.status])]
    exact settleRun_carried h result

theorem reconcileStatusFailure_carried (h : Restored recoveryID job row s) (failure : GoError) :
    Post (fun _ _ => True) o (reconcileStatusFailure env job failure now) s
      ((failurePlan env job row.preOutboxAttempts .launched "broker_status" failure
        (isRetryable failure)).Carried env job s) := by
  unfold reconcileStatusFailure
  rw [if_neg (by simp [h.status])]
  exact reconcilePreOutboxFailure_carried h (.inl rfl) _ _ _

end Carried

/-! ## The loop body -/

section Body

variable {env : Env} {o : BrokerAnswers} {recoveryID : GoString} {job : Job} {row : JobRow}

/-- What `RecordReconciliation` asks of a reconciled status that is new evidence. -/
def Store.Evident (s : Store) (job : Job) (state : JobStatus) : Prop :=
  (state = .launched → s.jobs.hits job.id (fun r => r.isPollResult &&
      r.brokerRunID = job.brokerRunID && !s.hasTerminal r.id) = true) ∧
    (state = .reportPending →
      s.hasTerminal job.id = true ∧ (s.outbox.find? job.id).isSome = true)

/-- The row of a job that is reconciled as launched. -/
def JobRow.reconciledLaunched (now : Int) : JobRow → JobRow := fun r =>
  { r with
    status := .launched
    dueAt := Clock.unixMilli (now + statusPollInterval)
    updatedAt := Clock.unixMilli now }

/-- The store with the evidence of a reconciled job. -/
def Store.withReconciliation (s : Store) (recoveryID : GoString) (job : Job)
    (brokerStatus : GoString) (state : JobStatus) (now : Int) : Store :=
  { s with
    jobs := if state = .launched then
        s.jobs.updateKey job.id (fun r => r.isPollResult && r.brokerRunID = job.brokerRunID &&
          !s.hasTerminal r.id) (JobRow.reconciledLaunched now) (fun _ => rfl)
      else s.jobs
    recoveryReconciliations := s.recoveryReconciliations.insert
      { recoveryID := recoveryID
        jobID := job.id
        brokerRunID := job.brokerRunID
        priorStatus := job.status
        brokerStatus := brokerStatus
        reconciledStatus := state
        reconciledAt := Clock.unixMilli now } }

/-- Evidence that is there already is kept; new evidence is checked and written. -/
theorem recordReconciliation_ok {s' : Store} :
    recordReconciliation recoveryID job brokerStatus state now s = .ok s' ↔
      ¬ ((job.status ≠ .launched ∧ job.status ≠ .externalWaiting) ∨ job.brokerRunID = []) ∧
      (state = .launched ∨ state = .externalWaiting ∨ state = .reportPending) ∧
      (((s.recoveryReconciliations.find? (recoveryID, job.id)).isSome = true ∧ s = s') ∨
        ((s.recoveryReconciliations.find? (recoveryID, job.id)).isSome = false ∧
          s.Evident job state ∧ (s.recoveryRuns.find? recoveryID).isSome = true ∧
          s.withReconciliation recoveryID job brokerStatus state now = s')) := by
  unfold recordReconciliation
  simp only [require_bind_eq_ok]
  refine and_congr_right fun _ => and_congr_right fun hstate => ?_
  by_cases hseen : (s.recoveryReconciliations.find? (recoveryID, job.id)).isSome = true
  · simp [hseen, pure, Except.pure]
  rcases hstate with rfl | rfl | rfl <;>
    simp [hseen, Store.Evident, Store.withReconciliation, expectOne_bind_eq_ok, require_bind_eq_ok,
      pure, Except.pure, and_assoc]
  -- Both sides update the row of a launched job in the same way.
  exact fun _ _ => Iff.rfl

theorem recordReconciliation_succeeds_iff (hstatus : job.status = .launched)
    (hrun : job.brokerRunID ≠ []) (hopened : (s.recoveryRuns.find? recoveryID).isSome = true) :
    (∃ s', recordReconciliation recoveryID job brokerStatus state now s = .ok s') ↔
      (state = .launched ∨ state = .externalWaiting ∨ state = .reportPending) ∧
        ((s.recoveryReconciliations.find? (recoveryID, job.id)).isSome = true ∨
          s.Evident job state) := by
  have hjob : ¬ ((job.status ≠ .launched ∧ job.status ≠ .externalWaiting) ∨
      job.brokerRunID = []) := by simp [hstatus, hrun]
  simp only [recordReconciliation_ok, hjob, not_false_eq_true, true_and, exists_and_left,
    exists_or, exists_eq', and_true, hopened]
  refine and_congr_right fun _ => ?_
  cases (s.recoveryReconciliations.find? (recoveryID, job.id)).isSome <;> simp

/-- A recorded reconciliation leaves its row. -/
theorem recordReconciliation_row {s' : Store}
    (h : recordReconciliation recoveryID job brokerStatus state now s = .ok s') :
    (s'.recoveryReconciliations.find? (recoveryID, job.id)).isSome = true := by
  obtain ⟨-, -, ⟨hseen, rfl⟩ | ⟨-, -, -, rfl⟩⟩ := recordReconciliation_ok.mp h
  · exact hseen
  · simp [Store.withReconciliation]

/-- The loop body succeeds, with its row, exactly for the plans the store accepts. -/
theorem RecoveryPlan.Carried.record_iff (h : Restored recoveryID job row s)
    (hcarried : plan.Carried env job s v s₁) : (∃ state s2, v = .ok state ∧
        recordReconciliation recoveryID job brokerStatus state now s₁ = .ok s2) ↔
      plan.Accepted env recoveryID job s := by
  -- With the recovery tables unchanged, recording asks for the evidence in the new store.
  have record : ∀ state, SameRecovery s s₁ →
      ((∃ s2, recordReconciliation recoveryID job brokerStatus state now s₁ = .ok s2) ↔
        (state = .launched ∨ state = .externalWaiting ∨ state = .reportPending) ∧
          ((s.recoveryReconciliations.find? (recoveryID, job.id)).isSome = true ∨
            s₁.Evident job state)) := by
    intro state hsame
    rw [← hsame.2]
    exact recordReconciliation_succeeds_iff h.status h.runID (hsame.1 ▸ h.opened)
  have known : ∀ {state}, v = .ok state →
      ((∃ state s2, v = .ok state ∧
        recordReconciliation recoveryID job brokerStatus state now s₁ = .ok s2) ↔
      ∃ s2, recordReconciliation recoveryID job brokerStatus state now s₁ = .ok s2) := by
    rintro state rfl
    simp
  have unknown : ∀ {e}, v = .error e → ¬ ∃ state s2, v = .ok state ∧
      recordReconciliation recoveryID job brokerStatus state now s₁ = .ok s2 := by
    rintro e rfl
    simp
  cases plan with
  | poll =>
    obtain ⟨hsame, hv, hhits⟩ := hcarried
    rw [known hv, record _ hsame]
    exact iff_of_true ⟨.inl rfl, .inr ⟨fun _ => hhits, by simp⟩⟩ trivial
  | report r =>
    obtain ⟨hsame, ⟨hok, hv, hterminal, houtbox⟩ | ⟨hno, e, hv⟩⟩ := hcarried
    · rw [known hv, record _ hsame]
      exact iff_of_true ⟨.inr (.inr rfl), .inr ⟨by simp, fun _ => ⟨hterminal, houtbox⟩⟩⟩ hok
    · exact iff_of_false (unknown hv) hno
  | wait w =>
    obtain ⟨hsame, ⟨hok, hv⟩ | ⟨hno, e, hv⟩⟩ := hcarried
    · rw [known hv, record _ hsame]
      exact iff_of_true ⟨.inr (.inl rfl), .inr ⟨by simp, by simp⟩⟩ hok
    · exact iff_of_false (unknown hv) hno
  | retryProjection =>
    obtain ⟨hsame, hv, hterminal⟩ := hcarried
    rw [known hv, record _ hsame]
    simp [RecoveryPlan.Accepted, Store.Evident, hterminal]
  | ciWait =>
    refine iff_of_false ?_ id
    rcases hcarried with hv | ⟨e, hv⟩
    · rw [known hv]
      rintro ⟨s2, hs2⟩
      obtain ⟨-, hstate, -⟩ := recordReconciliation_ok.mp hs2
      simp at hstate
    · exact unknown hv

/-- Recording what a plan left. -/
theorem recordState_post {clock : RecoveryClock} {context : String}
    (h : Restored recoveryID job row s) (hcarried : plan.Carried env job s v s₁) :
    Post (fun _ _ => True) o (recordState recoveryID clock job brokerStatus context v) s₁
      (fun v s2 => v = .ok () ∧
          (s2.recoveryReconciliations.find? (recoveryID, job.id)).isSome = true ↔
        plan.Accepted env recoveryID job s) := by
  have hiff : (∃ state s2, v = .ok state ∧
      recordReconciliation recoveryID job brokerStatus state (clock.recorded job.id) s₁ =
        .ok s2) ↔ plan.Accepted env recoveryID job s := hcarried.record_iff h
  cases v with
  | error e =>
    refine post_pure.mpr (iff_of_false (by simp) ?_)
    rw [← hiff]
    simp
  | ok state =>
    refine post_bind.mpr (post_commit (fun s2 hs2 => ?_) fun e he => ?_)
    · exact post_pure.mpr (iff_of_true ⟨rfl, recordReconciliation_row hs2⟩
        (hiff.mp ⟨state, s2, rfl, hs2⟩))
    · refine post_pure.mpr (iff_of_false (by simp [Except.mapError]) ?_)
      rw [← hiff]
      simp [he]

/-- For a restored job and whatever the broker answers, the body of the loop succeeds and leaves
the row of the job exactly when the store accepts the plan of these answers. -/
theorem reconcileJob_succeeds_iff (env : Env) (o : BrokerAnswers) (clock : RecoveryClock)
    (recoveryID : GoString) (job : Job) (row : JobRow) (s : Store)
    (h : Restored recoveryID job row s) :
    ((reconcileJob env recoveryID clock job).exec o s).value = .ok () ∧
        (((reconcileJob env recoveryID clock job).exec o s).store.recoveryReconciliations.find?
          (recoveryID, job.id)).isSome = true ↔
      (recoveryPlan env job row.preOutboxAttempts (o ⟨.poll job.id, .status job.brokerRunID⟩)
        (o ⟨.poll job.id, .terminalResult job.brokerRunID⟩)).Accepted env recoveryID job s := by
  have hpost : Post (fun _ _ => True) o (reconcileJob env recoveryID clock job) s
      (fun v s₂ => v = .ok () ∧
          (s₂.recoveryReconciliations.find? (recoveryID, job.id)).isSome = true ↔
        (recoveryPlan env job row.preOutboxAttempts (o ⟨.poll job.id, .status job.brokerRunID⟩)
          (o ⟨.poll job.id, .terminalResult job.brokerRunID⟩)).Accepted env recoveryID job s) := by
    unfold reconcileJob
    refine post_bind.mpr (post_request.mpr ⟨trivial, ?_⟩)
    generalize (o ⟨.poll job.id, .status job.brokerRunID⟩ : Except GoError RunStatus) = status
    cases status with
    | error failure =>
      exact post_bind.mpr (post_mono (reconcileStatusFailure_carried h failure)
        fun v s₁ hcarried => recordState_post h hcarried)
    | ok result =>
      exact post_bind.mpr (post_mono (reconcileStatusResult_carried h result)
        fun v s₁ hcarried => recordState_post h hcarried)
  exact hpost.final

end Body

namespace Sample

/-- One reading for every call of `now()`. -/
def recoveryClock : RecoveryClock :=
  ⟨minute, fun _ => minute, fun _ => minute, fun _ => minute, minute⟩

/-- The store with one launched job, and a recovery begun on it. -/
def recoveredStore : Store :=
  (beginRecovery (lit "recovery") (lit "dispatcher") 1 minute launchedStore).2

/-- What the loop body returns for the launched job. -/
def reconciled (o : BrokerAnswers) : Except GoError Unit :=
  ((reconcileJob env (lit "recovery") recoveryClock job).exec o recoveredStore).value

theorem restored_job :
    ∃ row, Restored (lit "recovery") job row recoveredStore ∧ row.preOutboxAttempts = 0 := by
  have hrow : (recoveredStore.jobs.find? job.id).any (fun r => r.status = .launched &&
      r.brokerRunID = job.brokerRunID && r.preOutboxAttempts = 0) = true := by decide +kernel
  obtain ⟨row, hfind, hrow⟩ := (Option.any_eq_true _ _).mp hrow
  simp only [Bool.and_eq_true, decide_eq_true_eq] at hrow
  exact ⟨row, ⟨rfl, by decide, hfind, hrow.1.1, hrow.1.2, by decide +kernel, by decide +kernel⟩,
    hrow.2⟩

end Sample

open Sample in
theorem reconcileJob_succeeds_retried : ∃ row,
    Restored (lit "recovery") job row recoveredStore ∧
      reconciled (answers (.error unavailable) (.error unavailable) green) = .ok () := by
  obtain ⟨row, h, hattempts⟩ := restored_job
  have haccepted : (recoveryPlan env job row.preOutboxAttempts (.error unavailable)
      (.error unavailable)).Accepted env (lit "recovery") job recoveredStore := by
    rw [hattempts]
    exact trivial
  exact ⟨row, h, ((reconcileJob_succeeds_iff env
    (answers (.error unavailable) (.error unavailable) green) recoveryClock (lit "recovery") job row
    recoveredStore h).mpr haccepted).1⟩

open Sample in
/-- A run that is ready for review, and a projection that cannot be read for now, both end the
recovery. -/
theorem reconcileJob_refuses_ready :
    (∃ row, Restored (lit "recovery") job row recoveredStore) ∧
      reconciled (answers completed (.ok ready) green) = .error
        ((newError "invalid reconciled status \"ci_waiting\"").wrap
          "record restored job 1 reconciliation") ∧
      reconciled (answers completed (.error unavailable) green) = .error
        ((newError "terminal recovery reconciliation requires result and outbox").wrap
          "record restored job 1 reconciliation") := by
  obtain ⟨row, h, -⟩ := restored_job
  exact ⟨⟨row, h⟩, by decide +kernel, by decide +kernel⟩

end SignalPlane.Dispatcher
