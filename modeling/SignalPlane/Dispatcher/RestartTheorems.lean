/-
SignalPlane.Dispatcher.RestartTheorems — reopening the database.

`OpenStore` runs its start-up statements on every open. Four of them translate
the status words of an older schema, which no operation writes. The last two
return jobs to reporting: finished jobs with a run and no terminal result, and
blocked ones without an outbox row. They were written for jobs whose report
was lost, but a job that the CI lifecycle finished never had a terminal result
either, so a restart takes it back to `report_pending`.

`openStore_stable_iff` says so for every state that any sequence of operations
can reach: deliveries, worker passes, and every store operation on its own
with arguments of any kind. A restart keeps the status and the due time of
every job exactly when none is in one of the two situations.
-/
import SignalPlane.Dispatcher.MarkerTheorems
import SignalPlane.Dispatcher.ReconcileTheorems
import SignalPlane.Dispatcher.Refinement
import SignalPlane.Dispatcher.Settled

namespace SignalPlane.Dispatcher

open Clock
open Workflow

variable {maxAttempts : Int} {s : Store} {observation : CIObservation} {attempt : CIRepairAttempt}
  {p : JobRow → Bool} {work : CIReconciliation} {task : CITaskRow} {failureClass : GoString}
  {modelStarted : Bool} {status : JobStatus}

/-! ## Operations -/

/-- One store operation that succeeded, with any arguments. -/
inductive StoreOperation (env : Env) (s s' : Store) : Prop where
  | claimDue {now : Int} {work : Option Work} (h : claimDue now s = .ok (work, s'))
  | markLaunched {id due now : Int} {runID : GoString}
      (h : markLaunched id runID due now s = .ok s')
  | markLaunchFailure {id due now : Int} {retry : Bool} {message : GoString}
      (h : markLaunchFailure id retry due message now s = .ok s')
  | markStatus {id due now : Int} {message : GoString}
      (h : markStatus id .launched due message now s = .ok s')
  | markPreOutboxFailure {id due now attempts : Int} {status : JobStatus} {message : GoString}
      (h : markPreOutboxFailure id status due message now s = .ok (attempts, s'))
  | deferReportPending {id due now : Int} (h : deferReportPending id due now s = .ok s')
  | queueTerminalResult {job : Job} {r : TerminalResult} {now : Int}
      (h : queueTerminalResult env.lib job r now s = .ok s')
  | markReportDelivered {report : Report} {id now : Int} {url : GoString}
      (h : markReportDelivered report id url now s = .ok s')
  | markReportFailure {report : Report} {retry : Bool} {safe : GoString} {now : Int}
      (h : markReportFailure report retry safe now s = .ok s')
  | reconcileFailedLaunch {jobID now : Int} {runID : GoString} {terminal : TerminalResult}
      (h : reconcileFailedLaunch env.lib jobID runID terminal now s = .ok s')
  | reconcileBlockedReport {jobID now : Int} {runID key : GoString}
      (h : reconcileBlockedReport jobID runID key now s = .ok s')
  | recordWait {job : Job} {wait : CIExternalWait} {stored : RepositoryRunExternalWait} {now : Int}
      (h : recordRepositoryRunExternalWait env.policy.1 job wait now s = .ok (stored, s'))
  | recordWake {signal : Signal} {now : Int} {woken : Bool}
      (h : recordRepositoryRunExternalWake env.lib signal now s = .ok (woken, s'))
  | deferResume {job : Job} {due now : Int} {failure : GoError}
      (h : deferRepositoryRunExternalResume job due failure now s = .ok s')
  | markResumed {wait : RepositoryRunExternalWait} {now : Int}
      (h : markRepositoryRunExternalResumed wait now s = .ok s')
  | reconcileResume {job : Job} {now : Int}
      (h : reconcileRepositoryRunExternalResume job now s = .ok s')
  | beginCIWait {job : Job} {pullNumber deadline now : Int}
      {branch headSHA agentModel encoded : GoString}
      (h : beginCIWait env.lib job pullNumber branch headSHA agentModel deadline now encoded s =
        .ok s')
  | recordCIEvent {signal : Signal} {now : Int} {queued : Bool}
      (h : recordCIEvent env.lib signal now s = .ok (queued, s'))
  | claimCIReconciliation {tie : Nat} {now : Int} {work : Option CIReconciliation}
      (h : claimCIReconciliation tie now s = .ok (work, s'))
  | failCIReconciliation {work : CIReconciliation} {failure : GoError} {retry : Bool} {now : Int}
      (h : failCIReconciliation env.policy.1 work failure retry now s = .ok s')
  | applyCIObservation {work : CIReconciliation} {observation : CIObservation}
      {maxAttempts now : Int}
      (h : applyCIObservation env.lib env.policy.1 work observation maxAttempts now s = .ok s')
  | claimCIRepair {tie : Nat} {now : Int} {work : Option (CIRepairTask × CIRepairAttempt)}
      (h : claimCIRepair env.policy.1 tie now s = .ok (work, s'))
  | claimCIRepairStatus {tie : Nat} {now : Int} {work : Option (CIRepairTask × CIRepairAttempt)}
      (h : claimCIRepairStatus env.policy.1 tie now s = .ok (work, s'))
  | bindCIRepairRun {attempt : CIRepairAttempt} {runID : GoString} {now : Int}
      (h : bindCIRepairRun attempt runID now s = .ok s')
  | deferAttempt {state : AttemptState} {missing operation : String} {key : GoString}
      {due now : Int} {failure : GoError}
      (h : deferAttempt state missing operation key due failure now s = .ok s')
  | scheduleCIRepairStatus {key : GoString} {due now : Int}
      (h : scheduleCIRepairStatus key due now s = .ok s')
  | recordCIRepairExternalWait {attempt : CIRepairAttempt} {wait : CIExternalWait} {now : Int}
      {key : GoString} (h : recordCIRepairExternalWait attempt wait now s = .ok (key, s'))
  | markCIRepairExternalResumed {key resumeKey : GoString} {generation due now : Int}
      (h : markCIRepairExternalResumed key resumeKey generation due now s = .ok s')
  | finishCIRepairFailure {attempt : CIRepairAttempt} {failureClass detail : GoString}
      {modelStarted : Bool} {maxAttempts now : Int}
      (h : finishCIRepairFailure env.lib env.policy.1 attempt failureClass modelStarted detail
        maxAttempts now s = .ok s')
  | chargeCIRepairAttempt {key : GoString} {now : Int}
      (h : chargeCIRepairAttempt key now s = .ok s')
  | completeCIRepairDelivery {key : GoString} {delivery : CIRepairDelivery} {now : Int}
      (h : completeCIRepairDelivery env.policy.1 key delivery now s = .ok s')
  | markCIEscalationDelivered {report : CIEscalationReport} {result : CommentResult} {now : Int}
      (h : markCIEscalationDelivered env.lib report result now s = .ok s')
  | markCIEscalationFailure {report : CIEscalationReport} {retry : Bool} {message : GoString}
      {now : Int} (h : markCIEscalationFailure report retry message now s = .ok s')
  | beginRecovery {id durable : GoString} {sequence : Nat} {now : Int}
      (h : (beginRecovery id durable sequence now s).2 = s')
  | failRecovery {id : GoString} {failure : GoError} (h : failRecovery id failure s = s')
  | prepareRecoveryJobs {id : GoString} {jobs : List Job}
      (h : prepareRecoveryJobs id s = .ok (jobs, s'))
  | recordReconciliation {id brokerStatus : GoString} {job : Job} {status : JobStatus} {now : Int}
      (h : recordReconciliation id job brokerStatus status now s = .ok s')
  | completeRecovery {id : GoString} {expected : Nat} {now : Int}
      (h : completeRecovery id expected now s = .ok s')

section Operations

variable {env : Env} {s' : Store} {now : Int} {fresh : Prop}

/-- The transactions of a pass are such operations. -/
theorem Transaction.operation (h : Transaction env now fresh s s') : StoreOperation env s s' := by
  cases h with
  | claimDue h => exact .claimDue h
  | claimCIReconciliation h => exact .claimCIReconciliation h
  | claimCIRepair h => exact .claimCIRepair h
  | claimCIRepairStatus h => exact .claimCIRepairStatus h
  | markLaunched _ h => exact .markLaunched h
  | markLaunchFailure _ h => exact .markLaunchFailure h
  | queueTerminalResult h => exact .queueTerminalResult h
  | markStatus _ h => exact .markStatus h
  | markPreOutboxFailure h => exact .markPreOutboxFailure h
  | deferReportPending h => exact .deferReportPending h
  | recordWait _ _ _ h => exact .recordWait h
  | deferResume _ h => exact .deferResume h
  | markResumed h => exact .markResumed h
  | reconcileResume _ h => exact .reconcileResume h
  | beginCIWait _ h => exact .beginCIWait h
  | failCIReconciliation h => exact .failCIReconciliation h
  | applyCIObservation _ h => exact .applyCIObservation h
  | bindCIRepairRun h => exact .bindCIRepairRun h
  | deferAttempt _ h => exact .deferAttempt h
  | scheduleCIRepairStatus h => exact .scheduleCIRepairStatus h
  | recordCIRepairExternalWait h => exact .recordCIRepairExternalWait h
  | markCIRepairExternalResumed h => exact .markCIRepairExternalResumed h
  | finishCIRepairFailure h => exact .finishCIRepairFailure h
  | chargeCIRepairAttempt h => exact .chargeCIRepairAttempt h
  | completeCIRepairDelivery _ h => exact .completeCIRepairDelivery h
  | markCIEscalationDelivered h => exact .markCIEscalationDelivered h
  | markCIEscalationFailure h => exact .markCIEscalationFailure h
  | markReportDelivered h => exact .markReportDelivered h
  | markReportFailure h => exact .markReportFailure h

end Operations

/-- The states that deliveries, recovery replays, worker passes and store operations of any kind
reach from an empty store. -/
inductive ReachableByOperations (env : Env) : Store → Prop where
  | empty : ReachableByOperations env .empty
  | process {s : Store} (recoveryID : GoString) (delivery : Delivery) (now : Int)
      (h : ReachableByOperations env s) :
      ReachableByOperations env (exec silentBroker (process env recoveryID delivery now) s).store
  | runOne {s : Store} (tie : Nat) (now : Int) (o : BrokerAnswers)
      (h : ReachableByOperations env s) :
      ReachableByOperations env (exec o (runOne env tie now) s).store
  | operation {s s' : Store} (h : ReachableByOperations env s) (hop : StoreOperation env s s') :
      ReachableByOperations env s'

theorem Reachable.byOperations {env : Env} (h : Reachable env s) : ReachableByOperations env s := by
  induction h with
  | empty => exact .empty
  | step i _ _ ih =>
    cases i with
    | process delivery now => exact .process [] delivery now ih
    | runOne tie now o => exact .runOne tie now o ih

/-! ## No operation writes an old status word -/

/-- No job has a status of the older schema. -/
def Current (jobs : List JobRow) : Prop := ∀ r ∈ jobs, r.status.isLegacy = false

/-- An update of job rows that keeps the status or writes a current one. -/
theorem Current.update {jobs : List JobRow} {f : JobRow → JobRow} (hs : Current jobs)
    (h : ∀ r, p r = true → (f r).status = r.status ∨ (f r).status.isLegacy = false) :
    Current (jobs.map fun r => if p r then f r else r) := by
  intro r hr
  obtain ⟨r0, hr0, rfl⟩ := List.mem_map.mp hr
  split
  · next hp =>
    rcases h r0 hp with h | h
    · rw [h]
      exact hs r0 hr0
    · exact h
  · exact hs r0 hr0

section Current

variable {env : Env} {s' : Store} {now : Int}

/-- The views tell the statuses. -/
theorem current_iff : Current s.jobs.rows ↔
    ∀ j status, (s.view j).status = some status → status.isLegacy = false := by
  constructor
  · intro hs j status h
    obtain ⟨r, hr, rfl⟩ := Store.row_of_view h
    exact hs r (Table.mem_of_find? hr)
  · exact fun hs r hr => hs r.id r.status (Store.view_status (Table.find?_key hr))

theorem Current.of_view (hs : Current s.jobs.rows) (h : s'.view = s.view) :
    Current s'.jobs.rows := by
  rw [current_iff] at hs ⊢
  rwa [h]

theorem JobWrites.current {j due : Int} (hs : Current s.jobs.rows) (h : JobWrites j due s s') :
    Current s'.jobs.rows := by
  cases h with
  | refl => exact hs
  | @row p f _ _ _ hrow =>
    refine Current.update hs fun r hr => (hrow r (Bool.and_eq_true_iff.mp hr).2).status.imp_right ?_
    cases (f r).status <;> decide

theorem ReportWrites.current {report : Report} (hs : Current s.jobs.rows)
    (h : ReportWrites now report s s') : Current s'.jobs.rows := by
  obtain ⟨-, -, hstatus⟩ := h
  exact Current.update hs fun r _ => .inr (hstatus r).2.2

theorem CIWrites.current {late : Prop} (hs : Current s.jobs.rows) (h : CIWrites now late s s') :
    Current s'.jobs.rows := by
  induction h with
  | job _ hrow ih =>
    refine Current.update ih fun r hr => .inr ?_
    have hstatus := (hrow r (Bool.and_eq_true_iff.mp hr).2).status
    revert hstatus
    generalize JobRow.status _ = status
    cases status <;> simp [JobStatus.isLegacy]
  | refl => exact hs
  | newAttempt _ ih | escalation _ ih => exact ih
  | attempt _ _ ih | task _ _ ih | reconciliation _ _ ih => exact ih

theorem markCIEscalationFailure_current {report : CIEscalationReport} {retry : Bool}
    {message : GoString} (hs : Current s.jobs.rows)
    (h : markCIEscalationFailure report retry message now s = .ok s') : Current s'.jobs.rows := by
  simp only [markCIEscalationFailure, expectOne_bind_eq_ok] at h
  obtain ⟨_, h⟩ := h
  split at h
  · cases h
    exact hs
  · simp only [pure_eq_ok] at h
    subst h
    exact Current.update hs fun _ _ => .inr rfl

theorem recordReconciliation_current {id brokerStatus : GoString} {job : Job}
    (hs : Current s.jobs.rows)
    (h : recordReconciliation id job brokerStatus status now s = .ok s') :
    Current s'.jobs.rows := by
  obtain ⟨-, -, ⟨-, rfl⟩ | ⟨-, -, -, rfl⟩⟩ := recordReconciliation_ok.mp h
  · exact hs
  · simp only [Store.withReconciliation]
    split
    · exact Current.update hs fun _ _ => .inr rfl
    · exact hs

theorem prepareRecoveryJobs_jobs {id : GoString} {jobs : List Job}
    (h : prepareRecoveryJobs id s = .ok (jobs, s')) : s'.jobs = s.jobs := by
  simp only [prepareRecoveryJobs, bind_eq_ok, pure_eq_ok, Prod.mk.injEq] at h
  obtain ⟨s1, h, -, rfl⟩ := h
  unfold freezeRecoveryJobs at h
  split at h
  · cases h
  · split at h
    · simp only [require_bind_eq_ok, pure_eq_ok] at h
      obtain ⟨_, rfl⟩ := h
      rfl
    · cases h
      rfl

/-- Every store operation keeps the statuses current. -/
theorem StoreOperation.current (hs : Current s.jobs.rows) (h : StoreOperation env s s') :
    Current s'.jobs.rows := by
  cases h with
  | claimDue h =>
    obtain ⟨-, rfl⟩ | ⟨r, -, -, ⟨-, -, rfl⟩ | ⟨-, -, rfl⟩⟩ := claimDue_cases h
    · exact hs
    · exact hs
    · exact Current.update hs fun _ _ => .inl rfl
  | markLaunched h => exact (markLaunched_writes h).current hs
  | @markLaunchFailure id due now retry message h =>
    simp only [Dispatcher.markLaunchFailure, expectOne_bind_eq_ok, pure_eq_ok] at h
    obtain ⟨-, rfl⟩ := h
    exact Current.update hs fun _ _ => .inr (by cases retry <;> rfl)
  | markStatus h => exact (markStatus_writes h).current hs
  | markPreOutboxFailure h => exact (markPreOutboxFailure_writes h).current hs
  | deferReportPending h => exact (deferReportPending_writes h).current hs
  | queueTerminalResult h =>
    obtain ⟨-, body, -, h⟩ := queueTerminalResult_ok.mp h
    obtain ⟨-, rfl⟩ := storeTerminalResult_ok h
    exact Current.update hs fun _ _ => .inr rfl
  | markReportDelivered h => exact (markReportDelivered_writes h).current hs
  | markReportFailure h => exact (markReportFailure_writes h).current hs
  | reconcileFailedLaunch h =>
    simp only [Dispatcher.reconcileFailedLaunch, require_bind_eq_ok] at h
    obtain ⟨-, h⟩ := h
    split at h
    · cases h
    · simp only [bind_eq_ok, pure_eq_ok] at h
      obtain ⟨-, -, -, -, -, -, -, -, rfl⟩ := h
      exact Current.update hs fun _ _ => .inr rfl
  | reconcileBlockedReport h =>
    simp only [Dispatcher.reconcileBlockedReport, require_bind_eq_ok] at h
    obtain ⟨-, h⟩ := h
    split at h
    · simp only [require_bind_eq_ok, pure_eq_ok] at h
      obtain ⟨-, -, -, -, -, -, -, rfl⟩ := h
      exact Current.update hs fun _ _ => .inr rfl
    · cases h
  | recordWait h => exact (recordRepositoryRunExternalWait_writes h).1.current hs
  | recordWake h =>
    simp only [recordRepositoryRunExternalWake] at h
    split at h
    · cases h
      exact hs
    · split at h <;> cases h
      · exact Current.update hs fun _ _ => .inl rfl
      · exact hs
  | deferResume h => exact (deferRepositoryRunExternalResume_writes h).current hs
  | markResumed h | reconcileResume h => exact (resumeExternalWait_writes h).current hs
  | beginCIWait h =>
    simp only [Dispatcher.beginCIWait, require_bind_eq_ok, pure_eq_ok] at h
    obtain ⟨-, -, -, rfl⟩ := h
    exact Current.update hs fun _ _ => .inr rfl
  | failCIReconciliation h => exact (failCIReconciliation_writes False.elim h).current hs
  | applyCIObservation h => exact (applyCIObservation_writes h).current hs
  | finishCIRepairFailure h => exact (finishCIRepairFailure_writes h).current hs
  | completeCIRepairDelivery h => exact (completeCIRepairDelivery_writes False.elim h).current hs
  | markCIEscalationDelivered h =>
    simp only [Dispatcher.markCIEscalationDelivered, require_bind_eq_ok, expectOne_bind_eq_ok,
      pure_eq_ok] at h
    obtain ⟨-, -, rfl⟩ := h
    exact Current.update hs fun _ _ => .inr rfl
  | markCIEscalationFailure h => exact markCIEscalationFailure_current hs h
  | recordReconciliation h => exact recordReconciliation_current hs h
  -- The other operations do not change what the tables say about jobs.
  | recordCIEvent h => exact hs.of_view (recordCIEvent_view h)
  | claimCIReconciliation h =>
    obtain ⟨rs, rfl⟩ := claimCIReconciliation_store h
    exact hs
  | claimCIRepair h => exact hs.of_view (claimCIRepair_follows 0 h).view
  | claimCIRepairStatus h => exact hs.of_view (claimCIRepairStatus_follows h).view
  | bindCIRepairRun h => exact (bindCIRepairRun_writes h).current hs
  | deferAttempt h => exact hs.of_view (deferAttempt_follows h).view
  | scheduleCIRepairStatus h => exact hs.of_view (scheduleCIRepairStatus_follows h).view
  | recordCIRepairExternalWait h => exact hs.of_view (recordCIRepairExternalWait_follows 0 h).view
  | markCIRepairExternalResumed h => exact hs.of_view (markCIRepairExternalResumed_follows h).view
  | chargeCIRepairAttempt h => exact (chargeCIRepairAttempt_writes h).current hs
  | beginRecovery h =>
    subst h
    rw [beginRecovery_store]
    split <;> exact hs
  | failRecovery h =>
    subst h
    exact hs
  | prepareRecoveryJobs h => rwa [prepareRecoveryJobs_jobs h]
  | completeRecovery h =>
    simp only [Dispatcher.completeRecovery, require_bind_eq_ok, expectOne_bind_eq_ok, pure_eq_ok]
      at h
    obtain ⟨_, _, rfl⟩ := h
    exact hs

theorem DeliveryStep.current (hs : Current s.jobs.rows) (h : DeliveryStep s s') :
    Current s'.jobs.rows := by
  rw [current_iff] at hs ⊢
  intro j status hstatus
  cases h with
  | same h => exact hs j status (h ▸ hstatus)
  | wake h =>
    rcases h j with h | ⟨w, -, -, -, h⟩ <;> rw [h] at hstatus <;> exact hs j status hstatus
  | arrive k t others new last h =>
    by_cases hk : j = k
    · subst hk
      rw [h] at hstatus
      cases hstatus
      rfl
    · exact hs j status (others j hk ▸ hstatus)

theorem DeliverySteps.current (hs : Current s.jobs.rows)
    (h : Relation.ReflTransGen DeliveryStep s s') : Current s'.jobs.rows := by
  induction h with
  | refl => exact hs
  | tail _ hstep ih => exact hstep.current ih

theorem Transactions.current {fresh : Prop} (hs : Current s.jobs.rows)
    (h : Transactions env now fresh s s') : Current s'.jobs.rows := by
  induction h with
  | refl => exact hs
  | tail _ hstep ih => exact hstep.operation.current ih

theorem ReachableByOperations.current (h : ReachableByOperations env s) : Current s.jobs.rows := by
  induction h with
  | empty =>
    intro r hr
    cases hr
  | process recoveryID delivery now _ ih =>
    exact DeliverySteps.current ih (process_steps env silentBroker recoveryID delivery now _).final
  | @runOne s tie now o _ ih =>
    exact Transactions.current ih (runOne_transactions tie).final
  | operation _ hop ih => exact hop.current ih

end Current

/-! ## The start-up statements -/

theorem Store.rewriteStatus_eq_self (h : ∀ r ∈ s.jobs.rows, p r = false) :
    s.rewriteStatus p status = s := by
  unfold Store.rewriteStatus
  rw [Table.update_eq_self h]

/-- Without old status words, a restart only returns jobs to reporting. -/
theorem openStore_find (hs : Current s.jobs.rows) (id : Int) :
    (openStore s).jobs.find? id = (s.jobs.find? id).map (fun r =>
      if s.finishedUnreported r || s.blockedUnreported r then
        { r with status := .reportPending, dueAt := r.updatedAt } else r) := by
  have hnone : ∀ p : JobRow → Bool, (∀ r, p r = true → r.status.isLegacy = true) →
      ∀ r ∈ s.jobs.rows, p r = false := by
    intro p hp r hr
    by_contra hne
    have := hp r (by simpa using hne)
    simp [hs r hr] at this
  unfold openStore
  dsimp only
  rw [Store.rewriteStatus_eq_self (hnone _ ?_), Store.rewriteStatus_eq_self (hnone _ ?_),
    Store.rewriteStatus_eq_self (hnone _ ?_), Store.rewriteStatus_eq_self (hnone _ ?_)]
  · -- A job that the first statement returned is no longer blocked.
    simp only [Store.returnToReporting, Table.find?_update, Option.map_map]
    congr 1
    funext r
    simp only [Function.comp]
    by_cases hf : s.finishedUnreported r = true
    · simp [hf, Store.blockedUnreported]
    · have hblocked : Store.blockedUnreported { s with
          jobs := s.jobs.update s.finishedUnreported
            (fun r => { r with status := .reportPending, dueAt := r.updatedAt })
            (fun _ => rfl) } r = s.blockedUnreported r := rfl
      simp [hf, hblocked]
  all_goals
    intro r hr
    simp only [Bool.and_eq_true, Bool.or_eq_true, decide_eq_true_eq] at hr
    simp only [JobStatus.isLegacy, Bool.or_eq_true, decide_eq_true_eq]
    tauto

/-- A restart keeps the status and the due time of every job exactly when no finished or blocked
job with a run lacks its terminal result. -/
theorem openStore_stable_iff {env : Env} {s : Store} (h : ReachableByOperations env s) :
    (∀ r ∈ s.jobs.rows, ((openStore s).jobs.find? r.id).map (fun r => (r.status, r.dueAt)) =
      some (r.status, r.dueAt)) ↔
      ∀ r ∈ s.jobs.rows, s.finishedUnreported r = false ∧ s.blockedUnreported r = false := by
  refine forall₂_congr fun r hr => ?_
  rw [openStore_find h.current, Table.find?_key hr]
  constructor
  · intro hkept
    by_contra hne
    have hreturned : (s.finishedUnreported r || s.blockedUnreported r) = true := by
      cases hf : s.finishedUnreported r <;> cases hb : s.blockedUnreported r <;> simp_all
    simp only [Option.map_some, if_pos hreturned, Option.some.injEq, Prod.mk.injEq] at hkept
    -- Neither statement applies to a job that is already `report_pending`.
    simp [Store.finishedUnreported, Store.blockedUnreported, ← hkept.1] at hreturned
  · rintro ⟨hf, hb⟩
    simp [hf, hb]

open Sample in
/-- The launched job of the sample run survives a restart. -/
theorem openStore_launched :
    (launchedStore.jobs.find? 1).map JobRow.status = some .launched ∧
      ∀ r ∈ launchedStore.jobs.rows,
        ((openStore launchedStore).jobs.find? r.id).map (fun r => (r.status, r.dueAt)) =
          some (r.status, r.dueAt) :=
  ⟨by decide +kernel,
    (openStore_stable_iff launchedStore_reachable.byOperations).mpr (by decide +kernel)⟩

/-- The store after the result was ready for review and CI was green. -/
def Sample.greenStore : Store :=
  run env [readyPass (3 * second), readyPass (4 * second)] launchedStore

open Sample in
/-- The job that CI completed is returned to reporting by a restart. -/
theorem openStore_returnsCompleted :
    ReachableByOperations env greenStore ∧
      (greenStore.jobs.find? 1).map JobRow.status = some .completed ∧
      ((openStore greenStore).jobs.find? 1).map JobRow.status = some .reportPending :=
  ⟨(launchedStore_reachable.run _).byOperations, by decide +kernel, by decide +kernel⟩

end SignalPlane.Dispatcher
