/-
SignalPlane.Dispatcher.JobPrograms — what the programs of a job write.

`runStatus`, `runLaunch` and the reconciliation of a recovered run work on one
job. All their transactions but two rewrite the row of that job and its
external wait (`JobWrites`), in a way that is harmless to everything else: the
row keeps its key, gets a run only while it waits for its launch, does not
become `report_blocked`, and keeps its status or is uncommitted. The two others come
last in a program: a result is queued, or the CI wait begins (`JobEnd`).

The walk through the programs is made once, with `Conforms`. It also says that
none of them comments on behalf of an escalation; only `runEscalation` does.
-/
import SignalPlane.Lib.Interleaving
import SignalPlane.Dispatcher.CIAccount
import SignalPlane.Dispatcher.Worker

namespace SignalPlane.Dispatcher

open Clock
open Workflow

variable {env : Env} {job : Job} {now due : Int} {message runID : GoString}
  {op : Store → Except GoError Store}

/-! ## Rows that go on -/

/-- What work on a job may do to its row as long as it is not about its report. -/
structure JobRow.Continues (r r' : JobRow) : Prop where
  id : r'.id = r.id
  semanticKey : r'.semanticKey = r.semanticKey
  run : r'.brokerRunID = r.brokerRunID ∨ r.status.isQueued = true
  queued : r'.status.isQueued = true → r.status.isQueued = true
  blocked : r'.status = .reportBlocked → r.status = .reportBlocked ∧ r'.lastError = r.lastError
  counted : 0 ≤ r.preOutboxAttempts → 0 ≤ r'.preOutboxAttempts

namespace JobRow.Continues

variable {r r' r'' : JobRow}

theorem refl (r : JobRow) : r.Continues r :=
  ⟨rfl, rfl, .inl rfl, fun h => h, fun h => ⟨h, rfl⟩, fun h => h⟩

theorem trans (h : r.Continues r') (h' : r'.Continues r'') : r.Continues r'' where
  id := h'.id.trans h.id
  semanticKey := h'.semanticKey.trans h.semanticKey
  run := by
    rcases h'.run with h1 | h1
    · rcases h.run with h2 | h2
      · exact .inl (h1.trans h2)
      · exact .inr h2
    · exact .inr (h.queued h1)
  queued hq := h.queued (h'.queued hq)
  blocked hb := by
    obtain ⟨h1, he1⟩ := h'.blocked hb
    obtain ⟨h2, he2⟩ := h.blocked h1
    exact ⟨h2, he1.trans he2⟩
  counted hc := h'.counted (h.counted hc)

/-- A row whose new status is neither of a report nor of a launch. -/
theorem of_status (hid : r'.id = r.id) (hkey : r'.semanticKey = r.semanticKey)
    (hrun : r'.brokerRunID = r.brokerRunID) (hqueued : r'.status.isQueued = false)
    (hblocked : r'.status ≠ .reportBlocked)
    (hcounted : 0 ≤ r.preOutboxAttempts → 0 ≤ r'.preOutboxAttempts) : r.Continues r' where
  id := hid
  semanticKey := hkey
  run := .inl hrun
  queued h := by rw [hqueued] at h; cases h
  blocked h := absurd h hblocked
  counted := hcounted

/-- A row that keeps its status, which is not that of a blocked report. -/
theorem of_same (hid : r'.id = r.id) (hkey : r'.semanticKey = r.semanticKey)
    (hrun : r'.brokerRunID = r.brokerRunID) (hstatus : r'.status = r.status)
    (hcounted : 0 ≤ r.preOutboxAttempts → 0 ≤ r'.preOutboxAttempts)
    (hblocked : r.status ≠ .reportBlocked) : r.Continues r' where
  id := hid
  semanticKey := hkey
  run := .inl hrun
  queued h := hstatus ▸ h
  blocked h := absurd (hstatus ▸ h) hblocked
  counted := hcounted

end JobRow.Continues

/-- The row goes on, and is not left to its CI task. -/
structure JobRow.Worked (r r' : JobRow) : Prop extends JobRow.Continues r r' where
  status : r'.status = r.status ∨ r'.status.isUncommitted = true

/-- A row that is polled, reported or waits from now on. -/
theorem JobRow.Worked.of_status {r r' : JobRow} (hid : r'.id = r.id)
    (hkey : r'.semanticKey = r.semanticKey) (hrun : r'.brokerRunID = r.brokerRunID)
    (hqueued : r'.status.isQueued = false) (hu : r'.status.isUncommitted = true)
    (hcounted : 0 ≤ r.preOutboxAttempts → 0 ≤ r'.preOutboxAttempts) : r.Worked r' := by
  refine ⟨.of_status hid hkey hrun hqueued (fun hb => ?_) hcounted, .inr hu⟩
  rw [hb] at hu
  cases hu

/-! ## Transactions on one job -/

/-- The row of job `j` goes on and is due at `due`; besides it only external waits are written. -/
inductive JobWrites (j due : Int) (s : Store) : Store → Prop where
  | refl : JobWrites j due s s
  | row {p : JobRow → Bool} {f : JobRow → JobRow} {hf : ∀ r, (f r).id = r.id}
      (waits : Table ExternalWaitRow.jobID) (hdue : ∀ r, (f r).dueAt = unixMilli due)
      (hrow : ∀ r, p r = true → r.Worked (f r)) :
      JobWrites j due s { s with jobs := s.jobs.updateKey j p f hf, externalWaits := waits }

section Operations

variable {id j : Int} {s s' : Store}

theorem markLaunched_writes (h : markLaunched id runID due now s = .ok s') :
    JobWrites id due s s' := by
  simp only [markLaunched, require_bind_eq_ok, expectOne_bind_eq_ok, pure_eq_ok] at h
  obtain ⟨-, -, rfl⟩ := h
  refine .row s.externalWaits (fun _ => rfl) fun r hr => ⟨⟨rfl, rfl, .inr hr, fun hq => ?_,
    fun hb => ?_, fun h => h⟩, .inr rfl⟩
  · cases hq
  · cases hb

theorem markLaunchFailure_writes (h : markLaunchFailure id true due message now s = .ok s') :
    JobWrites id due s s' := by
  simp only [markLaunchFailure, expectOne_bind_eq_ok, pure_eq_ok] at h
  obtain ⟨-, rfl⟩ := h
  refine .row s.externalWaits (fun _ => rfl) fun r hr => ⟨⟨rfl, rfl, .inl rfl, fun _ => hr,
    fun hb => ?_, fun h => h⟩, .inr rfl⟩
  cases hb

theorem markStatus_writes (h : markStatus id .launched due message now s = .ok s') :
    JobWrites id due s s' := by
  simp only [markStatus, expectOne_bind_eq_ok, pure_eq_ok] at h
  obtain ⟨-, rfl⟩ := h
  refine .row s.externalWaits (fun _ => rfl) fun r _ => .of_status rfl rfl rfl rfl rfl fun h => ?_
  dsimp only
  split
  · exact le_rfl
  · exact h

theorem markPreOutboxFailure_writes {status : JobStatus} {attempts : Int}
    (h : markPreOutboxFailure id status due message now s = .ok (attempts, s')) :
    JobWrites id due s s' := by
  obtain ⟨hstatus, _, -, -, -, -, rfl⟩ := markPreOutboxFailure_ok.mp h
  refine .row s.externalWaits (fun _ => rfl) fun r _ =>
    .of_status rfl rfl rfl ?_ ?_ fun h => Int.le_add_one h
  all_goals rcases hstatus with rfl | rfl <;> rfl

theorem deferReportPending_writes (h : deferReportPending id due now s = .ok s') :
    JobWrites id due s s' := by
  simp only [deferReportPending, expectOne_bind_eq_ok, pure_eq_ok] at h
  obtain ⟨-, rfl⟩ := h
  refine .row s.externalWaits (fun _ => rfl) fun r hr =>
    ⟨.of_same rfl rfl rfl rfl (fun h => h) ?_, .inl rfl⟩
  have hpending : r.status = .reportPending := by simpa using (Bool.and_eq_true_iff.mp hr).1
  rw [hpending]
  decide

/-- The wait that is returned is the job's. -/
theorem storeExternalWait_jobID {policy : CIRepairPolicy} {wait : CIExternalWait}
    {stored : RepositoryRunExternalWait} {waits : Table ExternalWaitRow.jobID}
    (h : storeExternalWait policy job wait now s = .ok (stored, waits)) :
    stored.jobID = job.id := by
  unfold storeExternalWait at h
  split at h
  · simp only [bind_eq_ok, pure_eq_ok, Prod.mk.injEq] at h
    obtain ⟨_, -, _, -, rfl, -⟩ := h
    rfl
  · next row hrow =>
    simp only [require_bind_eq_ok] at h
    obtain ⟨-, h⟩ := h
    split at h
    · simp only [require_bind_eq_ok, pure_eq_ok, Prod.mk.injEq] at h
      obtain ⟨-, rfl, -⟩ := h
      exact (Table.key_of_find? hrow : row.jobID = job.id)
    · split at h
      · simp only [bind_eq_ok, pure_eq_ok, Prod.mk.injEq] at h
        obtain ⟨_, -, rfl, -⟩ := h
        rfl
      · cases h
        rfl

theorem recordRepositoryRunExternalWait_writes {policy : CIRepairPolicy} {wait : CIExternalWait}
    {stored : RepositoryRunExternalWait}
    (h : recordRepositoryRunExternalWait policy job wait now s = .ok (stored, s')) :
    JobWrites job.id (now + policy.reconciliationWake) s s' ∧ stored.jobID = job.id := by
  simp only [recordRepositoryRunExternalWait, bind_eq_ok, pure_eq_ok, Prod.mk.injEq] at h
  obtain ⟨_, -, _, -, ⟨stored', waits⟩, hstored, rfl, rfl⟩ := h
  exact ⟨.row waits (fun _ => rfl) fun r _ => .of_status rfl rfl rfl rfl rfl fun h => h,
    storeExternalWait_jobID hstored⟩

theorem deferRepositoryRunExternalResume_writes {failure : GoError}
    (h : deferRepositoryRunExternalResume job due failure now s = .ok s') :
    JobWrites job.id due s s' := by
  simp only [deferRepositoryRunExternalResume, expectOne_bind_eq_ok, pure_eq_ok] at h
  obtain ⟨-, rfl⟩ := h
  refine .row s.externalWaits (fun _ => rfl) fun r hr =>
    ⟨.of_same rfl rfl rfl rfl (fun h => Int.le_add_one h) ?_, .inl rfl⟩
  have hwaits : r.status = .externalWaiting := by simpa using (Bool.and_eq_true_iff.mp hr).2
  rw [hwaits]
  decide

theorem resumeExternalWait_writes {p : ExternalWaitRow → Bool} {waitOperation jobOperation : String}
    (h : resumeExternalWait j runID p waitOperation jobOperation due now s = .ok s') :
    JobWrites j due s s' := by
  simp only [resumeExternalWait, expectOne_bind_eq_ok, pure_eq_ok] at h
  obtain ⟨-, -, rfl⟩ := h
  exact .row _ (fun _ => rfl) fun r _ => .of_status rfl rfl rfl rfl rfl fun _ => le_rfl

end Operations

/-! ## Programs -/

/-- The call is not made for an escalation. -/
def Request.Unescalating (q : Request) : Prop := ∀ j, q.unit ≠ .escalation j

/-- The last transaction of a program that works on `job`. The programs change the status they
know, and nothing else of the job. -/
inductive JobEnd (env : Env) (now : Int) (job : Job) (s s' : Store) : Prop where
  | writes {due : Int} (h : JobWrites job.id due s s')
  | queues (status : JobStatus) {r : TerminalResult}
      (h : queueTerminalResult env.lib { job with status := status } r now s = .ok s')
  | begins (status : JobStatus) {pullNumber deadline : Int}
      {branch headSHA agentModel encoded : GoString}
      (h : beginCIWait env.lib { job with status := status } pullNumber branch headSHA agentModel
        deadline now encoded s = .ok s')

theorem JobEnd.refl (s : Store) : JobEnd env now job s s :=
  .writes (JobWrites.refl : JobWrites job.id now s s)

theorem JobEnd.of_status {status : JobStatus} {s s' : Store}
    (h : JobEnd env now { job with status := status } s s') : JobEnd env now job s s' := by
  cases h with
  | writes h => exact .writes h
  | queues status h => exact .queues status h
  | begins status h => exact .begins status h

/-- The program works on `job`. -/
abbrev WorksOn (env : Env) (now : Int) (job : Job) {α : Type} (p : Dispatch α) : Prop :=
  Conforms Request.Unescalating (fun s s' => ∃ due, JobWrites job.id due s s')
    (JobEnd env now job) p

theorem worksOn_worked {T : Store → Store → Prop}
    (h : ∀ s s', op s = .ok s' → JobEnd env now job s s') :
    Conforms Request.Unescalating T (JobEnd env now job)
      (commit op >>= fun r => pure (worked r) : Dispatch (Except GoError Bool)) :=
  conforms_last JobEnd.refl h fun _ => ⟨_, rfl⟩

/-- The last transaction of a reconciliation, and the status it reports. -/
theorem worksOn_settled {status : JobStatus}
    (h : ∀ s s', op s = .ok s' → JobEnd env now job s s') :
    WorksOn env now job (do
      match ← commit op with
      | .error e => return .error e
      | .ok () => return .ok status : Dispatch (Except GoError JobStatus)) := by
  refine conforms_last JobEnd.refl h fun r => ?_
  cases r <;> exact ⟨_, rfl⟩

theorem reconcilePreOutboxFailure_worksOn (recoverable : JobStatus) (stage : String)
    (failure : GoError) (retryable : Bool) :
    WorksOn env now job
      (reconcilePreOutboxFailure env job recoverable stage failure retryable now) := by
  unfold reconcilePreOutboxFailure
  refine conforms_atomic (fun _ => ⟨now, .refl⟩)
    (fun _ attempts _ h => ⟨⟨_, markPreOutboxFailure_writes h⟩, ?_⟩) fun _ => conforms_pure
  dsimp only
  split
  · exact conforms_pure
  · exact worksOn_settled fun _ _ h => .queues job.status h

theorem reconcileStatusFailure_worksOn (failure : GoError) :
    WorksOn env now job (reconcileStatusFailure env job failure now) := by
  unfold reconcileStatusFailure
  split
  · exact worksOn_settled fun _ _ h => .writes (deferRepositoryRunExternalResume_writes h)
  · exact reconcilePreOutboxFailure_worksOn _ _ _ _

theorem settleProjection_worksOn (projected : TerminalResult) :
    WorksOn env now job (settleProjection env job projected now) := by
  unfold settleProjection
  split
  · split
    · exact reconcilePreOutboxFailure_worksOn _ _ _ _
    · dsimp only
      split
      · exact reconcilePreOutboxFailure_worksOn _ _ _ _
      · exact worksOn_settled fun _ _ h => .begins job.status h
  · exact worksOn_settled fun _ _ h => .queues job.status h

theorem settleRun_worksOn (projects : Bool) (result : RunStatus) :
    WorksOn env now job (settleRun env projects job result now) := by
  unfold settleRun
  split
  · exact reconcilePreOutboxFailure_worksOn _ _ _ _
  · exact worksOn_settled fun _ _ h => .writes (markStatus_writes h)
  · split
    · refine conforms_request (fun j => by simp) fun answer => ?_
      split
      · exact reconcilePreOutboxFailure_worksOn _ _ _ _
      · split
        · exact reconcilePreOutboxFailure_worksOn _ _ _ _
        · split
          · exact reconcilePreOutboxFailure_worksOn _ _ _ _
          · exact settleProjection_worksOn _
    · exact reconcilePreOutboxFailure_worksOn _ _ _ _

theorem reconcileStatusResult_worksOn (projects : Bool) (result : RunStatus) :
    WorksOn env now job (reconcileStatusResult env projects job result now) := by
  unfold reconcileStatusResult
  split
  · exact reconcilePreOutboxFailure_worksOn _ _ _ _
  split
  · split
    · exact reconcilePreOutboxFailure_worksOn _ _ _ _
    · exact conforms_atomic (fun _ => ⟨now, .refl⟩)
        (fun _ _ _ h => ⟨⟨_, (recordRepositoryRunExternalWait_writes h).1⟩, conforms_pure⟩)
        fun _ => conforms_pure
  split
  · refine conforms_commit (fun _ => ⟨now, .refl⟩)
      (fun _ _ h => ⟨_, resumeExternalWait_writes h⟩) fun r => ?_
    cases r with
    | error e => exact conforms_pure
    | ok _ =>
      exact (settleRun_worksOn _ _).mono (fun _ h => h) (fun _ _ h => h) fun _ _ => JobEnd.of_status
  · exact settleRun_worksOn _ _

theorem resumeReadyWait_worksOn {wait : RepositoryRunExternalWait} (hwait : wait.jobID = job.id) :
    WorksOn env now job (resumeReadyWait env job wait now) := by
  have later : ∀ (due : Int) (failure : GoError), WorksOn env now job
      (commit (deferRepositoryRunExternalResume job due failure now) >>=
        fun r => pure (worked r) : Dispatch (Except GoError Bool)) :=
    fun _ _ => worksOn_worked fun _ _ h => .writes (deferRepositoryRunExternalResume_writes h)
  have resumed : WorksOn env now job (commit (markRepositoryRunExternalResumed wait now) >>=
      fun r => pure (worked r) : Dispatch (Except GoError Bool)) :=
    worksOn_worked fun _ _ h => .writes (hwait ▸ resumeExternalWait_writes h)
  unfold resumeReadyWait
  split
  · refine conforms_request (fun j => by simp) fun answer => ?_
    split
    · exact later _ _
    · split
      · exact later _ _
      · split
        · split
          · exact later _ _
          · exact resumed
        · exact resumed
  · exact later _ _

theorem runStatus_worksOn : WorksOn env now job (runStatus env job now) := by
  unfold runStatus
  refine conforms_request (fun j => by simp) fun answer => ?_
  split
  · split
    · exact worksOn_worked fun _ _ h => .writes (deferRepositoryRunExternalResume_writes h)
    · exact conforms_map (reconcileStatusFailure_worksOn _)
  · split
    · exact conforms_pure
    · split
      · split
        · exact conforms_map (reconcilePreOutboxFailure_worksOn _ _ _ _)
        · split
          · exact conforms_map (reconcilePreOutboxFailure_worksOn _ _ _ _)
          · refine conforms_atomic (fun _ => ⟨now, .refl⟩) (fun _ stored _ h => ?_)
              fun _ => conforms_pure
            obtain ⟨hwrites, hjob⟩ := recordRepositoryRunExternalWait_writes h
            refine ⟨⟨_, hwrites⟩, ?_⟩
            dsimp only
            split
            · exact resumeReadyWait_worksOn hjob
            · exact conforms_pure
      · exact conforms_map (reconcileStatusResult_worksOn _ _)

/-- A launch has no transaction but the last one. -/
theorem runLaunch_worksOn : Conforms Request.Unescalating (fun _ _ => False) (JobEnd env now job)
      (runLaunch env job now) := by
  unfold runLaunch
  split
  · exact worksOn_worked fun _ _ h => .queues job.status h
  · refine conforms_request (fun j => by simp) fun answer => ?_
    split
    · exact worksOn_worked fun _ _ h => .writes (markLaunched_writes h)
    · split
      · exact worksOn_worked fun _ _ h => .writes (markLaunchFailure_writes h)
      · exact worksOn_worked fun _ _ h => .queues job.status h

end SignalPlane.Dispatcher
