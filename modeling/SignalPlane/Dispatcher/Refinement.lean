/-
SignalPlane.Dispatcher.Refinement — the store operations follow the lifecycle.

For every transaction of a worker pass there is one job whose view changes by
lifecycle steps; no other view changes. The lemmas go through the operations
in the order of the source files. Each one inverts the operation, reads the
guard off the row it hit, and names the step.

The views of the store are well formed in every reachable state; that is used
where an operation updates a job row without looking at it and relies on the
foreign key.
-/
import SignalPlane.Dispatcher.Transaction
import SignalPlane.Dispatcher.Run

namespace SignalPlane.Dispatcher

open Clock

variable {policy : CIRepairPolicy} {lib : GoLib} {job : Job}
  {message failureClass key runID reason : GoString} {attempts due id k maxAttempts : Int}
  {t : CITaskRow} {observation : CIObservation} {attempt : CIRepairAttempt} {r : JobRow}
  {modelStarted retry : Bool} {wait : CIExternalWait} {failure : GoError}
  {stored : RepositoryRunExternalWait} {work : CIReconciliation} {e : EscalationRow}
  {streamSequence : Nat}

-- What the statements of an operation leave of a view is computed.
attribute [local simp] Store.view Store.hasTerminal Store.updateTask Store.updateJob
  Store.updateAttempt Store.updateReconciliation Store.setJobStatus Store.setTaskState
  Store.scheduleJob

section Operations

variable {fresh front : Prop} {s s' : Store} {now : Int}

/-! ## Launch and status -/

theorem markLaunched_evolves (hfront : front) (h : markLaunched id runID due now s = .ok s') :
    Evolves fresh front id s s' := by
  simp only [markLaunched, require_bind_eq_ok, expectOne_bind_eq_ok, pure_eq_ok] at h
  obtain ⟨hr, hhit, rfl⟩ := h
  obtain ⟨r, hrow, hq⟩ := Table.hits_iff.mp hhit
  exact .of_updateJob hrow hq rfl (.launch runID ((Store.view_queued hrow).mpr hq) hr hfront)

theorem markLaunchFailure_evolves (h : markLaunchFailure id true due message now s = .ok s') :
    Evolves fresh front id s s' := by
  simp only [markLaunchFailure, expectOne_bind_eq_ok, pure_eq_ok] at h
  obtain ⟨hhit, rfl⟩ := h
  obtain ⟨r, hrow, hq⟩ := Table.hits_iff.mp hhit
  refine .of_updateJob hrow hq rfl ?_
  rw [← Store.view_runID hrow]
  exact .retryLaunch ((Store.view_queued hrow).mpr hq)

theorem markStatus_evolves (hp : (s.view id).polled)
    (h : markStatus id .launched due message now s = .ok s') : Evolves fresh front id s s' := by
  simp only [markStatus, expectOne_bind_eq_ok, pure_eq_ok] at h
  obtain ⟨hhit, rfl⟩ := h
  obtain ⟨r, hrow, hr⟩ := Table.hits_iff.mp hhit
  refine .of_updateJob hrow hr rfl ?_
  rw [← Store.view_runID hrow]
  refine .poll .launched hp (.inl rfl) ?_
  rw [Store.view_status hrow]
  intro he
  simp [JobRow.isPollResult, Option.some.inj he] at hr

theorem markPreOutboxFailure_evolves {status : JobStatus}
    (h : markPreOutboxFailure id status due message now s = .ok (attempts, s')) :
    Evolves fresh front id s s' := by
  obtain ⟨hstatus, r, hrow, hr, hterminal, -, rfl⟩ := markPreOutboxFailure_ok.mp h
  have hp : (r.isPollResult && !s.hasTerminal r.id) = true := by
    simp only [Table.key_of_find? hrow, hr, hterminal, Bool.not_false, Bool.and_self]
  refine .of_updateJob hrow hp rfl ?_
  rw [← Store.view_runID hrow]
  simp only [JobRow.isPollResult, Bool.or_eq_true, decide_eq_true_eq] at hr
  refine .poll status ?_ (by tauto) ?_
  · rw [Store.view_polled hrow]
    tauto
  · rw [Store.view_status hrow]
    intro he
    simp [Option.some.inj he] at hr

theorem deferReportPending_view (h : deferReportPending id due now s = .ok s') :
    s'.view = s.view := by
  simp only [deferReportPending, expectOne_bind_eq_ok, pure_eq_ok] at h
  obtain ⟨_, rfl⟩ := h
  exact Store.view_update fun _ => ⟨rfl, rfl, rfl⟩

/-! ## Terminal results and reports -/

theorem queueTerminalResult_evolves {r : TerminalResult}
    (h : queueTerminalResult lib job r now s = .ok s') : Evolves fresh front job.id s s' := by
  obtain ⟨-, body, -, h⟩ := queueTerminalResult_ok.mp h
  generalize reportKey lib job r.version = key at h
  obtain ⟨hhit, rfl⟩ := storeTerminalResult_ok h
  obtain ⟨row, hrow, hr⟩ := Table.hits_iff.mp hhit
  have ht : (r.toRow job.id now).jobID = job.id := rfl
  have ho : (s.newOutboxRow job.id r.version body key now).jobID = job.id := rfl
  refine .of_step ?_ ?_ (.queueResult ?_)
  · intro j hj
    simp [hj, Table.find?_insert, ht, ho]
  · simp [hrow, hr, Table.find?_insert, ht, ho]
  · simp only [JobRow.acceptsResult, Bool.or_eq_true, decide_eq_true_eq] at hr
    simp only [JobView.acceptsResult, Store.view_status hrow, Store.view_queued hrow,
      Option.some.injEq]
    tauto

theorem JobRow.reporting_view {row : JobRow} (hrow : s.jobs.find? id = some row)
    (h : row.isReporting = true) : (s.view id).reporting := by
  simpa [JobRow.isReporting, JobView.reporting, hrow] using h

theorem deliveredStatus_mem (outcome : GoString) :
    deliveredStatus outcome ∈ [JobStatus.completed, .timedOut, .stopped, .cancelled, .failed] := by
  unfold deliveredStatus
  split <;> [simp; (split <;> [simp; (split <;> [simp; (split <;> simp)])])]

theorem markReportDelivered_evolves {report : Report} {url : GoString}
    (h : markReportDelivered report id url now s = .ok s') :
    Evolves fresh front report.jobID s s' := by
  simp only [markReportDelivered, require_bind_eq_ok] at h
  obtain ⟨_, h⟩ := h
  split at h
  · cases h
  · next terminal hterm =>
    simp only [require_bind_eq_ok, pure_eq_ok] at h
    obtain ⟨hhit, rfl⟩ := h
    obtain ⟨row, hrow, hr⟩ := Table.hits_iff.mp hhit
    refine .of_step ?_ ?_ (.reportDelivered _ (JobRow.reporting_view hrow hr) ?_
      (deliveredStatus_mem terminal.outcome))
    · intro j hj
      simp [hj]
    · simp [hrow, hr]
    · simp [hterm]

theorem markReportFailure_evolves {report : Report} {safe : GoString}
    (h : markReportFailure report retry safe now s = .ok s') :
    Evolves fresh front report.jobID s s' := by
  simp only [markReportFailure, require_bind_eq_ok, pure_eq_ok] at h
  obtain ⟨_, hhit, rfl⟩ := h
  obtain ⟨row, hrow, hr⟩ := Table.hits_iff.mp hhit
  refine .of_step ?_ ?_ (.reportFailed (if retry then .reportRetry else .reportBlocked)
    (JobRow.reporting_view hrow hr) (by cases retry <;> simp))
  · intro j hj
    simp [hj]
  · simp [hrow, hr]

/-! ## External waits -/

/-- A recorded wait is the first one, the stored one again, or a later generation. -/
theorem storeExternalWait_step {waits : Table ExternalWaitRow.jobID}
    (hwf : ∀ w, s.externalWaits.find? job.id = some w → w.brokerRunID = job.brokerRunID)
    (hfresh : fresh → ∀ w, s.externalWaits.find? job.id = some w →
      w.generation = wait.generation → w.state ≠ .resumed)
    (h : storeExternalWait policy job wait now s = .ok (stored, waits)) :
    (∀ j, j ≠ job.id → waits.find? j = s.externalWaits.find? j) ∧
      ∃ w, (waits.find? job.id).map ExternalWaitRow.view = some w ∧
        WaitStep fresh job.brokerRunID wait.generation
          ((s.externalWaits.find? job.id).map ExternalWaitRow.view) w := by
  unfold storeExternalWait at h
  dsimp only at h
  cases hrow : s.externalWaits.find? job.id with
  | none =>
    simp only [hrow, bind_eq_ok, pure_eq_ok, Prod.mk.injEq] at h
    obtain ⟨_, _, _, _, _, rfl⟩ := h
    refine ⟨fun j hj => Table.find?_insert_ne _ hj, _, ?_, .first⟩
    simp [hrow, ExternalWaitRow.view]
  | some row =>
    have hrun := hwf row hrow
    simp only [hrow, require_bind_eq_ok] at h
    obtain ⟨hstale, h⟩ := h
    split at h
    · next hgen =>
      simp only [require_bind_eq_ok, pure_eq_ok, Prod.mk.injEq] at h
      obtain ⟨_, _, rfl⟩ := h
      refine ⟨fun j _ => rfl, row.view, by simp [hrow], .replay hgen.symm hrun ?_⟩
      exact fun hs hf => hfresh hf row hrow hgen.symm hs
    · next hgen =>
      simp only [bind_eq_ok, pure_eq_ok, Prod.mk.injEq] at h
      obtain ⟨_, _, _, rfl⟩ := h
      refine ⟨fun j hj => Table.find?_updateKey_ne _ _ _ _ hj, ⟨job.brokerRunID, wait.generation,
        .waiting⟩, ?_, .next ?_ hrun⟩
      · simp [hrow, hrun, ExternalWaitRow.view]
      · show row.generation < wait.generation
        omega

theorem recordWait_evolves (hwf : (s.view job.id).WellFormed) (hc : Claimed now job s)
    (hp : (s.view job.id).polled) (hfresh : fresh → ∀ w, s.externalWaits.find? job.id = some w →
      w.generation = wait.generation → w.state ≠ .resumed)
    (h : recordRepositoryRunExternalWait policy job wait now s = .ok (stored, s')) :
    Evolves fresh front job.id s s' := by
  obtain ⟨row, hrow, _, hrun⟩ := hc.row
  simp only [recordRepositoryRunExternalWait, bind_eq_ok, pure_eq_ok, Prod.mk.injEq] at h
  obtain ⟨_, _, _, _, ⟨stored', waits⟩, hstore, _, rfl⟩ := h
  have hrunID : (s.view job.id).runID = job.brokerRunID := (Store.view_runID hrow).trans hrun
  -- The stored wait belongs to the job's run.
  have hwait : ∀ w, s.externalWaits.find? job.id = some w → w.brokerRunID = job.brokerRunID := by
    intro w hw
    have := hwf.waitRun w.view (by simp [hw])
    rwa [hrunID] at this
  obtain ⟨hothers, w, hw, hstep⟩ := storeExternalWait_step hwait hfresh hstore
  rw [← hrunID] at hstep
  refine .of_step ?_ ?_ (.wait wait.generation w hp hstep)
  · intro j hj
    simp [hj, hothers j hj]
  · simp [hrow, hrun, hw]

theorem deferResume_view (h : deferRepositoryRunExternalResume job due failure now s = .ok s') :
    s'.view = s.view := by
  simp only [deferRepositoryRunExternalResume, expectOne_bind_eq_ok, pure_eq_ok] at h
  obtain ⟨_, rfl⟩ := h
  exact Store.view_update fun _ => ⟨rfl, rfl, rfl⟩

/-- Both resume operations mark a ready wait resumed and the job launched. -/
theorem resumeExternalWait_evolves {p : ExternalWaitRow → Bool} {w j : String}
    (hp : ∀ r, p r = true → r.state = .resumeReady)
    (h : resumeExternalWait id runID p w j due now s = .ok s') : Evolves fresh front id s s' := by
  simp only [resumeExternalWait, expectOne_bind_eq_ok, pure_eq_ok] at h
  obtain ⟨hwait, hjob, rfl⟩ := h
  obtain ⟨wr, hwr, hpw⟩ := Table.hits_iff.mp hwait
  obtain ⟨r, hrow, hr⟩ := Table.hits_iff.mp hjob
  have hstatus : r.status = .externalWaiting := by
    simp only [JobRow.waitsOn, Bool.and_eq_true, decide_eq_true_eq] at hr
    exact hr.2
  refine .of_step ?_ ?_ (.resume wr.view ?_ ?_ (hp wr hpw))
  · intro j hj
    simp [hj]
  · simp [hrow, hr, hwr, hpw, ExternalWaitRow.view]
  · rw [Store.view_status hrow, hstatus]
  · simp [hwr]

theorem reconcileResume_evolves (h : reconcileRepositoryRunExternalResume job now s = .ok s') :
    Evolves fresh front job.id s s' := by
  refine resumeExternalWait_evolves (fun r hr => ?_) h
  simp only [Bool.and_eq_true, decide_eq_true_eq] at hr
  exact hr.2

/-! ## The CI lifecycle -/

/-- What `BeginCIWait` does to a polled job: it gets a task, and leaves its status only when it is
`launched`. -/
theorem beginCIWait_view {pullNumber deadline : Int} {branch headSHA agentModel encoded : GoString}
    (hp : (s.view job.id).polled)
    (h : beginCIWait lib job pullNumber branch headSHA agentModel deadline now encoded s = .ok s') :
    (∀ j, j ≠ job.id → s'.view j = s.view j) ∧
    s'.view job.id =
      { s.view job.id with
        status := if (s.view job.id).status = some .launched then some .ciWaiting
          else (s.view job.id).status
        task := some ((s.view job.id).task.getD .waitingCI) } := by
  simp only [beginCIWait, require_bind_eq_ok, pure_eq_ok] at h
  obtain ⟨_, _, _, rfl⟩ := h
  have htask : (newTask job pullNumber branch headSHA agentModel deadline now encoded).jobID =
      job.id := rfl
  refine ⟨?_, ?_⟩
  · intro j hj
    simp [hj, Table.find?_insert, htask]
  · obtain ⟨status, hst⟩ : ∃ status, (s.view job.id).status = some status := by
      rcases hp with h | h | ⟨h, _⟩ <;> exact ⟨_, h⟩
    obtain ⟨r, hrow, rfl⟩ := Store.row_of_view hst
    -- The guard of the job update also admits a job that waits already, which is not polled.
    have hci : r.status ≠ .ciWaiting := by
      rw [Store.view_polled hrow] at hp
      rcases hp with h | h | ⟨h, _⟩ <;> simp [h]
    by_cases hl : r.status = .launched
    · cases ht : s.ciTasks.find? job.id <;>
        simp [hrow, hl, ht, JobRow.entersCIWait, newTask]
    · cases ht : s.ciTasks.find? job.id <;>
        simp [hrow, hl, hci, ht, JobRow.entersCIWait, newTask]

theorem beginCIWait_evolves {pullNumber deadline : Int}
    {branch headSHA agentModel encoded : GoString} (hp : (s.view job.id).polled)
    (h : beginCIWait lib job pullNumber branch headSHA agentModel deadline now encoded s = .ok s') :
    Evolves fresh front job.id s s' :=
  .of_step (beginCIWait_view hp h).1 (beginCIWait_view hp h).2 (.enterCI hp)

/-- What the end of an observation or of a repair makes of a job with a CI task. -/
inductive CISettles (v : JobView) : JobView → Prop where
  | outcome {status : JobStatus} {state : CITaskState} (h : CIOutcome status state) :
      CISettles v { v with status := some status, task := some state }
  | escalation :
      CISettles v
        { v with
          status := some .ciEscalation
          task := some .escalationPending
          escalation := some (v.escalation.getD .pending) }

theorem CISettles.step {v v' : JobView} (ht : v.task ≠ none) (h : CISettles v v') :
    LifecycleStep fresh front v v' := by
  cases h with
  | outcome h => exact .ci ht h
  | escalation => exact .escalate ht

/-- The state the task had before does not matter. -/
theorem CISettles.of_task {v v' : JobView} {task : Option CITaskState}
    (h : CISettles { v with task := task } v') : CISettles v v' := by
  cases h with
  | outcome h => exact .outcome h
  | escalation => exact .escalation

/-- The job of an operation that settles its CI task. -/
structure Settles (k : Int) (s s' : Store) : Prop where
  others : ∀ j, j ≠ k → s'.view j = s.view j
  settles : CISettles (s.view k) (s'.view k)

theorem Settles.evolves (h : Settles k s s') (ht : (s.view k).task ≠ none) :
    Evolves fresh front k s s' :=
  ⟨h.others, .single (h.settles.step ht)⟩

/-- A CI task belongs to a job. -/
theorem row_of_task (hwf : (s.view k).WellFormed) (ht : s.ciTasks.find? k = some t) :
    ∃ r, s.jobs.find? k = some r := by
  cases hr : s.jobs.find? k with
  | some r => exact ⟨r, rfl⟩
  | none =>
    have hnone := hwf.absent (by simp [hr])
    have htask : (s.view k).task = some t.state := by simp [ht]
    rw [hnone] at htask
    cases htask

theorem queueCIEscalation_ok
    (h : queueCIEscalation k observation attempts maxAttempts reason now s = .ok s') :
    (∃ t, s.ciTasks.find? k = some t) ∧ ∃ body,
      s' = ({ s with escalations := s.escalations.insert (newEscalation k body now) }.setTaskState k
        .escalationPending now).setJobStatus k .ciEscalation now := by
  simp only [queueCIEscalation, bind_eq_ok, require_eq_ok, pure_eq_ok] at h
  obtain ⟨body, _, _, htask, rfl⟩ := h
  exact ⟨Option.isSome_iff_exists.mp htask, body, rfl⟩

theorem queueCIEscalation_settles (hrow : s.jobs.find? k = some r)
    (h : queueCIEscalation k observation attempts maxAttempts reason now s = .ok s') :
    Settles k s s' := by
  obtain ⟨⟨t, ht⟩, body, rfl⟩ := queueCIEscalation_ok h
  have hkey : (newEscalation k body now).jobID = k := rfl
  refine ⟨?_, ?_⟩
  · intro j hj
    simp [hj, Table.find?_insert, hkey]
  · have hview := CISettles.escalation (v := s.view k)
    convert hview using 1
    cases he : s.escalations.find? k <;>
      simp [hrow, ht, he, newEscalation]

theorem queueCIEscalation_evolves (hwf : (s.view k).WellFormed)
    (h : queueCIEscalation k observation attempts maxAttempts reason now s = .ok s') :
    Evolves fresh front k s s' := by
  obtain ⟨⟨t, ht⟩, _⟩ := queueCIEscalation_ok h
  obtain ⟨r, hrow⟩ := row_of_task hwf ht
  exact (queueCIEscalation_settles hrow h).evolves (by simp [ht])

theorem failCIReconciliation_evolves (hwf : (s.view work.task.jobID).WellFormed)
    (h : failCIReconciliation policy work failure retry now s = .ok s') :
    Evolves fresh front work.task.jobID s s' := by
  simp only [failCIReconciliation, require_bind_eq_ok] at h
  obtain ⟨_, h⟩ := h
  split at h
  · simp only [expectOne_bind_eq_ok, pure_eq_ok] at h
    obtain ⟨_, rfl⟩ := h
    exact .of_view_eq rfl
  · simp only [expectOne_bind_eq_ok] at h
    obtain ⟨_, h⟩ := h
    split at h
    · simp only [pure_eq_ok] at h
      subst h
      refine .of_view_eq ((Store.view_updateJob ?_).trans (Store.view_updateTask ?_))
      · exact fun _ => ⟨rfl, rfl, rfl⟩
      · exact fun _ => rfl
    · refine Evolves.trans ?_ (queueCIEscalation_evolves ?_ h)
      · exact .of_view_eq rfl
      · exact hwf

/-- Recording an observation changes no view but the task state of its job. -/
theorem recordObservation_view (s : Store) (lib : GoLib) (work : CIReconciliation)
    (observation : CIObservation) (encoded : GoString) (task : CITaskRow) (now : Int) :
    (∀ j, j ≠ work.task.jobID →
      (s.recordObservation lib work observation encoded task now).view j = s.view j) ∧
    ∃ state, (s.recordObservation lib work observation encoded task now).view work.task.jobID =
      { s.view work.task.jobID with task := state } := by
  unfold Store.recordObservation
  dsimp only
  split
  · refine ⟨fun j hj => ?_, (s.view work.task.jobID).task, ?_⟩
    · simp [hj]
    · cases ht : s.ciTasks.find? work.task.jobID <;>
        simp [ht]
  · refine ⟨fun j hj => ?_, (s.view work.task.jobID).task.map fun _ => .waitingCI, ?_⟩
    · simp [hj]
    · cases ht : s.ciTasks.find? work.task.jobID <;>
        simp [ht]

theorem recordObservation_jobs (s : Store) (lib : GoLib) (work : CIReconciliation)
    (observation : CIObservation) (encoded : GoString) (task : CITaskRow) (now : Int) :
    (s.recordObservation lib work observation encoded task now).jobs = s.jobs := by
  unfold Store.recordObservation
  dsimp only
  split <;> rfl

/-- The task after an observation is recorded. -/
theorem recordObservation_task (lib : GoLib) (work : CIReconciliation) (observation : CIObservation)
    (encoded : GoString) (task : CITaskRow) (now : Int)
    (ht : s.ciTasks.find? work.task.jobID = some t) :
    ∃ t', (s.recordObservation lib work observation encoded task now).ciTasks.find?
      work.task.jobID = some t' := by
  unfold Store.recordObservation
  dsimp only
  split <;> simp [ht]

theorem settleObservation_settles {task : CITaskRow} (hrow : s.jobs.find? k = some r)
    (ht : s.ciTasks.find? k = some t)
    (h : settleObservation policy k observation task maxAttempts now s = .ok s') :
    Settles k s s' := by
  -- In the branches without an escalation the job and its task get a new state.
  have settled : ∀ {s' : Store} {status : JobStatus} {state : CITaskState},
      CIOutcome status state → (∀ j, j ≠ k → s'.view j = s.view j) →
      s'.view k = { s.view k with status := some status, task := some state } → Settles k s s' := by
    intro s' status state ho hothers hk
    exact ⟨hothers, hk ▸ .outcome ho⟩
  unfold settleObservation at h
  split at h
  · cases h
    refine settled .completed (fun j hj => ?_) ?_
    · simp [hj]
    · simp [hrow, ht]
  · split at h
    · exact queueCIEscalation_settles hrow h
    · split at h
      · exact queueCIEscalation_settles hrow h
      · split at h
        · cases h
          refine settled .waiting (fun j hj => ?_) ?_
          · simp [hj]
          · simp [hrow, ht]
        · simp only [bind_eq_ok, pure_eq_ok] at h
          obtain ⟨_, _, rfl⟩ := h
          refine settled .repair (fun j hj => ?_) ?_
          · simp [hj]
          · simp [hrow, ht]

theorem applyCIObservation_evolves (hwf : (s.view work.task.jobID).WellFormed)
    (h : applyCIObservation lib policy work observation maxAttempts now s = .ok s') :
    Evolves fresh front work.task.jobID s s' := by
  simp only [applyCIObservation, require_bind_eq_ok] at h
  obtain ⟨_, _, _, h⟩ := h
  split at h
  · cases h
  · next encoded _ =>
    split at h
    · cases h
    · next task htask =>
      split at h
      · cases h
        exact .of_view_eq rfl
      · obtain ⟨r, hrow⟩ := row_of_task hwf htask
        obtain ⟨hothers, state, hview⟩ :=
          recordObservation_view s lib work observation encoded task now
        obtain ⟨t', ht'⟩ := recordObservation_task lib work observation encoded task now htask
        obtain ⟨hothers', hsettles⟩ := settleObservation_settles
          (by rw [recordObservation_jobs]; exact hrow) ht' h
        rw [hview] at hsettles
        refine Settles.evolves ⟨fun j hj => ?_, hsettles.of_task⟩ (by simp [htask])
        exact (hothers' j hj).trans (hothers j hj)

/-! ## Repair attempts -/

theorem bindCIRepairRun_evolves (h : bindCIRepairRun attempt runID now s = .ok s') :
    Evolves fresh front attempt.jobID s s' := by
  simp only [bindCIRepairRun, require_bind_eq_ok] at h
  obtain ⟨_, h⟩ := h
  split at h
  · cases h
  · simp only [require_bind_eq_ok, pure_eq_ok] at h
    obtain ⟨_, rfl⟩ := h
    by_cases hb : (s.view attempt.jobID).task = some .repairReady ∨
        (s.view attempt.jobID).task = some .repairRunning
    · refine .of_step ?_ ?_ (.bindRepair hb)
      · intro j hj
        simp [hj]
      · cases ht : s.ciTasks.find? attempt.jobID with
        | none => simp [ht] at hb
        | some t =>
          have hguard : t.state = .repairReady ∨ t.state = .repairRunning := by
            simpa [ht] using hb
          simp [ht, hguard]
    · -- The task update misses its row, and nobody checks.
      refine .of_view_eq (funext fun j => ?_)
      by_cases hj : j = attempt.jobID
      · subst hj
        cases ht : s.ciTasks.find? attempt.jobID with
        | none =>
          simp [ht]
        | some t =>
          have hguard : ¬ (t.state = .repairReady ∨ t.state = .repairRunning) := by
            simpa [ht] using hb
          simp [ht, hguard]
      · simp [hj]

theorem Follows.view (h : Follows due s s') : s'.view = s.view := by
  induction h with
  | refl => rfl
  | update _ _ ih => exact ih

theorem continueAfterFailure_settles {task : CITaskRow} {repairAttempts : Int}
    (hrow : s.jobs.find? task.jobID = some r) (ht : s.ciTasks.find? task.jobID = some t)
    (h : continueAfterFailure lib policy attempt task failureClass modelStarted repairAttempts
      maxAttempts now s = .ok s') : Settles task.jobID s s' := by
  unfold continueAfterFailure at h
  split at h
  · dsimp only at h
    split at h <;> exact queueCIEscalation_settles hrow h
  · simp only [bind_eq_ok, pure_eq_ok] at h
    obtain ⟨_, _, _, _, rfl⟩ := h
    refine ⟨fun j hj => ?_, ?_⟩
    · simp [hj]
    · have hview := CISettles.outcome (v := s.view task.jobID) .repair
      convert hview using 1
      simp [hrow, ht]

section FailAttempt

variable {detail : GoString} {task : CITaskRow} {charges : Bool} {repairAttempts : Int}

/-- Charging an attempt and marking it failed changes no view. -/
theorem failAttempt_view :
    (s.failAttempt key task charges repairAttempts failureClass detail now).view = s.view := by
  cases charges with
  | false => rfl
  | true =>
    have hcharge : (s.updateTask task.jobID (fun _ => true)
        (fun t => { t with repairAttempts := repairAttempts, updatedAt := unixMilli now })
        (fun _ => rfl)).view = s.view := Store.view_updateTask fun _ => rfl
    exact hcharge

theorem failAttempt_jobs :
    (s.failAttempt key task charges repairAttempts failureClass detail now).jobs = s.jobs := by
  cases charges <;> rfl

theorem failAttempt_task (ht : s.ciTasks.find? id = some t) :
    ∃ t', (s.failAttempt key task charges repairAttempts failureClass detail now).ciTasks.find? id =
      some t' := by
  cases charges <;>
    simp [Store.failAttempt, Table.updateKey, ht]

end FailAttempt

theorem finishCIRepairFailure_evolves {detail : GoString} (hwf : ∀ j, (s.view j).WellFormed)
    (h : finishCIRepairFailure lib policy attempt failureClass modelStarted detail maxAttempts now
      s = .ok s') : ∃ k, ∀ front, Evolves fresh front k s s' := by
  simp only [finishCIRepairFailure, require_bind_eq_ok] at h
  obtain ⟨_, _, h⟩ := h
  split at h
  · cases h
  · next row hrow =>
    split at h
    · cases h
    · next task htask =>
      split at h
      · simp only [require_bind_eq_ok] at h
        cases h.2
        exact ⟨0, fun _ => .of_view_eq rfl⟩
      · simp only [require_bind_eq_ok] at h
        obtain ⟨_, _, h⟩ := h
        have hkey : task.jobID = row.jobID := Table.key_of_find? htask
        rw [← hkey] at htask
        obtain ⟨r, hr⟩ := row_of_task (hwf task.jobID) htask
        obtain ⟨t, ht⟩ := failAttempt_task htask
        have hsettles := continueAfterFailure_settles (failAttempt_jobs ▸ hr) ht h
        refine ⟨task.jobID, fun _ =>
          Evolves.trans (.of_view_eq failAttempt_view) (hsettles.evolves ?_)⟩
        rw [failAttempt_view]
        simp [htask]

theorem chargeCIRepairAttempt_view (h : chargeCIRepairAttempt key now s = .ok s') :
    s'.view = s.view := by
  unfold chargeCIRepairAttempt at h
  split at h
  · cases h
  · simp only [require_bind_eq_ok] at h
    obtain ⟨_, h⟩ := h
    split at h
    · cases h
      rfl
    · simp only [expectOne_bind_eq_ok] at h
      cases h.2
      refine (Store.view_updateTask ?_).trans rfl
      exact fun _ => rfl

theorem completeCIRepairDelivery_evolves {delivery : CIRepairDelivery}
    (hwf : ∀ j, (s.view j).WellFormed) (ht : TaskOf key s)
    (h : completeCIRepairDelivery policy key delivery now s = .ok s') :
    ∃ k, ∀ front, Evolves fresh front k s s' := by
  simp only [completeCIRepairDelivery, require_bind_eq_ok] at h
  obtain ⟨_, _, h⟩ := h
  split at h
  · cases h
  · next a ha =>
    simp only [require_bind_eq_ok] at h
    obtain ⟨_, h⟩ := h
    split at h
    · simp only [require_bind_eq_ok] at h
      cases h.2
      exact ⟨0, fun _ => .of_view_eq rfl⟩
    · simp only [require_bind_eq_ok, pure_eq_ok] at h
      obtain ⟨_, rfl⟩ := h
      obtain ⟨t, htask⟩ := Option.isSome_iff_exists.mp (ht a ha)
      obtain ⟨r, hrow⟩ := row_of_task (hwf a.jobID) htask
      refine ⟨a.jobID, fun _ => .of_step ?_ ?_ (.ci ?_ .waiting)⟩
      · intro j hj
        simp [hj]
      · simp [hrow, htask]
      · simp [htask]

/-! ## Escalations -/

/-- An escalation belongs to a job with a CI task. -/
theorem rows_of_escalation (hwf : (s.view k).WellFormed) (he : s.escalations.find? k = some e) :
    ∃ r t, s.jobs.find? k = some r ∧ s.ciTasks.find? k = some t := by
  have htask : (s.view k).task ≠ none := hwf.escalation (by simp [he])
  cases ht : s.ciTasks.find? k with
  | none => simp [ht] at htask
  | some t =>
    obtain ⟨r, hr⟩ := row_of_task hwf ht
    exact ⟨r, t, hr, rfl⟩

theorem EscalationRow.pending_view {report : CIEscalationReport}
    (he : s.escalations.find? k = some e) (h : e.isPendingFor report = true) :
    (s.view k).escalation = some .pending := by
  simp only [EscalationRow.isPendingFor, Bool.and_eq_true, decide_eq_true_eq] at h
  simp [he, h.2]

theorem markCIEscalationDelivered_evolves {report : CIEscalationReport} {result : CommentResult}
    (hwf : (s.view report.job.id).WellFormed)
    (h : markCIEscalationDelivered lib report result now s = .ok s') :
    Evolves fresh front report.job.id s s' := by
  simp only [markCIEscalationDelivered, require_bind_eq_ok, expectOne_bind_eq_ok, pure_eq_ok] at h
  obtain ⟨_, hhit, rfl⟩ := h
  obtain ⟨e, he, hp⟩ := Table.hits_iff.mp hhit
  obtain ⟨r, t, hrow, ht⟩ := rows_of_escalation hwf he
  refine .of_step ?_ ?_ (.escalated (EscalationRow.pending_view he hp))
  · intro j hj
    simp [hj]
  · by_cases hs : t.state = .escalationPending <;>
      simp [hrow, ht, he, hp, hs]

theorem markCIEscalationFailure_evolves {report : CIEscalationReport}
    (hwf : (s.view report.job.id).WellFormed)
    (h : markCIEscalationFailure report retry message now s = .ok s') :
    Evolves fresh front report.job.id s s' := by
  simp only [markCIEscalationFailure, expectOne_bind_eq_ok] at h
  obtain ⟨hhit, h⟩ := h
  obtain ⟨e, he, hp⟩ := Table.hits_iff.mp hhit
  obtain ⟨r, t, hrow, ht⟩ := rows_of_escalation hwf he
  split at h
  · -- The row stays pending, only later.
    cases h
    have hpending : e.state = .pending := by
      simp only [EscalationRow.isPendingFor, Bool.and_eq_true, decide_eq_true_eq] at hp
      exact hp.2
    refine .of_view_eq (funext fun j => ?_)
    by_cases hj : j = report.job.id
    · subst hj
      simp [he, hp, hpending]
    · simp [hj]
  · cases h
    refine .of_step ?_ ?_ (.escalationBlocked (EscalationRow.pending_view he hp))
    · intro j hj
      simp [hj]
    · by_cases hs : t.state = .escalationPending <;>
        simp [hrow, ht, he, hp, hs]

end Operations

/-! ## Transactions -/

section Transactions

variable {env : Env} {now : Int} {fresh : Prop} {s s' : Store}

theorem claimDue_view {work : Option Work} (h : claimDue now s = .ok (work, s')) :
    s'.view = s.view := by
  obtain ⟨_, rfl⟩ | ⟨r, _, _, ⟨_, _, rfl⟩ | ⟨_, _, rfl⟩⟩ := claimDue_cases h
  · rfl
  · rfl
  · exact Store.view_updateJob fun _ => ⟨rfl, rfl, rfl⟩

/-- Every transaction follows the lifecycle of one job; only the first in line is launched. -/
theorem Transaction.evolves (hwf : ∀ j, (s.view j).WellFormed)
    (h : Transaction env now fresh s s') : ∃ k, Evolves fresh (s.line.First k) k s s' := by
  have same : ∀ {s' : Store}, s'.view = s.view → ∃ k, Evolves fresh (s.line.First k) k s s' :=
    fun hview => ⟨0, .of_view_eq hview⟩
  cases h with
  | claimDue h => exact same (claimDue_view h)
  | claimCIReconciliation h =>
    obtain ⟨rs, rfl⟩ := claimCIReconciliation_store h
    exact same rfl
  | claimCIRepair h => exact same (claimCIRepair_follows 0 h).view
  | claimCIRepairStatus h => exact same (claimCIRepairStatus_follows h).view
  | markLaunched hc h => exact ⟨_, markLaunched_evolves hc.first h⟩
  | markLaunchFailure hc h => exact ⟨_, markLaunchFailure_evolves h⟩
  | queueTerminalResult h => exact ⟨_, queueTerminalResult_evolves h⟩
  | markStatus hp h => exact ⟨_, markStatus_evolves hp h⟩
  | markPreOutboxFailure h => exact ⟨_, markPreOutboxFailure_evolves h⟩
  | deferReportPending h => exact same (deferReportPending_view h)
  | recordWait hc hp hfresh h => exact ⟨_, recordWait_evolves (hwf _) hc hp hfresh h⟩
  | deferResume _ h => exact same (deferResume_view h)
  | markResumed h =>
    refine ⟨_, resumeExternalWait_evolves (fun r hr => ?_) h⟩
    simp only [Bool.and_eq_true, decide_eq_true_eq] at hr
    exact hr.2
  | reconcileResume _ h => exact ⟨_, reconcileResume_evolves h⟩
  | beginCIWait hp h => exact ⟨_, beginCIWait_evolves hp h⟩
  | failCIReconciliation h => exact ⟨_, failCIReconciliation_evolves (hwf _) h⟩
  | applyCIObservation _ h => exact ⟨_, applyCIObservation_evolves (hwf _) h⟩
  | bindCIRepairRun h => exact ⟨_, bindCIRepairRun_evolves h⟩
  | deferAttempt _ h => exact same (deferAttempt_follows h).view
  | scheduleCIRepairStatus h => exact same (scheduleCIRepairStatus_follows h).view
  | recordCIRepairExternalWait h => exact same (recordCIRepairExternalWait_follows 0 h).view
  | markCIRepairExternalResumed h => exact same (markCIRepairExternalResumed_follows h).view
  | finishCIRepairFailure h =>
    obtain ⟨k, hk⟩ := finishCIRepairFailure_evolves hwf h
    exact ⟨k, hk _⟩
  | chargeCIRepairAttempt h => exact same (chargeCIRepairAttempt_view h)
  | completeCIRepairDelivery ht h =>
    obtain ⟨k, hk⟩ := completeCIRepairDelivery_evolves hwf ht h
    exact ⟨k, hk _⟩
  | markCIEscalationDelivered h => exact ⟨_, markCIEscalationDelivered_evolves (hwf _) h⟩
  | markCIEscalationFailure h => exact ⟨_, markCIEscalationFailure_evolves (hwf _) h⟩
  | markReportDelivered h => exact ⟨_, markReportDelivered_evolves h⟩
  | markReportFailure h => exact ⟨_, markReportFailure_evolves h⟩

/-- Every view stays well formed when one job evolves. -/
theorem Evolves.wellFormed {front : Prop} (h : Evolves fresh front k s s')
    (hwf : ∀ j, (s.view j).WellFormed) : ∀ j, (s'.view j).WellFormed := by
  intro j
  by_cases hj : j = k
  · subst hj
    exact h.steps.preserve (fun _ _ hv hs => hs.wellFormed hv) (hwf j)
  · rw [h.others j hj]
    exact hwf j

theorem Transactions.wellFormed (h : Transactions env now fresh s s')
    (hwf : ∀ j, (s.view j).WellFormed) : ∀ j, (s'.view j).WellFormed := by
  induction h with
  | refl => exact hwf
  | tail _ hstep ih =>
    obtain ⟨k, hk⟩ := hstep.evolves ih
    exact hk.wellFormed ih

end Transactions

/-! ## Deliveries -/

section Deliveries

variable {now : Int} {s s' : Store}

/-- What a delivery does to the jobs: nothing, a wake of waiting jobs, or a new job behind all
others. -/
inductive DeliveryStep (s s' : Store) : Prop where
  | same (h : s'.view = s.view)
  | wake (h : ∀ j, s'.view j = s.view j ∨ ∃ w, (s.view j).status = some .externalWaiting ∧
      (s.view j).wait = some w ∧ w.state ≠ .resumed ∧
      s'.view j = { s.view j with wait := some { w with state := .resumeReady } })
  | arrive (k t : Int) (others : ∀ j, j ≠ k → s'.view j = s.view j)
      (new : (s.view k).status = none) (last : ∀ j, (s.view j).status ≠ none → j < k)
      (h : s'.view k = { s.view k with status := some .pendingLaunch, createdAt := t, runID := [] })

theorem wakeTask_view (signal : Signal) (acc : Bool × Store) (t : CITaskRow) :
    (wakeTask signal now acc t).2.view = acc.2.view := by
  unfold wakeTask
  split
  split <;> rfl

theorem recordCIEvent_view {signal : Signal} {b : Bool}
    (h : recordCIEvent lib signal now s = .ok (b, s')) : s'.view = s.view := by
  have fold : ∀ (targets : List CITaskRow) (acc : Bool × Store),
      (targets.foldl (wakeTask signal now) acc).2.view = acc.2.view := by
    intro targets
    induction targets with
    | nil => exact fun _ => rfl
    | cons t targets ih => exact fun acc => (ih _).trans (wakeTask_view signal acc t)
  simp only [recordCIEvent, require_bind_eq_ok] at h
  obtain ⟨_, h⟩ := h
  split at h
  · cases h
    rfl
  · simp only [bind_eq_ok] at h
    obtain ⟨_, _, h⟩ := h
    split at h
    · cases h
      rfl
    · simp only [pure_eq_ok] at h
      have hview := congrArg (fun acc : Bool × Store => acc.2.view) h
      simp only [fold] at hview
      exact hview.symm

theorem recordWake_step {signal : Signal} {b : Bool}
    (h : recordRepositoryRunExternalWake lib signal now s = .ok (b, s')) : DeliveryStep s s' := by
  unfold recordRepositoryRunExternalWake at h
  split at h
  · cases h
    exact .same rfl
  · next issueNumber _ =>
    dsimp only at h
    split at h
    · cases h
      refine .wake fun j => ?_
      -- A row changes only for a job that awaits the issue and whose wait was not resumed.
      cases hw : s.externalWaits.find? j with
      | none =>
        refine .inl ?_
        cases hr : s.jobs.find? j with
        | none => simp [hw, hr]
        | some r =>
          cases ha : r.awaitsIssue signal.nameSpace issueNumber <;>
            simp [hw, hr, ha]
      | some w =>
        have hkey : w.jobID = j := Table.key_of_find? hw
        cases hr : s.jobs.find? j with
        | none => exact .inl (by simp [hw, hr, hkey])
        | some r =>
          cases ha : r.awaitsIssue signal.nameSpace issueNumber with
          | false => exact .inl (by simp [hw, hr, hkey, ha])
          | true =>
            by_cases hs : w.state = .resumed
            · exact .inl (by simp [hw, hr, hkey, ha, hs])
            · refine .inr ⟨w.view, ?_, by simp [hw], hs, ?_⟩
              · simp only [JobRow.awaitsIssue, Bool.and_eq_true, decide_eq_true_eq] at ha
                rw [Store.view_status hr, ha.2]
              · have hopen : w.state = .waiting ∨ w.state = .resumeReady := by
                  cases hst : w.state <;> simp_all
                simp [hw, hr, hkey, ha, hopen, ExternalWaitRow.view]
    · cases h
      exact .same rfl

theorem insertJob_step (c : Candidate) : DeliveryStep s (s.insertJob c now) := by
  unfold Store.insertJob
  split
  · exact .same rfl
  · -- The id is new: it is larger than every id in use.
    have hnew : ∀ r ∈ s.jobs.rows, r.id < nextID (s.jobs.rows.map JobRow.id) :=
      fun r hr => lt_nextID (List.mem_map_of_mem hr)
    have habsent : s.jobs.find? (nextID (s.jobs.rows.map JobRow.id)) = none :=
      Table.find?_eq_none.mpr fun r hr he => by have := hnew r hr; omega
    refine .arrive (nextID (s.jobs.rows.map JobRow.id)) (unixMilli now) ?_ ?_ ?_ ?_
    · intro j hj
      simp [Table.find?_insert, hj]
    · simp [habsent]
    · intro j hj
      cases hr : s.jobs.find? j with
      | none => simp [hr] at hj
      | some r =>
        have := hnew r (Table.mem_of_find? hr)
        rwa [Table.key_of_find? hr] at this
    · simp [habsent]

/-- A delivery step is about the views only. -/
theorem DeliveryStep.congr {t t' : Store} (h : DeliveryStep s s') (hs : t.view = s.view)
    (hs' : t'.view = s'.view) : DeliveryStep t t' := by
  cases h with
  | same h => exact .same (by rw [hs, hs', h])
  | wake h => exact .wake (by rw [hs, hs']; exact h)
  | arrive k c others new last h =>
    refine .arrive k c ?_ ?_ ?_ ?_ <;> (try rw [hs']) <;> rw [hs] <;> assumption

theorem record_step {recoveryID deliveryID outcome : GoString} {candidate : Option Candidate}
    (h : record recoveryID deliveryID outcome streamSequence candidate now s = .ok s') :
    DeliveryStep s s' := by
  have hjobs := record_jobs h
  obtain ⟨_, jobs, _, _, rfl⟩ := record_frame h
  rcases hjobs with rfl | ⟨c, rfl⟩
  · exact .same rfl
  · have hstep : DeliveryStep s (s.insertJob c now) := insertJob_step c
    refine hstep.congr rfl ?_
    unfold Store.insertJob
    split <;> rfl

/-- A delivery makes such steps and asks nothing. -/
theorem process_steps (env : Env) (o : BrokerAnswers) (recoveryID : GoString) (delivery : Delivery)
    (now : Int) (s : Store) :
    Workflow.Post (fun _ _ => False) o (process env recoveryID delivery now) s
      (fun _ s' => Relation.ReflTransGen DeliveryStep s s') := by
  refine Workflow.post_mono (process_path env o recoveryID delivery now s) ?_
  rintro _ s' ⟨s1, s2, hevent, hwake, hrecorded⟩
  have h1 : Relation.ReflTransGen DeliveryStep s s1 := by
    rcases hevent with rfl | ⟨signal, b, -, -, -, h⟩
    · exact .refl
    · exact .single (.same (recordCIEvent_view h))
  have h2 : Relation.ReflTransGen DeliveryStep s s2 := by
    rcases hwake with rfl | ⟨signal, b, -, h⟩
    · exact h1
    · exact h1.tail (recordWake_step h)
  rcases hrecorded with rfl | ⟨signal, streamSequence, -, -, h⟩
  · exact h2
  · exact h2.tail (record_step h)

/-- A delivery follows the lifecycle of every job and launches none, or the job is new. -/
theorem DeliveryStep.steps {fresh : Prop} (hwf : ∀ j, (s.view j).WellFormed)
    (h : DeliveryStep s s') (j : Int) :
    LifecycleSteps fresh False (s.view j) (s'.view j) ∨ ∃ t, s'.view j = .arrived t := by
  cases h with
  | same h => rw [h]; exact .inl .refl
  | wake h =>
    rcases h j with h | ⟨w, hs, hw, hne, h⟩
    · rw [h]; exact .inl .refl
    · rw [h]; exact .inl (.single (.wake w hs hw hne))
  | arrive k t others new last h =>
    by_cases hj : j = k
    · subst hj
      rw [h, (hwf j).absent new]
      exact .inr ⟨t, rfl⟩
    · rw [others j hj]; exact .inl .refl

end Deliveries

/-! ## Runs -/

section Runs

variable {env : Env} {fresh : Prop} {s s' : Store} {I : JobView → Prop}

/-- A property of single jobs that every lifecycle step keeps is kept by a pass. -/
theorem Transactions.view_invariant {now : Int}
    (hI : ∀ front v v', v.WellFormed → I v → LifecycleStep fresh front v v' → I v')
    (h : Transactions env now fresh s s') (hs : ∀ j, (s.view j).WellFormed ∧ I (s.view j)) :
    ∀ j, (s'.view j).WellFormed ∧ I (s'.view j) := by
  induction h with
  | refl => exact hs
  | tail _ hstep ih =>
    obtain ⟨k, hk⟩ := hstep.evolves fun j => (ih j).1
    intro j
    by_cases hj : j = k
    · subst hj
      exact LifecycleSteps.preserve (I := fun v => v.WellFormed ∧ I v)
        (fun v v' hv hs => ⟨hs.wellFormed hv.1, hI _ v v' hv.1 hv.2 hs⟩) hk.steps (ih j)
    · rw [hk.others j hj]
      exact ih j

/-- The same for a delivery, which may also create a job. -/
theorem DeliverySteps.view_invariant (hnew : ∀ t, I (.arrived t))
    (hI : ∀ front v v', v.WellFormed → I v → LifecycleStep fresh front v v' → I v')
    (h : Relation.ReflTransGen DeliveryStep s s') (hs : ∀ j, (s.view j).WellFormed ∧ I (s.view j)) :
    ∀ j, (s'.view j).WellFormed ∧ I (s'.view j) := by
  induction h with
  | refl => exact hs
  | tail _ hstep ih =>
    intro j
    rcases hstep.steps (fun j => (ih j).1) j with hsteps | ⟨t, ht⟩
    · exact LifecycleSteps.preserve (I := fun v => v.WellFormed ∧ I v)
        (fun v v' hv hs => ⟨hs.wellFormed hv.1, hI False v v' hv.1 hv.2 hs⟩) hsteps (ih j)
    · rw [ht]
      exact ⟨JobView.wellFormed_arrived t, hnew t⟩

/-- And for a whole run: a property of the absent job and of every new one that every lifecycle
step keeps holds of every job in every reachable state. -/
theorem ReachableBy.view_invariant {ok : Store → Input → Prop}
    (hfresh : ∀ s tie now o, ok s (.runOne tie now o) → fresh → NoResumedReplay now o s)
    (hempty : I {}) (hnew : ∀ t, I (.arrived t))
    (hI : ∀ front v v', v.WellFormed → I v → LifecycleStep fresh front v v' → I v')
    (h : ReachableBy env ok s) : ∀ j, (s.view j).WellFormed ∧ I (s.view j) := by
  refine h.invariant (I := fun s => ∀ j, (s.view j).WellFormed ∧ I (s.view j)) ?_ ?_
  · exact fun j => ⟨JobView.wellFormed_absent, hempty⟩
  · intro s i hs hi
    cases i with
    | process delivery now =>
      exact DeliverySteps.view_invariant hnew hI
        (process_steps env silentBroker [] delivery now s).final hs
    | runOne tie now o =>
      have hwalk : Walks env now _ (fun _ => True) o (runOne env tie now) s :=
        runOne_walks tie (fun _ => trivial) (hfresh s tie now o hi)
      exact Transactions.view_invariant hI hwalk.final hs

/-- Every job of a reachable state is well formed. -/
theorem Reachable.wellFormed (h : Reachable env s) (j : Int) : (s.view j).WellFormed :=
  (ReachableBy.view_invariant (I := fun _ => True) (fun _ _ _ _ _ (hf : False) => hf.elim) trivial
    (fun _ => trivial) (fun _ _ _ _ _ _ => trivial) h j).1

end Runs

end SignalPlane.Dispatcher
