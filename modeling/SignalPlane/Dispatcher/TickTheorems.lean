/-
SignalPlane.Dispatcher.TickTheorems — no unit of work is repeated within one
tick of the worker.

The worker calls `RunOne` with one `now` until there is nothing to do. What a
pass asks the broker about is one unit of work, due before the pass and settled
after it (`runOne_handles`), with three exceptions, which `Steady` rules out:

* the observation of an overdue task fails in a retryable way. The row is due
  again only after a delay, but the deadline wake of the next claim takes the
  delay back, so the same head is observed again at once;
* a job in `report_pending` gets a `ready_for_review` projection. `BeginCIWait`
  does not move its row, so it stays due;
* the first launch attempt of a job is stored as Go's zero time. Its retry
  window is then in the past, and so is the time of the next attempt.

With `Transactions.keeps`, the passes of a tick settle what they handle, so no
two of them handle the same unit.
-/
import SignalPlane.Lib.Settling
import SignalPlane.Dispatcher.Settled
import SignalPlane.Dispatcher.Run

namespace SignalPlane.Dispatcher

open Clock
open Workflow

variable {policy : CIRepairPolicy} {job : Job} {op : Store → Except GoError Store}
  {report : CIEscalationReport} {t : CITaskRow} {attempt : CIRepairAttempt} {a : AttemptRow}
  {tie : Nat} {task : CIRepairTask} {work : CIReconciliation} {failure : GoError} {projects : Bool}
  {result : RunStatus} {head : GoString}

/-! ## Handling one unit -/

/-- If `p` returns without an error, it leaves `u` settled. -/
def LeavesSettled (now : Int) (u : WorkUnit) (o : BrokerAnswers) {α : Type}
    (p : Dispatch (Except GoError α)) (s : Store) : Prop :=
  Post (fun _ _ => True) o p s (fun r s' => (∃ a, r = .ok a) → Settled now u s')

/-- From `s`, the program asks about nothing, or about one unit that is unsettled in `s₀` and that
it leaves settled. -/
def Handles (now : Int) (o : BrokerAnswers) (s₀ : Store) (p : Dispatch (Except GoError Bool))
    (s : Store) : Prop :=
  Post (fun _ _ => False) o p s (fun _ _ => True) ∨
    ∃ u, ¬ Settled now u s₀ ∧ Post (fun q _ => q.unit = u) o p s
      (fun r s' => (∃ b, r = .ok b) → Settled now u s')

section Rules

variable {now : Int} {o : BrokerAnswers} {s₀ s : Store} {u : WorkUnit} {α β : Type}

theorem leavesSettled_error {e : GoError} :
    LeavesSettled now u o (pure (.error e : Except GoError α)) s :=
  post_pure.mpr fun ⟨_, h⟩ => nomatch h

theorem leavesSettled_pure {r : Except GoError α} (h : Settled now u s) :
    LeavesSettled now u o (pure r) s :=
  post_pure.mpr fun _ => h

theorem leavesSettled_commit {k : Except GoError Unit → Dispatch (Except GoError α)}
    (hok : ∀ s', op s = .ok s' → LeavesSettled now u o (k (.ok ())) s')
    (herr : ∀ e, LeavesSettled now u o (k (.error e)) s) :
    LeavesSettled now u o (commit op >>= k) s :=
  post_bind.mpr (post_commit hok fun e _ => herr e)

theorem leavesSettled_atomic {op : Store → Except GoError (β × Store)}
    {k : Except GoError β → Dispatch (Except GoError α)}
    (hok : ∀ b s', op s = .ok (b, s') → LeavesSettled now u o (k (.ok b)) s')
    (herr : ∀ e, LeavesSettled now u o (k (.error e)) s) :
    LeavesSettled now u o (atomic op >>= k) s :=
  post_bind.mpr (post_atomic hok fun e _ => herr e)

theorem leavesSettled_worked (h : ∀ s', op s = .ok s' → Settled now u s') :
    LeavesSettled now u o (commit op >>= fun r => pure (worked r)) s :=
  leavesSettled_commit (fun s' hs => leavesSettled_pure (h s' hs)) fun _ => leavesSettled_error

theorem leavesSettled_map {p : Dispatch (Except GoError β)} {f : β → α}
    (h : LeavesSettled now u o p s) :
    LeavesSettled now u o (p >>= fun r => pure (r.map f)) s := by
  refine post_bind.mpr (post_mono h fun r s' hr => post_pure.mpr ?_)
  rintro ⟨a, ha⟩
  cases r with
  | error e => cases ha
  | ok b => exact hr ⟨b, rfl⟩

theorem leavesSettled_request {q : Request} {k : q.Answer → Dispatch (Except GoError α)}
    (h : LeavesSettled now u o (k (o q)) s) : LeavesSettled now u o (Workflow.request q >>= k) s :=
  post_bind.mpr (post_request.mpr ⟨trivial, h⟩)

theorem handles_pure {r : Except GoError Bool} : Handles now o s₀ (pure r) s :=
  .inl (post_pure.mpr trivial)

/-- A transaction that asks nothing. -/
theorem handles_worked : Handles now o s₀ (commit op >>= fun r => pure (worked r)) s :=
  .inl (post_bind.mpr (post_commit (fun _ _ => post_pure.mpr trivial)
    fun _ _ => post_pure.mpr trivial))

/-- A claim, followed by what is done with the claimed row. -/
theorem handles_atomic {op : Store → Except GoError (β × Store)}
    {k : Except GoError β → Dispatch (Except GoError Bool)}
    (hok : ∀ b s', op s = .ok (b, s') → Handles now o s₀ (k (.ok b)) s')
    (herr : ∀ e, Handles now o s₀ (k (.error e)) s) : Handles now o s₀ (atomic op >>= k) s := by
  cases h : op s with
  | ok r =>
    refine (hok r.1 r.2 h).imp (post_atomic_ok h) ?_
    rintro ⟨u, hu, hpost⟩
    exact ⟨u, hu, post_atomic_ok h hpost⟩
  | error e =>
    refine (herr e).imp (post_atomic_error h) ?_
    rintro ⟨u, hu, hpost⟩
    exact ⟨u, hu, post_atomic_error h hpost⟩

/-- A program that asks about one unit and settles it. -/
theorem handles_unit (env : Env) {p : Dispatch (Except GoError Bool)} (hu : ¬ Settled now u s₀)
    (hw : Walks env now False (fun u' => u' = u) o p s) (hs : LeavesSettled now u o p s) :
    Handles now o s₀ p s := by
  refine .inr ⟨u, hu, ?_, hs.final⟩
  exact fun x hx => (hw.asked hx).unit

end Rules

/-! ## The condition -/

/-- The store and the broker's answers of a pass at `now` under which what the pass handles is
settled afterwards. -/
structure Steady (now : Int) (o : BrokerAnswers) (s : Store) : Prop where
  /-- The observation of the current head of an overdue task does not fail in a retryable way. -/
  observed : ∀ t ∈ s.ciTasks.rows, t.wakeDue now = true → ∀ e,
    (o ⟨.reconciliation t.jobID t.currentHeadSHA, .observeCI t.toTask t.currentHeadSHA⟩ :
      Except GoError CIObservation) = .error e → isRetryable e = false
  /-- The due head of the line is not a `report_pending` job that is ready for review. -/
  projected : ∀ r, s.head = some r → r.dueAt ≤ unixMilli now → r.status = .reportPending →
    ∀ projected, (o ⟨.poll r.id, .terminalResult r.brokerRunID⟩ : Except GoError TerminalResult) =
      .ok projected → projected.outcome ≠ lit "ready_for_review"
  /-- The head of the line was not first launched at Go's zero time. -/
  attempted : ∀ r ms, s.head = some r → r.firstLaunchAttemptAt = some ms →
    isZero (ofUnixMilli ms) = false

/-! ## Escalations, reports and attempts -/

section Units

variable {env : Env} {now : Int} {o : BrokerAnswers} {s₀ s s' : Store}

/-- A claimed escalation is pending and due. -/
theorem claimCIEscalation_due (h : claimCIEscalation now s = .ok (some report, s')) :
    s' = s ∧ ¬ Settled now (.escalation report.job.id) s := by
  refine ⟨claimCIEscalation_store h, ?_⟩
  unfold claimCIEscalation at h
  dsimp only at h
  split at h
  · cases h
  next row hpick =>
  obtain ⟨hmem, hdue⟩ := List.mem_filter.mp (mem_of_pick hpick)
  simp only [Bool.and_eq_true, decide_eq_true_eq] at hdue
  split at h
  · cases h
  next job hjob =>
  cases h
  have hid : job.id = row.jobID := Table.key_of_find? hjob
  rintro ⟨row', hrow', hq⟩
  simp only [JobRow.toJob, hid, Table.find?_key hmem, Option.some.injEq] at hrow'
  subst hrow'
  rcases hq with hq | hq
  · exact hq hdue.1.1
  · omega

theorem runEscalation_settles :
    LeavesSettled now (.escalation report.job.id) o (runEscalation env report now) s := by
  unfold runEscalation
  refine leavesSettled_request ?_
  split
  · refine leavesSettled_worked fun s' h => ?_
    simp only [markCIEscalationDelivered, require_bind_eq_ok, expectOne_bind_eq_ok, pure_eq_ok] at h
    obtain ⟨-, hhit, rfl⟩ := h
    exact Table.exists_of_hits hhit rfl (fun _ => rfl) fun _ _ => .inl (by simp)
  · refine leavesSettled_worked fun s' h => ?_
    simp only [markCIEscalationFailure, expectOne_bind_eq_ok] at h
    obtain ⟨hhit, h⟩ := h
    split at h
    · cases h
      exact Table.exists_of_hits hhit rfl (fun _ => rfl) fun _ _ =>
        .inr (unixMilli_lt (le_reportRetryDelay _))
    · cases h
      exact Table.exists_of_hits hhit rfl (fun _ => rfl) fun _ _ => .inl (by simp)

/-- A claimed report is open and due, under the outbox row it names. -/
theorem claimReportDue_due {report : Report} (h : claimReportDue now s = .ok (some report, s')) :
    s' = s ∧ ¬ Settled now (.report report.jobID) s ∧
      ∃ row, s.outbox.find? report.jobID = some row ∧ row.id = report.id ∧ row.isOpen = true := by
  refine ⟨claimReportDue_store h, ?_⟩
  unfold claimReportDue at h
  dsimp only at h
  split at h
  · cases h
  next row hpick =>
  obtain ⟨hmem, hdue⟩ := List.mem_filter.mp (mem_of_pick hpick)
  simp only [Bool.and_eq_true, decide_eq_true_eq] at hdue
  split at h
  · cases h
  cases h
  refine ⟨?_, row, Table.find?_key hmem, rfl, hdue.1.1⟩
  rintro ⟨row', hrow', hq⟩
  obtain rfl : row = row' := Option.mem_unique (Table.find?_key hmem) hrow'
  rcases hq with hq | hq
  · rw [hdue.1.1] at hq
    cases hq
  · omega

theorem runReport_settles {report : Report} {row : OutboxRow}
    (hrow : s.outbox.find? report.jobID = some row) (hid : row.id = report.id)
    (hopen : row.isOpen = true) :
    LeavesSettled now (.report report.jobID) o (runReport report now) s := by
  have hp : (decide (row.id = report.id) && row.isOpen) = true := by simp [hid, hopen]
  have hsettled : ∀ s', ReportWrites now report s s' → Settled now (.report report.jobID) s' := by
    rintro _ ⟨-, hquiet, -⟩
    exact Table.exists_of_update hrow hp rfl (by assumption) (hquiet row)
  unfold runReport
  refine leavesSettled_request ?_
  split
  · exact leavesSettled_worked fun s' h => hsettled s' (markReportDelivered_writes h)
  · exact leavesSettled_worked fun s' h => hsettled s' (markReportFailure_writes h)

/-- A claimable attempt is due. -/
theorem claimable_due {taskState : CITaskState} {state : AttemptState}
    (hstate : state = .ready ∨ state = .running)
    (h : (t, a) ∈ s.claimableAttempts taskState state now) :
    s.attempts.find? a.attemptKey = some a ∧ a.state = state ∧
      ¬ Settled now (.attempt a.attemptKey) s := by
  obtain ⟨hmem, -, -, hstate', hdue⟩ := mem_claimableAttempts.mp h
  have ha : s.attempts.find? a.attemptKey = some a := Table.find?_key hmem
  refine ⟨ha, hstate', ?_⟩
  rintro ⟨a', ha', hq⟩
  obtain rfl : a = a' := Option.mem_unique ha ha'
  rcases hq with hq | hq
  · rcases hstate with rfl | rfl
    · exact hq.1 hstate'
    · exact hq.2 hstate'
  · omega

theorem fillRuntime_find {key : GoString} (ha : s.attempts.find? key = some a) :
    ∃ a', (s.fillRuntime policy key now).attempts.find? key = some a' ∧ a'.state = a.state := by
  simp only [Store.fillRuntime, Store.updateAttempt, Table.find?_updateKey_self, ha,
    Option.map_some, Option.some.injEq, exists_eq_left']
  split <;> rfl

theorem claimCIRepair_due (h : claimCIRepair policy tie now s = .ok (some (task, attempt), s')) :
    ¬ Settled now (.attempt attempt.attemptKey) s ∧
      ∃ a, s'.attempts.find? attempt.attemptKey = some a ∧ a.state = .ready := by
  unfold claimCIRepair at h
  split at h
  · cases h
  next t a hpick =>
  cases h
  obtain ⟨ha, hstate, hdue⟩ := claimable_due (.inl rfl) (mem_of_pick hpick)
  obtain ⟨a', ha', hstate'⟩ := fillRuntime_find ha
  exact ⟨hdue, a', ha', hstate'.trans hstate⟩

/-- The claim of a running attempt leases it, which settles it. -/
theorem claimCIRepairStatus_due
    (h : claimCIRepairStatus policy tie now s = .ok (some (task, attempt), s')) :
    ¬ Settled now (.attempt attempt.attemptKey) s ∧ Settled now (.attempt attempt.attemptKey) s'
  := by
  unfold claimCIRepairStatus at h
  split at h
  · cases h
  next t a hpick =>
  cases h
  obtain ⟨ha, hstate, hdue⟩ := claimable_due (.inr rfl) (mem_of_pick hpick)
  refine ⟨hdue, ?_⟩
  obtain ⟨a', ha', hstate'⟩ := fillRuntime_find ha
  exact Table.exists_of_hits (p := fun a => a.state = .running)
    (Table.hits_iff.mpr ⟨a', ha', by simp [hstate', hstate]⟩) rfl (fun _ => rfl)
    fun _ _ => .inr (unixMilli_lt (by decide))

theorem failAttempt_find {key failureClass detail : GoString} {task : CITaskRow} {charges : Bool}
    {repairAttempts : Int} {row : AttemptRow} (hrow : s.attempts.find? key = some row) :
    ∃ row', (s.failAttempt key task charges repairAttempts failureClass detail now).attempts.find?
      key = some row' ∧ row'.state = .failed := by
  unfold Store.failAttempt
  dsimp only
  split <;> simp [Store.updateTask, Store.updateAttempt, hrow]

/-- An attempt that is finished with a failure is failed. -/
theorem finishCIRepairFailure_settled {lib : GoLib} {failureClass detail : GoString}
    {modelStarted : Bool} {maxAttempts : Int}
    (h : finishCIRepairFailure lib policy attempt failureClass modelStarted detail maxAttempts now
      s = .ok s') : Settled now (.attempt attempt.attemptKey) s' := by
  simp only [finishCIRepairFailure, require_bind_eq_ok] at h
  obtain ⟨-, -, h⟩ := h
  split at h
  · cases h
  next row hrow =>
  split at h
  · cases h
  next task _ =>
  split at h
  · next hfailed =>
    simp only [require_bind_eq_ok] at h
    cases h.2
    exact ⟨row, hrow, .inl (by simp [hfailed])⟩
  · simp only [require_bind_eq_ok] at h
    obtain ⟨row', hrow', hfailed⟩ := failAttempt_find hrow
    exact (CIWrites.goesOn .refl h.2.2).keeps.settled ⟨row', hrow', .inl (by simp [hfailed])⟩

theorem runRepairLaunch_settles (ha : s.attempts.find? attempt.attemptKey = some a)
    (hready : a.state = .ready) :
    LeavesSettled now (.attempt attempt.attemptKey) o (runRepairLaunch env task attempt now) s := by
  unfold runRepairLaunch
  refine leavesSettled_request ?_
  split
  · refine leavesSettled_worked fun s' h => ?_
    simp only [bindCIRepairRun, require_bind_eq_ok, ha, pure_eq_ok] at h
    obtain ⟨-, -, rfl⟩ := h
    exact Table.exists_of_hits (p := fun a => a.state = .ready || a.state = .running)
      (Table.hits_iff.mpr ⟨a, ha, by simp [hready]⟩) rfl (fun _ => rfl)
      fun _ _ => .inr (unixMilli_lt (by decide))
  · split
    · refine leavesSettled_worked fun s' h => ?_
      simp only [deferCIRepairLaunch, deferAttempt, require_bind_eq_ok, expectOne_bind_eq_ok,
        pure_eq_ok] at h
      obtain ⟨-, hhit, rfl⟩ := h
      exact Table.exists_of_hits hhit rfl (fun _ => rfl) fun _ _ =>
        .inr (unixMilli_lt (le_launchRetryDelay _))
    · exact leavesSettled_worked fun s' h => finishCIRepairFailure_settled h

/-! ## Reconciliations -/

/-- A claimed reconciliation is due, its row is leased and its task waits. -/
theorem claimCIReconciliation_due (h : claimCIReconciliation tie now s = .ok (some work, s')) :
    ¬ Settled now (.reconciliation work.task.jobID work.headSHA) s ∧
      work.operationKey = ciReconcileKey work.task.jobID work.headSHA ∧
      (∃ r, s'.reconciliations.find? (work.task.jobID, work.headSHA) = some r ∧ r.Quiet now) ∧
      ∃ t, s'.ciTasks.find? work.task.jobID = some t ∧ s.ciTasks.find? work.task.jobID = some t ∧
        t.state = .waitingCI ∧ work.task = t.toTask := by
  unfold claimCIReconciliation at h
  dsimp only at h
  split at h
  · cases h
  next r t hpick =>
  cases h
  obtain ⟨hmem, ht, hwaiting, hstate, hdue⟩ := mem_claimableReconciliations.mp (mem_of_pick hpick)
  have hjob : t.jobID = r.jobID := Table.key_of_find? ht
  have hr : (s.wakeDeadlines now).reconciliations.find? (t.toTask.jobID, r.headSHA) = some r := by
    rw [CITaskRow.toTask, hjob]
    exact Table.find?_key hmem
  refine ⟨fun hsettled => ?_, ?_, ?_, t, ?_, ?_, hwaiting, rfl⟩
  · obtain ⟨⟨r', hr', hq⟩, -⟩ := wakeDeadlines_keeps.settled hsettled
    obtain rfl : r = r' := Option.mem_unique hr hr'
    rcases hq with hq | hq
    · rcases hstate with hs | hs <;> rw [hs] at hq <;> cases hq
    · omega
  · simp only [ReconciliationRow.operationKey, CITaskRow.toTask, hjob]
  · exact Table.exists_of_update hr
      (p := fun r' => decide (r'.operationKey = r.operationKey) && true) (by simp) rfl
      (fun _ => rfl) (.inr (unixMilli_lt (by decide)))
  · rw [← hjob] at ht
    exact ht
  · rw [← hjob] at ht
    exact ht

/-- What follows a claimed reconciliation settles it, unless its task is overdue and the
observation is to be repeated. -/
theorem runReconciliation_settles {r : ReconciliationRow}
    (hwake : millisecond ≤ env.policy.1.reconciliationWake)
    (hclean : ∀ r ∈ s.reconciliations.rows, r.operationKey = work.operationKey → r.dirty = false)
    (hr : s.reconciliations.find? (work.task.jobID, work.headSHA) = some r) (hq : r.Quiet now)
    (ht : s.ciTasks.find? work.task.jobID = some t) (hobserved : ¬ t.Quiet now work.headSHA → ∀ e,
      (o ⟨.reconciliation work.task.jobID work.headSHA, .observeCI work.task work.headSHA⟩ :
        Except GoError CIObservation) = .error e → isRetryable e = false) :
    LeavesSettled now (.reconciliation work.task.jobID work.headSHA) o
      (runReconciliation env work now) s := by
  unfold runReconciliation
  refine leavesSettled_request ?_
  split
  · next e he =>
    refine leavesSettled_worked fun s' h => ?_
    by_cases hqt : t.Quiet now work.headSHA
    · exact (failCIReconciliation_writes (fun _ => hwake) h).keeps.settled
        ⟨⟨r, hr, hq⟩, t, ht, hqt⟩
    · rw [hobserved hqt e he] at h
      obtain ⟨hrows, t', ht', hqt'⟩ := failCIReconciliation_quiet hwake ht h
      exact ⟨hrows.quiet _ r hr hq, t', ht', hqt' _⟩
  · refine leavesSettled_worked fun s' h => ?_
    obtain ⟨-, hrows, t', ht', hqt'⟩ := applyCIObservation_quiet hwake hclean h
    exact ⟨hrows.quiet _ r hr hq, t', ht', hqt' _⟩

/-! ## Jobs -/

/-- A job that is written to be due later is neither polled nor launched. -/
theorem settled_of_later {id : Int} {u : WorkUnit} {p : JobRow → Bool} {f : JobRow → JobRow}
    (hu : u = .poll id ∨ u = .launch id) (h : s.jobs.hits id p = true)
    (hrows : s'.jobs.rows = s.jobs.rows.map fun r => if decide (r.id = id) && p r then f r else r)
    (hf : ∀ r, (f r).id = r.id) (hlater : ∀ r, p r = true → unixMilli now < (f r).dueAt) :
    Settled now u s' := by
  obtain ⟨r, hr, hlater : unixMilli now < r.dueAt⟩ :=
    Table.exists_of_hits (D := fun r => unixMilli now < r.dueAt) h hrows hf hlater
  rcases hu with rfl | rfl <;> rintro ⟨r', hr', hdue, -⟩
  all_goals
    obtain rfl : r = r' := Option.mem_unique hr hr'
    omega

/-- A job whose result is queued is neither polled nor launched. -/
theorem queueTerminalResult_settled {r : TerminalResult} {lib : GoLib}
    (h : queueTerminalResult lib job r now s = .ok s') :
    Settled now (.poll job.id) s' ∧ Settled now (.launch job.id) s' := by
  obtain ⟨-, body, -, h⟩ := queueTerminalResult_ok.mp h
  obtain ⟨hhit, rfl⟩ := storeTerminalResult_ok h
  obtain ⟨row, hrow, hpending⟩ : ∃ row, (s.jobs.updateKey job.id JobRow.acceptsResult
      (fun row => { row with
        status := .reportPending
        dueAt := unixMilli now
        updatedAt := unixMilli now
        lastError := []
        preOutboxAttempts := 0 }) (fun _ => rfl)).find? job.id = some row ∧
      row.status = .reportPending :=
    Table.exists_of_hits hhit rfl (fun _ => rfl) fun _ _ => rfl
  have hstored : ((s.terminalResults.insert (r.toRow job.id now)).find? job.id).isSome = true := by
    simp [TerminalResult.toRow]
  constructor
  · rintro ⟨row', hrow', -, hpolls⟩
    obtain rfl : row = row' := Option.mem_unique hrow hrow'
    simp [JobRow.polls, hpending, Store.hasTerminal, hstored] at hpolls
  · rintro ⟨row', hrow', -, hqueued⟩
    obtain rfl : row = row' := Option.mem_unique hrow hrow'
    simp [hpending, JobStatus.isQueued] at hqueued

/-- A failure before the outbox is due later, or its report is queued. -/
theorem reconcilePreOutboxFailure_settles {status : JobStatus} {stage : String} {retryable : Bool} :
    LeavesSettled now (.poll job.id) o
      (reconcilePreOutboxFailure env job status stage failure retryable now) s := by
  refine post_reconcilePreOutboxFailure (fun e ⟨_, h⟩ => nomatch h) fun attempts s1 h => ?_
  obtain ⟨-, row, hrow, hpoll, hterminal, -, rfl⟩ := markPreOutboxFailure_ok.mp h
  refine ⟨fun _ _ => ?_, fun e ⟨_, h⟩ => (nomatch h), fun r s2 h2 _ =>
    (queueTerminalResult_settled h2).1⟩
  refine settled_of_later (p := fun r => r.isPollResult && !s.hasTerminal r.id) (.inl rfl) ?_ rfl
    (fun _ => rfl) fun _ _ => unixMilli_lt (le_preOutboxRetryDelay _)
  exact Table.hits_iff.mpr ⟨row, hrow, by simp [Table.key_of_find? hrow, hpoll, hterminal]⟩

/-- A run that is followed is polled later, reported, or waits for CI, provided a job that is
ready for review is `launched`. -/
theorem settleRun_settles (job : Job) (hwake : millisecond ≤ env.policy.1.reconciliationWake)
    (hready : ∀ projected,
      (o ⟨.poll job.id, .terminalResult job.brokerRunID⟩ : Except GoError TerminalResult) =
        .ok projected → projected.outcome = lit "ready_for_review" →
      ∃ row, s.jobs.find? job.id = some row ∧ row.status = .launched) :
    LeavesSettled now (.poll job.id) o (settleRun env projects job result now) s := by
  refine post_settleRun trivial fun d hd => ?_
  cases d with
  | fail => exact reconcilePreOutboxFailure_settles
  | poll =>
    refine post_settle (fun s' h _ => ?_) fun e _ ⟨_, h⟩ => nomatch h
    simp only [markStatus, expectOne_bind_eq_ok, pure_eq_ok] at h
    obtain ⟨hhit, rfl⟩ := h
    exact settled_of_later (.inl rfl) hhit rfl (fun _ => rfl) fun _ _ => unixMilli_lt (by decide)
  | ciWait _ _ projected _ =>
    refine post_settle (fun s' h _ => ?_) fun e _ ⟨_, h⟩ => nomatch h
    obtain ⟨hprojected, houtcome⟩ := disposal_ciWait hd
    obtain ⟨row, hrow, hlaunched⟩ := hready projected hprojected houtcome
    simp only [beginCIWait, require_bind_eq_ok, pure_eq_ok] at h
    obtain ⟨-, -, -, rfl⟩ := h
    refine settled_of_later (p := JobRow.entersCIWait) (.inl rfl) ?_ rfl (fun _ => rfl)
      fun _ _ => unixMilli_lt hwake
    exact Table.hits_iff.mpr ⟨row, hrow, by simp [JobRow.entersCIWait, hlaunched]⟩
  | report =>
    exact post_settle (fun s' h _ => (queueTerminalResult_settled h).1) fun e _ ⟨_, h⟩ => nomatch h

theorem deferRepositoryRunExternalResume_settled {d : Int} (hd : millisecond ≤ d)
    (h : deferRepositoryRunExternalResume job (now + d) failure now s = .ok s') :
    Settled now (.poll job.id) s' := by
  simp only [deferRepositoryRunExternalResume, expectOne_bind_eq_ok, pure_eq_ok] at h
  obtain ⟨hhit, rfl⟩ := h
  exact settled_of_later (.inl rfl) hhit rfl (fun _ => rfl) fun _ _ => unixMilli_lt hd

/-- The recorded wait is due later: the job is stored under the run it names. -/
theorem recordRepositoryRunExternalWait_settled {wait : CIExternalWait}
    {stored : RepositoryRunExternalWait} (hwake : millisecond ≤ policy.reconciliationWake)
    (hc : Claimed now job s)
    (h : recordRepositoryRunExternalWait policy job wait now s = .ok (stored, s')) :
    Settled now (.poll job.id) s' := by
  simp only [recordRepositoryRunExternalWait, bind_eq_ok, pure_eq_ok, Prod.mk.injEq] at h
  obtain ⟨-, -, -, -, _, -, -, rfl⟩ := h
  obtain ⟨row, hrow, -, hrun⟩ := hc.row
  exact settled_of_later (p := fun r => r.brokerRunID = job.brokerRunID) (.inl rfl)
    (Table.hits_iff.mpr ⟨row, hrow, by simp [hrun]⟩) rfl (fun _ => rfl)
    fun _ _ => unixMilli_lt hwake

/-- The job that is polled stays settled, if it is `launched` or not ready for review. -/
theorem reconcileStatusResult_settles {row : JobRow}
    (hwake : millisecond ≤ env.policy.1.reconciliationWake) (hrow : s.jobs.find? job.id = some row)
    (hstatus : row.status = job.status) (hpolled : job.status.isPolled = true)
    (hw : result.status ≠ lit "waiting_external")
    (hready : job.status = .reportPending → ∀ projected,
      (o ⟨.poll job.id, .terminalResult job.brokerRunID⟩ : Except GoError TerminalResult) =
        .ok projected → projected.outcome ≠ lit "ready_for_review") :
    LeavesSettled now (.poll job.id) o (reconcileStatusResult env projects job result now) s := by
  unfold reconcileStatusResult
  rw [if_neg hw]
  split
  · exact reconcilePreOutboxFailure_settles
  · split
    · refine leavesSettled_commit (fun s' h => ?_) fun _ => leavesSettled_error
      refine settleRun_settles { job with status := .launched } hwake fun _ _ _ => ?_
      obtain ⟨row', hrow', hlaunched⟩ := Store.row_of_view (launched_of_resume h)
      exact ⟨row', hrow', hlaunched⟩
    · next hwait =>
      refine settleRun_settles job hwake fun projected hprojected houtcome => ⟨row, hrow, ?_⟩
      by_cases hpending : job.status = .reportPending
      · exact absurd houtcome (hready hpending projected hprojected)
      · rw [hstatus]
        revert hpolled hwait hpending
        cases job.status <;> simp [JobStatus.isPolled]

theorem runStatus_settles {row : JobRow} (hwake : millisecond ≤ env.policy.1.reconciliationWake)
    (hc : Claimed now job s) (hrow : s.jobs.find? job.id = some row)
    (hstatus : row.status = job.status) (hpolled : job.status.isPolled = true)
    (hready : job.status = .reportPending → ∀ projected,
      (o ⟨.poll job.id, .terminalResult job.brokerRunID⟩ : Except GoError TerminalResult) =
        .ok projected → projected.outcome ≠ lit "ready_for_review")
    (hvalid : env.policy.1.isValid = true) :
    LeavesSettled now (.poll job.id) o (runStatus env job now) s := by
  unfold runStatus
  refine leavesSettled_request ?_
  split
  · split
    · exact leavesSettled_worked fun s' h => deferRepositoryRunExternalResume_settled (by decide) h
    · next hwait =>
      refine leavesSettled_map ?_
      unfold reconcileStatusFailure
      rw [if_neg hwait]
      exact reconcilePreOutboxFailure_settles
  · split
    · exact leavesSettled_error
    · split
      · split
        · exact leavesSettled_map reconcilePreOutboxFailure_settles
        · split
          · exact leavesSettled_map reconcilePreOutboxFailure_settles
          · refine leavesSettled_atomic (fun stored s' h => ?_) fun _ => leavesSettled_error
            have hsettled := recordRepositoryRunExternalWait_settled hwake hc h
            dsimp only
            split
            · -- What the resume writes keeps the wait settled.
              have hwalk : Walks env now False (fun _ => True) o
                  (resumeReadyWait env job stored now) s' := resumeReadyWait_walks trivial stored
              exact ⟨fun _ _ => trivial, fun _ =>
                (Transactions.keeps hvalid hwalk.final).settled hsettled⟩
            · exact leavesSettled_pure hsettled
      · next hw =>
        exact leavesSettled_map (reconcileStatusResult_settles hwake hrow hstatus hpolled hw hready)

/-- The next launch attempt comes later, within a retry window that is not over. -/
theorem launchDue_later {r : JobRow}
    (hattempted : ∀ ms, r.firstLaunchAttemptAt = some ms → isZero (ofUnixMilli ms) = false)
    (hopen : ¬ (isZero (r.toLaunchJob now).firstAttemptAt = false ∧
      (r.toLaunchJob now).firstAttemptAt + launchRetryWindow ≤ now)) :
    unixMilli now < unixMilli (min (now + launchRetryDelay (r.toLaunchJob now).attempts)
      ((r.toLaunchJob now).firstAttemptAt + launchRetryWindow)) := by
  have hwindow : unixMilli now <
      unixMilli ((r.toLaunchJob now).firstAttemptAt + launchRetryWindow) := by
    unfold JobRow.toLaunchJob at hopen ⊢
    dsimp only at hopen ⊢
    cases hfirst : r.firstLaunchAttemptAt with
    | none => exact unixMilli_lt (by decide)
    | some ms =>
      simp only [hfirst, hattempted ms hfirst, true_and, Int.not_le] at hopen
      exact unixMilli_lt_of_wholeMilli
        ((wholeMilli_add (wholeMilli_ofUnixMilli ms)).mpr (by decide)) hopen
  rcases min_choice (now + launchRetryDelay (r.toLaunchJob now).attempts)
      ((r.toLaunchJob now).firstAttemptAt + launchRetryWindow) with h | h
  · rw [h]
    exact unixMilli_lt (le_launchRetryDelay _)
  · rw [h]
    exact hwindow

theorem runLaunch_settles {r : JobRow}
    (hattempted : ∀ ms, r.firstLaunchAttemptAt = some ms → isZero (ofUnixMilli ms) = false) :
    LeavesSettled now (.launch r.id) o (runLaunch env (r.toLaunchJob now) now) s := by
  unfold runLaunch
  split
  · exact leavesSettled_worked fun s' h => (queueTerminalResult_settled h).2
  · next hopen =>
    refine leavesSettled_request ?_
    split
    · refine leavesSettled_worked fun s' h => ?_
      simp only [markLaunched, require_bind_eq_ok, expectOne_bind_eq_ok, pure_eq_ok] at h
      obtain ⟨-, hhit, rfl⟩ := h
      exact settled_of_later (.inr rfl) hhit rfl (fun _ => rfl) fun _ _ => unixMilli_lt (by decide)
    · split
      · refine leavesSettled_worked fun s' h => ?_
        simp only [markLaunchFailure, expectOne_bind_eq_ok, pure_eq_ok] at h
        obtain ⟨hhit, rfl⟩ := h
        exact settled_of_later (.inr rfl) hhit rfl (fun _ => rfl) fun _ _ =>
          launchDue_later hattempted hopen
      · exact leavesSettled_worked fun s' h => (queueTerminalResult_settled h).2

end Units

/-! ## One pass -/

section Pass

variable {env : Env} {now : Int} {o : BrokerAnswers} {s₀ s : Store}

theorem runJob_handles (hvalid : env.policy.1.isValid = true) (hkeeps : Keeps now s₀ s)
    (hhead : s.head = s₀.head) (h : Steady now o s₀) : Handles now o s₀ (runJob env now) s := by
  have hwake : millisecond ≤ env.policy.1.reconciliationWake :=
    Int.le_trans (by decide) (env.policy.minute_le_wake hvalid)
  unfold runJob
  refine handles_atomic (fun work s' hclaim => ?_) fun _ => handles_pure
  obtain ⟨rfl, rfl⟩ | ⟨r, hr, hdue, ⟨hp, rfl, rfl⟩ | ⟨hq, rfl, rfl⟩⟩ := claimDue_cases hclaim
  · exact handles_pure
  · have hrow := (Store.head_row hr).1
    have hpolls := (Store.view_polled hrow).mp hp
    have hc : Claimed now r.toJob s' := ⟨⟨r, hrow, hdue, rfl⟩, Store.first_of_head hr⟩
    have hunsettled : ¬ Settled now (.poll r.id) s₀ := fun hs =>
      hkeeps.settled hs ⟨r, hrow, hdue, hpolls⟩
    dsimp only
    split
    · exact handles_worked
    · refine handles_unit env hunsettled (runStatus_walks rfl hc hp False.elim)
        (runStatus_settles hwake hc hrow rfl ?_ ?_ hvalid)
      · rcases hpolls with h | h | ⟨h, -⟩ <;> simp [JobRow.toJob, h, JobStatus.isPolled]
      · exact h.projected r (hhead ▸ hr) hdue
  · have hrow := (Store.head_row hr).1
    have hqueued := (Store.view_queued hrow).mp hq
    have hunsettled : ¬ Settled now (.launch r.id) s₀ := fun hs =>
      hkeeps.settled hs ⟨r, hrow, hdue, hqueued⟩
    exact handles_unit env hunsettled
      (runLaunch_walks rfl (claimed_of_launch hr hdue hqueued))
      (runLaunch_settles fun ms => h.attempted r ms (hhead ▸ hr))

theorem runReportOrJob_handles (hvalid : env.policy.1.isValid = true) (hkeeps : Keeps now s₀ s)
    (hhead : s.head = s₀.head) (h : Steady now o s₀) :
    Handles now o s₀ (runReportOrJob env now) s := by
  unfold runReportOrJob
  split
  · refine handles_atomic (fun report s' hclaim => ?_) fun _ => handles_pure
    cases report with
    | none =>
      obtain rfl := claimReportDue_store hclaim
      exact runJob_handles hvalid hkeeps hhead h
    | some report =>
      obtain ⟨rfl, hdue, row, hrow, hid, hopen⟩ := claimReportDue_due hclaim
      have hwalk : Walks env now False (fun u => u = .report report.jobID) o
          (runReport report now) s' := runReport_walks rfl
      exact handles_unit env (fun hs => hdue (hkeeps.settled hs)) hwalk
        (runReport_settles hrow hid hopen)
  · exact runJob_handles hvalid hkeeps hhead h

theorem runCIOrRest_handles (tie : Nat) (hvalid : env.policy.1.isValid = true)
    (h : Steady now o s) : Handles now o s (runCIOrRest env tie now) s := by
  have hwake : millisecond ≤ env.policy.1.reconciliationWake :=
    Int.le_trans (by decide) (env.policy.minute_le_wake hvalid)
  have hrefl : Keeps now s s := .of_jobs (.of_eq rfl rfl)
  unfold runCIOrRest
  split
  · refine handles_atomic (fun work s1 h1 => ?_) fun _ => handles_pure
    cases work with
    | some work =>
      obtain ⟨hdue, -, ⟨r, hr, hq⟩, t, ht, ht0, hwaiting, htask⟩ := claimCIReconciliation_due h1
      have hclean := claimCIReconciliation_clean h1
      refine handles_unit env hdue (runReconciliation_walks rfl hclean)
        (runReconciliation_settles hwake hclean hr hq ht fun hnq e he => ?_)
      -- The claimed head is the current one of an overdue task.
      simp only [CITaskRow.Quiet, hwaiting, true_implies, not_or, Int.not_lt, not_not] at hnq
      have hjob : work.task.jobID = t.jobID := congrArg CIRepairTask.jobID htask
      refine h.observed t (Table.mem_of_find? ht0)
        (by simp [CITaskRow.wakeDue, hwaiting, hnq.1]) e ?_
      rw [hjob, htask, ← hnq.2] at he
      exact he
    | none =>
      have hkeeps1 := claimCIReconciliation_keeps h1
      obtain ⟨rs, rfl⟩ := claimCIReconciliation_store h1
      refine handles_atomic (fun work s2 h2 => ?_) fun _ => handles_pure
      cases work with
      | some work =>
        obtain ⟨hdue, a, ha, hready⟩ := claimCIRepair_due h2
        exact handles_unit env (fun hs => hdue (hkeeps1.settled hs))
          (runRepairLaunch_walks _ rfl) (runRepairLaunch_settles ha hready)
      | none =>
        obtain rfl := claimCIRepair_none h2
        refine handles_atomic (fun work s3 h3 => ?_) fun _ => handles_pure
        cases work with
        | some work =>
          obtain ⟨hdue, hsettled⟩ := claimCIRepairStatus_due h3
          have hwalk : Walks env now False (fun u => u = .attempt work.2.attemptKey) o
              (runCIRepairStatus env work.1 work.2 now) s3 :=
            runCIRepairStatus_walks work.1 rfl (claimCIRepairStatus_taskOf h3)
          exact handles_unit env (fun hs => hdue (hkeeps1.settled hs)) hwalk
            ⟨fun _ _ => trivial, fun _ => (Transactions.keeps hvalid hwalk.final).settled hsettled⟩
        | none =>
          obtain rfl := claimCIRepairStatus_none h3
          exact runReportOrJob_handles hvalid hkeeps1 rfl h
  · exact runReportOrJob_handles hvalid hrefl rfl h

/-- A steady pass asks about nothing, or about one unsettled unit that it settles. -/
theorem runOne_handles (tie : Nat) (hvalid : env.policy.1.isValid = true) (h : Steady now o s) :
    Handles now o s (runOne env tie now) s := by
  unfold runOne
  split
  · refine handles_atomic (fun report s' hclaim => ?_) fun _ => handles_pure
    cases report with
    | some report =>
      obtain ⟨rfl, hdue⟩ := claimCIEscalation_due hclaim
      exact handles_unit env hdue (runEscalation_walks rfl) runEscalation_settles
    | none =>
      obtain rfl := claimCIEscalation_store hclaim
      exact runCIOrRest_handles tie hvalid h
  · exact runCIOrRest_handles tie hvalid h

/-- A steady pass at `now` that returns without an error, with the units it asked about. -/
def TickPass (env : Env) (now : Int) (s : Store) (us : List WorkUnit) (s' : Store) : Prop :=
  ∃ (tie : Nat) (o : BrokerAnswers), Steady now o s ∧
    (∃ b, (exec o (runOne env tie now) s).value = .ok b) ∧
    us = (exec o (runOne env tie now) s).asked.map (fun x => x.1.unit) ∧
    s' = (exec o (runOne env tie now) s).store

/-- The passes of a tick settle what they handle. -/
theorem tickPass_settling (hvalid : env.policy.1.isValid = true) :
    Settling (Settled now) (TickPass env now) where
  keeps := by
    rintro s us s' u ⟨tie, o, -, -, -, rfl⟩ hu
    exact (Transactions.keeps hvalid (runOne_transactions tie).final).settled hu
  unsettled := by
    rintro s us s' u ⟨tie, o, hsteady, -, rfl, -⟩ hu
    obtain ⟨x, hx, rfl⟩ := List.mem_map.mp hu
    rcases runOne_handles tie hvalid hsteady with hnone | ⟨u, hunsettled, hpost⟩
    · exact (hnone.asked hx).elim
    · rwa [hpost.asked hx]
  settles := by
    rintro s us s' u ⟨tie, o, hsteady, hok, rfl, rfl⟩ hu
    obtain ⟨x, hx, rfl⟩ := List.mem_map.mp hu
    rcases runOne_handles tie hvalid hsteady with hnone | ⟨u, -, hpost⟩
    · exact (hnone.asked hx).elim
    · rw [hpost.asked hx]
      exact hpost.final hok

end Pass

/-! ## A deferred observation -/

/-- A step before `due` that does not wake the reconciliation `key`: a pass at a time when the
task of the job is not overdue with this head, or a delivery that is no CI event of a routed
repository. -/
def Input.Undisturbing (env : Env) (key : Int × GoString) (due : Int) (s : Store) : Input → Prop
  | .runOne _ now _ => unixMilli now < due ∧
    ∀ t ∈ s.ciTasks.rows, t.wakeDue now = true → (t.jobID, t.currentHeadSHA) ≠ key
  | .process delivery _ => ∀ signal, env.lib.unmarshalSignal delivery.data = .ok signal →
    routeOwnsRepository env.routes signal.nameSpace = true →
      isCIWakeEvent signal.sourceEvent = false

/-- Any number of steps that all meet the condition `ok`. -/
abbrev Steps (env : Env) (ok : Store → Input → Prop) : Store → Store → Prop :=
  Relation.ReflTransGen (fun s s' => ∃ i, ok s i ∧ s' = Input.step env s i)

section Deferral

variable {env : Env} {now : Int} {s s' : Store}

/-- A delivery that is no CI event leaves tasks and reconciliations alone. -/
theorem process_frame {delivery : Delivery} (o : BrokerAnswers)
    (h : ∀ signal, env.lib.unmarshalSignal delivery.data = .ok signal →
      routeOwnsRepository env.routes signal.nameSpace = true →
        isCIWakeEvent signal.sourceEvent = false) :
    Post (fun _ _ => True) o (process env [] delivery now) s
      (fun _ s' => s'.reconciliations = s.reconciliations ∧ s'.ciTasks = s.ciTasks) := by
  refine ⟨fun _ _ => trivial, ?_⟩
  obtain ⟨s1, s2, hevent, hwake, hrecorded⟩ := (process_path env o [] delivery now s).final
  obtain rfl : s1 = s := by
    rcases hevent with rfl | ⟨signal, b, hsignal, howned, hci, -⟩
    · rfl
    · rw [h signal hsignal howned] at hci
      cases hci
  have hwoken : s2.reconciliations = s1.reconciliations ∧ s2.ciTasks = s1.ciTasks := by
    rcases hwake with rfl | ⟨signal, b, -, hw⟩
    · exact ⟨rfl, rfl⟩
    · obtain ⟨_, _, rfl⟩ := recordRepositoryRunExternalWake_frame hw
      exact ⟨rfl, rfl⟩
  rcases hrecorded with hs' | ⟨signal, streamSequence, -, -, hr⟩
  · rw [hs']
    exact hwoken
  · obtain ⟨_, _, _, _, hs'⟩ := record_frame hr
    rw [hs']
    exact hwoken

/-- What is deferred and not overdue is settled. -/
theorem Deferred.settled {due j : Int} (h : Deferred due j head s) (hdue : unixMilli now < due)
    (ht : s.ciTasks.find? j = some t)
    (hwake : ∀ t ∈ s.ciTasks.rows, t.wakeDue now = true → (t.jobID, t.currentHeadSHA) ≠ (j, head)) :
    Settled now (.reconciliation j head) s := by
  obtain ⟨r, hr, hi⟩ := h
  refine ⟨⟨r, hr, hi.imp_right fun h => Int.lt_of_lt_of_le hdue h.2⟩, t, ht, fun hw => ?_⟩
  by_contra hne
  rw [not_or, Int.not_lt, not_not] at hne
  refine hwake t (Table.mem_of_find? ht) (by simp [CITaskRow.wakeDue, hw, hne.1]) ?_
  rw [Table.key_of_find? ht, hne.2]

/-- A deferral outlasts every step that does not disturb it. -/
theorem Deferred.steps {due j : Int} (hvalid : env.policy.1.isValid = true)
    (hd : Deferred due j head s) (ht : s.ciTasks.find? j = some t)
    (h : Steps env (Input.Undisturbing env (j, head) due) s s') :
    Deferred due j head s' ∧ ∃ t', s'.ciTasks.find? j = some t' := by
  induction h with
  | refl => exact ⟨hd, t, ht⟩
  | @tail s1 _ _ hstep ih =>
    obtain ⟨i, hi, rfl⟩ := hstep
    obtain ⟨hd, t, ht⟩ := ih
    cases i with
    | process delivery now =>
      have hframe : Post (fun _ _ => True) silentBroker (process env [] delivery now) s1 _ :=
        process_frame silentBroker hi
      obtain ⟨hrows, htasks⟩ := hframe.final
      simp only [Deferred, Input.step, hrows, htasks]
      exact ⟨hd, t, ht⟩
    | runOne tie now o =>
      have hsettled := hd.settled hi.1 ht hi.2
      have hwalk : Walks env now False (fun _ => True) o (runOne env tie now) s1 :=
        runOne_transactions tie
      have hkeeps := Transactions.keeps hvalid hwalk.final
      obtain ⟨-, t', ht', -⟩ := hkeeps.settled hsettled
      exact ⟨hkeeps.deferred due j head hi.1 hsettled hd, t', ht'⟩

/-- A retried observation is deferred by the retry delay. -/
theorem failCIReconciliation_deferred
    (hkey : work.operationKey = ciReconcileKey work.task.jobID work.headSHA)
    (h : failCIReconciliation policy work failure true now s = .ok s') :
    Deferred (unixMilli (now + preOutboxRetryDelay (work.operations + 1))) work.task.jobID
      work.headSHA s' ∧ s'.ciTasks = s.ciTasks := by
  simp only [failCIReconciliation, require_bind_eq_ok, expectOne_bind_eq_ok, if_true, pure_eq_ok]
    at h
  obtain ⟨-, hhit, rfl⟩ := h
  obtain ⟨r, hmem, hr⟩ := List.any_eq_true.mp hhit
  have hop : r.operationKey = work.operationKey := by
    simpa using (Bool.and_eq_true_iff.mp hr).1
  obtain ⟨hj, hh⟩ := ciReconcileKey_inj (hop.trans hkey)
  have hrow : s.reconciliations.find? (work.task.jobID, work.headSHA) = some r := by
    rw [← hj, ← hh]
    exact Table.find?_key hmem
  exact ⟨Table.exists_of_update hrow hr rfl (fun _ => rfl) (.inr ⟨rfl, Int.le_refl _⟩), rfl⟩

end Deferral

/-- No unit of work is repeated within one tick. Passes at one `now` that are steady and return
without an error leave what they ask about finished or due later, and no two of them ask about the
same unit. A reconciliation whose observation is to be retried is not claimed again before its
delay is over, as long as no CI event is recorded and its task is not overdue. -/
theorem runOne_unrepeated {env : Env} (hvalid : env.policy.1.isValid = true) (now : Int)
    (s : Store) :
    (∀ us s', TickPass env now s us s' → ∀ u ∈ us, Settled now u s') ∧
    (∀ uss s', Passes (TickPass env now) s uss s' → uss.Pairwise List.Disjoint) ∧
    ∀ (work : CIReconciliation) (t : CITaskRow) (failure : GoError) (s₁ s₂ : Store),
      work.operationKey = ciReconcileKey work.task.jobID work.headSHA →
      s.ciTasks.find? work.task.jobID = some t →
      failCIReconciliation env.policy.1 work failure true now s = .ok s₁ →
      Steps env (Input.Undisturbing env (work.task.jobID, work.headSHA)
        (unixMilli (now + preOutboxRetryDelay (work.operations + 1)))) s₁ s₂ →
      ∀ (tie : Nat) (later : Int) (again : CIReconciliation) (s₃ : Store),
        unixMilli later < unixMilli (now + preOutboxRetryDelay (work.operations + 1)) →
        (∀ t ∈ s₂.ciTasks.rows, t.wakeDue later = true →
          (t.jobID, t.currentHeadSHA) ≠ (work.task.jobID, work.headSHA)) →
        claimCIReconciliation tie later s₂ = .ok (some again, s₃) →
          again.operationKey ≠ work.operationKey := by
  have hsettling : Settling (Settled now) (TickPass env now) := tickPass_settling hvalid
  refine ⟨fun us s' h u hu => hsettling.settles h hu,
    fun uss s' h => hsettling.pairwise_disjoint h, ?_⟩
  intro work t failure s₁ s₂ hkey ht hfail hsteps tie later again s₃ hbefore hwake hclaim hsame
  obtain ⟨hd, htasks⟩ := failCIReconciliation_deferred hkey hfail
  obtain ⟨hd₂, t₂, ht₂⟩ := hd.steps hvalid (htasks ▸ ht) hsteps
  obtain ⟨hdue, hkey', -⟩ := claimCIReconciliation_due hclaim
  obtain ⟨hj, hh⟩ := ciReconcileKey_inj ((hkey'.symm.trans hsame).trans hkey)
  rw [hj, hh] at hdue
  exact hdue (hd₂.settled hbefore ht₂ hwake)

namespace Sample

/-- The store after the launched job became ready for review. -/
def ciWaitStore : Store := run env [readyPass (3 * second)] launchedStore

/-- A broker whose CI cannot be observed for now. -/
def unobserved : BrokerAnswers := answers completed (.ok ready) fun _ _ => .error unavailable

theorem ciWaitStore_reachable : Reachable env ciWaitStore := launchedStore_reachable.run _

/-- Before the deadline of the task, every pass is steady. -/
theorem unobserved_steady : Steady (4 * second) unobserved ciWaitStore where
  observed := by
    have hwake : ∀ t ∈ ciWaitStore.ciTasks.rows, t.wakeDue (4 * second) = false := by
      decide +kernel
    intro t ht h
    rw [hwake t ht] at h
    cases h
  projected := by
    have hhead : ciWaitStore.head = none := by decide +kernel
    intro r hr
    cases hhead.symm.trans hr
  attempted := by
    have hhead : ciWaitStore.head = none := by decide +kernel
    intro r ms hr
    cases hhead.symm.trans hr

end Sample

open Sample in
/-- An observation that fails before the deadline is settled for the tick. -/
theorem runOne_unrepeated_deferred :
    (exec unobserved (runOne env 0 (4 * second)) ciWaitStore).asked.map
        (fun x => x.1.unit) = [.reconciliation 1 (sha 97)] ∧
      Settled (4 * second) (.reconciliation 1 (sha 97))
        (exec unobserved (runOne env 0 (4 * second)) ciWaitStore).store := by
  have hasked : (exec unobserved (runOne env 0 (4 * second))
      ciWaitStore).asked.map (fun x => x.1.unit) = [.reconciliation 1 (sha 97)] := by decide +kernel
  have hok : (exec unobserved (runOne env 0 (4 * second))
      ciWaitStore).value.isOk = true := by decide +kernel
  have hvalid : env.policy.1.isValid = true := by decide +kernel
  refine ⟨hasked, (runOne_unrepeated hvalid (4 * second) ciWaitStore).1 _ _
    ⟨0, unobserved, unobserved_steady, ?_, rfl, rfl⟩ _ ?_⟩
  · cases hvalue : (exec unobserved (runOne env 0 (4 * second)) ciWaitStore).value with
    | ok b => exact ⟨b, rfl⟩
    | error e =>
      rw [hvalue] at hok
      cases hok
  · rw [hasked]
    exact List.mem_singleton_self _

open Sample in
/-- Past the deadline the same observation is asked for again at the same time, although the
first failure deferred it. -/
theorem runOne_observesAgain :
    let now := 100 * second
    let first := exec unobserved (runOne env 0 now) ciWaitStore
    let second := exec unobserved (runOne env 0 now) first.store
    Reachable env ciWaitStore ∧ env.policy.1.isValid = true ∧
      first.value.toOption = some true ∧ second.value.toOption = some true ∧
      first.asked.map (fun x => x.1.unit) = [.reconciliation 1 (sha 97)] ∧
      second.asked.map (fun x => x.1.unit) = [.reconciliation 1 (sha 97)] :=
  ⟨ciWaitStore_reachable, by decide +kernel, by decide +kernel, by decide +kernel,
    by decide +kernel, by decide +kernel⟩

end SignalPlane.Dispatcher
