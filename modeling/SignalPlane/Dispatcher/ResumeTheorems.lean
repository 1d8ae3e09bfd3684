/-
SignalPlane.Dispatcher.ResumeTheorems — following the run of a waiting job.

A job in `external_waiting` is polled like a launched one. When the broker
says that its run goes on or has ended, `runStatus` first marks the wait
resumed, and that update expects the wait row to be `resume_ready`. A run that
moved on without a wake therefore keeps its job waiting: every poll fails, and
the job blocks the launch line.

`followUp` says what the broker's answers call for, as a pure function:
another poll, a retry, a report, or the CI wait. `FollowUp.storable` says when
the store accepts it. `runStatus_follows_iff` is the result for every job of a
reachable state: the pass succeeds and takes the job out of `external_waiting`
exactly when the wait is ready and the follow-up can be stored.
-/
import SignalPlane.Dispatcher.Refinement
import SignalPlane.Dispatcher.ReconcileTheorems

namespace SignalPlane.Dispatcher

open Clock
open Workflow

/-! ## What the broker's answers call for -/

/-- The step after the poll of a run that no longer waits. -/
inductive FollowUp where
  | poll
  | retry
  | report (result : TerminalResult)
  | ciWait (pullNumber : Int) (headSHA : GoString) (projected : TerminalResult)
      (encoded : GoString)
  deriving DecidableEq

/-- The report of a failure before the outbox. -/
def FollowUp.failed (lib : GoLib) (job : Job) (stage : String) (failure : GoError) : FollowUp :=
  .report (preOutboxFailureResult lib job (lit stage) (safeBrokerError failure))

/-- The follow-up of a disposal, for a job whose failures are counted anew. -/
def Disposal.followUp (lib : GoLib) (job : Job) : Disposal → FollowUp
  | .fail stage failure retryable => if retryable then .retry else .failed lib job stage failure
  | .poll => .poll
  | .ciWait pullNumber headSHA projected encoded => .ciWait pullNumber headSHA projected encoded
  | .report r => .report r

/-- The follow-up of a status that is not `waiting_external`. -/
def followUp (env : Env) (job : Job) (result : RunStatus)
    (projection : Except GoError TerminalResult) : FollowUp :=
  (disposal env env.broker.projects job result projection).followUp env.lib job

/-- The follow-up does not depend on the status of the job. -/
theorem followUp_status (env : Env) (job : Job) (status : JobStatus) (result : RunStatus)
    (projection : Except GoError TerminalResult) :
    followUp env { job with status := status } result projection =
      followUp env job result projection := rfl

/-- What the store accepts. The CI wait needs arguments that `BeginCIWait` accepts and a task, the
stored one or else the new one, that matches them. -/
def FollowUp.storable (env : Env) (job : Job) (now : Int) (s : Store) : FollowUp → Prop
  | .poll => True
  | .retry => True
  | .report r => s.Reportable env.lib job r
  | .ciWait pullNumber headSHA projected encoded =>
    let deadline := now + env.policy.1.reconciliationWake
    ciWaitArguments env.lib job pullNumber projected.branch headSHA projected.profile deadline now
        encoded = true ∧
      ((s.ciTasks.find? job.id).getD (newTask job pullNumber projected.branch headSHA
        projected.profile deadline now encoded)).matchesCoordinates job pullNumber projected.branch
        headSHA projected.profile deadline encoded = true

/-! ## After the resume -/

/-- The store of a job that is launched again: its failures are counted anew, and it has neither a
terminal result nor a report. -/
structure LaunchedAgain (job : Job) (s : Store) : Prop where
  row : ∃ r, s.jobs.find? job.id = some r ∧ r.status = .launched ∧ r.preOutboxAttempts = 0
  terminal : s.terminalResults.find? job.id = none
  outbox : s.outbox.find? job.id = none

/-- The call succeeded and the job no longer waits. -/
def Followed (job : Job) (r : Except GoError JobStatus) (s : Store) : Prop :=
  (∃ state, r = .ok state) ∧
    (s.jobs.find? job.id).map JobRow.status ≠ some .externalWaiting

section After

variable {env : Env} {o : BrokerAnswers} {s s' : Store} {job : Job} {now : Int}

theorem not_followed_error {e : GoError} : ¬ Followed job (.error e) s := by
  simp [Followed]

/-- A transaction that ends the call is followed when it succeeds. -/
theorem settle_follows {op : Store → Except GoError Store} {state : JobStatus} {P : Prop}
    (hop : (∃ s', op s = .ok s') ↔ P) (hstatus : ∀ s', op s = .ok s' →
      (s'.jobs.find? job.id).map JobRow.status ≠ some .externalWaiting) :
    Post (fun _ _ => True) o (settle op state) s (fun r s' => Followed job r s' ↔ P) := by
  refine post_settle (fun s' h => iff_of_true ⟨⟨_, rfl⟩, hstatus s' h⟩ (hop.mp ⟨s', h⟩))
    fun e he => iff_of_false not_followed_error fun hP => ?_
  obtain ⟨s', hs'⟩ := hop.mpr hP
  cases he.symm.trans hs'

theorem queueTerminalResult_status {lib : GoLib} {r : TerminalResult}
    (h : queueTerminalResult lib job r now s = .ok s') :
    (s'.jobs.find? job.id).map JobRow.status ≠ some .externalWaiting := by
  obtain ⟨-, body, -, h⟩ := queueTerminalResult_ok.mp h
  obtain ⟨hhit, rfl⟩ := storeTerminalResult_ok h
  obtain ⟨row, hrow, hr⟩ := Table.hits_iff.mp hhit
  simp [hrow, hr]

/-- A failure before the outbox is counted for a job that is launched again. -/
theorem markPreOutboxFailure_again (hs : LaunchedAgain job s) (due : Int) (message : GoString) :
    ∃ s1, markPreOutboxFailure job.id .reportPending due message now s = .ok (1, s1) ∧
      s1.terminalResults = s.terminalResults ∧ s1.outbox = s.outbox ∧
      ∃ r, s1.jobs.find? job.id = some r ∧ r.status = .reportPending := by
  obtain ⟨row, hrow, hlaunched, hcount⟩ := hs.row
  have hterminal : s.hasTerminal job.id = false := by simp [Store.hasTerminal, hs.terminal]
  have hpoll : row.isPollResult = true := by simp [JobRow.isPollResult, hlaunched]
  obtain ⟨jobs, hmark, hfind⟩ :=
    markPreOutboxFailure_counts (.inr rfl) hrow hpoll hterminal due message now
  rw [hcount] at hmark
  exact ⟨_, hmark, rfl, rfl, _, hfind, rfl⟩

/-- A failure that cannot be retried is followed when its report can be stored. -/
theorem preOutboxFailure_follows (hs : LaunchedAgain job s) (stage : String) (failure : GoError) :
    Post (fun _ _ => True) o
      (reconcilePreOutboxFailure env job .reportPending stage failure false now) s
      (fun r s' => Followed job r s' ↔
        (FollowUp.failed env.lib job stage failure).storable env job now s) := by
  obtain ⟨s1, hmark, hterminal, houtbox, row, hrow, hpending⟩ := markPreOutboxFailure_again hs
    (now + preOutboxRetryDelay (job.preOutboxAttempts + 1)) (safeBrokerError failure)
  have hqueue : (∃ s', queuePreOutboxFailure env.lib job (lit stage) (safeBrokerError failure) now
      s1 = .ok s') ↔ (FollowUp.failed env.lib job stage failure).storable env job now s := by
    rw [queuePreOutboxFailure, queueTerminalResult_succeeds_iff hrow
      (by simp [JobRow.acceptsResult, hpending])
      (by simp [Store.hasTerminal, hterminal, hs.terminal])]
    simp only [Store.Reportable, FollowUp.storable, FollowUp.failed, Store.reportKeyTaken, houtbox]
  unfold reconcilePreOutboxFailure
  refine post_bind.mpr (post_atomic ?_ ?_)
  · intro attempts s2 h
    cases h.symm.trans hmark
    simp only [Bool.false_and, Bool.false_eq_true, if_false]
    exact settle_follows hqueue fun s3 h3 => queueTerminalResult_status h3
  · exact fun e h => absurd (h.symm.trans hmark) (by simp)

/-- A failure that may be retried is followed. -/
theorem preOutboxFailure_retried (hs : LaunchedAgain job s) (stage : String) (failure : GoError) :
    Post (fun _ _ => True) o
      (reconcilePreOutboxFailure env job .reportPending stage failure true now) s
      (fun r s' => Followed job r s' ↔ FollowUp.retry.storable env job now s) := by
  obtain ⟨s1, hmark, -, -, row, hrow, hpending⟩ := markPreOutboxFailure_again hs
    (now + preOutboxRetryDelay (job.preOutboxAttempts + 1)) (safeBrokerError failure)
  unfold reconcilePreOutboxFailure
  refine post_bind.mpr (post_atomic ?_ ?_)
  · intro attempts s2 h
    cases h.symm.trans hmark
    refine post_pure.mpr (iff_of_true ⟨⟨_, rfl⟩, ?_⟩ trivial)
    simp [hrow, hpending]
  · exact fun e h => absurd (h.symm.trans hmark) (by simp)

/-- The rest of the call is followed exactly when the store accepts the follow-up. -/
theorem settleRun_follows (hs : LaunchedAgain job s) (result : RunStatus) :
    Post (fun _ _ => True) o (settleRun env env.broker.projects job result now) s
      (fun r s' => Followed job r s' ↔ (followUp env job result
        (o ⟨.poll job.id, .terminalResult job.brokerRunID⟩)).storable env job now s) := by
  obtain ⟨row, hrow, hlaunched, -⟩ := hs.row
  refine post_settleRun trivial fun d hd => ?_
  simp only [followUp, hd]
  cases d with
  | fail stage failure retryable =>
    cases retryable with
    | true => exact preOutboxFailure_retried hs stage failure
    | false => exact preOutboxFailure_follows hs stage failure
  | poll =>
    have hpoll : row.isPollResult = true := by simp [JobRow.isPollResult, hlaunched]
    refine settle_follows (iff_of_true ?_ trivial) fun s' h => ?_
    · simp only [markStatus, expectOne_bind_eq_ok, pure_eq_ok]
      exact ⟨_, Table.hits_iff.mpr ⟨row, hrow, hpoll⟩, rfl⟩
    · simp only [markStatus, expectOne_bind_eq_ok, pure_eq_ok] at h
      obtain ⟨-, rfl⟩ := h
      simp [Store.updateJob, hrow, hpoll]
  | ciWait =>
    refine settle_follows ?_ fun s' h => ?_
    · simp only [beginCIWait, require_bind_eq_ok, pure_eq_ok]
      constructor
      · rintro ⟨s', harguments, -, hmatches, -⟩
        exact ⟨harguments, hmatches⟩
      · rintro ⟨harguments, hmatches⟩
        exact ⟨_, harguments, .inr (by simp [hrow]), hmatches, rfl⟩
    · simp only [beginCIWait, require_bind_eq_ok, pure_eq_ok] at h
      obtain ⟨-, -, -, rfl⟩ := h
      simp [hrow, JobRow.entersCIWait, hlaunched]
  | report projected =>
    exact settle_follows (queueTerminalResult_succeeds_iff hrow
      (by simp [JobRow.acceptsResult, hlaunched]) (by simp [Store.hasTerminal, hs.terminal]))
      fun s' h => queueTerminalResult_status h

/-- The wait of the job is one that the resume finds. -/
def WaitReady (job : Job) (s : Store) : Prop :=
  ∃ w, s.externalWaits.find? job.id = some w ∧ w.brokerRunID = job.brokerRunID ∧
    w.state = .resumeReady

/-- The resume of a waiting job succeeds when its wait is ready, and the job is launched again. -/
theorem reconcileResume_again {row : JobRow} (now : Int) (hwf : (s.view row.id).WellFormed)
    (hrow : s.jobs.find? row.id = some row) (hwaiting : row.status = .externalWaiting) :
    ((∃ s1, reconcileRepositoryRunExternalResume row.toJob now s = .ok s1) ↔
      WaitReady row.toJob s) ∧
    ∀ s1, reconcileRepositoryRunExternalResume row.toJob now s = .ok s1 →
      LaunchedAgain row.toJob s1 ∧ s1.outbox = s.outbox ∧ s1.ciTasks = s.ciTasks := by
  have hwaits : row.waitsOn row.brokerRunID = true := by simp [JobRow.waitsOn, hwaiting]
  have hhit : s.jobs.hits row.id (fun r => r.waitsOn row.brokerRunID) = true :=
    Table.hits_iff.mpr ⟨row, hrow, hwaits⟩
  have hpolled : (s.view row.id).polled := (Store.view_polled hrow).mpr (.inr (.inl hwaiting))
  have hreported : s.terminalResults.find? row.id = none := by
    simpa [Store.view, Store.hasTerminal] using (hwf.polled hpolled).2.1
  have houtboxed : s.outbox.find? row.id = none := by
    have := hwf.outboxed
    simpa [Store.view, Store.hasTerminal, hreported] using this
  simp only [reconcileRepositoryRunExternalResume, resumeExternalWait, expectOne_bind_eq_ok,
    pure_eq_ok]
  constructor
  · constructor
    · rintro ⟨s1, hwait, -, -⟩
      obtain ⟨w, hw, hp⟩ := Table.hits_iff.mp hwait
      simp only [Bool.and_eq_true, decide_eq_true_eq] at hp
      exact ⟨w, hw, hp.1, hp.2⟩
    · rintro ⟨w, hw, hrun, hready⟩
      exact ⟨_, Table.hits_iff.mpr ⟨w, hw, by simp [hrun, hready]⟩, hhit, rfl⟩
  · rintro s1 ⟨-, -, rfl⟩
    refine ⟨⟨?_, hreported, houtboxed⟩, rfl, rfl⟩
    have hfind : row.toJob.id = row.id := rfl
    have hrun : row.toJob.brokerRunID = row.brokerRunID := rfl
    simp [hfind, hrun, hrow, hwaits]

end After

/-- `ReconcileStatusResult` for a waiting job whose run has moved on. -/
theorem reconcileStatusResult_follows {env : Env} {o : BrokerAnswers} {s : Store} {row : JobRow}
    {now : Int} {result : RunStatus} (hwf : (s.view row.id).WellFormed)
    (hrow : s.jobs.find? row.id = some row) (hwaiting : row.status = .externalWaiting)
    (hrun : ¬ (result.runID = [] ∨ result.runID ≠ row.toJob.brokerRunID))
    (hmoved : result.status ≠ lit "waiting_external") :
    Post (fun _ _ => True) o (reconcileStatusResult env env.broker.projects row.toJob result now) s
      (fun r s' => Followed row.toJob r s' ↔ WaitReady row.toJob s ∧ (followUp env row.toJob result
        (o ⟨.poll row.id, .terminalResult row.brokerRunID⟩)).storable env row.toJob now s) := by
  obtain ⟨hready, hagain⟩ := reconcileResume_again now hwf hrow hwaiting
  have hstatus : row.toJob.status = .externalWaiting := hwaiting
  unfold reconcileStatusResult
  rw [if_neg hrun, if_neg hmoved, if_pos hstatus]
  refine post_bind.mpr (post_commit ?_ ?_)
  · intro s1 hresume
    obtain ⟨hs1, houtbox, htasks⟩ := hagain s1 hresume
    have hlaunched : LaunchedAgain { row.toJob with status := .launched } s1 :=
      ⟨hs1.row, hs1.terminal, hs1.outbox⟩
    refine post_mono (settleRun_follows hlaunched result) fun r s' hfollowed => ?_
    have hstorable : ∀ f : FollowUp, f.storable env { row.toJob with status := .launched } now s1 ↔
        f.storable env row.toJob now s := by
      intro f
      cases f with
      | poll | retry => rfl
      | report r =>
        simp only [FollowUp.storable, Store.Reportable, Store.reportKeyTaken, houtbox]; rfl
      | ciWait n head projected encoded => simp only [FollowUp.storable, htasks]; rfl
    let projection : Except GoError TerminalResult :=
      o ⟨.poll row.id, .terminalResult row.brokerRunID⟩
    have hsame : (followUp env { row.toJob with status := .launched } result projection).storable
        env { row.toJob with status := .launched } now s1 ↔
        (followUp env row.toJob result projection).storable env row.toJob now s := by
      rw [followUp_status]
      exact hstorable _
    exact (hfollowed.trans hsame).trans (iff_and_self.mpr fun _ => hready.mp ⟨s1, hresume⟩)
  · intro e he
    refine post_pure.mpr (iff_of_false not_followed_error ?_)
    rintro ⟨hwait, -⟩
    obtain ⟨s1, hresume⟩ := hready.mpr hwait
    cases he.symm.trans hresume

/-- A waiting job follows its run exactly when its wait is ready and the store accepts what the
broker's answers call for. -/
theorem runStatus_follows_iff {env : Env} {o : BrokerAnswers} {s s' : Store} {job : Job} {now : Int}
    {result : RunStatus} {status : JobStatus} (h : Reachable env s)
    (hclaim : claimDue now s = .ok (some ⟨.status, job⟩, s'))
    (hwaiting : job.status = .externalWaiting)
    (hanswer : o ⟨.poll job.id, .status job.brokerRunID⟩ = .ok result)
    (hrun : result.runID = job.brokerRunID)
    (hstatus : reconciledStatus result.status = .ok status) :
    ((∃ worked, (exec o (runStatus env job now) s').value = .ok worked) ∧
      ((exec o (runStatus env job now) s').store.jobs.find? job.id).map JobRow.status ≠
        some .externalWaiting) ↔
      WaitReady job s ∧ (followUp env job result
        (o ⟨.poll job.id, .terminalResult job.brokerRunID⟩)).storable env job now s := by
  obtain ⟨hnone, -⟩ | ⟨row, hhead, -, ⟨-, hwork, rfl⟩ | ⟨-, hwork, -⟩⟩ := claimDue_cases hclaim
  · cases hnone
  · obtain rfl : job = row.toJob := by simpa using hwork
    obtain ⟨hrow, -⟩ := Store.head_row hhead
    have hwf := Reachable.wellFormed h row.id
    have hpolled := (Store.view_polled hrow).mpr (.inr (.inl hwaiting))
    have hid : row.brokerRunID ≠ [] := Store.view_runID hrow ▸ (hwf.polled hpolled).1
    have hcorrelated : ¬ (result.runID = [] ∨ result.runID ≠ row.toJob.brokerRunID) := by
      rintro (h | h)
      · exact hid (hrun.symm.trans h)
      · exact h hrun
    have hmoved := ne_waiting_of_reconciledStatus hstatus
    suffices hpost : Post (fun _ _ => True) o (runStatus env row.toJob now) s'
        (fun r s'' => ((∃ worked, r = .ok worked) ∧
          (s''.jobs.find? row.id).map JobRow.status ≠ some .externalWaiting) ↔
          WaitReady row.toJob s' ∧ (followUp env row.toJob result
            (o ⟨.poll row.id, .terminalResult row.brokerRunID⟩)).storable env row.toJob now s') from
      hpost.final
    unfold runStatus
    refine post_bind.mpr (post_request.mpr ⟨trivial, ?_⟩)
    rw [hanswer]
    dsimp only
    rw [if_neg hcorrelated, if_neg hmoved]
    refine post_bind.mpr (post_mono (reconcileStatusResult_follows hwf hrow hwaiting hcorrelated
      hmoved) fun r s'' hfollowed => post_pure.mpr ?_)
    rw [← hfollowed]
    cases r with
    | error e => simp [Followed, Except.map]
    | ok state => simp [Followed, Except.map, JobRow.toJob]
  · simp at hwork

/-- The waiting job of the sample run. -/
def Sample.waitingJob : Job := { Sample.job with status := .externalWaiting }

open Sample in
/-- The run of the waiting sample job ends without a wake: the poll fails. -/
theorem runStatus_keepsWaiting :
    Reachable env waitingStore ∧
      claimDue (2 * minute) waitingStore = .ok (some ⟨.status, waitingJob⟩, waitingStore) ∧
      waitingJob.status = .externalWaiting ∧ wholeMilli (2 * minute) ∧
      finished.runID = waitingJob.brokerRunID ∧
      reconciledStatus finished.status = .ok .completed ∧
      (exec (answers completed (.ok ready) green)
        (runStatus env waitingJob (2 * minute)) waitingStore).value =
        .error (newError ("reconcile repository run external resume" ++
          ": expected one lifecycle row, updated 0")) :=
  ⟨waitingStore_reachable, by decide +kernel⟩

/-- The store after an issue event woke the waiting job. -/
def Sample.wokenStore : Store := run env [deliver 2 (4 * second)] waitingStore

open Sample in
/-- After the wake the same poll takes the job on. -/
theorem runStatus_followsWoken :
    ((exec (answers completed (.ok ready) green)
      (runStatus env waitingJob (5 * second)) wokenStore).store.jobs.find?
        waitingJob.id).map JobRow.status ≠ some .externalWaiting := by
  have hclaim : claimDue (5 * second) wokenStore =
      .ok (some ⟨.status, waitingJob⟩, wokenStore) := by decide +kernel
  have hready : WaitReady waitingJob wokenStore := by
    have hrow : ∃ w ∈ wokenStore.externalWaits.rows, w.jobID = waitingJob.id ∧
        w.brokerRunID = lit "run-1" ∧ w.state = .resumeReady := by decide +kernel
    obtain ⟨w, hw, hid, hrun, hstate⟩ := hrow
    exact ⟨w, hid ▸ Table.find?_key hw, hrun, hstate⟩
  have hfollow : followUp env waitingJob finished
      (answers completed (.ok ready) green
        ⟨.poll waitingJob.id, .terminalResult waitingJob.brokerRunID⟩) =
      .ciWait 7 (sha 97) ready (lit "\x7b\x7d") := by decide +kernel
  have hstatus : reconciledStatus finished.status = .ok .completed := by decide
  have hanswer : answers completed (.ok ready) green
      ⟨.poll waitingJob.id, .status waitingJob.brokerRunID⟩ = .ok finished := rfl
  have hreachable : Reachable env wokenStore :=
    waitingStore_reachable.run [deliver 2 (4 * second)]
  have hrun : finished.runID = waitingJob.brokerRunID := by decide +kernel
  have hiff := runStatus_follows_iff hreachable hclaim rfl hanswer hrun hstatus
  rw [hfollow] at hiff
  exact (hiff.mpr ⟨hready, by decide +kernel, by decide +kernel⟩).2

end SignalPlane.Dispatcher
