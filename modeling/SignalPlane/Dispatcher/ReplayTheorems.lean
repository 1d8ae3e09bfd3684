/-
SignalPlane.Dispatcher.ReplayTheorems — repeating `ReconcileStatusResult`.

A call that succeeded is repeated later with the same job value, the same
broker status and the same valid projection. `reconcileStatusResult_replay_iff`
says when the second call succeeds with the same state and leaves the stored
results as they are: exactly on the path that queues the projected result,
whose stored row does not depend on the clock. The other paths do not repeat.
A failure before the outbox finds the result it stored itself. A wait that was
resumed cannot be resumed again. And the CI wait compares the stored deadline
with one computed from the new clock reading.
-/
import SignalPlane.Dispatcher.Refinement

namespace SignalPlane.Dispatcher

open Clock
open Workflow

/-- The tables of results, reports, CI tasks and reconciliations agree. -/
structure SameResults (s s' : Store) : Prop where
  terminalResults : s'.terminalResults = s.terminalResults
  outbox : s'.outbox = s.outbox
  ciTasks : s'.ciTasks = s.ciTasks
  reconciliations : s'.reconciliations = s.reconciliations

section Replay

variable {env : Env} {o : BrokerAnswers} {s s₁ : Store} {job : Job} {t t' : Int}

/-! ## The path that repeats -/

theorem storeTerminalResult_replay {r : TerminalResult} {body key : GoString}
    (h : storeTerminalResult job r body key t s = .ok s₁) (t' : Int) :
    ∃ s2, storeTerminalResult job r body key t' s₁ = .ok s2 ∧ SameResults s₁ s2 := by
  simp only [storeTerminalResult, require_bind_eq_ok, pure_eq_ok] at h
  obtain ⟨_, hresult, _, hreport, hhit, rfl⟩ := h
  obtain ⟨row, hrow, hr⟩ := Table.hits_iff.mp hhit
  -- The rows of the first call are found again, whatever the time of the second.
  have hfound : (s.terminalResults.insert (r.toRow job.id t)).find? job.id =
      some ((s.terminalResults.find? job.id).getD (r.toRow job.id t)) :=
    Table.find?_insert_self s.terminalResults (r.toRow job.id t)
  have hfound' : (s.outbox.insert (s.newOutboxRow job.id r.version body key t)).find? job.id =
      some ((s.outbox.find? job.id).getD (s.newOutboxRow job.id r.version body key t)) :=
    Table.find?_insert_self s.outbox (s.newOutboxRow job.id r.version body key t)
  simp only [storeTerminalResult, require_bind_eq_ok, pure_eq_ok, hfound, hfound', Option.getD_some]
  refine ⟨_, ⟨?_, hresult, ?_, hreport, ?_, rfl⟩, ?_, ?_, rfl, rfl⟩
  · simp [hrow]
  · simp
  · refine Table.hits_updateKey_self hhit ?_
    exact fun _ _ => rfl
  · exact Table.insert_of_find? hfound
  · exact Table.insert_of_find? hfound'

theorem queueTerminalResult_replay {r : TerminalResult}
    (h : queueTerminalResult env.lib job r t s = .ok s₁) (t' : Int) :
    ∃ s2, queueTerminalResult env.lib job r t' s₁ = .ok s2 ∧ SameResults s₁ s2 := by
  obtain ⟨hvalid, body, hbody, hstore⟩ := queueTerminalResult_ok.mp h
  obtain ⟨s2, hstore2, hsame⟩ := storeTerminalResult_replay hstore t'
  exact ⟨s2, queueTerminalResult_ok.mpr ⟨hvalid, body, hbody, hstore2⟩, hsame⟩

/-! ## The paths that do not -/

/-- What `QueueTerminalResult` stores besides the job row. -/
theorem queueTerminalResult_frame {r : TerminalResult}
    (h : queueTerminalResult env.lib job r t s = .ok s₁) :
    s₁.hasTerminal job.id = true ∧ s₁.externalWaits = s.externalWaits := by
  obtain ⟨-, body, -, h⟩ := queueTerminalResult_ok.mp h
  obtain ⟨-, rfl⟩ := storeTerminalResult_ok h
  exact ⟨Option.isSome_iff_exists.mpr ⟨_, Table.find?_insert_self s.terminalResults _⟩, rfl⟩

/-- A failure before the outbox that cannot be retried stores a result when it succeeds. -/
theorem preOutboxFailure_stores (stage : String) (failure : GoError) :
    Post (fun _ _ => True) o
      (reconcilePreOutboxFailure env job .reportPending stage failure false t) s
      (fun r s' => ∀ state, r = .ok state → s'.hasTerminal job.id = true) :=
  post_reconcilePreOutboxFailure (by simp) fun _ _ _ =>
    ⟨by simp, by simp, fun _ _ h _ _ => (queueTerminalResult_frame h).1⟩

/-- Once there is a result, such a failure is refused. -/
theorem preOutboxFailure_refused (hterminal : s.hasTerminal job.id = true) (stage : String)
    (failure : GoError) :
    Post (fun _ _ => True) o
      (reconcilePreOutboxFailure env job .reportPending stage failure false t) s
      (fun r _ => ∀ state, r ≠ .ok state) := by
  refine post_reconcilePreOutboxFailure (by simp) fun attempts s₁ h => ?_
  obtain ⟨-, -, -, -, hnone, -⟩ := markPreOutboxFailure_ok.mp h
  exact absurd hterminal (by simp [hnone])

/-- A CI wait that was entered is not entered again under another deadline. -/
theorem beginCIWait_refused {pullNumber pullNumber' deadline deadline' : Int}
    {branch headSHA agentModel encoded branch' headSHA' agentModel' encoded' : GoString}
    (h : beginCIWait env.lib job pullNumber branch headSHA agentModel deadline t encoded s = .ok s₁)
    (hne : deadline' ≠ deadline) (s2 : Store) :
    beginCIWait env.lib job pullNumber' branch' headSHA' agentModel' deadline' t' encoded' s₁ ≠
      .ok s2 := by
  simp only [beginCIWait, require_bind_eq_ok, pure_eq_ok] at h
  obtain ⟨-, -, hmatch, rfl⟩ := h
  intro h'
  simp only [beginCIWait, require_bind_eq_ok] at h'
  obtain ⟨-, -, hmatch', -⟩ := h'
  have hfound : (s.ciTasks.insert (newTask job pullNumber branch headSHA agentModel deadline t
      encoded)).find? job.id = some ((s.ciTasks.find? job.id).getD (newTask job pullNumber branch
        headSHA agentModel deadline t encoded)) := Table.find?_insert_self s.ciTasks _
  rw [hfound, Option.getD_some] at hmatch'
  simp only [CITaskRow.matchesCoordinates, Bool.and_eq_true, decide_eq_true_eq] at hmatch hmatch'
  exact hne (hmatch'.1.2.symm.trans hmatch.1.2)

/-- A wait that was resumed is not resumed again. -/
theorem reconcileResume_refused
    (h : reconcileRepositoryRunExternalResume job t s = .ok s₁) {s2 : Store}
    (hwaits : s2.externalWaits = s₁.externalWaits) (s3 : Store) :
    reconcileRepositoryRunExternalResume job t' s2 ≠ .ok s3 := by
  simp only [reconcileRepositoryRunExternalResume, resumeExternalWait, expectOne_bind_eq_ok,
    pure_eq_ok] at h
  obtain ⟨hhit, -, rfl⟩ := h
  obtain ⟨w, hw, hp⟩ := Table.hits_iff.mp hhit
  intro h'
  simp only [reconcileRepositoryRunExternalResume, resumeExternalWait, expectOne_bind_eq_ok,
    hwaits] at h'
  obtain ⟨w', hw', hp'⟩ := Table.hits_iff.mp h'.1
  rw [Table.find?_updateKey_self, hw] at hw'
  simp only [Option.map_some, if_pos hp, Option.some.injEq] at hw'
  subst hw'
  simp at hp'

/-- What follows the resume of a wait leaves the wait rows alone. -/
theorem settleRun_externalWaits (projects : Bool) (result : RunStatus) :
    Post (fun _ _ => True) o (settleRun env projects job result t) s
      (fun _ s' => s'.externalWaits = s.externalWaits) := by
  refine post_settleRun trivial fun d _ => ?_
  cases d with
  | fail =>
    refine post_reconcilePreOutboxFailure (fun _ => rfl) fun attempts s₁ h => ?_
    obtain ⟨-, -, -, -, -, -, rfl⟩ := markPreOutboxFailure_ok.mp h
    exact ⟨fun _ => rfl, fun _ => rfl, fun r s2 h2 => (queueTerminalResult_frame h2).2⟩
  | poll =>
    refine post_settle (fun s' h => ?_) fun _ _ => rfl
    simp only [markStatus, expectOne_bind_eq_ok, pure_eq_ok] at h
    obtain ⟨-, rfl⟩ := h
    rfl
  | ciWait =>
    refine post_settle (fun s' h => ?_) fun _ _ => rfl
    simp only [beginCIWait, require_bind_eq_ok, pure_eq_ok] at h
    obtain ⟨-, -, -, rfl⟩ := h
    rfl
  | report => exact post_settle (fun s' h => (queueTerminalResult_frame h).2) fun _ _ => rfl

/-! ## Both calls together -/

section Projection

variable {result : RunStatus} {status : JobStatus} {projected : TerminalResult}

/-- The disposals that cannot be repeated: a failure that is not retried, and the CI wait. -/
inductive Disposal.Single : Disposal → Prop where
  | fail (stage : String) (failure : GoError) : Single (.fail stage failure false)
  | ciWait (pullNumber : Int) (headSHA : GoString) (projected : TerminalResult)
      (encoded : GoString) : Single (.ciWait pullNumber headSHA projected encoded)

/-- A finished run whose projection is valid is reported, or it is disposed of once. -/
theorem disposal_of_valid (hstatus : reconciledStatus result.status = .ok status)
    (hfinal : status ≠ .launched) (hvalid : validateTerminalResult env.lib job projected = .ok ()) :
    (∃ body, renderTerminalComment env.lib job projected = .ok body) ∧
        ¬ (projected.outcome = lit "ready_for_review" ∧ env.policy.1.isValid = true) ∨
      (disposal env true job result (.ok projected)).Single := by
  simp only [disposal, hstatus, if_neg hfinal, if_true, finishedDisposal, hvalid]
  cases renderTerminalComment env.lib job projected with
  | error e => exact .inr (.fail _ e)
  | ok body =>
    dsimp only [projectionDisposal]
    split
    · refine .inr ?_
      cases env.lib.marshalTerminalResult projected with
      | error e => exact .fail _ e
      | ok encoded =>
        dsimp only
        split
        · exact .fail _ _
        · exact .ciWait _ _ _ _
    · next hreview => exact .inl ⟨⟨body, rfl⟩, by simpa using hreview⟩

/-- Such a disposal is refused once it succeeded: a failure finds the result it stored, the CI wait
another deadline. -/
theorem Disposal.Single.once {d : Disposal} (hd : d.Single) :
    Post (fun _ _ => True) o (d.run env job t) s (fun r s₁ =>
      ∀ state, r = .ok state → ∀ t', t < t' →
        Post (fun _ _ => True) o (d.run env job t') s₁ (fun r _ => ∀ state, r ≠ .ok state)) := by
  cases hd with
  | fail stage e =>
    exact post_mono (preOutboxFailure_stores stage e) fun _ _ hs1 state hr _ _ =>
      preOutboxFailure_refused (hs1 state hr) stage e
  | ciWait =>
    refine post_settle (fun s₁ hbegin _ _ t' ht => ?_) (by simp)
    exact post_settle (fun s2 h => absurd h (beginCIWait_refused hbegin (by omega) s2)) (by simp)

theorem settleRun_once
    (hanswer : o ⟨.poll job.id, .terminalResult job.brokerRunID⟩ = .ok projected)
    (hsingle : (disposal env true job result (.ok projected)).Single) :
    Post (fun _ _ => True) o (settleRun env true job result t) s (fun r s₁ =>
      ∀ state, r = .ok state → ∀ t', t < t' →
        Post (fun _ _ => True) o (settleRun env true job result t') s₁
          (fun r _ => ∀ state, r ≠ .ok state)) := by
  refine post_settleRun trivial fun d hd => ?_
  rw [hanswer] at hd
  subst hd
  refine post_mono hsingle.once fun r s₁ h state hr t' ht => ?_
  refine post_settleRun trivial fun d hd => ?_
  rw [hanswer] at hd
  subst hd
  exact h state hr t' ht

/-- A projection that is to be reported goes to `QueueTerminalResult`. -/
theorem settleRun_queues (hd : disposal env true job result
      (o ⟨.poll job.id, .terminalResult job.brokerRunID⟩) = .report projected) :
    Post (fun _ _ => True) o (settleRun env true job result t) s (fun r s' =>
      queueTerminalResult env.lib job projected t s = .ok s' ∧ r = .ok .reportPending ∨
      ∃ e, queueTerminalResult env.lib job projected t s = .error e ∧ r = .error e) := by
  refine post_settleRun trivial fun d hd' => ?_
  cases hd.symm.trans hd'
  exact post_settle (fun s' h => .inl ⟨h, rfl⟩) fun e h => .inr ⟨e, h, rfl⟩

/-- Apart from the path through `QueueTerminalResult`, a call that succeeded is refused later. -/
theorem reconcileStatusResult_once (hstatus : reconciledStatus result.status = .ok status)
    (hanswer : o ⟨.poll job.id, .terminalResult job.brokerRunID⟩ = .ok projected)
    (hpath : ¬ (result.runID = [] ∨ result.runID ≠ job.brokerRunID) →
      job.status ≠ .externalWaiting → (disposal env true job result (.ok projected)).Single) :
    Post (fun _ _ => True) o (reconcileStatusResult env true job result t) s (fun r s₁ =>
      ∀ state, r = .ok state → ∀ t', t < t' →
        Post (fun _ _ => True) o (reconcileStatusResult env true job result t') s₁
          (fun r _ => ∀ state, r ≠ .ok state)) := by
  have hwaiting := ne_waiting_of_reconciledStatus hstatus
  by_cases hrun : result.runID = [] ∨ result.runID ≠ job.brokerRunID
  · simp only [reconcileStatusResult, if_pos hrun]
    exact Disposal.Single.once (.fail _ _)
  · simp only [reconcileStatusResult, if_neg hrun, if_neg hwaiting]
    by_cases hext : job.status = .externalWaiting
    · simp only [if_pos hext]
      refine post_bind.mpr (post_commit ?_ fun e _ => post_pure.mpr (by simp))
      intro s₁ hresume
      refine post_mono (settleRun_externalWaits true result) fun r s2 hwaits state hr t' _ => ?_
      refine post_bind.mpr (post_commit ?_ fun e _ => post_pure.mpr (by simp))
      exact fun s3 h => absurd h (reconcileResume_refused hresume hwaits s3)
    · simp only [if_neg hext]
      exact settleRun_once hanswer (hpath hrun hext)

/-- A terminal reconciliation that succeeded can be repeated later, with the same state and the
same stored results, exactly when it queued the projected result. -/
theorem reconcileStatusResult_replay_iff {state : JobStatus}
    (hstatus : reconciledStatus result.status = .ok status) (hfinal : status ≠ .launched)
    (hanswer : o ⟨.poll job.id, .terminalResult job.brokerRunID⟩ = .ok projected)
    (hvalid : validateTerminalResult env.lib job projected = .ok ())
    (hfirst : (exec o (reconcileStatusResult env true job result t) s).value = .ok state)
    (ht : t < t') :
    ((exec o (reconcileStatusResult env true job result t')
          (exec o (reconcileStatusResult env true job result t) s).store).value = .ok state ∧
      SameResults (exec o (reconcileStatusResult env true job result t) s).store
        (exec o (reconcileStatusResult env true job result t')
          (exec o (reconcileStatusResult env true job result t) s).store).store) ↔
      (result.runID ≠ [] ∧ result.runID = job.brokerRunID) ∧ job.status ≠ .externalWaiting ∧
        (∃ body, renderTerminalComment env.lib job projected = .ok body) ∧
        ¬ (projected.outcome = lit "ready_for_review" ∧ env.policy.1.isValid = true) := by
  constructor
  · rintro ⟨hsecond, -⟩
    by_contra hpath
    refine (reconcileStatusResult_once hstatus hanswer fun hrun hext => ?_).final state hfirst t' ht
      |>.final state hsecond
    rcases disposal_of_valid hstatus hfinal hvalid with ⟨hbody, hreview⟩ | hsingle
    · exact absurd ⟨by simpa using hrun, hext, hbody, hreview⟩ hpath
    · exact hsingle
  · rintro ⟨⟨hid, hrun⟩, hext, ⟨body, hbody⟩, hreview⟩
    have hcall : ∀ t, reconcileStatusResult env true job result t =
        settleRun env true job result t := by
      intro t
      simp [reconcileStatusResult, ← hrun, hid, ne_waiting_of_reconciledStatus hstatus, hext]
    have hd : disposal env true job result (o ⟨.poll job.id, .terminalResult job.brokerRunID⟩) =
        .report projected := by
      simp [disposal, finishedDisposal, projectionDisposal, hanswer, hstatus, hfinal, hvalid, hbody,
        hreview]
    simp only [hcall] at hfirst ⊢
    obtain ⟨hqueue, hr⟩ | ⟨e, -, hr⟩ := (settleRun_queues (s := s) (t := t) hd).final
    · generalize (exec o (settleRun env true job result t) s).store = s₁ at *
      obtain ⟨s₂, hqueue₂, hsame⟩ := queueTerminalResult_replay hqueue t'
      obtain ⟨h₂, hr₂⟩ | ⟨e, h₂, -⟩ := (settleRun_queues (s := s₁) (t := t') hd).final
      · cases hqueue₂.symm.trans h₂
        exact ⟨hr₂.trans (hr.symm.trans hfirst), hsame⟩
      · cases hqueue₂.symm.trans h₂
    · cases hr.symm.trans hfirst

end Projection

end Replay

open Sample in
/-- The result that is ready for review, reconciled a second time one second later: the stored
deadline differs from the new one. -/
theorem reconcileStatusResult_refused :
    validateTerminalResult lib job Sample.ready = .ok () ∧
      (exec (answers completed (.ok Sample.ready) green)
        (reconcileStatusResult env true job finished (3 * second))
        launchedStore).value = .ok .ciWaiting ∧
      (exec (answers completed (.ok Sample.ready) green)
        (reconcileStatusResult env true job finished (4 * second))
        (exec (answers completed (.ok Sample.ready) green)
          (reconcileStatusResult env true job finished (3 * second))
          launchedStore).store).value =
        .error (newError "ready-for-review replay conflicts with durable CI coordinates") :=
  ⟨by decide +kernel, by decide +kernel, by decide +kernel⟩

/-- The projection of a run that failed. -/
def Sample.crashed : TerminalResult :=
  { Sample.ready with
    status := lit "failed"
    outcome := lit "failed"
    failureStage := lit "verification"
    failureReason := lit "tests failed"
    result := none
    finalSummary := [] }

/-- The status of that run. -/
def Sample.failedRun : RunStatus := { runID := lit "run-1", status := lit "failed" }

open Sample in
/-- The reconciliation of the failed run can be repeated. -/
theorem reconcileStatusResult_repeated :
    (exec (answers (.ok failedRun) (.ok crashed) green)
      (reconcileStatusResult env true job failedRun (4 * second))
      (exec (answers (.ok failedRun) (.ok crashed) green)
        (reconcileStatusResult env true job failedRun (3 * second))
        launchedStore).store).value = .ok .reportPending := by
  have hrendered : (renderTerminalComment lib job crashed).isOk = true := by
    decide +kernel
  have hstatus : reconciledStatus failedRun.status = .ok .failed := rfl
  refine ((reconcileStatusResult_replay_iff hstatus (by decide) rfl (by decide +kernel)
    (by decide +kernel) (by decide)).mpr ⟨by decide, by decide, ?_, by decide⟩).1
  cases h : renderTerminalComment lib job crashed with
  | ok body => exact ⟨body, h⟩
  | error e => cases h ▸ hrendered

end SignalPlane.Dispatcher
