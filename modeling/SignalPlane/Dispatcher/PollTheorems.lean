/-
SignalPlane.Dispatcher.PollTheorems — which polls move their job on.

The oldest unfinished job blocks all later ones, so a poll that leaves it as
it was and due at once stalls the dispatcher: the next pass does the same
again. `Progress` is what a poll should achieve. Most ends of `runStatus`
achieve it whatever the store answers, because a failure is counted in a
transaction of its own before anything else is tried. Four do not write at
all, or write past the job row: an answer about another run, a wait that the
wait row refuses, a result whose outbox key is taken, and a ready result that
`BeginCIWait` refuses or that finds its job in `report_pending`.

`PollTaken` is the condition on the broker's answers and the store that
excludes these, and `runStatus_progress_iff` says that nothing else does.
-/
import SignalPlane.Dispatcher.JobPrograms
import SignalPlane.Dispatcher.ReconcileTheorems
import SignalPlane.Dispatcher.ResumeTheorems

namespace SignalPlane.Dispatcher

open Clock
open Workflow

/-! ## Progress -/

/-- What a poll at `now` should have done to its job: the row is due later, or the status, the
wait row or the terminal row is another one. -/
def Progress (job : Job) (now : Int) (s s' : Store) : Prop :=
  (∃ row ∈ s'.jobs.find? job.id, now < ofUnixMilli row.dueAt) ∨
    (s'.jobs.find? job.id).map JobRow.status ≠ (s.jobs.find? job.id).map JobRow.status ∨
    s'.externalWaits.find? job.id ≠ s.externalWaits.find? job.id ∨
    s'.terminalResults.find? job.id ≠ s.terminalResults.find? job.id

instance (job : Job) (now : Int) (s s' : Store) : Decidable (Progress job now s s') :=
  inferInstanceAs (Decidable (_ ∨ _))

/-- A job that was handed out for a poll, launched or with a report to come. -/
structure Polled (job : Job) (row : JobRow) (now : Int) (s : Store) : Prop where
  find : s.jobs.find? job.id = some row
  status : row.status = job.status
  polls : row.isPollResult = true
  run : row.brokerRunID = job.brokerRunID
  runID : job.brokerRunID ≠ []
  due : row.dueAt ≤ unixMilli now
  terminal : s.terminalResults.find? job.id = none
  outbox : s.outbox.find? job.id = none

/-- The row of a waiting job, or of one that is due later. -/
def JobRow.movedOn (now : Int) (r : JobRow) : Prop :=
  r.status = .externalWaiting ∨ now < ofUnixMilli r.dueAt

theorem lt_ofUnixMilli {now d : Int} (h : millisecond ≤ d) :
    now < ofUnixMilli (unixMilli (now + d)) := by
  simp only [unixMilli, ofUnixMilli, millisecond] at h ⊢
  omega

section Progress

variable {env : Env} {o : BrokerAnswers} {job : Job} {row : JobRow} {s s' : Store} {now : Int}

theorem Polled.hasTerminal (h : Polled job row now s) : s.hasTerminal job.id = false := by
  simp [Store.hasTerminal, h.terminal]

theorem Polled.accepts (h : Polled job row now s) : row.acceptsResult = true := by
  have := h.polls
  simp only [JobRow.isPollResult, Bool.or_eq_true, decide_eq_true_eq] at this
  rcases this with hstatus | hstatus <;> simp [JobRow.acceptsResult, hstatus]

theorem Polled.ne_externalWaiting (h : Polled job row now s) : row.status ≠ .externalWaiting := by
  intro hstatus
  have := h.polls
  simp [JobRow.isPollResult, hstatus] at this

/-- A store that still has the rows of the job has not moved it. -/
theorem Polled.not_progress (h : Polled job row now s)
    (hjobs : s'.jobs.find? job.id = s.jobs.find? job.id)
    (hwaits : s'.externalWaits.find? job.id = s.externalWaits.find? job.id)
    (hterminal : s'.terminalResults.find? job.id = s.terminalResults.find? job.id) :
    ¬ Progress job now s s' := by
  rintro (⟨row', hrow', hdue⟩ | hne | hne | hne)
  · cases (hjobs.symm.trans hrow').symm.trans h.find
    have := h.due
    simp only [unixMilli, ofUnixMilli, millisecond] at hdue this
    omega
  · exact hne (congrArg _ hjobs)
  · exact hne hwaits
  · exact hne hterminal

/-- The wait changes the status of a polled job. -/
theorem Polled.progress_of_movedOn (h : Polled job row now s)
    (hmoved : ∃ r, s'.jobs.find? job.id = some r ∧ r.movedOn now) : Progress job now s s' := by
  obtain ⟨r, hr, hstatus | hdue⟩ := hmoved
  · refine .inr (.inl ?_)
    rw [hr, h.find]
    simpa [hstatus] using h.ne_externalWaiting.symm
  · exact .inl ⟨r, hr, hdue⟩

theorem progress_of_queueTerminalResult {lib : GoLib} {r : TerminalResult} {s1 : Store}
    (hterminal : s.terminalResults.find? job.id = none)
    (h : queueTerminalResult lib job r now s1 = .ok s') : Progress job now s s' := by
  obtain ⟨-, body, -, hstore⟩ := queueTerminalResult_ok.mp h
  obtain ⟨-, rfl⟩ := storeTerminalResult_ok hstore
  have hkey : (r.toRow job.id now).jobID = job.id := rfl
  refine .inr (.inr (.inr ?_))
  simp [Table.find?_insert, hkey, hterminal]

/-- A failure that is counted moves the job on, whether or not its report can be stored. -/
theorem reconcilePreOutboxFailure_progress (h : Polled job row now s) {recoverableState : JobStatus}
    (hstate : recoverableState = .launched ∨ recoverableState = .reportPending) (stage : String)
    (failure : GoError) (retryable : Bool) :
    Post (fun _ _ => True) o
      (reconcilePreOutboxFailure env job recoverableState stage failure retryable now) s
      (fun _ s' => Progress job now s s') := by
  obtain ⟨jobs, hmark, hfind⟩ := markPreOutboxFailure_counts hstate h.find h.polls h.hasTerminal
    (now + preOutboxRetryDelay (job.preOutboxAttempts + 1)) (safeBrokerError failure) now
  have hcounted : Progress job now s { s with jobs := jobs } :=
    .inl ⟨_, hfind, lt_ofUnixMilli (le_preOutboxRetryDelay _)⟩
  unfold reconcilePreOutboxFailure
  refine post_atomic_ok hmark ?_
  dsimp only
  split
  · exact post_pure.mpr hcounted
  · refine post_bind.mpr (post_commit (fun s2 hqueue => ?_) fun e _ => ?_)
    · exact post_pure.mpr (progress_of_queueTerminalResult h.terminal hqueue)
    · exact post_pure.mpr hcounted

/-- So it is taken, whatever the condition is. -/
theorem reconcilePreOutboxFailure_taken (h : Polled job row now s) {recoverableState : JobStatus}
    (hstate : recoverableState = .launched ∨ recoverableState = .reportPending) {stage : String}
    {failure : GoError} {retryable : Bool} {P : Prop} (hP : P) :
    Post (fun _ _ => True) o
      (reconcilePreOutboxFailure env job recoverableState stage failure retryable now) s
      (fun _ s' => Progress job now s s' ↔ P) :=
  post_mono (reconcilePreOutboxFailure_progress h hstate _ _ _) fun _ _ hmoved =>
    iff_of_true hmoved hP

/-- The value a poll returns does not matter. -/
theorem post_returned {p : Dispatch (Except GoError JobStatus)} {Q : Store → Prop}
    (h : Post (fun _ _ => True) o p s (fun _ s' => Q s')) :
    Post (fun _ _ => True) o (do return (← p).map (fun _ => true) : Dispatch (Except GoError Bool))
      s (fun _ s' => Q s') :=
  post_bind.mpr (post_mono h fun _ _ hQ => post_pure.mpr hQ)

/-- A transaction that ends the poll and moves the job on when it succeeds. -/
theorem settle_progress {op : Store → Except GoError Store} {state : JobStatus} {P : Prop}
    (h : Polled job row now s) (hop : (∃ s', op s = .ok s') ↔ P)
    (hprogress : ∀ s', op s = .ok s' → Progress job now s s') :
    Post (fun _ _ => True) o (settle op state) s (fun _ s' => Progress job now s s' ↔ P) := by
  refine post_settle (fun s' hs' => iff_of_true (hprogress s' hs') (hop.mp ⟨s', hs'⟩)) fun e he =>
    iff_of_false (h.not_progress rfl rfl rfl) fun hP => ?_
  obtain ⟨s', hs'⟩ := hop.mpr hP
  cases he.symm.trans hs'

/-! ## Waits -/

/-- A recorded wait makes the job wait. -/
theorem recordRepositoryRunExternalWait_row {policy : CIRepairPolicy} {wait : CIExternalWait}
    {stored : RepositoryRunExternalWait} (h : Polled job row now s)
    (hrecord : recordRepositoryRunExternalWait policy job wait now s = .ok (stored, s')) :
    ∃ r, s'.jobs.find? job.id = some r ∧ r.status = .externalWaiting := by
  simp only [recordRepositoryRunExternalWait, bind_eq_ok, pure_eq_ok, Prod.mk.injEq] at hrecord
  obtain ⟨-, -, -, -, -, -, -, rfl⟩ := hrecord
  simp [h.find, h.run]

/-- A job that is moved on stays so when it is written to be due later. -/
theorem JobWrites.movedOn {j d : Int} (hd : millisecond ≤ d) (hw : JobWrites j (now + d) s s')
    (h : ∃ r, s.jobs.find? job.id = some r ∧ r.movedOn now) :
    ∃ r, s'.jobs.find? job.id = some r ∧ r.movedOn now := by
  cases hw with
  | refl => exact h
  | @row p f hf _ hdue _ =>
    obtain ⟨r, hr, hmoved⟩ := h
    by_cases hj : job.id = j ∧ p r = true
    · obtain ⟨rfl, hp⟩ := hj
      refine ⟨f r, by simp [hr, hp], .inr ?_⟩
      rw [hdue]
      exact lt_ofUnixMilli hd
    · refine ⟨r, ?_, hmoved⟩
      by_cases hk : job.id = j
      · subst hk
        simp [hr, show ¬ p r = true from fun hp => hj ⟨rfl, hp⟩]
      · simp [hk, hr]

/-- Whatever the resume of a ready wait comes to, the job stays moved on. -/
theorem resumeReadyWait_movedOn (wait : RepositoryRunExternalWait)
    (h : ∃ r, s.jobs.find? job.id = some r ∧ r.movedOn now) :
    Post (fun _ _ => True) o (resumeReadyWait env job wait now) s
      (fun _ s' => ∃ r, s'.jobs.find? job.id = some r ∧ r.movedOn now) :=
  post_resumeReadyWait trivial (fun _ => h)
    (fun _ _ _ hd hop => (deferRepositoryRunExternalResume_writes hop).movedOn hd h)
    fun _ hop => (resumeExternalWait_writes hop).movedOn (by decide) h

/-! ## Projections -/

/-- The projection of a finished run can be stored. A ready one needs a launched job whose CI wait
`BeginCIWait` accepts, once it can be encoded and names its pull request; any other needs a free
outbox key. -/
def Store.TakesProjection (s : Store) (env : Env) (job : Job) (now : Int)
    (projected : TerminalResult) : Prop :=
  if projected.outcome = lit "ready_for_review" && env.policy.1.isValid then
    let (worker, decoded) := env.lib.unmarshalWorker (projected.result.getD (lit "null"))
    ∀ encoded, env.lib.marshalTerminalResult projected = .ok encoded →
      ∀ pull, (if decoded then worker.pullRequest else none) = some pull →
      job.status = .launched ∧
        (FollowUp.ciWait pull.number worker.deliveredHeadSHA projected encoded).storable env job
          now s
  else s.reportKeyTaken job.id (reportKey env.lib job projected.version) = false

/-! ## Polls -/

/-- What is known of a finished run can be stored: its projection, if it is valid and renders, is
taken by the tables it goes to. -/
def FinishTaken (env : Env) (job : Job) (now : Int) (s : Store) (word : GoString)
    (projection : Except GoError TerminalResult) : Prop :=
  ∀ status, reconciledStatus word = .ok status → status ≠ .launched →
    ∀ projected, projection = .ok projected →
      validateTerminalResult env.lib job projected = .ok () →
      ∀ body, renderTerminalComment env.lib job projected = .ok body →
        s.TakesProjection env job now projected

/-- The broker's answers to a poll, and the store, by which the poll moves its job on. An error is
counted. An answer has to be about the job's run, a valid wait has to be taken by the wait row, and
a result by the tables it goes to. -/
def PollTaken (env : Env) (job : Job) (now : Int) (s : Store)
    (projection : Except GoError TerminalResult) : Except GoError RunStatus → Prop
  | .error _ => True
  | .ok result =>
    result.runID = job.brokerRunID ∧
      (result.status = lit "waiting_external" → ∀ wait, result.externalWait = some wait →
        wait.validate = .ok () → 1 ≤ job.id ∧ s.TakesWait env.policy.1 job wait) ∧
      FinishTaken env job now s result.status projection

/-- What the store has to take for a disposal. -/
def Disposal.Taken (env : Env) (job : Job) (now : Int) (s : Store) : Disposal → Prop
  | .fail .. | .poll => True
  | .ciWait pullNumber headSHA projected encoded => job.status = .launched ∧
      (FollowUp.ciWait pullNumber headSHA projected encoded).storable env job now s
  | .report r => s.Reportable env.lib job r

theorem takesProjection_iff (houtbox : s.outbox.find? job.id = none) {projected : TerminalResult}
    {body : GoString} (hvalid : validateTerminalResult env.lib job projected = .ok ())
    (hbody : renderTerminalComment env.lib job projected = .ok body) :
    s.TakesProjection env job now projected ↔
      (projectionDisposal env projected).Taken env job now s := by
  unfold Store.TakesProjection projectionDisposal
  rcases hworker : env.lib.unmarshalWorker (projected.result.getD (lit "null"))
    with ⟨worker, decoded⟩
  split
  · cases env.lib.marshalTerminalResult projected with
    | error e => simp [Disposal.Taken]
    | ok encoded =>
      cases hpull : (if decoded = true then worker.pullRequest else none) with
      | none | some => simp [Disposal.Taken, hpull]
  · simp [Disposal.Taken, Store.Reportable, hvalid, hbody, houtbox]

/-- The cases are those of `disposal`; only a valid projection that renders asks something of the
store. -/
theorem finishTaken_iff (houtbox : s.outbox.find? job.id = none) {result : RunStatus}
    {projection : Except GoError TerminalResult} {d : Disposal}
    (h : disposal env true job result projection = d) :
    FinishTaken env job now s result.status projection ↔ d.Taken env job now s := by
  subst h
  unfold FinishTaken disposal
  cases reconciledStatus result.status with
  | error e => simp [Disposal.Taken]
  | ok status =>
    by_cases hlaunched : status = .launched
    · simp [hlaunched, Disposal.Taken]
    · cases projection with
      | error e => simp [hlaunched, finishedDisposal, Disposal.Taken]
      | ok projected =>
        cases hvalid : validateTerminalResult env.lib job projected with
        | error e => simp [hlaunched, finishedDisposal, Disposal.Taken, hvalid]
        | ok _ =>
          cases hbody : renderTerminalComment env.lib job projected with
          | error e => simp [hlaunched, finishedDisposal, Disposal.Taken, hvalid, hbody]
          | ok body =>
            simp [hlaunched, finishedDisposal, hvalid, hbody,
              takesProjection_iff houtbox hvalid hbody]

theorem settleRun_progress (h : Polled job row now s) (result : RunStatus) :
    Post (fun _ _ => True) o (settleRun env true job result now) s
      (fun _ s' => Progress job now s s' ↔ FinishTaken env job now s result.status
        (o ⟨.poll job.id, .terminalResult job.brokerRunID⟩)) := by
  refine post_settleRun trivial fun d hd => ?_
  rw [finishTaken_iff h.outbox hd]
  cases d with
  | fail => exact reconcilePreOutboxFailure_taken h (.inr rfl) trivial
  | poll =>
    have hmark := markStatus_launched now (Table.hits_iff.mpr ⟨row, h.find, h.polls⟩)
    refine post_commit_ok hmark (post_pure.mpr (iff_of_true (.inl ?_) trivial))
    exact ⟨_, find?_polledAgain now h.find h.polls, lt_ofUnixMilli (by decide)⟩
  | ciWait =>
    refine post_settle (fun s' hs' => ?_) fun e he => ?_
    · simp only [beginCIWait, require_bind_eq_ok, pure_eq_ok] at hs'
      obtain ⟨harguments, -, hmatches, rfl⟩ := hs'
      by_cases hlaunched : job.status = .launched
      · refine iff_of_true (.inr (.inl ?_)) ⟨hlaunched, harguments, hmatches⟩
        have hrow : row.status = .launched := h.status.trans hlaunched
        simp [h.find, JobRow.entersCIWait, hrow]
      · -- The update of the job row skips a job in `report_pending`.
        refine iff_of_false (h.not_progress ?_ rfl rfl) fun hno => hlaunched hno.1
        have hskips : row.entersCIWait = false := by
          have := h.polls
          simp only [JobRow.isPollResult, h.status, hlaunched, Bool.or_eq_true,
            decide_eq_true_eq, false_or] at this
          simp [JobRow.entersCIWait, h.status, this]
        simp [h.find, hskips]
    · refine iff_of_false (h.not_progress rfl rfl rfl) ?_
      rintro ⟨-, harguments, hmatches⟩
      simp [beginCIWait, harguments, hmatches, h.find, require, pure, Except.pure, bind,
        Except.bind] at he
  | report projected =>
    exact settle_progress h (queueTerminalResult_succeeds_iff h.find h.accepts h.hasTerminal)
      fun s' hs' => progress_of_queueTerminalResult h.terminal hs'

/-- A poll whose answer is a wait. -/
theorem runStatus_progress_wait (h : Polled job row now s) {wait : CIExternalWait}
    (hvalid : wait.validate = .ok ()) :
    Post (fun _ _ => True) o (do
      match ← atomic (recordRepositoryRunExternalWait env.policy.1 job wait now) with
      | .error e => return .error e
      | .ok stored =>
        if stored.state = .resumeReady then resumeReadyWait env job stored now
        else return .ok true : Dispatch (Except GoError Bool)) s
      (fun _ s' => Progress job now s s' ↔ 1 ≤ job.id ∧ s.TakesWait env.policy.1 job wait) := by
  have hiff : (∃ r, recordRepositoryRunExternalWait env.policy.1 job wait now s = .ok r) ↔
      1 ≤ job.id ∧ s.TakesWait env.policy.1 job wait := by
    rw [recordRepositoryRunExternalWait_takes_iff h.runID (by simp [h.find])]
    simp [Store.AcceptsWait, hvalid]
  refine post_bind.mpr (post_atomic (fun stored s1 hrecord => ?_) fun e he => ?_)
  · have htaken := hiff.mp ⟨_, hrecord⟩
    have hmoved : ∃ r, s1.jobs.find? job.id = some r ∧ r.movedOn now := by
      obtain ⟨r, hr, hstatus⟩ := recordRepositoryRunExternalWait_row h hrecord
      exact ⟨r, hr, .inl hstatus⟩
    dsimp only
    split
    · exact post_mono (resumeReadyWait_movedOn stored hmoved) fun _ _ hmoved' =>
        iff_of_true (h.progress_of_movedOn hmoved') htaken
    · exact post_pure.mpr (iff_of_true (h.progress_of_movedOn hmoved) htaken)
  · refine post_pure.mpr (iff_of_false (h.not_progress rfl rfl rfl) fun htaken => ?_)
    obtain ⟨r, hr⟩ := hiff.mpr htaken
    cases he.symm.trans hr

theorem runStatus_progress (h : Polled job row now s) (hprojects : env.broker.projects = true) :
    Post (fun _ _ => True) o (runStatus env job now) s
      (fun _ s' => Progress job now s s' ↔
        PollTaken env job now s (o ⟨.poll job.id, .terminalResult job.brokerRunID⟩)
          (o ⟨.poll job.id, .status job.brokerRunID⟩)) := by
  have hnotWaiting : job.status ≠ .externalWaiting := h.status ▸ h.ne_externalWaiting
  unfold runStatus
  refine post_bind.mpr (post_request.mpr ⟨trivial, ?_⟩)
  generalize (o ⟨.poll job.id, .status job.brokerRunID⟩ : Except GoError RunStatus) = answer
  cases answer with
  | error e =>
    dsimp only [reconcileStatusFailure]
    rw [if_neg hnotWaiting, if_neg hnotWaiting]
    exact post_returned (reconcilePreOutboxFailure_taken h (.inl rfl) trivial)
  | ok result =>
    dsimp only [PollTaken]
    by_cases hforeign : result.runID = [] ∨ result.runID ≠ job.brokerRunID
    · rw [if_pos hforeign]
      refine post_pure.mpr (iff_of_false (h.not_progress rfl rfl rfl) ?_)
      rintro ⟨hrun, -⟩
      exact hforeign.elim (fun hempty => h.runID (hrun.symm.trans hempty)) fun hne => hne hrun
    · have hrun : result.runID = job.brokerRunID := by
        by_contra hne
        exact hforeign (.inr hne)
      rw [if_neg hforeign]
      simp only [hrun, true_and]
      by_cases hword : result.status = lit "waiting_external"
      · have hunfinished : ∀ status, reconciledStatus result.status ≠ .ok status :=
          fun status hstatus => ne_waiting_of_reconciledStatus hstatus hword
        rw [if_pos hword]
        simp only [hword, true_imp_iff, FinishTaken]
        simp only [hword] at hunfinished
        simp only [hunfinished, false_imp_iff, implies_true, and_true]
        cases result.externalWait with
        | none => exact post_returned (reconcilePreOutboxFailure_taken h (.inr rfl) (by simp))
        | some wait =>
          simp only [Option.some.injEq, forall_eq']
          cases hvalid : wait.validate with
          | error e => exact post_returned (reconcilePreOutboxFailure_taken h (.inr rfl) (by simp))
          | ok _ =>
            simp only [true_imp_iff]
            exact runStatus_progress_wait h hvalid
      · rw [if_neg hword]
        simp only [hword, false_imp_iff, true_and, reconcileStatusResult, if_neg hforeign, if_false,
          if_neg hnotWaiting, hprojects]
        exact post_returned (settleRun_progress h result)

end Progress

/-- In every reachable state, a poll of the head of the line, launched or with a report to come,
moves the job on exactly when the answers of the broker can be taken. -/
theorem runStatus_progress_iff {env : Env} {o : BrokerAnswers} {s s' : Store} {job : Job}
    {now : Int} (h : Reachable env s) (hreporting : env.broker.reporting = true)
    (hclaim : claimDue now s = .ok (some ⟨.status, job⟩, s'))
    (hstatus : job.status = .launched ∨ job.status = .reportPending) :
    Progress job now s' (exec o (runStatus env job now) s').store ↔
      PollTaken env job now s (o ⟨.poll job.id, .terminalResult job.brokerRunID⟩)
        (o ⟨.poll job.id, .status job.brokerRunID⟩) := by
  obtain ⟨hnone, -⟩ | ⟨row, hhead, hdue, ⟨hpolled, hwork, rfl⟩ | ⟨-, hwork, -⟩⟩ :=
    claimDue_cases hclaim
  · cases hnone
  · obtain rfl : job = row.toJob := by simpa using hwork
    obtain ⟨hrow, -⟩ := Store.head_row hhead
    have hwf := Reachable.wellFormed h row.id
    have hrunID : row.brokerRunID ≠ [] := Store.view_runID hrow ▸ (hwf.polled hpolled).1
    have hterminal : s'.terminalResults.find? row.id = none := by
      simpa [Store.view, Store.hasTerminal] using (hwf.polled hpolled).2.1
    have houtbox : s'.outbox.find? row.id = none := by
      have := hwf.outboxed
      simpa [Store.view, Store.hasTerminal, hterminal] using this
    have hjob : Polled row.toJob row now s' :=
      { find := hrow
        status := rfl
        polls := by
          have hrow' : row.status = .launched ∨ row.status = .reportPending := hstatus
          simpa [JobRow.isPollResult] using hrow'
        run := rfl
        runID := hrunID
        due := hdue
        terminal := hterminal
        outbox := houtbox }
    have hprojects : env.broker.projects = true :=
      env.broker.projects_of_ciRepair (env.broker.ciRepair_of_reporting hreporting)
    exact (runStatus_progress hjob hprojects).final
  · simp at hwork

namespace Sample

/-- The woken run was resumed. -/
def resumedStore : Store := run env [waitPass (5 * second)] wokenStore

/-- The first wait again, with another reason. -/
def changedWait : RunStatus :=
  { waitingRun with
    externalWait := waitingRun.externalWait.map ({ · with reason := lit "rate_limited" }) }

/-- The launched job after its projection failed once. -/
def unprojectedJob : Job := { job with status := .reportPending, preOutboxAttempts := 1 }

/-- A job is handed out at `now`, and its poll leaves it as it was and due at once. -/
def Stalled (s : Store) (job : Job) (now : Int) (status : RunStatus) : Prop :=
  claimDue now s = .ok (some ⟨.status, job⟩, s) ∧
    (job.status = .launched ∨ job.status = .reportPending) ∧ wholeMilli now ∧
    ¬ Progress job now s
      (exec (answers (.ok status) (.ok ready) green) (runStatus env job now) s).store

end Sample

open Sample in
/-- Two polls that stall: a wait that conflicts with the stored one, and a ready result for a job in
`report_pending`. -/
theorem runStatus_stalls :
    env.broker.reporting = true ∧
      (Reachable env resumedStore ∧ Stalled resumedStore job (7 * second) changedWait) ∧
      (Reachable env unprojectedStore ∧
        Stalled unprojectedStore unprojectedJob (5 * second) finished) := by
  refine ⟨rfl, ⟨?_, ?_⟩, unprojectedStore_reachable, ?_⟩
  · exact (waitingStore_reachable.run _).run _
  · unfold Stalled
    decide +kernel
  · unfold Stalled
    decide +kernel

open Sample in
theorem runStatus_progress_waits :
    claimDue (3 * second) launchedStore = .ok (some ⟨.status, job⟩, launchedStore) ∧
      Progress job (3 * second) launchedStore
        (exec (answers (.ok waitingRun) (.ok ready) green) (runStatus env job (3 * second))
          launchedStore).store := by
  have hclaim : claimDue (3 * second) launchedStore =
      .ok (some ⟨.status, job⟩, launchedStore) := by decide +kernel
  have hfind : launchedStore.externalWaits.find? job.id = none := by decide +kernel
  have hcheck : checkWaitConstraints launchedStore job.id (repositoryRunResumeKey job 1)
      (durationSeconds env.policy.1.activeTimeout) = .ok () := by decide +kernel
  refine ⟨hclaim, (runStatus_progress_iff launchedStore_reachable rfl hclaim (.inl rfl)).mpr ?_⟩
  refine ⟨rfl, fun _ wait hwait _ => ⟨by decide, ?_⟩, fun status hstatus => ?_⟩
  · cases hwait
    simpa only [Store.TakesWait, hfind] using hcheck
  · exact absurd rfl (ne_waiting_of_reconciledStatus hstatus)

end SignalPlane.Dispatcher
