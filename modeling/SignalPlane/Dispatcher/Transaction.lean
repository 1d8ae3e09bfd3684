/-
SignalPlane.Dispatcher.Transaction — what one worker pass can write.

`Transaction` lists the store operations of a pass at time `now`, each with
the arguments the worker passes and what it knows about the row at that point
(`Claimed`: the job that `ClaimDue` handed out is due and first in line).
`runOne_walks` is the inversion theorem for `RunOne`: whatever the broker
answers, the pass is a sequence of such transactions, and it calls `Launch`
only for the first job in line. An invariant of the store is then a case
analysis on `Transaction`; no later proof looks at the control flow again.
-/
import SignalPlane.Lib.Interleaving
import SignalPlane.Dispatcher.View
import SignalPlane.Dispatcher.Worker

namespace SignalPlane.Dispatcher

open Clock
open Workflow

variable {job : Job} {policy : CIRepairPolicy} {op : Store → Except GoError Store} {s' : Store}
  {attempt : CIRepairAttempt} {tie : Nat} {key : GoString} {work : CIReconciliation}
  {A : Request → Store → Prop} {Q : Except GoError JobStatus → Store → Prop} {failure : GoError}
  {result : RunStatus}

/-! ## What a claim knows -/

/-- The job that `ClaimDue` handed out, as long as nothing but the pass itself changed its row:
it is due, under the run the job names, and first in line. -/
structure Claimed (now : Int) (job : Job) (s : Store) : Prop where
  row : ∃ r, s.jobs.find? job.id = some r ∧ r.dueAt ≤ unixMilli now ∧
    r.brokerRunID = job.brokerRunID
  first : s.line.First job.id

/-- The attempt `key`, when there is one, belongs to a CI task. -/
def TaskOf (key : GoString) (s : Store) : Prop :=
  ∀ a, s.attempts.find? key = some a → (s.ciTasks.find? a.jobID).isSome = true

/-- The broker does not report a generation again that the wait of the job it is asked about, the
head of the line, has resumed. -/
def NoResumedReplay (now : Int) (o : BrokerAnswers) (s : Store) : Prop :=
  ∀ r, s.head = some r → r.dueAt ≤ unixMilli now → ∀ result wait w,
    (o ⟨.poll r.id, .status r.brokerRunID⟩ : Except GoError RunStatus) = .ok result →
    result.status = lit "waiting_external" → result.externalWait = some wait →
    wait.validate = .ok () → s.externalWaits.find? r.id = some w →
    w.generation = wait.generation → w.state ≠ .resumed

/-! ## Transactions -/

/-- One transaction of a pass at `now`. With `fresh`, no resumed generation is recorded again. -/
inductive Transaction (env : Env) (now : Int) (fresh : Prop) (s s' : Store) : Prop where
  | claimDue {work : Option Work} (h : claimDue now s = .ok (work, s'))
  | claimCIReconciliation {tie : Nat} {work : Option CIReconciliation}
      (h : claimCIReconciliation tie now s = .ok (work, s'))
  | claimCIRepair {tie : Nat} {work : Option (CIRepairTask × CIRepairAttempt)}
      (h : claimCIRepair env.policy.1 tie now s = .ok (work, s'))
  | claimCIRepairStatus {tie : Nat} {work : Option (CIRepairTask × CIRepairAttempt)}
      (h : claimCIRepairStatus env.policy.1 tie now s = .ok (work, s'))
  | markLaunched {job : Job} {runID : GoString} (hc : Claimed now job s)
      (h : markLaunched job.id runID (now + statusPollInterval) now s = .ok s')
  | markLaunchFailure {job : Job} {due : Int} {message : GoString} (hc : Claimed now job s)
      (h : markLaunchFailure job.id true due message now s = .ok s')
  | queueTerminalResult {job : Job} {r : TerminalResult}
      (h : queueTerminalResult env.lib job r now s = .ok s')
  | markStatus {job : Job} (hp : (s.view job.id).polled)
      (h : markStatus job.id .launched (now + statusPollInterval) [] now s = .ok s')
  | markPreOutboxFailure {id attempt : Int} {status : JobStatus} {message : GoString}
      {attempts : Int}
      (h : markPreOutboxFailure id status (now + preOutboxRetryDelay attempt) message now s =
        .ok (attempts, s'))
  | deferReportPending {id : Int}
      (h : deferReportPending id (now + reporterUnavailableDelay) now s = .ok s')
  | recordWait {job : Job} {wait : CIExternalWait} {stored : RepositoryRunExternalWait}
      (hc : Claimed now job s) (hp : (s.view job.id).polled)
      (hfresh : fresh → ∀ w, s.externalWaits.find? job.id = some w →
        w.generation = wait.generation → w.state ≠ .resumed)
      (h : recordRepositoryRunExternalWait env.policy.1 job wait now s = .ok (stored, s'))
  | deferResume {job : Job} {due : Int} {failure : GoError} (hdue : now + millisecond ≤ due)
      (h : deferRepositoryRunExternalResume job due failure now s = .ok s')
  | markResumed {wait : RepositoryRunExternalWait}
      (h : markRepositoryRunExternalResumed wait now s = .ok s')
  | reconcileResume {job : Job} (hc : Claimed now job s)
      (h : reconcileRepositoryRunExternalResume job now s = .ok s')
  | beginCIWait {job : Job} {pullNumber : Int} {branch headSHA agentModel encoded : GoString}
      (hp : (s.view job.id).polled)
      (h : beginCIWait env.lib job pullNumber branch headSHA agentModel
        (now + env.policy.1.reconciliationWake) now encoded s = .ok s')
  | failCIReconciliation {work : CIReconciliation} {failure : GoError} {retry : Bool}
      (h : failCIReconciliation env.policy.1 work failure retry now s = .ok s')
  | applyCIObservation {work : CIReconciliation} {observation : CIObservation} {maxAttempts : Int}
      (hclean : ∀ r ∈ s.reconciliations.rows, r.operationKey = work.operationKey → r.dirty = false)
      (h : applyCIObservation env.lib env.policy.1 work observation maxAttempts now s = .ok s')
  | bindCIRepairRun {attempt : CIRepairAttempt} {runID : GoString}
      (h : bindCIRepairRun attempt runID now s = .ok s')
  | deferAttempt {state : AttemptState} {missing operation : String} {key : GoString} {due : Int}
      {failure : GoError} (hdue : now + millisecond ≤ due)
      (h : deferAttempt state missing operation key due failure now s = .ok s')
  | scheduleCIRepairStatus {key : GoString}
      (h : scheduleCIRepairStatus key (now + statusPollInterval) now s = .ok s')
  | recordCIRepairExternalWait {attempt : CIRepairAttempt} {wait : CIExternalWait}
      {key : GoString} (h : recordCIRepairExternalWait attempt wait now s = .ok (key, s'))
  | markCIRepairExternalResumed {key resumeKey : GoString} {generation : Int}
      (h : markCIRepairExternalResumed key resumeKey generation (now + statusPollInterval) now s =
        .ok s')
  | finishCIRepairFailure {attempt : CIRepairAttempt} {failureClass detail : GoString}
      {modelStarted : Bool} {maxAttempts : Int}
      (h : finishCIRepairFailure env.lib env.policy.1 attempt failureClass modelStarted detail
        maxAttempts now s = .ok s')
  | chargeCIRepairAttempt {key : GoString} (h : chargeCIRepairAttempt key now s = .ok s')
  | completeCIRepairDelivery {key : GoString} {delivery : CIRepairDelivery} (ht : TaskOf key s)
      (h : completeCIRepairDelivery env.policy.1 key delivery now s = .ok s')
  | markCIEscalationDelivered {report : CIEscalationReport} {result : CommentResult}
      (h : markCIEscalationDelivered env.lib report result now s = .ok s')
  | markCIEscalationFailure {report : CIEscalationReport} {retry : Bool} {message : GoString}
      (h : markCIEscalationFailure report retry message now s = .ok s')
  | markReportDelivered {report : Report} {id : Int} {url : GoString}
      (h : markReportDelivered report id url now s = .ok s')
  | markReportFailure {report : Report} {retry : Bool} {safe : GoString}
      (h : markReportFailure report retry safe now s = .ok s')

/-- Any number of transactions of a pass. -/
abbrev Transactions (env : Env) (now : Int) (fresh : Prop) : Store → Store → Prop :=
  Relation.ReflTransGen (Transaction env now fresh)

/-- A launch is asked for only when the job is stored and first in line. -/
def LaunchesFirst (q : Request) (s : Store) : Prop :=
  ∀ job, q.call = .launch job → (∃ r, s.jobs.find? job.id = some r) ∧ s.line.First job.id

/-- What a program may ask: only on behalf of `units`, and a launch only for the first job. -/
structure Asks (units : WorkUnit → Prop) (q : Request) (s : Store) : Prop where
  unit : units q.unit
  first : LaunchesFirst q s

/-- From `s`, the program `p` makes transactions, asks on behalf of `units` alone and launches
only the first job in line. -/
def Walks (env : Env) (now : Int) (fresh : Prop) (units : WorkUnit → Prop) (o : BrokerAnswers)
    {α : Type} (p : Dispatch α) (s : Store) : Prop :=
  Post (Asks units) o p s (fun _ s' => Transactions env now fresh s s')

/-! ## Rules -/

section Rules

variable {env : Env} {now : Int} {fresh : Prop} {units : WorkUnit → Prop} {o : BrokerAnswers}
  {α β : Type} {s : Store}

theorem walks_pure {a : α} : Walks env now fresh units o (pure a) s :=
  post_pure.mpr .refl

theorem walks_bind {p : Dispatch β} {k : β → Dispatch α}
    (h : Post (Asks units) o p s
      (fun b s' => Transactions env now fresh s s' ∧ Walks env now fresh units o (k b) s')) :
    Walks env now fresh units o (p >>= k) s := by
  refine post_bind.mpr (post_mono h ?_)
  rintro b s' ⟨ht, hk⟩
  exact post_mono hk fun _ _ h' => ht.trans h'

/-- The result of a program may be rewritten at its end. -/
theorem walks_map {p : Dispatch β} {f : β → α} (h : Walks env now fresh units o p s) :
    Walks env now fresh units o (p >>= fun b => pure (f b)) s :=
  walks_bind (post_mono h fun _ _ ht => ⟨ht, walks_pure⟩)

theorem walks_commit {k : Except GoError Unit → Dispatch α} (hok : ∀ s', op s = .ok s' →
      Transaction env now fresh s s' ∧ Walks env now fresh units o (k (.ok ())) s')
    (herr : ∀ e, op s = .error e → Walks env now fresh units o (k (.error e)) s) :
    Walks env now fresh units o (commit op >>= k) s :=
  walks_bind (post_commit (fun s' h => ⟨.single (hok s' h).1, (hok s' h).2⟩)
    fun e h => ⟨.refl, herr e h⟩)

theorem walks_atomic {op : Store → Except GoError (β × Store)} {k : Except GoError β → Dispatch α}
    (hok : ∀ b s', op s = .ok (b, s') →
      Transactions env now fresh s s' ∧ Walks env now fresh units o (k (.ok b)) s')
    (herr : ∀ e, op s = .error e → Walks env now fresh units o (k (.error e)) s) :
    Walks env now fresh units o (atomic op >>= k) s :=
  walks_bind (post_atomic hok fun e h => ⟨.refl, herr e h⟩)

/-- A single transaction at the end of a pass. -/
theorem walks_worked (h : ∀ s', op s = .ok s' → Transaction env now fresh s s') :
    Walks env now fresh units o (commit op >>= fun r => pure (worked r)) s :=
  walks_commit (fun s' hs => ⟨h s' hs, walks_pure⟩) fun _ _ => walks_pure

theorem walks_request {q : Request} {k : q.Answer → Dispatch α} (hq : Asks units q s)
    (h : ∀ a, o q = a → Walks env now fresh units o (k a) s) :
    Walks env now fresh units o (Workflow.request q >>= k) s :=
  walks_bind (post_request.mpr ⟨hq, .refl, h _ rfl⟩)

end Rules

/-! ## The parts of a pass -/

section Parts

variable {env : Env} {now : Int} {fresh : Prop} {units : WorkUnit → Prop} {o : BrokerAnswers}
  {s : Store}

theorem asks_of_ne {q : Request} (hu : units q.unit) (h : ∀ job, q.call ≠ .launch job) :
    Asks units q s :=
  ⟨hu, fun job hj => absurd hj (h job)⟩

theorem add_millisecond_le {d : Int} (h : millisecond ≤ d) : now + millisecond ≤ now + d :=
  Int.add_le_add_left h now

theorem le_preOutboxRetryDelay (attempt : Int) : millisecond ≤ preOutboxRetryDelay attempt := by
  have h : statusPollInterval ≤ preOutboxRetryDelay attempt :=
    le_backoff (by decide) (by decide) attempt
  exact Int.le_trans (by decide) h

theorem le_launchRetryDelay (attempt : Int) : millisecond ≤ launchRetryDelay attempt := by
  have h : 2 * second ≤ launchRetryDelay attempt := le_backoff (by decide) (by decide) attempt
  exact Int.le_trans (by decide) h

/-! ### Claims -/

theorem claimReportDue_store {report : Option Report}
    (h : claimReportDue now s = .ok (report, s')) : s' = s := by
  unfold claimReportDue at h
  dsimp only at h
  split at h
  · cases h; rfl
  · split at h <;> cases h <;> rfl

theorem claimCIEscalation_store {report : Option CIEscalationReport}
    (h : claimCIEscalation now s = .ok (report, s')) : s' = s := by
  unfold claimCIEscalation at h
  dsimp only at h
  split at h
  · cases h; rfl
  · split at h <;> cases h <;> rfl

theorem claimCIRepair_none (h : claimCIRepair policy tie now s = .ok (none, s')) : s' = s := by
  unfold claimCIRepair at h
  split at h <;> cases h
  rfl

theorem claimCIRepairStatus_none (h : claimCIRepairStatus policy tie now s = .ok (none, s')) :
    s' = s := by
  unfold claimCIRepairStatus at h
  split at h <;> cases h
  rfl

/-- An update of attempts that keeps their jobs keeps their tasks. -/
theorem TaskOf.updateAttempt {k : GoString} {p : AttemptRow → Bool} {f : AttemptRow → AttemptRow}
    {hf : ∀ r, (f r).attemptKey = r.attemptKey} (h : TaskOf key s)
    (hjob : ∀ r, (f r).jobID = r.jobID) : TaskOf key (s.updateAttempt k p f hf) := by
  intro a ha
  simp only [Store.updateAttempt, Table.updateKey, Table.find?_update, Option.map_eq_some_iff] at ha
  obtain ⟨a0, ha0, rfl⟩ := ha
  have := h a0 ha0
  split
  · rwa [hjob]
  · exact this

theorem TaskOf.updateTask {id : Int} {p : CITaskRow → Bool} {f : CITaskRow → CITaskRow}
    {hf : ∀ r, (f r).jobID = r.jobID} (h : TaskOf key s) : TaskOf key (s.updateTask id p f hf) := by
  intro a ha
  simpa [Store.updateTask, Table.updateKey] using h a ha

/-- The attempt whose status is read belongs to a CI task. -/
theorem claimCIRepairStatus_taskOf {task : CIRepairTask}
    (h : claimCIRepairStatus policy tie now s = .ok (some (task, attempt), s')) :
    TaskOf attempt.attemptKey s' := by
  unfold claimCIRepairStatus at h
  split at h
  · cases h
  · next t a hpick =>
    cases h
    obtain ⟨hmem, htask, _⟩ := mem_claimableAttempts.mp (mem_of_pick hpick)
    refine TaskOf.updateAttempt (TaskOf.updateAttempt ?_ fun _ => rfl) fun _ => rfl
    intro a' ha'
    have ha : s.attempts.find? a.attemptKey = some a := Table.find?_key hmem
    obtain rfl : a = a' := Option.mem_unique ha ha'
    simp [htask]

theorem TaskOf.followed {due : Int} (ht : TaskOf key s) (h : Follows due s s') : TaskOf key s' := by
  induction h with
  | refl => exact ht
  | update _ hrow ih => exact ih.updateAttempt fun a => (hrow a).job

theorem TaskOf.charged {k : GoString} (ht : TaskOf key s)
    (h : chargeCIRepairAttempt k now s = .ok s') : TaskOf key s' := by
  unfold chargeCIRepairAttempt at h
  split at h
  · cases h
  · simp only [require_bind_eq_ok] at h
    obtain ⟨_, h⟩ := h
    split at h
    · cases h
      exact ht
    · simp only [expectOne_bind_eq_ok] at h
      cases h.2
      refine TaskOf.updateTask (TaskOf.updateAttempt ht ?_)
      exact fun _ => rfl

/-- `ClaimCIReconciliation` writes reconciliations only. -/
theorem claimCIReconciliation_store {work : Option CIReconciliation}
    (h : claimCIReconciliation tie now s = .ok (work, s')) :
    ∃ rs, s' = { s with reconciliations := rs } := by
  unfold claimCIReconciliation at h
  dsimp only at h
  split at h <;> cases h <;> exact ⟨_, rfl⟩

/-- A claimed reconciliation is not dirty. -/
theorem claimCIReconciliation_clean (h : claimCIReconciliation tie now s = .ok (some work, s')) :
    ∀ r ∈ s'.reconciliations.rows, r.operationKey = work.operationKey → r.dirty = false := by
  unfold claimCIReconciliation at h
  dsimp only at h
  split at h
  · cases h
  · cases h
    intro r hr hkey
    simp only [Store.updateReconciliation, Table.mem_update] at hr
    obtain ⟨r0, _, rfl⟩ := hr
    -- A row that the update does not reach has another key.
    split
    · rfl
    · next hne =>
      rw [if_neg hne] at hkey
      exact absurd (by simpa using hkey) hne

/-! ### The status of a job -/

/-- The outcomes of `reconcilePreOutboxFailure`. -/
theorem post_reconcilePreOutboxFailure {status : JobStatus} {stage : String} {retryable : Bool}
    (herr : ∀ e, Q (.error e) s) (hcounted : ∀ attempts s1,
      markPreOutboxFailure job.id status (now + preOutboxRetryDelay (job.preOutboxAttempts + 1))
          (safeBrokerError failure) now s = .ok (attempts, s1) →
        (retryable = true → Q (.ok status) s1) ∧ (∀ e, Q (.error e) s1) ∧
        ∀ r s2, queueTerminalResult env.lib job r now s1 = .ok s2 → Q (.ok .reportPending) s2) :
    Post A o (reconcilePreOutboxFailure env job status stage failure retryable now) s Q := by
  unfold reconcilePreOutboxFailure
  refine post_bind.mpr (post_atomic ?_ fun e _ => post_pure.mpr (herr e))
  intro attempts s1 h
  obtain ⟨hretry, herr1, hqueued⟩ := hcounted attempts s1 h
  dsimp only
  split
  · next hr =>
    rw [Bool.and_eq_true] at hr
    exact post_pure.mpr (hretry hr.1)
  · refine post_bind.mpr (post_commit ?_ fun e _ => post_pure.mpr (herr1 e))
    exact fun s2 h2 => post_pure.mpr (hqueued _ s2 h2)

/-- What `settleRun` does about a run: it counts a failure before the outbox, or ends with one
transaction. -/
inductive Disposal where
  | fail (stage : String) (failure : GoError) (retryable : Bool)
  | poll
  | ciWait (pullNumber : Int) (headSHA : GoString) (projected : TerminalResult)
      (encoded : GoString)
  | report (projected : TerminalResult)

/-- What it does about a valid projection that renders. -/
def projectionDisposal (env : Env) (projected : TerminalResult) : Disposal :=
  if projected.outcome = lit "ready_for_review" && env.policy.1.isValid then
    match env.lib.marshalTerminalResult projected with
    | .error e => .fail "ci_wait_serialization" e false
    | .ok encoded =>
      let (worker, decoded) := env.lib.unmarshalWorker (projected.result.getD (lit "null"))
      match (if decoded then worker.pullRequest else none) with
      | none => .fail "ci_wait_correlation"
          (newError "ready result lacks durable pull request coordinates") false
      | some pull => .ciWait pull.number worker.deliveredHeadSHA projected encoded
  else .report projected

/-- What it does about a finished run, given the answer to `TerminalResult`. -/
def finishedDisposal (env : Env) (job : Job) : Except GoError TerminalResult → Disposal
  | .error e => .fail "terminal_projection" e (isRetryable e)
  | .ok projected =>
    match validateTerminalResult env.lib job projected with
    | .error e => .fail "terminal_correlation" e false
    | .ok () =>
      match renderTerminalComment env.lib job projected with
      | .error e => .fail "terminal_rendering" e false
      | .ok _ => projectionDisposal env projected

def disposal (env : Env) (projects : Bool) (job : Job) (result : RunStatus)
    (projection : Except GoError TerminalResult) : Disposal :=
  match reconciledStatus result.status with
  | .error e => .fail "broker_status" e false
  | .ok status =>
    if status = .launched then .poll
    else if projects then finishedDisposal env job projection
    else .fail "terminal_projection" (newError "broker does not provide terminal projection") false

/-- The transaction that ends a reconciliation in `state`. -/
def settle (op : Store → Except GoError Store) (state : JobStatus) :
    Dispatch (Except GoError JobStatus) := do
  match ← commit op with
  | .error e => return .error e
  | .ok () => return .ok state

def Disposal.run (env : Env) (job : Job) (now : Int) :
    Disposal → Dispatch (Except GoError JobStatus)
  | .fail stage failure retryable =>
    reconcilePreOutboxFailure env job .reportPending stage failure retryable now
  | .poll => settle (markStatus job.id .launched (now + statusPollInterval) [] now) .launched
  | .ciWait pullNumber headSHA projected encoded =>
    settle (beginCIWait env.lib job pullNumber projected.branch headSHA projected.profile
      (now + env.policy.1.reconciliationWake) now encoded) .ciWaiting
  | .report projected => settle (queueTerminalResult env.lib job projected now) .reportPending

theorem post_settle {state : JobStatus} (hok : ∀ s', op s = .ok s' → Q (.ok state) s')
    (herr : ∀ e, op s = .error e → Q (.error e) s) : Post A o (settle op state) s Q :=
  post_bind.mpr (post_commit (fun s' h => post_pure.mpr (hok s' h)) fun e h =>
    post_pure.mpr (herr e h))

theorem settleProjection_eq (job : Job) (projected : TerminalResult) (now : Int) :
    settleProjection env job projected now =
      (projectionDisposal env projected).run env job now := by
  rcases hworker : env.lib.unmarshalWorker (projected.result.getD (lit "null"))
    with ⟨worker, decoded⟩
  unfold settleProjection projectionDisposal
  simp only [hworker]
  split
  · cases env.lib.marshalTerminalResult projected with
    | error e => rfl
    | ok encoded => cases (if decoded = true then worker.pullRequest else none) <;> rfl
  · rfl

/-- `settleRun` asks for the projection, if at all, and does what the answer calls for. -/
theorem post_settleRun {projects : Bool}
    (hasked : A ⟨.poll job.id, .terminalResult job.brokerRunID⟩ s)
    (hall : ∀ d, disposal env projects job result
      (o ⟨.poll job.id, .terminalResult job.brokerRunID⟩) = d → Post A o (d.run env job now) s Q) :
    Post A o (settleRun env projects job result now) s Q := by
  have h := hall _ rfl
  unfold settleRun
  split
  · next e he =>
    simp only [disposal, he] at h
    exact h
  · next he =>
    simp only [disposal, he, if_true] at h
    exact h
  · next status hne he =>
    have hfinished : status ≠ .launched := fun heq => hne (heq ▸ rfl)
    simp only [disposal, he, if_neg hfinished] at h
    cases projects with
    | false => exact h
    | true =>
      refine post_bind.mpr (post_request.mpr ⟨hasked, ?_⟩)
      revert h
      generalize (o ⟨.poll job.id, .terminalResult job.brokerRunID⟩ :
        Except GoError TerminalResult) = projection
      intro h
      cases projection with
      | error e => exact h
      | ok projected =>
        simp only [if_true, finishedDisposal] at h
        dsimp only
        revert h
        cases validateTerminalResult env.lib job projected with
        | error e => exact id
        | ok _ =>
          cases renderTerminalComment env.lib job projected with
          | error e => exact id
          | ok _ =>
            rw [settleProjection_eq]
            exact id

theorem projectionDisposal_ciWait {pullNumber : Int} {headSHA encoded : GoString}
    {projection projected : TerminalResult}
    (h : projectionDisposal env projection = .ciWait pullNumber headSHA projected encoded) :
    projection = projected ∧ projection.outcome = lit "ready_for_review" := by
  unfold projectionDisposal at h
  split at h
  · next hready =>
    have houtcome := of_decide_eq_true (Bool.and_eq_true_iff.mp hready).1
    split at h
    · cases h
    dsimp only at h
    split at h
    · cases h
    cases h
    exact ⟨rfl, houtcome⟩
  · cases h

/-- A job enters the CI wait for a projection that is ready for review. -/
theorem disposal_ciWait {projects : Bool} {projection : Except GoError TerminalResult}
    {pullNumber : Int} {headSHA encoded : GoString} {projected : TerminalResult}
    (h : disposal env projects job result projection =
      .ciWait pullNumber headSHA projected encoded) :
    projection = .ok projected ∧ projected.outcome = lit "ready_for_review" := by
  unfold disposal at h
  split at h
  · cases h
  split at h
  · cases h
  split at h
  · -- a projection is taken only when it validates and renders
    unfold finishedDisposal at h
    split at h
    · cases h
    split at h
    · cases h
    split at h
    · cases h
    obtain ⟨rfl, houtcome⟩ := projectionDisposal_ciWait h
    exact ⟨rfl, houtcome⟩
  · cases h

theorem reconcilePreOutboxFailure_walks (job : Job) (status : JobStatus) (stage : String)
    (failure : GoError) (retryable : Bool) :
    Walks env now fresh units o
      (reconcilePreOutboxFailure env job status stage failure retryable now) s := by
  refine post_reconcilePreOutboxFailure (fun _ => .refl) fun attempts s1 h => ?_
  have hcounted : Transactions env now fresh s s1 := .single (.markPreOutboxFailure h)
  exact ⟨fun _ => hcounted, fun _ => hcounted, fun r s2 h2 =>
    hcounted.tail (.queueTerminalResult h2)⟩

theorem reconcileStatusFailure_walks (job : Job) (failure : GoError) :
    Walks env now fresh units o (reconcileStatusFailure env job failure now) s := by
  unfold reconcileStatusFailure
  split
  · exact walks_commit (fun s' h => ⟨.deferResume (add_millisecond_le (by decide)) h, walks_pure⟩)
      fun _ _ => walks_pure
  · exact reconcilePreOutboxFailure_walks ..

theorem settleRun_walks (hu : units (.poll job.id)) (hp : (s.view job.id).polled) (projects : Bool)
    (result : RunStatus) :
    Walks env now fresh units o (settleRun env projects job result now) s := by
  refine post_settleRun (asks_of_ne hu (by simp)) fun d _ => ?_
  cases d with
  | fail stage failure retryable =>
    exact reconcilePreOutboxFailure_walks job .reportPending stage failure retryable
  | poll => exact post_settle (fun _ h => .single (.markStatus hp h)) fun _ _ => .refl
  | ciWait => exact post_settle (fun _ h => .single (.beginCIWait hp h)) fun _ _ => .refl
  | report => exact post_settle (fun _ h => .single (.queueTerminalResult h)) fun _ _ => .refl

/-- A resumed job is launched. -/
theorem launched_of_resume {id : Int} {runID : GoString} {p : ExternalWaitRow → Bool} {w j : String}
    {due : Int} (h : resumeExternalWait id runID p w j due now s = .ok s') :
    (s'.view id).status = some .launched := by
  simp only [resumeExternalWait, expectOne_bind_eq_ok, pure_eq_ok] at h
  obtain ⟨_, hj, rfl⟩ := h
  obtain ⟨r, hr, hw⟩ := Table.hits_iff.mp hj
  simp [Store.view, hr, hw]

/-- `ReconcileStatusResult` for a status other than `waiting_external`, which `runStatus` handles
itself. -/
theorem reconcileStatusResult_walks (hu : units (.poll job.id)) (hc : Claimed now job s)
    (hp : (s.view job.id).polled) (projects : Bool) (hw : result.status ≠ lit "waiting_external") :
    Walks env now fresh units o (reconcileStatusResult env projects job result now) s := by
  unfold reconcileStatusResult
  rw [if_neg hw]
  split
  · exact reconcilePreOutboxFailure_walks ..
  · split
    · exact walks_commit
        (fun s' h => ⟨.reconcileResume hc h, settleRun_walks hu (.inl (launched_of_resume h)) ..⟩)
        fun _ _ => walks_pure
    · exact settleRun_walks hu hp ..

/-- The outcomes of `resumeReadyWait`: the resume is put off or marked. -/
theorem post_resumeReadyWait {wait : RepositoryRunExternalWait}
    {Q : Except GoError Bool → Store → Prop}
    (hasked : A ⟨.poll job.id, .resumeRun wait.brokerRunID wait.resumeKey wait.maxRuntimeSeconds⟩ s)
    (herr : ∀ e, Q (.error e) s)
    (hdeferred : ∀ d failure s', millisecond ≤ d →
      deferRepositoryRunExternalResume job (now + d) failure now s = .ok s' → Q (.ok true) s')
    (hresumed : ∀ s', markRepositoryRunExternalResumed wait now s = .ok s' → Q (.ok true) s') :
    Post A o (resumeReadyWait env job wait now) s Q := by
  have later : ∀ {d : Int} (failure : GoError), millisecond ≤ d →
      Post A o (commit (deferRepositoryRunExternalResume job (now + d) failure now) >>=
        fun r => pure (worked r)) s Q := fun failure hd =>
    post_bind.mpr (post_commit (fun s' h => post_pure.mpr (hdeferred _ failure s' hd h)) fun e _ =>
      post_pure.mpr (herr e))
  have resumed : Post A o (commit (markRepositoryRunExternalResumed wait now) >>=
      fun r => pure (worked r)) s Q :=
    post_bind.mpr (post_commit (fun s' h => post_pure.mpr (hresumed s' h)) fun e _ =>
      post_pure.mpr (herr e))
  unfold resumeReadyWait
  split
  · refine post_bind.mpr (post_request.mpr ⟨hasked, ?_⟩)
    split
    · next e _ => exact later e (le_preOutboxRetryDelay _)
    · split
      · exact later _ (by decide)
      · split
        · split
          · exact later _ (by decide)
          · exact resumed
        · exact resumed
  · exact later _ (by decide)

theorem resumeReadyWait_walks (hu : units (.poll job.id)) (wait : RepositoryRunExternalWait) :
    Walks env now fresh units o (resumeReadyWait env job wait now) s :=
  post_resumeReadyWait (asks_of_ne hu (by simp)) (fun _ => .refl)
    (fun _ _ _ hd h => .single (.deferResume (add_millisecond_le hd) h))
    fun _ h => .single (.markResumed h)

theorem runStatus_walks (hu : units (.poll job.id)) (hc : Claimed now job s)
    (hp : (s.view job.id).polled) (hfresh : fresh → ∀ result wait w,
      (o ⟨.poll job.id, .status job.brokerRunID⟩ : Except GoError RunStatus) = .ok result →
      result.status = lit "waiting_external" → result.externalWait = some wait →
      wait.validate = .ok () → s.externalWaits.find? job.id = some w →
      w.generation = wait.generation → w.state ≠ .resumed) :
    Walks env now fresh units o (runStatus env job now) s := by
  unfold runStatus
  refine walks_request (asks_of_ne hu (by simp)) fun a ha => ?_
  cases a with
  | error e =>
    dsimp only
    split
    · exact walks_worked fun s' h => .deferResume (add_millisecond_le (by decide)) h
    · exact walks_map (reconcileStatusFailure_walks ..)
  | ok result =>
    dsimp only
    split
    · exact walks_pure
    · split
      · next hw =>
        split
        · exact walks_map (reconcilePreOutboxFailure_walks ..)
        · next wait hwait =>
          split
          · exact walks_map (reconcilePreOutboxFailure_walks ..)
          · next hval =>
            refine walks_atomic (fun stored s' h => ⟨.single (.recordWait hc hp ?_ h), ?_⟩)
              fun _ _ => walks_pure
            · exact fun hf w => hfresh hf result wait w ha hw hwait hval
            · dsimp only
              split
              · exact resumeReadyWait_walks hu ..
              · exact walks_pure
      · next hw => exact walks_map (reconcileStatusResult_walks hu hc hp _ hw)

/-! ### The status of a repair -/

/-- A transaction of `runCIRepairStatus` that others may follow. -/
inductive RepairStep (now : Int) (attempt : CIRepairAttempt) (s s' : Store) : Prop where
  | none (h : s' = s)
  | waits {wait : CIExternalWait} {key : GoString}
      (h : recordCIRepairExternalWait attempt wait now s = .ok (key, s'))
  | resumes {resumeKey : GoString} {generation : Int}
      (h : markCIRepairExternalResumed attempt.attemptKey resumeKey generation
        (now + statusPollInterval) now s = .ok s')
  | charges (h : chargeCIRepairAttempt attempt.attemptKey now s = .ok s')

/-- The last transaction of `runCIRepairStatus`. -/
inductive RepairEnd (env : Env) (now : Int) (attempt : CIRepairAttempt) (s s' : Store) : Prop where
  | step (h : RepairStep now attempt s s')
  | defers {due : Int} {failure : GoError} (hdue : now + millisecond ≤ due)
      (h : deferCIRepairStatus attempt.attemptKey due failure now s = .ok s')
  | schedules (h : scheduleCIRepairStatus attempt.attemptKey (now + statusPollInterval) now s =
      .ok s')
  | finishes {failureClass detail : GoString} {modelStarted : Bool}
      (h : finishCIRepairFailure env.lib env.policy.1 attempt failureClass modelStarted detail
        env.policy.1.maxAttempts now s = .ok s')
  | completes {delivery : CIRepairDelivery}
      (h : completeCIRepairDelivery env.policy.1 attempt.attemptKey delivery now s = .ok s')

/-- The program looks after `attempt`, and asks on its behalf. -/
abbrev Repairs (env : Env) (now : Int) (attempt : CIRepairAttempt)
    (p : Dispatch (Except GoError Bool)) : Prop :=
  Conforms (fun q : Request => q.unit = .attempt attempt.attemptKey ∧ ∀ job, q.call ≠ .launch job)
    (RepairStep now attempt) (RepairEnd env now attempt) p

theorem repairs_worked (h : ∀ s s', op s = .ok s' → RepairEnd env now attempt s s') :
    Repairs env now attempt (commit op >>= fun r => pure (worked r)) :=
  conforms_last (fun _ => .step (.none rfl)) h fun _ => ⟨_, rfl⟩

theorem runCIRepairWait_repairs (task : CIRepairTask) (wait : CIExternalWait) :
    Repairs env now attempt (runCIRepairWait task attempt wait now) := by
  unfold runCIRepairWait
  refine conforms_atomic (fun _ => .none rfl) (fun _ key _ h => ⟨.waits h, ?_⟩)
    fun _ => conforms_pure
  refine conforms_request ⟨rfl, by simp⟩ fun observed => ?_
  dsimp only
  split
  · exact repairs_worked fun _ _ h => .defers (add_millisecond_le (by decide)) h
  · refine conforms_request ⟨rfl, by simp⟩ fun answer => ?_
    split
    · exact repairs_worked fun _ _ h => .defers (add_millisecond_le (le_preOutboxRetryDelay _)) h
    · split
      · exact conforms_pure
      · split
        · exact conforms_pure
        · exact repairs_worked fun _ _ h => .step (.resumes h)

theorem deliverRepair_repairs (terminal : TerminalResult) :
    Repairs env now attempt (deliverRepair env attempt terminal now) := by
  unfold deliverRepair
  dsimp only
  split
  · refine conforms_commit (fun _ => .none rfl) (fun _ _ h => .charges h) fun r => ?_
    cases r with
    | error e => exact conforms_pure
    | ok _ => exact repairs_worked fun _ _ h => .completes h
  · exact repairs_worked fun _ _ h => .finishes h

theorem settleRepair_repairs (task : CIRepairTask) (terminal : TerminalResult) :
    Repairs env now attempt (settleRepair env task attempt terminal now) := by
  have finish : ∀ (failureClass : GoString) (modelStarted : Bool) (detail : GoString),
      Repairs env now attempt (commit (finishCIRepairFailure env.lib env.policy.1 attempt
        failureClass modelStarted detail env.policy.1.maxAttempts now) >>=
          fun r => pure (worked r)) :=
    fun _ _ _ => repairs_worked fun _ _ h => .finishes h
  unfold settleRepair
  dsimp only
  split
  · exact finish _ _ _
  · split
    · split <;> exact finish _ _ _
    · split
      · exact finish _ _ _
      · exact deliverRepair_repairs terminal

theorem deferOrFailCIRepairStatus_repairs (failure : GoError) :
    Repairs env now attempt (commit (deferOrFailCIRepairStatus env attempt failure now) >>=
      fun r => pure (worked r)) := by
  unfold deferOrFailCIRepairStatus
  split
  · exact repairs_worked fun _ _ h => .defers (add_millisecond_le (le_preOutboxRetryDelay _)) h
  · exact repairs_worked fun _ _ h => .finishes h

theorem followRepair_repairs (task : CIRepairTask) (status : RunStatus) :
    Repairs env now attempt (followRepair env task attempt status now) := by
  unfold followRepair
  split
  · exact repairs_worked fun _ _ h => .finishes h
  · exact repairs_worked fun _ _ h => .schedules h
  · refine conforms_request ⟨rfl, by simp⟩ fun answer => ?_
    split
    · exact deferOrFailCIRepairStatus_repairs _
    · exact settleRepair_repairs task _

theorem runCIRepairStatus_repairs (task : CIRepairTask) :
    Repairs env now attempt (runCIRepairStatus env task attempt now) := by
  unfold runCIRepairStatus
  refine conforms_request ⟨rfl, by simp⟩ fun answer => ?_
  split
  · exact deferOrFailCIRepairStatus_repairs _
  · split
    · exact repairs_worked fun _ _ h => .finishes h
    · split
      · split
        · exact conforms_pure
        · exact runCIRepairWait_repairs task _
      · split
        · refine conforms_commit (fun _ => .none rfl) (fun _ _ h => .resumes h) fun r => ?_
          cases r with
          | error e => exact conforms_pure
          | ok _ => exact followRepair_repairs task _
        · exact followRepair_repairs task _

theorem RepairStep.transactions (h : RepairStep now attempt s s')
    (ht : TaskOf attempt.attemptKey s) :
    Transactions env now fresh s s' ∧ TaskOf attempt.attemptKey s' := by
  cases h with
  | none h =>
    subst h
    exact ⟨.refl, ht⟩
  | waits h =>
    exact ⟨.single (.recordCIRepairExternalWait h),
      ht.followed (recordCIRepairExternalWait_follows 0 h)⟩
  | resumes h =>
    exact ⟨.single (.markCIRepairExternalResumed h),
      ht.followed (markCIRepairExternalResumed_follows h)⟩
  | charges h => exact ⟨.single (.chargeCIRepairAttempt h), ht.charged h⟩

theorem RepairEnd.transactions (h : RepairEnd env now attempt s s')
    (ht : TaskOf attempt.attemptKey s) : Transactions env now fresh s s' := by
  cases h with
  | step h => exact (h.transactions ht).1
  | defers hdue h => exact .single (.deferAttempt hdue h)
  | schedules h => exact .single (.scheduleCIRepairStatus h)
  | finishes h => exact .single (.finishCIRepairFailure h)
  | completes h => exact .single (.completeCIRepairDelivery ht h)

theorem runCIRepairStatus_walks (task : CIRepairTask) (hu : units (.attempt attempt.attemptKey))
    (ht : TaskOf attempt.attemptKey s) :
    Walks env now fresh units o (runCIRepairStatus env task attempt now) s := by
  obtain ⟨hasked, hs⟩ := (runCIRepairStatus_repairs task).post o ht
    (fun _ _ ht h => h.transactions ht) fun _ _ ht h => h.transactions ht
  refine ⟨fun x hx => ?_, hs⟩
  obtain ⟨hunit, hcall⟩ := hasked x hx
  exact asks_of_ne (hunit ▸ hu) hcall

/-! ### The other claims -/

theorem runEscalation_walks {report : CIEscalationReport}
    (hu : units (.escalation report.job.id)) :
    Walks env now fresh units o (runEscalation env report now) s := by
  unfold runEscalation
  refine walks_request (asks_of_ne hu (by simp)) fun a _ => ?_
  cases a with
  | error e => exact walks_worked fun s' h => .markCIEscalationFailure h
  | ok result => exact walks_worked fun s' h => .markCIEscalationDelivered h

theorem runReconciliation_walks (hu : units (.reconciliation work.task.jobID work.headSHA))
    (hclean : ∀ r ∈ s.reconciliations.rows, r.operationKey = work.operationKey → r.dirty = false) :
    Walks env now fresh units o (runReconciliation env work now) s := by
  unfold runReconciliation
  refine walks_request (asks_of_ne hu (by simp)) fun a _ => ?_
  cases a with
  | error e => exact walks_worked fun s' h => .failCIReconciliation h
  | ok observation => exact walks_worked fun s' h => .applyCIObservation hclean h

theorem runRepairLaunch_walks (task : CIRepairTask) (hu : units (.attempt attempt.attemptKey)) :
    Walks env now fresh units o (runRepairLaunch env task attempt now) s := by
  unfold runRepairLaunch
  refine walks_request (asks_of_ne hu (by simp)) fun a _ => ?_
  cases a with
  | ok runID => exact walks_worked fun s' h => .bindCIRepairRun h
  | error e =>
    dsimp only
    split
    · exact walks_worked fun s' h => .deferAttempt (add_millisecond_le (le_launchRetryDelay _)) h
    · exact walks_worked fun s' h => .finishCIRepairFailure h

theorem runReport_walks {report : Report} (hu : units (.report report.jobID)) :
    Walks env now fresh units o (runReport report now) s := by
  unfold runReport
  refine walks_request (asks_of_ne hu (by simp)) fun a _ => ?_
  cases a with
  | ok result => exact walks_worked fun s' h => .markReportDelivered h
  | error e => exact walks_worked fun s' h => .markReportFailure h

theorem runLaunch_walks (hu : units (.launch job.id)) (hc : Claimed now job s) :
    Walks env now fresh units o (runLaunch env job now) s := by
  unfold runLaunch
  split
  · exact walks_worked fun s' h => .queueTerminalResult h
  · refine walks_request ⟨hu, ?_⟩ fun a _ => ?_
    · intro job' hj
      cases hj
      obtain ⟨r, hr, -⟩ := hc.row
      exact ⟨⟨r, hr⟩, hc.first⟩
    · cases a with
      | ok runID => exact walks_worked fun s' h => .markLaunched hc h
      | error e =>
        dsimp only
        split
        · exact walks_worked fun s' h => .markLaunchFailure hc h
        · exact walks_worked fun s' h => .queueTerminalResult h

/-! ### One pass -/

/-- The condition on a replayed wait reads the jobs, their results and the waits only. -/
theorem NoResumedReplay.congr (h : NoResumedReplay now o s) (hj : s'.jobs = s.jobs)
    (ht : s'.terminalResults = s.terminalResults) (hw : s'.externalWaits = s.externalWaits) :
    NoResumedReplay now o s' := by
  have hhead : s'.head = s.head := by
    have hun : s'.unfinished = s.unfinished := by
      funext r
      simp only [Store.unfinished, Store.hasTerminal, ht]
    simp only [Store.head, hj, hun]
  simpa only [NoResumedReplay, hhead, hw] using h

/-- The claim of a launch counts the attempt and keeps the row in line. -/
theorem claimed_of_launch {r : JobRow} (hr : s.head = some r) (hdue : r.dueAt ≤ unixMilli now)
    (hqueued : r.status.isQueued = true) :
    Claimed now (r.toLaunchJob now) (s.updateJob r.id (fun r => r.status.isQueued)
      (fun r => r.attempted now) (fun _ => rfl)) := by
  refine ⟨⟨r.attempted now, ?_, hdue, rfl⟩, ?_⟩
  · simp [Store.updateJob, JobRow.toLaunchJob, JobRow.toJob, (Store.head_row hr).1, hqueued]
  · have hview : (s.updateJob r.id (fun r => r.status.isQueued) (fun r => r.attempted now)
        (fun _ => rfl)).view = s.view := Store.view_update fun _ => ⟨rfl, rfl, rfl⟩
    have hline : (s.updateJob r.id (fun r => r.status.isQueued) (fun r => r.attempted now)
        (fun _ => rfl)).line = s.line := by simp only [Store.line, hview]
    rw [hline]
    exact Store.first_of_head hr

theorem runJob_walks (hu : ∀ u, units u) (hfresh : fresh → NoResumedReplay now o s) :
    Walks env now fresh units o (runJob env now) s := by
  unfold runJob
  refine walks_atomic (fun work s' h => ⟨.single (.claimDue h), ?_⟩) fun _ _ => walks_pure
  obtain ⟨rfl, rfl⟩ | ⟨r, hr, hdue, ⟨hp, rfl, rfl⟩ | ⟨hq, rfl, rfl⟩⟩ := claimDue_cases h
  · exact walks_pure
  · have hc : Claimed now r.toJob s' :=
      ⟨⟨r, (Store.head_row hr).1, hdue, rfl⟩, Store.first_of_head hr⟩
    dsimp only
    split
    · exact walks_worked fun s' h => .deferReportPending h
    · exact runStatus_walks (hu _) hc hp fun hf => hfresh hf r hr hdue
  · exact runLaunch_walks (hu _) (claimed_of_launch hr hdue
      ((Store.view_queued (Store.head_row hr).1).mp hq))

theorem runReportOrJob_walks (hu : ∀ u, units u) (hfresh : fresh → NoResumedReplay now o s) :
    Walks env now fresh units o (runReportOrJob env now) s := by
  unfold runReportOrJob
  split
  · refine walks_atomic (fun report s' h => ?_) fun _ _ => walks_pure
    obtain rfl := claimReportDue_store h
    refine ⟨.refl, ?_⟩
    cases report with
    | none => exact runJob_walks hu hfresh
    | some report => exact runReport_walks (hu _)
  · exact runJob_walks hu hfresh

theorem runCIOrRest_walks (tie : Nat) (hu : ∀ u, units u)
    (hfresh : fresh → NoResumedReplay now o s) :
    Walks env now fresh units o (runCIOrRest env tie now) s := by
  unfold runCIOrRest
  split
  · refine walks_atomic (fun work s1 h1 => ⟨.single (.claimCIReconciliation h1), ?_⟩)
      fun _ _ => walks_pure
    cases work with
    | some work => exact runReconciliation_walks (hu _) (claimCIReconciliation_clean h1)
    | none =>
      obtain ⟨rs, rfl⟩ := claimCIReconciliation_store h1
      refine walks_atomic (fun work s2 h2 => ⟨.single (.claimCIRepair h2), ?_⟩)
        fun _ _ => walks_pure
      cases work with
      | some work => exact runRepairLaunch_walks _ (hu _)
      | none =>
        obtain rfl := claimCIRepair_none h2
        refine walks_atomic (fun work s3 h3 => ⟨.single (.claimCIRepairStatus h3), ?_⟩)
          fun _ _ => walks_pure
        cases work with
        | some work => exact runCIRepairStatus_walks work.1 (hu _) (claimCIRepairStatus_taskOf h3)
        | none =>
          obtain rfl := claimCIRepairStatus_none h3
          exact runReportOrJob_walks hu fun hf => (hfresh hf).congr rfl rfl rfl
  · exact runReportOrJob_walks hu hfresh

/-- A pass is a sequence of transactions, and it launches only the first job in line. -/
theorem runOne_walks (tie : Nat) (hu : ∀ u, units u) (hfresh : fresh → NoResumedReplay now o s) :
    Walks env now fresh units o (runOne env tie now) s := by
  unfold runOne
  split
  · refine walks_atomic (fun report s' h => ?_) fun _ _ => walks_pure
    obtain rfl := claimCIEscalation_store h
    refine ⟨.refl, ?_⟩
    cases report with
    | some report => exact runEscalation_walks (hu _)
    | none => exact runCIOrRest_walks tie hu hfresh
  · exact runCIOrRest_walks tie hu hfresh

/-- What a pass can write and launch, whatever it is asked for. -/
theorem runOne_transactions (tie : Nat) :
    Walks env now False (fun _ => True) o (runOne env tie now) s :=
  runOne_walks tie (fun _ => trivial) False.elim

end Parts

end SignalPlane.Dispatcher
