/-
SignalPlane.Dispatcher.CIAttempt — repair attempts and escalation delivery
(`ci_repair.go`, from `ClaimCIRepair` on).

An attempt is ready, then running under a broker run, and ends failed or with
a delivered candidate. A charge records the broker's proof that a model
execution started; it is made at most once per attempt.
-/
import SignalPlane.Dispatcher.CIRepair

namespace SignalPlane.Dispatcher

open Clock

/-! ## Claims -/

/-- The attempts in state `state` that are due, with their task in state `taskState`. -/
def Store.claimableAttempts (s : Store) (taskState : CITaskState) (state : AttemptState)
    (now : Int) : List (CITaskRow × AttemptRow) :=
  s.attempts.rows.filterMap fun a =>
    match s.ciTasks.find? a.jobID with
    | some t =>
      if t.state = taskState ∧ a.state = state ∧ a.dueAt ≤ unixMilli now then some (t, a)
      else none
    | none => none

theorem mem_claimableAttempts {taskState : CITaskState} {state : AttemptState} {t : CITaskRow}
    {a : AttemptRow} {now : Int} {s : Store} :
    (t, a) ∈ s.claimableAttempts taskState state now ↔
      a ∈ s.attempts.rows ∧ s.ciTasks.find? a.jobID = some t ∧ t.state = taskState ∧
        a.state = state ∧ a.dueAt ≤ unixMilli now := by
  simp only [Store.claimableAttempts, List.mem_filterMap]
  constructor
  · rintro ⟨a', ha', h⟩
    split at h
    · next t' ht' =>
      split at h
      · next hc =>
        cases h
        exact ⟨ha', ht', hc⟩
      · cases h
    · cases h
  · rintro ⟨ha, ht, hc⟩
    exact ⟨a, ha, by simp [ht, hc]⟩

/-- `ORDER BY a.due_at, t.job_id`. -/
def attemptOrder (a b : CITaskRow × AttemptRow) : Bool :=
  a.2.dueAt < b.2.dueAt || (a.2.dueAt = b.2.dueAt && a.1.jobID ≤ b.1.jobID)

/-- The runtime bound of an attempt; 0 is an attempt of an older schema. -/
def AttemptRow.runtimeSeconds (a : AttemptRow) (policy : CIRepairPolicy) : Int :=
  if a.maxRuntimeSeconds = 0 then durationSeconds policy.activeTimeout else a.maxRuntimeSeconds

/-- The attempt value a claim scans from a row. -/
def AttemptRow.toAttempt (a : AttemptRow) (policy : CIRepairPolicy) (jobID : Int) :
    CIRepairAttempt where
  attemptKey := a.attemptKey
  jobID := jobID
  attemptNumber := a.attemptNumber
  failedHeadSHA := a.failedHeadSHA
  agentModel := a.agentModel
  state := a.state
  charged := a.charged
  brokerRunID := a.brokerRunID
  maxRuntimeSeconds := a.runtimeSeconds policy
  operations := a.operationAttempts

/-- Both claims store the runtime bound of an attempt that has none. -/
def Store.fillRuntime (s : Store) (policy : CIRepairPolicy) (key : GoString) (now : Int) : Store :=
  s.updateAttempt key (fun a => a.maxRuntimeSeconds = 0)
    (fun a => { a with
      maxRuntimeSeconds := durationSeconds policy.activeTimeout
      updatedAt := unixMilli now }) (fun _ => rfl)

/-- `Store.ClaimCIRepair`. The task value carries no reconciliation time. -/
def claimCIRepair (policy : CIRepairPolicy) (tie : Nat) (now : Int) (s : Store) :
    Except GoError (Option (CIRepairTask × CIRepairAttempt) × Store) :=
  match pick attemptOrder (s.claimableAttempts .repairReady .ready now) tie with
  | none => .ok (none, s)
  | some (t, a) =>
    .ok (some ({ t.toTask with reconcileAt := Clock.zero }, a.toAttempt policy t.jobID),
      s.fillRuntime policy a.attemptKey now)

/-- The unresumed or resumed wait a running attempt carries. -/
def AttemptRow.toWait (a : AttemptRow) : Option CIExternalWait :=
  if a.externalWaitGeneration > 0 then
    some
      { service := a.externalWaitService
        phase := a.externalWaitPhase
        operation := a.externalWaitOperation
        reason := a.externalWaitReason
        generation := a.externalWaitGeneration
        since := match a.externalWaitSince with
          | some ms => ofUnixMilli ms
          | none => Clock.zero }
  else none

/-- `Store.ClaimCIRepairStatus`: the attempt is leased while its status is read. -/
def claimCIRepairStatus (policy : CIRepairPolicy) (tie : Nat) (now : Int) (s : Store) :
    Except GoError (Option (CIRepairTask × CIRepairAttempt) × Store) :=
  match pick attemptOrder (s.claimableAttempts .repairRunning .running now) tie with
  | none => .ok (none, s)
  | some (t, a) =>
    let attempt := { a.toAttempt policy t.jobID with
      externalWait := a.toWait
      externalResumeKey := a.externalResumeKey
      resumedGeneration := a.resumedExternalWaitGeneration }
    .ok (some ({ t.toTask with reconcileAt := Clock.zero }, attempt),
      (s.fillRuntime policy a.attemptKey now).updateAttempt a.attemptKey
        (fun a => a.state = .running)
        (fun a => { a with
          dueAt := unixMilli (now + ciReconcileLease)
          updatedAt := unixMilli now }) (fun _ => rfl))

/-! ## Launch and status -/

/-- `Store.BindCIRepairRun`. Neither update is checked. -/
def bindCIRepairRun (attempt : CIRepairAttempt) (brokerRunID : GoString) (now : Int) (s : Store) :
    Except GoError Store := do
  require (¬ (attempt.attemptKey = [] ∨ brokerRunID = []))
    (newError "repair attempt and broker run identities are required")
  match s.attempts.find? attempt.attemptKey with
  | none => .error errNoRows
  | some row =>
    require (¬ (row.brokerRunID ≠ [] ∧ row.brokerRunID ≠ brokerRunID))
      (newError "repair attempt replay conflicts with broker run")
    let s := s.updateAttempt attempt.attemptKey
      (fun a => a.state = .ready || a.state = .running)
      (fun a => { a with
        state := .running
        brokerRunID := brokerRunID
        operationAttempts := a.operationAttempts + 1
        lastError := []
        dueAt := unixMilli (now + statusPollInterval)
        updatedAt := unixMilli now }) (fun _ => rfl)
    return s.updateTask attempt.jobID
      (fun t => t.state = .repairReady || t.state = .repairRunning)
      (fun t => { t with state := .repairRunning, updatedAt := unixMilli now }) (fun _ => rfl)

/-- What the two deferrals of an attempt share; they differ in the state they expect and the
texts of their errors. -/
def deferAttempt (state : AttemptState) (missing operation : String) (attemptKey : GoString)
    (due : Int) (failure : GoError) (now : Int) (s : Store) : Except GoError Store := do
  require (¬ (attemptKey = [] ∨ ¬ due > now)) (newError missing)
  expectOne (s.attempts.hits attemptKey (fun a => a.state = state)) operation
  return s.updateAttempt attemptKey (fun a => a.state = state)
    (fun a => { a with
      operationAttempts := a.operationAttempts + 1
      lastError := safeBrokerError failure
      dueAt := unixMilli due
      updatedAt := unixMilli now }) (fun _ => rfl)

/-- `Store.DeferCIRepairLaunch`. -/
def deferCIRepairLaunch : GoString → Int → GoError → Int → Store → Except GoError Store :=
  deferAttempt .ready "repair launch retry requires attempt identity and future due time"
    "defer CI repair launch"

/-- `Store.DeferCIRepairStatus`. -/
def deferCIRepairStatus : GoString → Int → GoError → Int → Store → Except GoError Store :=
  deferAttempt .running "repair status retry requires attempt identity and future due time"
    "defer CI repair status"

/-- `Store.ScheduleCIRepairStatus`. -/
def scheduleCIRepairStatus (attemptKey : GoString) (due now : Int) (s : Store) :
    Except GoError Store := do
  require (¬ (attemptKey = [] ∨ ¬ due > now))
    (newError "repair status schedule requires attempt identity and future due time")
  expectOne (s.attempts.hits attemptKey (fun a => a.state = .running)) "schedule CI repair status"
  return s.updateAttempt attemptKey (fun a => a.state = .running)
    (fun a => { a with
      lastError := []
      dueAt := unixMilli due
      updatedAt := unixMilli now }) (fun _ => rfl)

/-! ## External waits of an attempt -/

/-- The comparison of a repeated generation with the stored wait. -/
def AttemptRow.matchesReplay (a : AttemptRow) (wait : CIExternalWait) (key : GoString) : Bool :=
  a.externalWaitService = wait.service && a.externalWaitPhase = wait.phase &&
    a.externalWaitOperation = wait.operation && a.externalWaitReason = wait.reason &&
    a.externalWaitSince = some (unixMilli wait.since) && a.externalResumeKey = key

/-- `Store.RecordCIRepairExternalWait`. A generation that was resumed is refused. -/
def recordCIRepairExternalWait (attempt : CIRepairAttempt) (wait : CIExternalWait) (now : Int)
    (s : Store) : Except GoError (GoString × Store) := do
  require (¬ (attempt.attemptKey = [] ∨ attempt.brokerRunID = []))
    (newError "external wait requires durable attempt and broker run identities")
  wait.validate
  let key := ciResumeKey attempt.attemptKey wait.generation
  match s.attempts.find? attempt.attemptKey with
  | none => .error errNoRows
  | some a =>
    require (a.state = .running ∧ a.brokerRunID = attempt.brokerRunID)
      (newError "external wait does not match the running repair attempt")
    require (¬ (wait.generation < a.externalWaitGeneration ∨
        wait.generation ≤ a.resumedExternalWaitGeneration))
      (newError "external wait generation is stale")
    if wait.generation = a.externalWaitGeneration then
      require (a.matchesReplay wait key = true)
        (newError "external wait replay conflicts with durable state")
      return (key, s)
    else
      return (key, s.updateAttempt attempt.attemptKey (fun a => a.state = .running)
        (fun a => { a with
          externalWaitService := wait.service
          externalWaitPhase := wait.phase
          externalWaitOperation := wait.operation
          externalWaitReason := wait.reason
          externalWaitGeneration := wait.generation
          externalWaitSince := some (unixMilli wait.since)
          externalResumeKey := key
          lastError := []
          updatedAt := unixMilli now }) (fun _ => rfl))

/-- `Store.MarkCIRepairExternalResumed`: a generation that is already resumed is accepted. -/
def markCIRepairExternalResumed (attemptKey resumeKey : GoString) (generation due now : Int)
    (s : Store) : Except GoError Store := do
  require (¬ (attemptKey = [] ∨ resumeKey = [] ∨ generation < 1 ∨ ¬ due > now))
    (newError "external resume requires durable identity, generation, and future status wake")
  let p := fun a : AttemptRow => a.state = .running && a.externalWaitGeneration = generation &&
    a.externalResumeKey = resumeKey && a.resumedExternalWaitGeneration < generation
  if s.attempts.hits attemptKey p then
    return s.updateAttempt attemptKey p
      (fun a => { a with
        resumedExternalWaitGeneration := generation
        lastError := []
        dueAt := unixMilli due
        updatedAt := unixMilli now }) (fun _ => rfl)
  match s.attempts.find? attemptKey with
  | none => .error errNoRows
  | some a =>
    require (generation ≤ a.resumedExternalWaitGeneration)
      (newError "external resume no longer matches the running wait")
    return s

/-! ## The end of an attempt -/

/-- `failureClass` is one of the three the broker reports. -/
def isFailureClass (c : GoString) : Bool :=
  c ∈ [lit "infrastructure", lit "model_or_code", lit "delivery_or_lease"]

/-- The escalation or the next attempt that follows a failed attempt. -/
def continueAfterFailure (lib : GoLib) (policy : CIRepairPolicy) (attempt : CIRepairAttempt)
    (task : CITaskRow) (failureClass : GoString) (modelStarted : Bool)
    (repairAttempts maxAttempts now : Int) (s : Store) : Except GoError Store := do
  if !modelStarted || failureClass = lit "delivery_or_lease" || maxAttempts ≤ repairAttempts ||
      maxAttempts ≤ attempt.attemptNumber then
    let observation : CIObservation :=
      { repository := task.repository
        pullNumber := task.pullNumber
        headSHA := task.currentHeadSHA
        state := lit "code_failure" }
    let observation := if task.lastCIJSON = [] then observation
      else lib.unmarshalObservation task.lastCIJSON observation
    if modelStarted then
      queueCIEscalation task.jobID observation repairAttempts maxAttempts
        (lit "attempts_exhausted") now s
    else
      queueCIEscalation task.jobID { observation with state := lit "infrastructure_failure" }
        repairAttempts maxAttempts (lit "infrastructure_failure") now s
  else
    let next := newAttempt policy task.jobID task.agentModel task.currentHeadSHA
      (attempt.attemptNumber + 1) now
    require ((s.attempts.find? next.attemptKey).isNone = true)
      (constraintFailed "UNIQUE repository_ci_attempts.attempt_key")
    checkAttemptConstraints s next
    let s := { s with attempts := s.attempts.insert next }
    return (s.setTaskState task.jobID .repairReady now).setJobStatus task.jobID .ciRepair now

/-- The statements of `FinishCIRepairFailure` that charge the attempt and mark it failed. -/
def Store.failAttempt (s : Store) (attemptKey : GoString) (task : CITaskRow) (charges : Bool)
    (repairAttempts : Int) (failureClass detail : GoString) (now : Int) : Store :=
  let s := if charges then
      (s.updateAttempt attemptKey (fun _ => true)
        (fun a => { a with charged := true }) (fun _ => rfl)).updateTask task.jobID
        (fun _ => true)
        (fun t => { t with
          repairAttempts := repairAttempts
          updatedAt := unixMilli now }) (fun _ => rfl)
    else s
  s.updateAttempt attemptKey (fun _ => true)
    (fun a => { a with
      state := .failed
      failureClass := failureClass
      lastError := safeBrokerError { text := detail }
      updatedAt := unixMilli now }) (fun _ => rfl)

/-- `Store.FinishCIRepairFailure`. -/
def finishCIRepairFailure (lib : GoLib) (policy : CIRepairPolicy) (attempt : CIRepairAttempt)
    (failureClass : GoString) (modelStarted : Bool) (detail : GoString) (maxAttempts now : Int)
    (s : Store) : Except GoError Store := do
  require (¬ (attempt.attemptKey = [] ∨ maxAttempts < 1 ∨ maxAttempts > 2))
    (newError "repair failure requires attempt identity and valid attempt policy")
  require (isFailureClass failureClass = true)
    (newError "repair terminal has invalid failure_class")
  match s.attempts.find? attempt.attemptKey with
  | none => .error errNoRows
  | some row =>
    match s.ciTasks.find? row.jobID with
    | none => .error errNoRows
    | some task =>
      if row.state = .failed then
        require (row.failureClass = failureClass ∧ row.charged = modelStarted)
          (newError "repair failure replay conflicts with durable terminal")
        return s
      require (row.state = .running ∨ (row.state = .ready ∧ modelStarted = false))
        (newError "repair failure is not active")
      let charges := modelStarted && !row.charged
      let repairAttempts := if charges then task.repairAttempts + 1 else task.repairAttempts
      require (¬ (charges = true ∧ repairAttempts > maxAttempts))
        (newError "repair attempt charge exceeds policy")
      continueAfterFailure lib policy attempt task failureClass modelStarted repairAttempts
        maxAttempts now (s.failAttempt attempt.attemptKey task charges repairAttempts failureClass
          detail now)

/-- `Store.ChargeCIRepairAttempt`. -/
def chargeCIRepairAttempt (attemptKey : GoString) (now : Int) (s : Store) :
    Except GoError Store := do
  match s.attempts.find? attemptKey with
  | none => .error errNoRows
  | some a =>
    require (a.state = .running ∨ a.state = .candidateDelivered ∨ a.state = .failed)
      (newError "repair attempt is not chargeable")
    if a.charged then return s
    let p := fun t : CITaskRow => decide (t.repairAttempts < a.attemptNumber)
    expectOne (s.ciTasks.hits a.jobID p) "charge CI repair attempt"
    let s := s.updateAttempt attemptKey (fun a => a.charged = false)
      (fun a => { a with charged := true, updatedAt := unixMilli now }) (fun _ => rfl)
    return s.updateTask a.jobID p
      (fun t => { t with
        repairAttempts := t.repairAttempts + 1
        updatedAt := unixMilli now }) (fun _ => rfl)

/-- `Store.CompleteCIRepairDelivery`. -/
def completeCIRepairDelivery (policy : CIRepairPolicy) (attemptKey : GoString)
    (delivery : CIRepairDelivery) (now : Int) (s : Store) : Except GoError Store := do
  require (∀ sha ∈ [delivery.expectedOldHeadSHA, delivery.candidateHeadSHA,
      delivery.validatedTreeSHA, delivery.deliveredHeadSHA, delivery.deliveredTreeSHA],
      isGithubSHA sha = true)
    (newError "repair delivery requires exact commit and tree identities")
  require (delivery.validatedTreeSHA = delivery.deliveredTreeSHA)
    (newError "delivered commit tree does not match the validated tree")
  match s.attempts.find? attemptKey with
  | none => .error errNoRows
  | some a =>
    require (a.charged = true)
      (newError "successful repair delivery lacks a charged model execution")
    if a.state = .candidateDelivered then
      require (a.candidateHeadSHA = delivery.candidateHeadSHA ∧
          a.validatedTreeSHA = delivery.validatedTreeSHA ∧
          a.deliveredHeadSHA = delivery.deliveredHeadSHA ∧
          a.deliveredTreeSHA = delivery.deliveredTreeSHA)
        (newError "repair delivery replay conflicts with durable result")
      return s
    require (a.state = .running) (newError "repair delivery is not active")
    let nextWake := now + policy.reconciliationWake
    let s := s.updateAttempt attemptKey (fun _ => true)
      (fun a => { a with
        state := .candidateDelivered
        expectedOldHeadSHA := delivery.expectedOldHeadSHA
        candidateHeadSHA := delivery.candidateHeadSHA
        validatedTreeSHA := delivery.validatedTreeSHA
        deliveredHeadSHA := delivery.deliveredHeadSHA
        deliveredTreeSHA := delivery.deliveredTreeSHA
        updatedAt := unixMilli now }) (fun _ => rfl)
    let s := s.updateTask a.jobID (fun _ => true)
      (fun t => { t with
        state := .waitingCI
        currentHeadSHA := delivery.deliveredHeadSHA
        lastCIState := []
        deadlineAt := unixMilli nextWake
        updatedAt := unixMilli now }) (fun _ => rfl)
    return s.scheduleJob a.jobID .ciWaiting nextWake now

/-! ## Escalation delivery -/

/-- `Store.ClaimCIEscalation`. -/
def claimCIEscalation (now : Int) (s : Store) :
    Except GoError (Option CIEscalationReport × Store) :=
  let due := s.escalations.rows.filter
    (fun o => o.state = .pending && o.dueAt ≤ unixMilli now && (s.jobs.find? o.jobID).isSome)
  match pick (fun a b => a.dueAt < b.dueAt || (a.dueAt = b.dueAt && a.jobID ≤ b.jobID)) due 0 with
  | none => .ok (none, s)
  | some o =>
    match s.jobs.find? o.jobID with
    | none => .ok (none, s)
    | some j =>
      .ok (some
        { job := { j.toJob with firstAttemptAt := Clock.zero }
          operationKey := o.operationKey
          body := o.body
          attempts := o.attempts }, s)

/-- `WHERE job_id = ? AND operation_key = ? AND state = 'pending'`. -/
def EscalationRow.isPendingFor (o : EscalationRow) (report : CIEscalationReport) : Bool :=
  o.operationKey = report.operationKey && o.state = .pending

/-- `Store.MarkCIEscalationDelivered`. -/
def markCIEscalationDelivered (lib : GoLib) (report : CIEscalationReport) (result : CommentResult)
    (now : Int) (s : Store) : Except GoError Store := do
  require (¬ (result.id < 1 ∨ validHTTPSURL lib result.url = false))
    (newError "CI escalation delivery lacks GitHub comment identity")
  expectOne (s.escalations.hits report.job.id (fun o => o.isPendingFor report))
    "deliver CI escalation"
  let s := { s with
    escalations := s.escalations.updateKey report.job.id (fun o => o.isPendingFor report)
      (fun o => { o with
        state := .delivered
        commentID := some result.id
        commentURL := result.url
        attempts := o.attempts + 1
        updatedAt := unixMilli now }) (fun _ => rfl) }
  let s := s.updateTask report.job.id (fun t => t.state = .escalationPending)
    (fun t => { t with
      state := .escalated
      terminalAt := some (unixMilli now)
      updatedAt := unixMilli now }) (fun _ => rfl)
  return s.setJobStatus report.job.id .failed now

/-- `Store.MarkCIEscalationFailure`. -/
def markCIEscalationFailure (report : CIEscalationReport) (retry : Bool) (message : GoString)
    (now : Int) (s : Store) : Except GoError Store := do
  let again : Bool := retry && report.attempts + 1 < reportRetryMaxAttempts
  let due := if again then now + reportRetryDelay (report.attempts + 1) else now
  expectOne (s.escalations.hits report.job.id (fun o => o.isPendingFor report))
    "record CI escalation failure"
  let s := { s with
    escalations := s.escalations.updateKey report.job.id (fun o => o.isPendingFor report)
      (fun o => { o with
        state := if again then .pending else .blocked
        attempts := o.attempts + 1
        lastError := safeBrokerError { text := message }
        dueAt := unixMilli due
        updatedAt := unixMilli now }) (fun _ => rfl) }
  if again then return s
  let s := s.updateTask report.job.id (fun t => t.state = .escalationPending)
    (fun t => { t with state := .escalationBlocked, updatedAt := unixMilli now }) (fun _ => rfl)
  return s.updateJob report.job.id (fun _ => true)
    (fun r => { r with
      status := .reportBlocked
      lastError := lit "CI escalation delivery blocked: " ++ safeBrokerError { text := message }
      updatedAt := unixMilli now }) (fun _ => rfl)

/-! ## Following an attempt -/

/-- What following an attempt leaves of its row: everything but its bookkeeping, and the time it
is due unless that is `due` now. -/
structure AttemptRow.Followed (due : Int) (a a' : AttemptRow) : Prop where
  job : a'.jobID = a.jobID
  number : a'.attemptNumber = a.attemptNumber
  state : a'.state = a.state
  charged : a'.charged = a.charged
  dueAt : a'.dueAt = a.dueAt ∨ a'.dueAt = unixMilli due

/-- Claims, deferrals and external waits write the bookkeeping of attempts, or nothing. -/
inductive Follows (due : Int) (s : Store) : Store → Prop where
  | refl : Follows due s s
  | update {s1 : Store} {key : GoString} {p : AttemptRow → Bool} {f : AttemptRow → AttemptRow}
      {hf : ∀ a, (f a).attemptKey = a.attemptKey} (h : Follows due s s1)
      (hrow : ∀ a : AttemptRow, a.Followed due (f a)) : Follows due s (s1.updateAttempt key p f hf)

section Follows

variable {policy : CIRepairPolicy} {attempt : CIRepairAttempt} {tie : Nat} {now due : Int}
  {key : GoString} {work : Option (CIRepairTask × CIRepairAttempt)} {s s' : Store}

theorem claimCIRepair_follows (due : Int) (h : claimCIRepair policy tie now s = .ok (work, s')) :
    Follows due s s' := by
  unfold claimCIRepair at h
  split at h <;> cases h
  · exact .refl
  · exact .update .refl fun _ => ⟨rfl, rfl, rfl, rfl, .inl rfl⟩

theorem claimCIRepairStatus_follows (h : claimCIRepairStatus policy tie now s = .ok (work, s')) :
    Follows (now + ciReconcileLease) s s' := by
  unfold claimCIRepairStatus at h
  split at h <;> cases h
  · exact .refl
  · refine .update (.update .refl ?_) ?_
    · exact fun _ => ⟨rfl, rfl, rfl, rfl, .inl rfl⟩
    · exact fun _ => ⟨rfl, rfl, rfl, rfl, .inr rfl⟩

theorem deferAttempt_follows {state : AttemptState} {missing operation : String}
    {failure : GoError}
    (h : deferAttempt state missing operation key due failure now s = .ok s') :
    Follows due s s' := by
  simp only [deferAttempt, require_bind_eq_ok, expectOne_bind_eq_ok, pure_eq_ok] at h
  obtain ⟨-, -, rfl⟩ := h
  exact .update .refl fun _ => ⟨rfl, rfl, rfl, rfl, .inr rfl⟩

theorem scheduleCIRepairStatus_follows (h : scheduleCIRepairStatus key due now s = .ok s') :
    Follows due s s' := by
  simp only [scheduleCIRepairStatus, require_bind_eq_ok, expectOne_bind_eq_ok, pure_eq_ok] at h
  obtain ⟨-, -, rfl⟩ := h
  exact .update .refl fun _ => ⟨rfl, rfl, rfl, rfl, .inr rfl⟩

theorem recordCIRepairExternalWait_follows (due : Int) {wait : CIExternalWait}
    (h : recordCIRepairExternalWait attempt wait now s = .ok (key, s')) : Follows due s s' := by
  simp only [recordCIRepairExternalWait, bind_eq_ok] at h
  obtain ⟨-, -, -, -, h⟩ := h
  split at h
  · cases h
  simp only [require_bind_eq_ok] at h
  obtain ⟨-, -, h⟩ := h
  split at h
  · simp only [require_bind_eq_ok] at h
    cases h.2
    exact .refl
  · cases h
    exact .update .refl fun _ => ⟨rfl, rfl, rfl, rfl, .inl rfl⟩

theorem markCIRepairExternalResumed_follows {resumeKey : GoString} {generation : Int}
    (h : markCIRepairExternalResumed key resumeKey generation due now s = .ok s') :
    Follows due s s' := by
  simp only [markCIRepairExternalResumed, require_bind_eq_ok] at h
  obtain ⟨-, h⟩ := h
  split at h
  · cases h
    exact .update .refl fun _ => ⟨rfl, rfl, rfl, rfl, .inr rfl⟩
  split at h
  · cases h
  · simp only [require_bind_eq_ok] at h
    cases h.2
    exact .refl

end Follows

end SignalPlane.Dispatcher
