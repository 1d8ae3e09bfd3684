/-
SignalPlane.Dispatcher.Settled — the work a tick of the worker is done with.

A unit of work is settled at `now` when no claim at `now` returns it: its row
is finished, or due later. A reconciliation also needs that its task does not
wake it, because `ClaimCIReconciliation` first queues the current head of every
task whose deadline has passed, however late its row is due.

`Transaction.keeps` says that no transaction of a pass at `now` makes settled
work due again. It is a case analysis on `Transaction`, one lemma per
operation, each about the rows that operation writes. The operations on CI
tasks and attempts are taken apart into their statements first (`CIWrites`),
and every statement keeps settled work settled.
-/
import SignalPlane.Dispatcher.JobPrograms
import SignalPlane.Dispatcher.Transaction

namespace SignalPlane.Dispatcher

open Clock

variable {policy : CIRepairPolicy} {job : Job} {lib : GoLib}
  {detail message failureClass key runID reason : GoString}
  {attempts due id jobID maxAttempts repairAttempts : Int} {t task : CITaskRow}
  {rs : Table ReconciliationRow.key} {observation : CIObservation} {p : JobRow → Bool}
  {f : JobRow → JobRow} {work : CIReconciliation} {status : JobStatus} {attempt : CIRepairAttempt}
  {failure : GoError} {tie : Nat} {modelStarted retry : Bool} {r : ReconciliationRow}
  {jobs : Table JobRow.id} {wait : CIExternalWait} {k : Int × GoString}

/-! ## Settled rows -/

/-- A job row whose run is polled, unless its result is stored. -/
def JobRow.polls (r : JobRow) (reported : Bool) : Prop :=
  r.status = .launched ∨ r.status = .externalWaiting ∨
    (r.status = .reportPending ∧ reported = false)

/-- A job whose run may be polled at `now`. -/
def Store.pollDue (s : Store) (now j : Int) : Prop :=
  ∃ r, s.jobs.find? j = some r ∧ r.dueAt ≤ unixMilli now ∧ r.polls (s.hasTerminal j)

/-- A job that may be launched at `now`. -/
def Store.launchDue (s : Store) (now j : Int) : Prop :=
  ∃ r, s.jobs.find? j = some r ∧ r.dueAt ≤ unixMilli now ∧ r.status.isQueued = true

/-- A reconciliation that is finished or due later. -/
def ReconciliationRow.Quiet (now : Int) (r : ReconciliationRow) : Prop :=
  r.state = .completed ∨ unixMilli now < r.dueAt

/-- A reconciliation that is finished, or queued for `due` or later. -/
def ReconciliationRow.Idle (due : Int) (r : ReconciliationRow) : Prop :=
  r.state = .completed ∨ (r.state = .queued ∧ due ≤ r.dueAt)

/-- A task that does not wake the reconciliation of `head`. -/
def CITaskRow.Quiet (now : Int) (head : GoString) (t : CITaskRow) : Prop :=
  t.state = .waitingCI → unixMilli now < t.deadlineAt ∨ t.currentHeadSHA ≠ head

/-- An attempt that has ended or is due later. -/
def AttemptRow.Quiet (now : Int) (a : AttemptRow) : Prop :=
  (a.state ≠ .ready ∧ a.state ≠ .running) ∨ unixMilli now < a.dueAt

/-- A report that is delivered, blocked or due later. -/
def OutboxRow.Quiet (now : Int) (o : OutboxRow) : Prop :=
  o.isOpen = false ∨ unixMilli now < o.dueAt

/-- An escalation that is delivered, blocked or due later. -/
def EscalationRow.Quiet (now : Int) (o : EscalationRow) : Prop :=
  o.state ≠ .pending ∨ unixMilli now < o.dueAt

/-- A task that wakes no reconciliation. -/
def TaskQuiet (now j : Int) (s : Store) : Prop :=
  ∃ t, s.ciTasks.find? j = some t ∧ ∀ head, t.Quiet now head

/-- A unit that no claim at `now` returns. -/
def Settled (now : Int) : WorkUnit → Store → Prop
  | .poll j, s => ¬ s.pollDue now j
  | .launch j, s => ¬ s.launchDue now j
  | .reconciliation j head, s =>
    (∃ r, s.reconciliations.find? (j, head) = some r ∧ r.Quiet now) ∧
      ∃ t, s.ciTasks.find? j = some t ∧ t.Quiet now head
  | .attempt key, s => ∃ a, s.attempts.find? key = some a ∧ a.Quiet now
  | .report j, s => ∃ o, s.outbox.find? j = some o ∧ o.Quiet now
  | .escalation j, s => ∃ o, s.escalations.find? j = some o ∧ o.Quiet now

/-- The reconciliation of `head` is finished or deferred until `due`. -/
def Deferred (due j : Int) (head : GoString) (s : Store) : Prop :=
  ∃ r, s.reconciliations.find? (j, head) = some r ∧ r.Idle due

/-! ## Keeping work settled -/

/-- No job becomes due for a poll or a launch. -/
structure JobsKept (now : Int) (s s' : Store) : Prop where
  poll : ∀ j, s'.pollDue now j → s.pollDue now j
  launch : ∀ j, s'.launchDue now j → s.launchDue now j

/-- Reconciliations that are finished or due later stay so, and a deferral beyond `now` is not
shortened. -/
structure ReconciliationsKept (now : Int) (rs rs' : Table ReconciliationRow.key) : Prop where
  quiet : Table.Keeps (ReconciliationRow.Quiet now) rs rs'
  idle : ∀ due, unixMilli now < due → Table.Keeps (ReconciliationRow.Idle due) rs rs'

/-- No settled work becomes due at `now`. -/
structure Keeps (now : Int) (s s' : Store) : Prop where
  jobs : JobsKept now s s'
  reconciliations : ∀ j head, Settled now (.reconciliation j head) s →
    Settled now (.reconciliation j head) s'
  deferred : ∀ due j head, unixMilli now < due → Settled now (.reconciliation j head) s →
    Deferred due j head s → Deferred due j head s'
  attempts : Table.Keeps (AttemptRow.Quiet now) s.attempts s'.attempts
  outbox : Table.Keeps (OutboxRow.Quiet now) s.outbox s'.outbox
  escalations : Table.Keeps (EscalationRow.Quiet now) s.escalations s'.escalations

section Rules

variable {now : Int} {s s' s'' : Store}

theorem Keeps.settled (h : Keeps now s s') {u : WorkUnit} (hu : Settled now u s) :
    Settled now u s' := by
  cases u with
  | poll j => exact fun hdue => hu (h.jobs.poll j hdue)
  | launch j => exact fun hdue => hu (h.jobs.launch j hdue)
  | reconciliation j head => exact h.reconciliations j head hu
  | attempt key =>
    obtain ⟨a, ha, hq⟩ := hu
    exact h.attempts key a ha hq
  | report j =>
    obtain ⟨o, ho, hq⟩ := hu
    exact h.outbox j o ho hq
  | escalation j =>
    obtain ⟨o, ho, hq⟩ := hu
    exact h.escalations j o ho hq

theorem JobsKept.trans (h : JobsKept now s s') (h' : JobsKept now s' s'') : JobsKept now s s'' :=
  ⟨fun j hj => h.poll j (h'.poll j hj), fun j hj => h.launch j (h'.launch j hj)⟩

theorem Keeps.trans (h : Keeps now s s') (h' : Keeps now s' s'') : Keeps now s s'' :=
  ⟨h.jobs.trans h'.jobs, fun j head hu => h'.reconciliations j head (h.reconciliations j head hu),
    fun due j head hdue hu hd => h'.deferred due j head hdue (h.reconciliations j head hu)
      (h.deferred due j head hdue hu hd), h.attempts.trans h'.attempts,
    h.outbox.trans h'.outbox, h.escalations.trans h'.escalations⟩

/-- Jobs and terminal results are left alone. -/
theorem JobsKept.of_eq (hj : s'.jobs = s.jobs) (ht : s'.terminalResults = s.terminalResults) :
    JobsKept now s s' := by
  constructor <;> intro j
  · simp only [Store.pollDue, Store.hasTerminal, hj, ht, imp_self]
  · simp only [Store.launchDue, hj, imp_self]

/-- One job row is written and no terminal result is removed. -/
theorem JobsKept.of_updateKey
    (hj : s'.jobs.rows = s.jobs.rows.map fun r => if decide (r.id = id) && p r then f r else r)
    (hf : ∀ r, (f r).id = r.id) (ht : ∀ j, s.hasTerminal j = true → s'.hasTerminal j = true)
    (hrow : ∀ r, s.jobs.find? id = some r → p r = true → (f r).dueAt ≤ unixMilli now →
      ((f r).polls (s'.hasTerminal id) → r.dueAt ≤ unixMilli now ∧ r.polls (s.hasTerminal id)) ∧
      ((f r).status.isQueued = true → r.dueAt ≤ unixMilli now ∧ r.status.isQueued = true)) :
    JobsKept now s s' := by
  have hreported : ∀ {r : JobRow} {j : Int},
      r.polls (s'.hasTerminal j) → r.polls (s.hasTerminal j) := by
    intro r j h
    refine h.imp_right (Or.imp_right fun h => ⟨h.1, ?_⟩)
    cases hs : s.hasTerminal j with
    | false => rfl
    | true => rw [ht j hs] at h; exact absurd h.2 (by simp)
  have hfind : ∀ j r', s'.jobs.find? j = some r' → s.jobs.find? j = some r' ∨
      j = id ∧ ∃ r, s.jobs.find? id = some r ∧ p r = true ∧ r' = f r := by
    intro j r' hr'
    have hj' : s'.jobs = s.jobs.updateKey id p f hf := Table.ext hj
    rw [hj', Table.find?_updateKey] at hr'
    split at hr'
    · next hji =>
      subst hji
      obtain ⟨r, hr, rfl⟩ := Option.map_eq_some_iff.mp hr'
      by_cases hp : p r
      · exact .inr ⟨rfl, r, hr, hp, if_pos hp⟩
      · exact .inl (by rw [if_neg hp]; exact hr)
    · exact .inl hr'
  constructor
  · rintro j ⟨r', hr', hdue, hpolls⟩
    obtain hr | ⟨rfl, r, hr, hp, rfl⟩ := hfind j r' hr'
    · exact ⟨r', hr, hdue, hreported hpolls⟩
    · exact ⟨r, hr, (hrow r hr hp hdue).1 hpolls⟩
  · rintro j ⟨r', hr', hdue, hqueued⟩
    obtain hr | ⟨rfl, r, hr, hp, rfl⟩ := hfind j r' hr'
    · exact ⟨r', hr, hdue, hqueued⟩
    · exact ⟨r, hr, (hrow r hr hp hdue).2 hqueued⟩

/-- The written row is due later. -/
theorem JobsKept.of_later
    (hj : s'.jobs.rows = s.jobs.rows.map fun r => if decide (r.id = id) && p r then f r else r)
    (hf : ∀ r, (f r).id = r.id) (ht : s'.terminalResults = s.terminalResults)
    (hlater : ∀ r, p r = true → unixMilli now < (f r).dueAt) : JobsKept now s s' := by
  refine .of_updateKey hj hf (fun j h => by rwa [Store.hasTerminal, ht]) fun r _ hp hdue => ?_
  exact absurd (hlater r hp) (by omega)

/-- The written row is in neither line. -/
theorem JobsKept.of_offline
    (hj : s'.jobs.rows = s.jobs.rows.map fun r => if decide (r.id = id) && p r then f r else r)
    (hf : ∀ r, (f r).id = r.id) (ht : s'.terminalResults = s.terminalResults)
    (hoffline : ∀ r, p r = true →
      (f r).status.isPolled = false ∧ (f r).status.isQueued = false) : JobsKept now s s' := by
  refine .of_updateKey hj hf (fun j h => by rwa [Store.hasTerminal, ht]) fun r _ hp _ => ?_
  obtain ⟨hpolled, hqueued⟩ := hoffline r hp
  refine ⟨fun h => ?_, fun h => absurd h (by simp [hqueued])⟩
  rcases h with h | h | ⟨h, -⟩ <;> simp [h, JobStatus.isPolled] at hpolled

theorem ReconciliationsKept.refl : ReconciliationsKept now rs rs :=
  ⟨.refl, fun _ _ => .refl⟩

theorem ReconciliationsKept.insert : ReconciliationsKept now rs (rs.insert r) :=
  ⟨Table.keeps_insert, fun _ _ => Table.keeps_insert⟩

/-- The written rows are finished. -/
theorem ReconciliationsKept.of_completed {rs' : Table ReconciliationRow.key}
    {p : ReconciliationRow → Bool} {f : ReconciliationRow → ReconciliationRow}
    (hrows : rs'.rows = rs.rows.map fun r => if p r then f r else r) (hf : ∀ r, (f r).key = r.key)
    (h : ∀ r, p r = true → (f r).state = .completed) : ReconciliationsKept now rs rs' :=
  ⟨.of_map hrows hf fun r _ hp => .inl (h r hp),
    fun _ _ => .of_map hrows hf fun r _ hp => .inl (h r hp)⟩

/-- The tables change row by row. -/
theorem Keeps.of_tables (hjobs : JobsKept now s s')
    (hreconciliations : ReconciliationsKept now s.reconciliations s'.reconciliations)
    (htasks : ∀ head, Table.Keeps (CITaskRow.Quiet now head) s.ciTasks s'.ciTasks)
    (hattempts : Table.Keeps (AttemptRow.Quiet now) s.attempts s'.attempts)
    (houtbox : Table.Keeps (OutboxRow.Quiet now) s.outbox s'.outbox)
    (hescalations : Table.Keeps (EscalationRow.Quiet now) s.escalations s'.escalations) :
    Keeps now s s' where
  jobs := hjobs
  reconciliations := by
    rintro j head ⟨⟨r, hr, hq⟩, t, ht, hqt⟩
    exact ⟨hreconciliations.quiet _ r hr hq, htasks head j t ht hqt⟩
  deferred := by
    rintro due j head hdue - ⟨r, hr, hi⟩
    exact hreconciliations.idle due hdue _ r hr hi
  attempts := hattempts
  outbox := houtbox
  escalations := hescalations

/-- Only jobs are written. -/
theorem Keeps.of_jobs (h : JobsKept now s { s with jobs := jobs }) :
    Keeps now s { s with jobs := jobs } :=
  .of_tables h .refl (fun _ => .refl) .refl .refl .refl

/-- Only attempts are written. -/
theorem Keeps.of_attempts {attempts : Table AttemptRow.attemptKey}
    (h : Table.Keeps (AttemptRow.Quiet now) s.attempts attempts) :
    Keeps now s { s with attempts := attempts } :=
  .of_tables (.of_eq rfl rfl) .refl (fun _ => .refl) h .refl .refl

/-- Only tasks are written. -/
theorem Keeps.of_tasks {tasks : Table CITaskRow.jobID}
    (h : ∀ head, Table.Keeps (CITaskRow.Quiet now head) s.ciTasks tasks) :
    Keeps now s { s with ciTasks := tasks } :=
  .of_tables (.of_eq rfl rfl) .refl h .refl .refl .refl

/-- Only escalations are written. -/
theorem Keeps.of_escalations {escalations : Table EscalationRow.jobID}
    (h : Table.Keeps (EscalationRow.Quiet now) s.escalations escalations) :
    Keeps now s { s with escalations := escalations } :=
  .of_tables (.of_eq rfl rfl) .refl (fun _ => .refl) .refl .refl h

/-- Jobs and their reports are written. -/
theorem Keeps.of_reports {outbox : Table OutboxRow.jobID}
    (hjobs : JobsKept now s { s with jobs := jobs, outbox := outbox })
    (houtbox : Table.Keeps (OutboxRow.Quiet now) s.outbox outbox) :
    Keeps now s { s with jobs := jobs, outbox := outbox } :=
  .of_tables hjobs .refl (fun _ => .refl) .refl houtbox .refl

/-- Only reconciliations are written. -/
theorem Keeps.of_reconciliations (h : ReconciliationsKept now s.reconciliations rs) :
    Keeps now s { s with reconciliations := rs } :=
  .of_tables (.of_eq rfl rfl) h (fun _ => .refl) .refl .refl .refl

end Rules

/-! ## Operations on jobs -/

/-- What `ConfigureCIRepair` stores wakes a task after a minute or more. -/
theorem StorePolicy.minute_le_wake (p : StorePolicy) (h : p.1.isValid = true) :
    minute ≤ p.1.reconciliationWake := by
  have hwake : ∀ q : CIRepairPolicy, q.validate = .ok () →
      minute ≤ if q.reconciliationWake = 0 then q.activeTimeout else q.reconciliationWake := by
    intro q hq
    simp only [CIRepairPolicy.validate, require_bind_eq_ok] at hq
    omega
  obtain ⟨p, rfl | ⟨q, hq⟩⟩ := p
  · exact absurd h (by decide)
  · simp only [configureCIRepair, bind_eq_ok, pure_eq_ok] at hq
    obtain ⟨_, hvalid, rfl⟩ := hq
    have hle := hwake _ hvalid
    dsimp only
    split
    · next hzero =>
      simp only [if_pos hzero, ite_self] at hle
      exact hle
    · next hzero =>
      simpa only [if_neg hzero] using hle

section Operations

variable {env : Env} {now : Int} {s s' : Store}

theorem unixMilli_lt_of_le (h : now + millisecond ≤ due) : unixMilli now < unixMilli due :=
  Int.lt_of_lt_of_le (unixMilli_lt le_rfl) (unixMilli_mono h)

theorem claimDue_keeps {work : Option Work} (h : claimDue now s = .ok (work, s')) :
    Keeps now s s' := by
  obtain ⟨-, rfl⟩ | ⟨r, -, -, ⟨-, -, rfl⟩ | ⟨-, -, rfl⟩⟩ := claimDue_cases h
  · exact .of_jobs (.of_eq rfl rfl)
  · exact .of_jobs (.of_eq rfl rfl)
  · exact .of_jobs (.of_updateKey rfl (fun _ => rfl) (fun _ h => h) fun r _ _ hdue =>
      ⟨fun hpolls => ⟨hdue, hpolls⟩, fun hqueued => ⟨hdue, hqueued⟩⟩)

/-- The row that is written is due later. -/
theorem JobWrites.keeps (hdue : unixMilli now < unixMilli due) (h : JobWrites id due s s') :
    Keeps now s s' := by
  cases h with
  | refl => exact .of_jobs (.of_eq rfl rfl)
  | @row p f hf _ hrow _ =>
    exact .of_tables (.of_later rfl hf rfl fun r _ => by rwa [hrow]) .refl (fun _ => .refl) .refl
      .refl .refl

/-- A job that failed to launch was due for a launch before. -/
theorem markLaunchFailure_keeps (hc : Claimed now job s)
    (h : markLaunchFailure job.id true due message now s = .ok s') : Keeps now s s' := by
  simp only [markLaunchFailure, expectOne_bind_eq_ok, pure_eq_ok] at h
  obtain ⟨-, rfl⟩ := h
  obtain ⟨row, hrow, hdue, -⟩ := hc.row
  refine .of_jobs (.of_updateKey rfl (fun _ => rfl) (fun _ h => h) fun r hr hp _ => ?_)
  obtain rfl : row = r := Option.mem_unique hrow hr
  exact ⟨fun hpolls => by simp [JobRow.polls] at hpolls, fun _ => ⟨hdue, hp⟩⟩

/-- A job with a stored result is no longer polled. -/
theorem storeTerminalResult_keeps {r : TerminalResult} {body : GoString}
    (h : storeTerminalResult job r body key now s = .ok s') : Keeps now s s' := by
  obtain ⟨-, rfl⟩ := storeTerminalResult_ok h
  refine .of_tables (.of_updateKey rfl (fun _ => rfl) (fun j hj => ?_) fun row _ _ _ => ?_) .refl
    (fun _ => .refl) .refl Table.keeps_insert .refl
  · obtain ⟨stored, hstored⟩ := Option.isSome_iff_exists.mp hj
    obtain ⟨stored', hstored', -⟩ :=
      Table.keeps_insert (D := fun _ => True) (r := r.toRow job.id now) j stored hstored trivial
    exact Option.isSome_iff_exists.mpr ⟨stored', hstored'⟩
  · have hstored :
        ((s.terminalResults.insert (r.toRow job.id now)).find? job.id).isSome = true := by
      simp [TerminalResult.toRow]
    simp [JobRow.polls, Store.hasTerminal, hstored, JobStatus.isQueued]

theorem queueTerminalResult_keeps {r : TerminalResult}
    (h : queueTerminalResult lib job r now s = .ok s') : Keeps now s s' := by
  obtain ⟨-, body, -, h⟩ := queueTerminalResult_ok.mp h
  exact storeTerminalResult_keeps h

/-- The job that is taken out of its wait was due for a poll before. -/
theorem reconcileRepositoryRunExternalResume_keeps (hc : Claimed now job s)
    (h : reconcileRepositoryRunExternalResume job now s = .ok s') : Keeps now s s' := by
  simp only [reconcileRepositoryRunExternalResume, resumeExternalWait, expectOne_bind_eq_ok,
    pure_eq_ok] at h
  obtain ⟨-, -, rfl⟩ := h
  obtain ⟨row, hrow, hdue, -⟩ := hc.row
  refine .of_tables (.of_updateKey rfl (fun _ => rfl) (fun _ h => h) fun r hr hp _ => ?_) .refl
    (fun _ => .refl) .refl .refl .refl
  obtain rfl : row = r := Option.mem_unique hrow hr
  have hwaits : row.status = .externalWaiting := by simpa using (Bool.and_eq_true_iff.mp hp).2
  exact ⟨fun _ => ⟨hdue, .inr (.inl hwaits)⟩, fun hq => by simp [JobStatus.isQueued] at hq⟩

theorem beginCIWait_keeps {pullNumber deadline : Int} {branch headSHA agentModel encoded : GoString}
    (hlater : unixMilli now < unixMilli deadline)
    (h : beginCIWait lib job pullNumber branch headSHA agentModel deadline now encoded s = .ok s') :
    Keeps now s s' := by
  simp only [beginCIWait, require_bind_eq_ok, pure_eq_ok] at h
  obtain ⟨-, -, -, rfl⟩ := h
  exact .of_tables (.of_later rfl (fun _ => rfl) rfl fun _ _ => hlater) .insert
    (fun _ => Table.keeps_insert) .refl .refl .refl

/-! ## Statements of the CI operations -/

theorem updateTask_keeps {p : CITaskRow → Bool} {f : CITaskRow → CITaskRow}
    {hf : ∀ t, (f t).jobID = t.jobID}
    (h : ∀ head t, t.Quiet now head → p t = true → (f t).Quiet now head) :
    Keeps now s (s.updateTask id p f hf) :=
  .of_tasks fun head => Table.keeps_updateKey (h head)

theorem updateAttempt_keeps {p : AttemptRow → Bool} {f : AttemptRow → AttemptRow}
    {hf : ∀ a, (f a).attemptKey = a.attemptKey}
    (h : ∀ a, a.Quiet now → p a = true → (f a).Quiet now) :
    Keeps now s (s.updateAttempt key p f hf) :=
  .of_attempts (Table.keeps_updateKey h)

/-- The written reconciliation is due later, and was not deferred before. -/
theorem ReconciliationsKept.of_update {rs' : Table ReconciliationRow.key}
    {p : ReconciliationRow → Bool} {f : ReconciliationRow → ReconciliationRow}
    (hrows : rs'.rows = rs.rows.map fun r =>
      if decide (r.operationKey = key) && p r then f r else r)
    (hf : ∀ r, (f r).key = r.key) (h : ∀ r, (f r).Quiet now)
    (hidle : ∀ due, unixMilli now < due → ∀ r ∈ rs.rows, r.operationKey = key → p r = true →
      ¬ r.Idle due) : ReconciliationsKept now rs rs' := by
  have hrs : rs' = rs.update (fun r => decide (r.operationKey = key) && p r) f hf := Table.ext hrows
  refine ⟨.of_map hrows hf fun r _ _ => h r, fun due hdue k r hr hi => ⟨r, ?_, hi⟩⟩
  rw [hrs, Table.find?_update, hr, Option.map_some, if_neg]
  intro hp
  rw [Bool.and_eq_true, decide_eq_true_eq] at hp
  exact hidle due hdue r (Table.mem_of_find? hr) hp.1 hp.2 hi

theorem updateJob_keeps {hf : ∀ r, (f r).id = r.id}
    (h : ∀ r, p r = true → (f r).status.isPolled = false ∧ (f r).status.isQueued = false) :
    Keeps now s (s.updateJob id p f hf) :=
  .of_jobs (.of_offline rfl hf rfl h)

/-- A job row that a CI operation wrote: its identity and its counts are kept. -/
structure JobRow.CIWritten (r r' : JobRow) : Prop where
  semanticKey : r'.semanticKey = r.semanticKey
  run : r'.brokerRunID = r.brokerRunID
  counted : r'.preOutboxAttempts = r.preOutboxAttempts
  status : r'.status ∈ [JobStatus.completed, .ciWaiting, .ciRepair, .ciEscalation]

/-- The statements of the CI operations, one after the other. With `late`, none of them makes
settled work due at `now`. -/
inductive CIWrites (now : Int) (late : Prop) (s : Store) : Store → Prop where
  | refl : CIWrites now late s s
  | attempt {s1 : Store} {key : GoString} {p : AttemptRow → Bool} {f : AttemptRow → AttemptRow}
      {hf : ∀ a, (f a).attemptKey = a.attemptKey} (h : CIWrites now late s s1)
      (hquiet : late → ∀ a : AttemptRow, a.Quiet now → p a = true → (f a).Quiet now) :
      CIWrites now late s (s1.updateAttempt key p f hf)
  | newAttempt {s1 : Store} {a : AttemptRow} (h : CIWrites now late s s1) :
      CIWrites now late s { s1 with attempts := s1.attempts.insert a }
  | task {s1 : Store} {id : Int} {p : CITaskRow → Bool} {f : CITaskRow → CITaskRow}
      {hf : ∀ t, (f t).jobID = t.jobID} (h : CIWrites now late s s1)
      (hquiet : late → ∀ head (t : CITaskRow), t.Quiet now head → p t = true →
        (f t).Quiet now head) : CIWrites now late s (s1.updateTask id p f hf)
  | reconciliation {s1 : Store} {key : GoString} {p : ReconciliationRow → Bool}
      {f : ReconciliationRow → ReconciliationRow} {hf : ∀ r, (f r).key = r.key}
      (h : CIWrites now late s s1)
      (hkept : late → ReconciliationsKept now s1.reconciliations
        (s1.updateReconciliation key p f hf).reconciliations) :
      CIWrites now late s (s1.updateReconciliation key p f hf)
  | job {s1 : Store} {id : Int} {p : JobRow → Bool} {f : JobRow → JobRow}
      {hf : ∀ r, (f r).id = r.id} (h : CIWrites now late s s1)
      (hrow : ∀ r : JobRow, p r = true → r.CIWritten (f r)) :
      CIWrites now late s (s1.updateJob id p f hf)
  | escalation {s1 : Store} {id : Int} {body : GoString} (h : CIWrites now late s s1) :
      CIWrites now late s
        { s1 with escalations := s1.escalations.insert (newEscalation id body now) }

theorem CIWrites.keeps (h : CIWrites now True s s') : Keeps now s s' := by
  induction h with
  | refl => exact .of_jobs (.of_eq rfl rfl)
  | attempt _ hquiet ih => exact ih.trans (updateAttempt_keeps (hquiet trivial))
  | newAttempt _ ih => exact ih.trans (.of_attempts Table.keeps_insert)
  | task _ hquiet ih => exact ih.trans (updateTask_keeps (hquiet trivial))
  | reconciliation _ hkept ih => exact ih.trans (.of_reconciliations (hkept trivial))
  | job _ hrow ih =>
    refine ih.trans (updateJob_keeps fun r hr => ?_)
    have hstatus := (hrow r hr).status
    revert hstatus
    generalize JobRow.status _ = status
    cases status <;> simp [JobStatus.isPolled, JobStatus.isQueued]
  | escalation _ ih => exact ih.trans (.of_escalations Table.keeps_insert)

section Writes

variable {late : Prop} {s1 : Store}

theorem CIWrites.setTaskState {state : CITaskState} (h : CIWrites now late s s1)
    (hstate : state ≠ .waitingCI) : CIWrites now late s (s1.setTaskState id state now) :=
  .task h fun _ _ _ _ _ hw => absurd hw hstate

theorem CIWrites.setJobStatus (h : CIWrites now late s s1)
    (hstatus : status ∈ [JobStatus.completed, .ciWaiting, .ciRepair, .ciEscalation]) :
    CIWrites now late s (s1.setJobStatus id status now) :=
  .job h fun _ _ => ⟨rfl, rfl, rfl, hstatus⟩

theorem CIWrites.scheduleJob (h : CIWrites now late s s1)
    (hstatus : status ∈ [JobStatus.completed, .ciWaiting, .ciRepair, .ciEscalation]) :
    CIWrites now late s (s1.scheduleJob id status due now) :=
  .job h fun _ _ => ⟨rfl, rfl, rfl, hstatus⟩

/-- An escalation after other statements. -/
theorem CIWrites.escalate (hs : CIWrites now late s s1)
    (h : queueCIEscalation jobID observation attempts maxAttempts reason now s1 = .ok s') :
    CIWrites now late s s' := by
  simp only [queueCIEscalation, bind_eq_ok, pure_eq_ok] at h
  obtain ⟨body, -, -, -, rfl⟩ := h
  exact .setJobStatus (.setTaskState (.escalation hs) (by decide)) (by simp)

theorem failCIReconciliation_writes (hwake : late → millisecond ≤ policy.reconciliationWake)
    (h : failCIReconciliation policy work failure retry now s = .ok s') :
    CIWrites now late s s' := by
  simp only [failCIReconciliation, require_bind_eq_ok] at h
  obtain ⟨-, h⟩ := h
  split at h
  · simp only [expectOne_bind_eq_ok, pure_eq_ok] at h
    obtain ⟨-, rfl⟩ := h
    refine .reconciliation .refl fun _ => .of_update rfl (fun _ => rfl)
      (fun _ => .inr (unixMilli_lt (le_preOutboxRetryDelay _))) fun due _ r _ _ hrunning hi => ?_
    rcases hi with hi | ⟨hi, -⟩ <;> simp [hi] at hrunning
  simp only [expectOne_bind_eq_ok] at h
  obtain ⟨-, h⟩ := h
  split at h
  · cases h
    refine .job (.task (.reconciliation .refl ?_) ?_) ?_
    · exact fun _ => .of_completed rfl (fun _ => rfl) fun _ _ => rfl
    · exact fun hlate _ _ _ _ _ => .inl (unixMilli_lt (hwake hlate))
    · intro r hr
      have hwaits : r.status = .ciWaiting := by simpa using hr
      exact ⟨rfl, rfl, rfl, by simp [hwaits]⟩
  · refine CIWrites.escalate (.reconciliation .refl ?_) h
    exact fun _ => .of_completed rfl (fun _ => rfl) fun _ _ => rfl

/-- What `ApplyCIObservation` makes of a task and its job, after other statements. -/
theorem CIWrites.settle (hwake : late → millisecond ≤ policy.reconciliationWake)
    (hs : CIWrites now late s s1)
    (h : settleObservation policy jobID observation task maxAttempts now s1 = .ok s') :
    CIWrites now late s s' := by
  unfold settleObservation at h
  split at h
  · cases h
    exact .setJobStatus (.task hs fun _ _ _ _ _ hw => absurd hw (by simp)) (by simp)
  split at h
  · exact hs.escalate h
  split at h
  · exact hs.escalate h
  split at h
  · cases h
    refine .scheduleJob (.task hs ?_) (by simp)
    exact fun hlate _ _ _ _ _ => .inl (unixMilli_lt (hwake hlate))
  · simp only [bind_eq_ok, pure_eq_ok] at h
    obtain ⟨-, -, rfl⟩ := h
    exact .scheduleJob (.setTaskState (.newAttempt hs) (by decide)) (by simp)

/-- The head of the task changes before its deadline does, so these statements are not late. -/
theorem applyCIObservation_writes
    (h : applyCIObservation lib policy work observation maxAttempts now s = .ok s') :
    CIWrites now False s s' := by
  simp only [applyCIObservation, require_bind_eq_ok] at h
  obtain ⟨-, -, -, h⟩ := h
  split at h
  · cases h
  split at h
  · cases h
  split at h
  · cases h
    exact .refl
  refine CIWrites.settle False.elim ?_ h
  unfold Store.recordObservation
  dsimp only
  split
  · exact .task (.reconciliation .refl False.elim) False.elim
  · exact .task (.task (.reconciliation .refl False.elim) False.elim) False.elim

theorem bindCIRepairRun_writes (h : bindCIRepairRun attempt runID now s = .ok s') :
    CIWrites now True s s' := by
  simp only [bindCIRepairRun, require_bind_eq_ok] at h
  obtain ⟨-, h⟩ := h
  split at h
  · cases h
  simp only [require_bind_eq_ok, pure_eq_ok] at h
  obtain ⟨-, rfl⟩ := h
  refine .task (.attempt .refl ?_) ?_
  · exact fun _ _ _ _ => .inr (unixMilli_lt (by decide))
  · exact fun _ _ _ _ _ hw => absurd hw (by simp)

/-- What follows the failure of an attempt. -/
theorem CIWrites.goesOn (hs : CIWrites now late s s1)
    (h : continueAfterFailure lib policy attempt task failureClass modelStarted repairAttempts
      maxAttempts now s1 = .ok s') : CIWrites now late s s' := by
  unfold continueAfterFailure at h
  split at h
  · dsimp only at h
    split at h <;> exact hs.escalate h
  · simp only [bind_eq_ok, pure_eq_ok] at h
    obtain ⟨-, -, -, -, rfl⟩ := h
    exact .setJobStatus (.setTaskState (.newAttempt hs) (by decide)) (by simp)

theorem finishCIRepairFailure_writes
    (h : finishCIRepairFailure lib policy attempt failureClass modelStarted detail maxAttempts now
      s = .ok s') : CIWrites now True s s' := by
  have hfail : ∀ key task charges repairAttempts, CIWrites now True s
      (s.failAttempt key task charges repairAttempts failureClass detail now) := by
    intro key task charges repairAttempts
    unfold Store.failAttempt
    dsimp only
    refine .attempt ?_ fun _ _ _ _ => .inl (by simp)
    split
    · exact .task (.attempt .refl fun _ _ hq _ => hq) fun _ _ _ hq _ => hq
    · exact .refl
  simp only [finishCIRepairFailure, require_bind_eq_ok] at h
  obtain ⟨-, -, h⟩ := h
  split at h
  · cases h
  split at h
  · cases h
  split at h
  · simp only [require_bind_eq_ok] at h
    cases h.2
    exact .refl
  simp only [require_bind_eq_ok] at h
  exact (hfail ..).goesOn h.2.2

theorem chargeCIRepairAttempt_writes (h : chargeCIRepairAttempt key now s = .ok s') :
    CIWrites now True s s' := by
  unfold chargeCIRepairAttempt at h
  split at h
  · cases h
  simp only [require_bind_eq_ok] at h
  obtain ⟨-, h⟩ := h
  split at h
  · cases h
    exact .refl
  · simp only [expectOne_bind_eq_ok] at h
    cases h.2
    exact .task (.attempt .refl fun _ _ hq _ => hq) fun _ _ _ hq _ => hq

theorem completeCIRepairDelivery_writes {delivery : CIRepairDelivery}
    (hwake : late → millisecond ≤ policy.reconciliationWake)
    (h : completeCIRepairDelivery policy key delivery now s = .ok s') : CIWrites now late s s' := by
  simp only [completeCIRepairDelivery, require_bind_eq_ok] at h
  obtain ⟨-, -, h⟩ := h
  split at h
  · cases h
  simp only [require_bind_eq_ok] at h
  obtain ⟨-, h⟩ := h
  split at h
  · simp only [require_bind_eq_ok] at h
    cases h.2
    exact .refl
  · simp only [require_bind_eq_ok] at h
    cases h.2
    refine .scheduleJob (.task (.attempt .refl ?_) ?_) (by simp)
    · exact fun _ _ _ _ => .inl (by simp)
    · exact fun hlate _ _ _ _ _ => .inl (unixMilli_lt (hwake hlate))

end Writes

theorem queueCIEscalation_quiet
    (h : queueCIEscalation jobID observation attempts maxAttempts reason now s = .ok s')
    (ht : s.ciTasks.find? jobID = some t) :
    s'.reconciliations = s.reconciliations ∧ TaskQuiet now jobID s' := by
  simp only [queueCIEscalation, bind_eq_ok, pure_eq_ok] at h
  obtain ⟨body, -, -, -, rfl⟩ := h
  refine ⟨rfl, { t with state := .escalationPending, updatedAt := unixMilli now }, ?_, ?_⟩
  · simp [Store.setJobStatus, Store.updateJob, Store.setTaskState, Store.updateTask, ht]
  · exact fun head hw => absurd hw (by simp)

/-! ## Reconciliations -/

theorem find?_wakeDeadline_ne (hk : k ≠ (t.jobID, t.currentHeadSHA)) :
    (wakeDeadline now rs t).find? k = rs.find? k := by
  unfold wakeDeadline
  split
  · exact Table.find?_updateKey_ne _ _ _ _ hk
  · exact Table.find?_insert_ne _ hk

/-- A deadline wake touches the reconciliations of the current heads only. -/
theorem find?_wakeDeadlines : ∀ (ts : List CITaskRow) (rs : Table ReconciliationRow.key),
      (∀ t ∈ ts, k ≠ (t.jobID, t.currentHeadSHA)) →
        (ts.foldl (wakeDeadline now) rs).find? k = rs.find? k := by
  intro ts
  induction ts with
  | nil => exact fun _ _ => rfl
  | cons t ts ih =>
    intro rs h
    rw [List.foldl_cons, ih _ fun t' ht' => h t' (List.mem_cons_of_mem _ ht')]
    exact find?_wakeDeadline_ne (h t List.mem_cons_self)

/-- The task of `k` wakes it, unless it is quiet about the head. -/
theorem Store.find?_wakeDeadlines_quiet {j : Int} {head : GoString}
    (ht : s.ciTasks.find? j = some t) (hq : t.Quiet now head) :
    (s.wakeDeadlines now).reconciliations.find? (j, head) = s.reconciliations.find? (j, head) := by
  refine find?_wakeDeadlines _ _ fun t' ht' hk => ?_
  obtain ⟨hmem, hdue⟩ := List.mem_filter.mp ht'
  obtain ⟨rfl, rfl⟩ := Prod.mk.inj hk
  obtain rfl : t' = t := Option.mem_unique (Table.find?_key hmem) ht
  simp only [CITaskRow.wakeDue, Bool.and_eq_true, decide_eq_true_eq] at hdue
  rcases hq hdue.1 with h | h
  · omega
  · exact h rfl

theorem wakeDeadlines_keeps : Keeps now s (s.wakeDeadlines now) where
  jobs := .of_eq rfl rfl
  reconciliations := by
    rintro j head ⟨⟨r, hr, hq⟩, t, ht, hqt⟩
    exact ⟨⟨r, by rwa [Store.find?_wakeDeadlines_quiet ht hqt], hq⟩, t, ht, hqt⟩
  deferred := by
    rintro due j head - ⟨-, t, ht, hqt⟩ ⟨r, hr, hi⟩
    exact ⟨r, by rwa [Store.find?_wakeDeadlines_quiet ht hqt], hi⟩
  attempts := .refl
  outbox := .refl
  escalations := .refl

theorem claimCIReconciliation_keeps {work : Option CIReconciliation}
    (h : claimCIReconciliation tie now s = .ok (work, s')) : Keeps now s s' := by
  unfold claimCIReconciliation at h
  dsimp only at h
  split at h
  · cases h
    exact wakeDeadlines_keeps
  · next r t hpick =>
    cases h
    obtain ⟨hmem, -, -, hstate, hdue⟩ := mem_claimableReconciliations.mp (mem_of_pick hpick)
    refine wakeDeadlines_keeps.trans (.of_reconciliations (.of_update rfl (fun _ => rfl)
      (fun _ => .inr (unixMilli_lt (by decide))) fun due hlater r' hr' hkey _ hi => ?_))
    -- The claimed row is due, so it was not deferred.
    obtain rfl : r' = r := by
      obtain ⟨hj, hh⟩ := ciReconcileKey_inj hkey
      have hrow := Table.find?_key hr'
      rw [ReconciliationRow.key, hj, hh] at hrow
      exact Option.mem_unique hrow (Table.find?_key hmem)
    rcases hi with hi | ⟨-, hi⟩
    · rcases hstate with hs | hs <;> rw [hs] at hi <;> cases hi
    · omega

/-- A final failure of an observation leaves no wake of its job. -/
theorem failCIReconciliation_quiet (hwake : millisecond ≤ policy.reconciliationWake)
    (ht : s.ciTasks.find? work.task.jobID = some t)
    (h : failCIReconciliation policy work failure false now s = .ok s') :
    ReconciliationsKept now s.reconciliations s'.reconciliations ∧
      TaskQuiet now work.task.jobID s' := by
  simp only [failCIReconciliation, require_bind_eq_ok, expectOne_bind_eq_ok, Bool.false_eq_true,
    if_false] at h
  obtain ⟨-, -, h⟩ := h
  split at h
  · cases h
    refine ⟨.of_completed rfl (fun _ => rfl) fun _ _ => rfl, ?_⟩
    by_cases hw : t.state = .waitingCI
    · refine ⟨{ t with
        deadlineAt := unixMilli (now + policy.reconciliationWake)
        updatedAt := unixMilli now }, ?_, fun head _ => .inl (unixMilli_lt hwake)⟩
      simp [Store.updateJob, Store.updateTask, Store.updateReconciliation, ht, hw]
    · refine ⟨t, ?_, fun head hw' => absurd hw' hw⟩
      simp [Store.updateJob, Store.updateTask, Store.updateReconciliation, ht, hw]
  · obtain ⟨hframe, hquiet⟩ := queueCIEscalation_quiet h ht
    refine ⟨?_, hquiet⟩
    rw [hframe]
    exact .of_completed rfl (fun _ => rfl) fun _ _ => rfl

/-- What `ApplyCIObservation` makes of a task leaves it quiet about every head. -/
theorem settleObservation_quiet (hwake : millisecond ≤ policy.reconciliationWake)
    (ht : s.ciTasks.find? jobID = some t)
    (h : settleObservation policy jobID observation task maxAttempts now s = .ok s') :
    s'.reconciliations = s.reconciliations ∧ TaskQuiet now jobID s' := by
  unfold settleObservation at h
  split at h
  · cases h
    refine ⟨rfl, { t with
      state := .completed
      terminalAt := some (unixMilli now)
      updatedAt := unixMilli now }, ?_, fun head hw => absurd hw (by simp)⟩
    simp [Store.setJobStatus, Store.updateJob, Store.updateTask, ht]
  split at h
  · exact queueCIEscalation_quiet h ht
  split at h
  · exact queueCIEscalation_quiet h ht
  split at h
  · cases h
    refine ⟨rfl, { t with
      state := .waitingCI
      deadlineAt := unixMilli (now + policy.reconciliationWake)
      updatedAt := unixMilli now }, ?_, fun head _ => .inl (unixMilli_lt hwake)⟩
    simp [Store.scheduleJob, Store.updateJob, Store.updateTask, ht]
  · simp only [bind_eq_ok, pure_eq_ok] at h
    obtain ⟨-, -, rfl⟩ := h
    refine ⟨rfl, { t with state := .repairReady, updatedAt := unixMilli now }, ?_,
      fun head hw => absurd hw (by simp)⟩
    simp [Store.scheduleJob, Store.updateJob, Store.setTaskState, Store.updateTask, ht]

/-- A recorded observation completes a clean reconciliation and changes no other job's task. -/
theorem recordObservation_frame {encoded : GoString}
    (hclean : ∀ r ∈ s.reconciliations.rows, r.operationKey = work.operationKey → r.dirty = false)
    (h : s.recordObservation lib work observation encoded task now = s') :
    JobsKept now s s' ∧ s'.attempts = s.attempts ∧ s'.outbox = s.outbox ∧
      s'.escalations = s.escalations ∧
      ReconciliationsKept now s.reconciliations s'.reconciliations ∧
      (∀ j, j ≠ work.task.jobID → s'.ciTasks.find? j = s.ciTasks.find? j) ∧
      ∀ t, s.ciTasks.find? work.task.jobID = some t →
        ∃ t', s'.ciTasks.find? work.task.jobID = some t' := by
  -- A clean row that is written is completed.
  have hwritten : ∀ {D : ReconciliationRow → Prop}, (∀ r, r.state = .completed → D r) →
      Table.Keeps D s.reconciliations s'.reconciliations := by
    intro D hD k r hr hq
    have hdirty := hclean r (Table.mem_of_find? hr)
    subst h
    unfold Store.recordObservation
    dsimp only
    split
    all_goals
      simp only [Store.updateTask, Store.updateReconciliation, Table.find?_update, hr,
        Option.map_some, Option.some.injEq, exists_eq_left']
      split
      · next hkey =>
        rw [Bool.and_true, decide_eq_true_eq] at hkey
        exact hD _ (by simp [hdirty hkey])
      · exact hq
  have hcompleted : ReconciliationsKept now s.reconciliations s'.reconciliations :=
    ⟨hwritten fun _ => .inl, fun _ _ => hwritten fun _ => .inl⟩
  subst h
  unfold Store.recordObservation at hcompleted ⊢
  dsimp only at hcompleted ⊢
  split at hcompleted
  · next hhead =>
    rw [if_pos hhead]
    refine ⟨.of_eq rfl rfl, rfl, rfl, rfl, hcompleted, fun j hj => ?_, fun t ht => ?_⟩
    · simp [Store.updateTask, Store.updateReconciliation, hj]
    · simp [Store.updateTask, Store.updateReconciliation, ht]
  · next hhead =>
    rw [if_neg hhead]
    refine ⟨.of_eq rfl rfl, rfl, rfl, rfl, hcompleted, fun j hj => ?_, fun t ht => ?_⟩
    · simp [Store.updateTask, Store.updateReconciliation, hj]
    · simp [Store.updateTask, Store.updateReconciliation, ht]

/-- An observation that is applied leaves no wake of its job. -/
theorem applyCIObservation_quiet (hwake : millisecond ≤ policy.reconciliationWake)
    (hclean : ∀ r ∈ s.reconciliations.rows, r.operationKey = work.operationKey → r.dirty = false)
    (h : applyCIObservation lib policy work observation maxAttempts now s = .ok s') :
    Keeps now s s' ∧
      ReconciliationsKept now s.reconciliations s'.reconciliations ∧
      TaskQuiet now work.task.jobID s' := by
  simp only [applyCIObservation, require_bind_eq_ok] at h
  obtain ⟨-, -, -, h⟩ := h
  split at h
  · cases h
  next encoded hencoded =>
  split at h
  · cases h
  next task htask =>
  split at h
  · next hfinished =>
    cases h
    refine ⟨.of_jobs (.of_eq rfl rfl), .refl, task, htask, fun head hw => ?_⟩
    rw [hw] at hfinished
    simp at hfinished
  obtain ⟨hjobs, hattempts, houtbox, hescalations, hrows, hothers, hown⟩ :=
    recordObservation_frame hclean (rfl : s.recordObservation lib work observation encoded task
      now = _)
  obtain ⟨t1, ht1⟩ := hown task htask
  have hkeeps := (CIWrites.settle (fun _ => hwake) .refl h).keeps
  obtain ⟨hframe, hquiet⟩ := settleObservation_quiet hwake ht1 h
  refine ⟨⟨hjobs.trans hkeeps.jobs, ?_, ?_, hattempts ▸ hkeeps.attempts, houtbox ▸ hkeeps.outbox,
    hescalations ▸ hkeeps.escalations⟩, hframe ▸ hrows, hquiet⟩
  -- The head and the state of the task change before its deadline does, so the two steps keep a
  -- reconciliation of this job settled only together.
  · rintro j head ⟨⟨r, hr, hq⟩, t, ht, hqt⟩
    obtain ⟨r', hr', hq'⟩ := hrows.quiet _ r hr hq
    by_cases hj : j = work.task.jobID
    · subst hj
      obtain ⟨t', ht', hqt'⟩ := hquiet
      exact ⟨⟨r', hframe ▸ hr', hq'⟩, t', ht', hqt' head⟩
    · exact hkeeps.reconciliations j head ⟨⟨r', hr', hq'⟩, t, (hothers j hj).trans ht, hqt⟩
  · rintro due j head hdue - ⟨r, hr, hi⟩
    rw [Deferred, hframe]
    exact hrows.idle due hdue _ r hr hi

/-! ## Attempts -/

/-- An attempt that is followed is not due before `due`. -/
theorem Follows.keeps (hdue : unixMilli now < unixMilli due) (h : Follows due s s') :
    Keeps now s s' := by
  induction h with
  | refl => exact .of_jobs (.of_eq rfl rfl)
  | update _ hrow ih =>
    refine ih.trans (updateAttempt_keeps fun a hq _ => ?_)
    rcases (hrow a).dueAt with h | h
    · rwa [AttemptRow.Quiet, (hrow a).state, h]
    · exact .inr (h ▸ hdue)

/-! ## Reports and escalations -/

theorem le_reportRetryDelay (attempt : Int) : millisecond ≤ reportRetryDelay attempt := by
  have h : 30 * second ≤ reportRetryDelay attempt := le_backoff (by decide) (by decide) attempt
  exact Int.le_trans (by decide) h

theorem markCIEscalationDelivered_keeps {report : CIEscalationReport} {result : CommentResult}
    (h : markCIEscalationDelivered lib report result now s = .ok s') : Keeps now s s' := by
  simp only [markCIEscalationDelivered, require_bind_eq_ok, expectOne_bind_eq_ok, pure_eq_ok] at h
  obtain ⟨-, -, rfl⟩ := h
  refine Keeps.trans (Keeps.trans ?_ (updateTask_keeps ?_)) (updateJob_keeps ?_)
  · exact .of_escalations (Table.keeps_updateKey fun _ _ _ => .inl (by simp))
  · exact fun _ _ _ _ hw => absurd hw (by simp)
  · exact fun _ _ => ⟨rfl, rfl⟩

theorem markCIEscalationFailure_keeps {report : CIEscalationReport}
    (h : markCIEscalationFailure report retry message now s = .ok s') : Keeps now s s' := by
  simp only [markCIEscalationFailure, expectOne_bind_eq_ok] at h
  obtain ⟨-, h⟩ := h
  split at h
  · cases h
    exact .of_escalations (Table.keeps_updateKey fun _ _ _ =>
      .inr (unixMilli_lt (le_reportRetryDelay _)))
  · cases h
    refine Keeps.trans (Keeps.trans ?_ (updateTask_keeps ?_)) (updateJob_keeps ?_)
    · exact .of_escalations (Table.keeps_updateKey fun _ _ _ => .inl (by simp))
    · exact fun _ _ _ _ hw => absurd hw (by simp)
    · exact fun _ _ => ⟨rfl, rfl⟩

/-- What both ends of a report write: the row of the outbox is delivered, blocked or due later, and
its job is neither polled nor launched. -/
inductive ReportWrites (now : Int) (report : Report) (s : Store) : Store → Prop where
  | row {f : OutboxRow → OutboxRow} {hf : ∀ o, (f o).jobID = o.jobID} {g : JobRow → JobRow}
      {hg : ∀ r, (g r).id = r.id} (hhits : s.jobs.hits report.jobID JobRow.isReporting = true)
      (hquiet : ∀ o, (f o).Quiet now)
      (hstatus : ∀ r, (g r).status.isPolled = false ∧ (g r).status.isQueued = false ∧
        (g r).status.isLegacy = false) :
      ReportWrites now report s { s with
        outbox := s.outbox.update (fun o => o.id = report.id && o.isOpen) f hf
        jobs := s.jobs.updateKey report.jobID JobRow.isReporting g hg }

theorem markReportDelivered_writes {report : Report} {url : GoString}
    (h : markReportDelivered report id url now s = .ok s') : ReportWrites now report s s' := by
  simp only [markReportDelivered, require_bind_eq_ok] at h
  obtain ⟨-, h⟩ := h
  split at h
  · cases h
  · simp only [require_bind_eq_ok, pure_eq_ok] at h
    obtain ⟨hhits, rfl⟩ := h
    refine .row hhits (fun _ => .inl (by simp [OutboxRow.isOpen])) fun _ => ?_
    unfold deliveredStatus
    repeat' split
    all_goals exact ⟨rfl, rfl, rfl⟩

theorem markReportFailure_writes {report : Report} {safe : GoString}
    (h : markReportFailure report retry safe now s = .ok s') : ReportWrites now report s s' := by
  simp only [markReportFailure, require_bind_eq_ok, pure_eq_ok] at h
  obtain ⟨-, hhits, rfl⟩ := h
  refine .row hhits (fun _ => ?_) fun _ => ?_
  · cases retry
    · exact .inl (by simp [OutboxRow.isOpen])
    · exact .inr (unixMilli_lt (le_reportRetryDelay _))
  · cases retry <;> exact ⟨rfl, rfl, rfl⟩

theorem ReportWrites.keeps {report : Report} (h : ReportWrites now report s s') :
    Keeps now s s' := by
  obtain @⟨_, _, _, hg, -, hquiet, hstatus⟩ := h
  exact .of_reports (.of_offline rfl hg rfl fun r _ => ⟨(hstatus r).1, (hstatus r).2.1⟩)
    (Table.keeps_update fun _ _ _ => hquiet _)

/-! ## A pass -/

/-- No transaction of a pass makes settled work due again. -/
theorem Transaction.keeps {fresh : Prop} (hvalid : env.policy.1.isValid = true)
    (h : Transaction env now fresh s s') : Keeps now s s' := by
  have hwake : millisecond ≤ env.policy.1.reconciliationWake :=
    Int.le_trans (by decide) (env.policy.minute_le_wake hvalid)
  cases h with
  | claimDue h => exact claimDue_keeps h
  | claimCIReconciliation h => exact claimCIReconciliation_keeps h
  | claimCIRepair h =>
    exact (claimCIRepair_follows (now + second) h).keeps (unixMilli_lt (by decide))
  | claimCIRepairStatus h => exact (claimCIRepairStatus_follows h).keeps (unixMilli_lt (by decide))
  | markLaunched _ h => exact (markLaunched_writes h).keeps (unixMilli_lt (by decide))
  | markLaunchFailure hc h => exact markLaunchFailure_keeps hc h
  | queueTerminalResult h => exact queueTerminalResult_keeps h
  | markStatus _ h => exact (markStatus_writes h).keeps (unixMilli_lt (by decide))
  | markPreOutboxFailure h =>
    exact (markPreOutboxFailure_writes h).keeps (unixMilli_lt (le_preOutboxRetryDelay _))
  | deferReportPending h => exact (deferReportPending_writes h).keeps (unixMilli_lt (by decide))
  | recordWait _ _ _ h =>
    exact (recordRepositoryRunExternalWait_writes h).1.keeps (unixMilli_lt hwake)
  | deferResume hdue h =>
    exact (deferRepositoryRunExternalResume_writes h).keeps (unixMilli_lt_of_le hdue)
  | markResumed h => exact (resumeExternalWait_writes h).keeps (unixMilli_lt (by decide))
  | reconcileResume hc h => exact reconcileRepositoryRunExternalResume_keeps hc h
  | beginCIWait _ h => exact beginCIWait_keeps (unixMilli_lt hwake) h
  | failCIReconciliation h => exact (failCIReconciliation_writes (fun _ => hwake) h).keeps
  | applyCIObservation hclean h => exact (applyCIObservation_quiet hwake hclean h).1
  | bindCIRepairRun h => exact (bindCIRepairRun_writes h).keeps
  | deferAttempt hdue h => exact (deferAttempt_follows h).keeps (unixMilli_lt_of_le hdue)
  | scheduleCIRepairStatus h =>
    exact (scheduleCIRepairStatus_follows h).keeps (unixMilli_lt (by decide))
  | recordCIRepairExternalWait h =>
    exact (recordCIRepairExternalWait_follows (now + second) h).keeps (unixMilli_lt (by decide))
  | markCIRepairExternalResumed h =>
    exact (markCIRepairExternalResumed_follows h).keeps (unixMilli_lt (by decide))
  | finishCIRepairFailure h => exact (finishCIRepairFailure_writes h).keeps
  | chargeCIRepairAttempt h => exact (chargeCIRepairAttempt_writes h).keeps
  | completeCIRepairDelivery _ h => exact (completeCIRepairDelivery_writes (fun _ => hwake) h).keeps
  | markCIEscalationDelivered h => exact markCIEscalationDelivered_keeps h
  | markCIEscalationFailure h => exact markCIEscalationFailure_keeps h
  | markReportDelivered h => exact (markReportDelivered_writes h).keeps
  | markReportFailure h => exact (markReportFailure_writes h).keeps

theorem Transactions.keeps {fresh : Prop} (hvalid : env.policy.1.isValid = true)
    (h : Transactions env now fresh s s') : Keeps now s s' := by
  induction h with
  | refl => exact .of_jobs (.of_eq rfl rfl)
  | tail _ ht ih => exact ih.trans (ht.keeps hvalid)

end Operations

end SignalPlane.Dispatcher
