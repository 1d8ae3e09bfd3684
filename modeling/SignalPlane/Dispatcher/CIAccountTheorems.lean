/-
SignalPlane.Dispatcher.CIAccountTheorems — charges and job status over whole
runs.

A run is worker passes and deliveries in any order. A pass is interrupted by
deliveries between any two of its transactions and may stop at any point, and
the broker's answers are arbitrary. By `runOne_passes` it keeps every property
of accounts that each step keeps (`Kept`). The two results are instances of
this. `Accounted` survives a reopened store as well; that a job has the status
of its task does not.
-/
import SignalPlane.Dispatcher.CIWakeTheorems
import SignalPlane.Dispatcher.Pass
import SignalPlane.Dispatcher.Recovery

namespace SignalPlane.Dispatcher

open Clock
open Workflow
open Relation (ReflTransGen)

variable {attempt : CIRepairAttempt} {task : CIRepairTask} {j : Int} {failure : GoError}
  {state : AttemptState} {terminal : TerminalResult} {t : CITaskRow} {D : CIAccount → Prop}

/-! ## Runs -/

/-- The stores of a run from `s`: worker passes and deliveries in any order. A pass may stop at
any moment and leave the store as it is then. With `reopens`, the store may also be opened again. -/
inductive WorkerRun (env : Env) (reopens : Prop) (s : Store) : Store → Prop where
  | refl : WorkerRun env reopens s s
  | pass {s₁ s₂ : Store} {tie : Nat} {now : Int} (h : WorkerRun env reopens s s₁)
      (hpass : Interleaved (DeliveryTransaction env.lib) (runOne env tie now) s₁ s₂) :
      WorkerRun env reopens s s₂
  | delivery {s₁ s₂ : Store} (h : WorkerRun env reopens s s₁)
      (hdelivery : DeliveryTransaction env.lib s₁ s₂) : WorkerRun env reopens s s₂
  | reopen {s₁ : Store} (h : WorkerRun env reopens s s₁) (hreopens : reopens) :
      WorkerRun env reopens s (openStore s₁)

section Runs

variable {env : Env} {reopens : Prop} {s s' : Store}

/-- Every transaction of a pass keeps what the steps of an account keep. -/
theorem PassStep.allAccounts {P : Int → CIAccount → Prop} {now : Int}
    {answers : (q : Request) → q.Answer → Prop} {claimed : CIEscalationReport → Prop}
    (hP : Kept env.policy.1.maxAttempts P) (h : PassStep env now answers claimed s s')
    (hs : AllAccounts P s) : AllAccounts P s' := by
  obtain ⟨j, hmoves⟩ : ∃ j, Moves env.policy.1.maxAttempts j s s' := by
    cases h with
    | spares _ hmoves => exact hmoves hs.keyed fun j => hP.accounted _ _ (hs.accounts j)
    | queues _ hu _ h => exact ⟨_, (queueTerminalResult_work h).moves hu⟩
    | delivers _ h => exact ⟨_, (markReportDelivered_writes h).moves⟩
    | fails _ _ _ h => exact ⟨_, (markReportFailure_writes h).moves⟩
    | escalates hj h => exact ⟨_, markCIEscalationDelivered_moves hj h⟩
    | givesUp _ hj _ h => exact ⟨_, markCIEscalationFailure_moves hj h⟩
  exact hmoves.allAccounts hP hs

/-- What the steps of an account keep holds along a run. -/
theorem WorkerRun.allAccounts {P : Int → CIAccount → Prop} (hP : Kept env.policy.1.maxAttempts P)
    (hreopen : reopens → ∀ s, AllAccounts P s → AllAccounts P (openStore s))
    (h : WorkerRun env reopens s s') (hs : AllAccounts P s) : AllAccounts P s' := by
  have hdelivery : ∀ s s', AllAccounts P s → DeliveryTransaction env.lib s s' → AllAccounts P s' :=
    fun s s' hI h => by
      obtain ⟨j, hmoves⟩ := h.moves
      exact hmoves.allAccounts hP hI
  induction h with
  | refl => exact hs
  | @pass s₁ _ tie now _ hpass ih =>
    have hpasses : PassSteps env now (fun _ _ => True) (fun _ => True) (runOne env tie now) s₁ :=
      runOne_passes
    obtain ⟨-, hsteps⟩ := hpasses.interleaved trivial (fun _ _ => trivial) hpass
    refine stable (fun s s' hstep hI => ?_) ih hsteps
    rcases hstep with h | h
    · exact hdelivery s s' hI h
    · exact h.allAccounts hP hI
  | delivery _ h ih => exact hdelivery _ _ ih h
  | reopen _ hreopens ih => exact hreopen hreopens _ ih

/-- An uninterrupted list of inputs is a run. -/
theorem WorkerRun.run {s1 : Store} (h : WorkerRun env reopens s s1) (inputs : List Input) :
    WorkerRun env reopens s (Dispatcher.run env inputs s1) := by
  induction inputs generalizing s1 with
  | nil => exact h
  | cons i inputs ih =>
    refine ih ?_
    cases i with
    | runOne tie now answers => exact h.pass (interleaved_exec answers _ _)
    | process delivery now =>
      obtain ⟨s2, s3, hevent, hwake, hrecorded⟩ :=
        (process_path env silentBroker [] delivery now s1).final
      have h2 : WorkerRun env reopens s s2 := by
        rcases hevent with rfl | ⟨signal, b, -, -, -, hevent⟩
        · exact h
        · exact h.delivery (.event hevent)
      have h3 : WorkerRun env reopens s s3 := by
        rcases hwake with rfl | ⟨signal, b, -, hwake⟩
        · exact h2
        · exact h2.delivery (.wake hwake)
      rcases hrecorded with he | ⟨signal, streamSequence, -, -, hrecorded⟩
      · rw [Input.step, he]
        exact h3
      · exact h3.delivery (.record hrecorded)

end Runs

/-! ## Charges -/

section Charges

variable {env : Env} {s : Store}

theorem StorePolicy.maxAttempts_nonneg (p : StorePolicy) : 0 ≤ p.1.maxAttempts := by
  obtain ⟨p, rfl | ⟨q, hq⟩⟩ := p
  · exact le_refl (0 : Int)
  · simp only [configureCIRepair, bind_eq_ok, pure_eq_ok] at hq
    obtain ⟨_, hvalid, rfl⟩ := hq
    simp only [CIRepairPolicy.validate, require_bind_eq_ok] at hvalid
    dsimp only
    omega

/-- Opening the store again changes statuses at most. -/
theorem openStore_account (s : Store) (j : Int) :
    ∃ status, (openStore s).account j = { s.account j with status := status } ∧
      ((s.account j).status ≠ none → status ≠ none) := by
  refine ⟨((openStore s).account j).status, rfl, ?_⟩
  cases hr : s.jobs.find? j with
  | none => simp [Store.account, hr]
  | some r =>
    simp [Store.account, openStore, Store.rewriteStatus, Store.returnToReporting, hr]

theorem kept_accounted (maxAttempts : Int) :
    Kept maxAttempts (fun _ v => Accounted maxAttempts v) :=
  ⟨fun _ _ h => h, fun _ _ _ h hstep => hstep.accounted h⟩

/-- The charges of every account are in order along a run, reopened or not. -/
theorem WorkerRun.accounted (h : WorkerRun env True .empty s) (j : Int) :
    Accounted env.policy.1.maxAttempts (s.account j) := by
  have hempty : AllAccounts (fun _ v => Accounted env.policy.1.maxAttempts v) Store.empty :=
    ⟨fun a ha => (List.not_mem_nil ha).elim, fun _ =>
      accounted_empty env.policy.maxAttempts_nonneg⟩
  refine (h.allAccounts (kept_accounted _) (fun _ s hs => ⟨hs.keyed, fun i => ?_⟩)
    hempty).accounts j
  obtain ⟨status, haccount, hstatus⟩ := openStore_account s i
  obtain ⟨hnumbered, hbounded, hcharged, hphase, howned⟩ := hs.accounts i
  rw [haccount]
  exact ⟨hnumbered, hbounded, hcharged, hphase, fun ht => hstatus (howned ht)⟩

/-- The charges of a CI task and the attempts of its job, in the order of insertion. -/
structure TaskCharges (maxAttempts : Int) (t : CITaskRow) (attempts : List AttemptRow) : Prop where
  /-- The task counts the charged attempts, within the budget. -/
  charged : t.repairAttempts = attempts.countP AttemptRow.charged
  bounded : t.repairAttempts ≤ maxAttempts
  /-- The attempts have the numbers from one on. -/
  numbered : attempts.map AttemptRow.attemptNumber =
    (List.range attempts.length).map (fun i : Nat => (i : Int) + 1)
  /-- At most one attempt is ready or running, the one with the highest number. -/
  single : ∀ a ∈ attempts, ∀ b ∈ attempts, a.entry.isOpen = true → b.entry.isOpen = true → a = b
  highest : ∀ a ∈ attempts, a.entry.isOpen = true →
    ∀ b ∈ attempts, b.attemptNumber ≤ a.attemptNumber
  /-- The last attempt decides whether the task is in repair. -/
  ready : t.state = .repairReady ↔ ∃ a, attempts.getLast? = some a ∧ a.state = .ready
  running : t.state = .repairRunning ↔ ∃ a, attempts.getLast? = some a ∧ a.state = .running
  /-- A task that is not in repair has no open attempt. -/
  closed : t.state.inRepair = false → ∀ a ∈ attempts, a.entry.isOpen = false

/-- The last attempt of a task in repair is open, in the state of the task. -/
theorem Accounted.last_attempt {maxAttempts : Int} (hv : Accounted maxAttempts (s.account j))
    (ht : s.ciTasks.find? j = some t) :
    (t.state = .repairReady → ∃ a, (s.attemptsOf j).getLast? = some a ∧ a.state = .ready) ∧
      (t.state = .repairRunning →
        ∃ a, (s.attemptsOf j).getLast? = some a ∧ a.state = .running) := by
  have hphase := hv.phase
  rw [account_task ht] at hphase
  have hlast : ∀ {state : AttemptState}, (∃ closed e, (s.account j).attempts = closed ++ [e] ∧
      (∀ b ∈ closed, b.spent) ∧ e.state = state) →
      ∃ a, (s.attemptsOf j).getLast? = some a ∧ a.state = state := by
    rintro state ⟨closed, e, he, -, hstate⟩
    obtain ⟨rows, last, hrows, -, hlast⟩ := List.map_eq_append_iff.mp he
    obtain ⟨a, rfl, rfl⟩ := List.map_eq_singleton_iff.mp hlast
    exact ⟨a, by simp [hrows], hstate⟩
  refine ⟨fun hready => ?_, fun hrunning => ?_⟩
  · rw [hready] at hphase
    exact hlast hphase
  · rw [hrunning] at hphase
    exact hlast hphase

/-- Accounts in order are charges in order. -/
theorem Accounted.taskCharges {maxAttempts : Int} (hv : Accounted maxAttempts (s.account j))
    (ht : s.ciTasks.find? j = some t) : TaskCharges maxAttempts t (s.attemptsOf j) := by
  have hcount : (s.account j).attempts.countP AttemptEntry.charged =
      (s.attemptsOf j).countP AttemptRow.charged := List.countP_map
  have hlength : (s.account j).attempts.length = (s.attemptsOf j).length := List.length_map _
  have hcharged : t.repairAttempts = (s.attemptsOf j).countP AttemptRow.charged := by
    rw [← account_repairAttempts ht, hv.charged, hcount]
  -- An open attempt is the last one of its job.
  have hopen : ∀ a ∈ s.attemptsOf j, a.entry.isOpen = true →
      (∃ closed, s.attemptsOf j = closed ++ [a]) ∧ t.state.inRepair = true := by
    intro a ha hopen
    obtain ⟨hmem, hjob⟩ := List.mem_filter.mp ha
    obtain rfl : a.jobID = j := of_decide_eq_true hjob
    obtain ⟨closed, t', hlast, ht', hrepair, -⟩ := attempt_last hv (Table.find?_key hmem) hopen
    obtain rfl := Option.mem_unique ht ht'
    exact ⟨⟨closed, hlast⟩, hrepair⟩
  obtain ⟨hready, hrunning⟩ := hv.last_attempt ht
  have hrepair : ∀ {a}, (s.attemptsOf j).getLast? = some a → a.entry.isOpen = true →
      t.state = .repairReady ∨ t.state = .repairRunning := by
    intro a ha hao
    simpa [CITaskState.inRepair] using (hopen a (List.mem_of_getLast? ha) hao).2
  refine
    { charged := hcharged
      bounded := ?_
      numbered := ?_
      single := fun a ha b hb hao hbo => ?_
      highest := fun a ha hao b hb => ?_
      ready := ⟨hready, ?_⟩
      running := ⟨hrunning, ?_⟩
      closed := fun hclosed a ha => ?_ }
  · have hle : (s.attemptsOf j).countP AttemptRow.charged ≤ (s.attemptsOf j).length :=
      List.countP_le_length
    have := hv.bounded
    omega
  · have hnumbered := hv.numbered
    rw [Numbered, hlength] at hnumbered
    rw [← hnumbered]
    simp [Store.account, AttemptRow.entry]
  · obtain ⟨⟨_, hla⟩, -⟩ := hopen a ha hao
    obtain ⟨⟨_, hlb⟩, -⟩ := hopen b hb hbo
    exact (List.cons.inj (List.append_inj' (hla.symm.trans hlb) rfl).2).1
  · obtain ⟨⟨closed, hlast⟩, -⟩ := hopen a ha hao
    have hnumbered : Numbered (closed.map AttemptRow.entry ++ [a.entry]) := by
      have := hv.numbered
      rwa [Store.account, hlast, List.map_append] at this
    have hnumber : a.attemptNumber = _ := (numbered_append.mp hnumbered).2
    have hle : b.attemptNumber ≤ _ := (hv.numbered.le_length (List.mem_map_of_mem hb)).2
    rw [hlength, hlast, List.length_append, List.length_singleton] at hle
    rw [List.length_map] at hnumber
    omega
  · rintro ⟨a, ha, hstate⟩
    refine (hrepair ha (by simp [AttemptEntry.isOpen, AttemptRow.entry, hstate])).resolve_right ?_
    intro h
    obtain ⟨a', ha', hstate'⟩ := hrunning h
    rw [Option.mem_unique ha' ha, hstate] at hstate'
    cases hstate'
  · rintro ⟨a, ha, hstate⟩
    refine (hrepair ha (by simp [AttemptEntry.isOpen, AttemptRow.entry, hstate])).resolve_left ?_
    intro h
    obtain ⟨a', ha', hstate'⟩ := hready h
    rw [Option.mem_unique ha' ha, hstate] at hstate'
    cases hstate'
  · cases hao : a.entry.isOpen with
    | false => rfl
    | true =>
      have := (hopen a ha hao).2
      simp [hclosed] at this

/-- In every store of every run, the charges of every CI task are in order. -/
theorem taskCharges_of_run {t : CITaskRow} (h : WorkerRun env True .empty s)
    (ht : t ∈ s.ciTasks.rows) :
    TaskCharges env.policy.1.maxAttempts t (s.attemptsOf t.jobID) :=
  (h.accounted t.jobID).taskCharges (Table.find?_key ht)

end Charges

namespace Sample

/-- The status of the finished repair run. -/
def repaired : RunStatus := { runID := lit "run-2", status := lit "completed" }

/-- The projection of a repair run whose model could not repair the code. -/
def unrepaired : TerminalResult :=
  { version := terminalResultVersion
    runID := lit "run-2"
    profile := lit "agent"
    repo := lit "octo/repo"
    branch := lit "task"
    status := lit "completed"
    outcome := lit "failed"
    idempotencyKeyDigest := lit "digest"
    requestFingerprint := lit "fingerprint"
    launchConfigVersion := lit "v1"
    failureStage := lit "verify"
    failureReason := lit "tests fail"
    failureClass := lit "model_or_code"
    modelExecutionStarted := true }

/-- CI is red, a repair is launched and fails, and the next attempt is ready. -/
def retries : List Input :=
  [redPass (4 * second), redPass (5 * second),
    .runOne 0 (8 * second) (answers (.ok repaired) (.ok unrepaired) codeFailure)]

def retriedStore : Store := run env retries ciWaitStore

theorem launchedStore_workerRun (reopens : Prop) : WorkerRun env reopens .empty launchedStore :=
  WorkerRun.refl.run launchedRun

theorem retriedStore_workerRun : WorkerRun env True .empty retriedStore :=
  ((launchedStore_workerRun True).run [readyPass (3 * second)]).run retries

end Sample

open Sample in
/-- The second attempt of a task is ready after the first one failed and was charged. -/
theorem taskCharges_second_attempt :
    ∃ t ∈ retriedStore.ciTasks.rows, t.state = .repairReady ∧ t.repairAttempts = 1 ∧
      TaskCharges 2 t (retriedStore.attemptsOf t.jobID) := by
  have hcheck : (retriedStore.ciTasks.rows.any fun t =>
      decide (t.state = .repairReady) && decide (t.repairAttempts = 1)) = true := by decide +kernel
  obtain ⟨t, ht, h⟩ := List.any_eq_true.mp hcheck
  rw [Bool.and_eq_true, decide_eq_true_eq, decide_eq_true_eq] at h
  exact ⟨t, ht, h.1, h.2, taskCharges_of_run retriedStore_workerRun ht⟩

/-! ## The status of the job -/

section Status

variable {env : Env} {s s' : Store} {maxAttempts : Int}

/-- A property of the account of `j` that every step keeps, as long as the job is in step. -/
theorem kept_inStep (hD : ∀ v v', InStep v → D v → CIStep maxAttempts v v' → D v') (j : Int) :
    Kept maxAttempts (fun i v => Accounted maxAttempts v ∧ InStep v ∧ (i = j → D v)) where
  accounted _ _ h := h.1
  step _ v v' h hstep :=
    ⟨hstep.accounted h.1, hstep.inStep h.2.1, fun hi => hD v v' h.2.1 (h.2.2 hi) hstep⟩

/-- The case without such a property. -/
theorem kept_inStep_all :
    Kept maxAttempts (fun _ v => Accounted maxAttempts v ∧ InStep v) where
  accounted _ _ h := h.1
  step _ _ _ h hstep := ⟨hstep.accounted h.1, hstep.inStep h.2⟩

/-- Job and task are in step along a run that does not reopen the store. -/
theorem WorkerRun.inStep (h : WorkerRun env False .empty s) :
    AllAccounts (fun _ v => Accounted env.policy.1.maxAttempts v ∧ InStep v) s := by
  refine h.allAccounts kept_inStep_all (fun h => h.elim) ⟨?_, fun _ => ?_⟩
  · exact fun a ha => (List.not_mem_nil ha).elim
  · exact ⟨accounted_empty env.policy.maxAttempts_nonneg, inStep_empty⟩

/-- A property of one account along a run from a store whose jobs are in step. -/
theorem WorkerRun.account_kept
    (hD : ∀ v v', InStep v → D v → CIStep env.policy.1.maxAttempts v v' → D v')
    (h : WorkerRun env False s s')
    (hs : AllAccounts (fun _ v => Accounted env.policy.1.maxAttempts v ∧ InStep v) s)
    (hj : D (s.account j)) :
    AllAccounts (fun _ v => Accounted env.policy.1.maxAttempts v ∧ InStep v) s' ∧
      D (s'.account j) := by
  have hrun := h.allAccounts (kept_inStep hD j) (fun h => h.elim)
    ⟨hs.keyed, fun i => ⟨(hs.accounts i).1, (hs.accounts i).2, fun hi => hi ▸ hj⟩⟩
  exact ⟨⟨hrun.keyed, fun i => ⟨(hrun.accounts i).1, (hrun.accounts i).2.1⟩⟩,
    (hrun.accounts j).2.2 rfl⟩

/-- A launched job that enters the CI wait has the status of its task. -/
theorem beginCIWait_determined {lib : GoLib} {job : Job} {r : JobRow}
    {pullNumber deadline now : Int} {branch headSHA agentModel initialResult : GoString}
    (hv : InStep (s.account job.id)) (hr : s.jobs.find? job.id = some r)
    (hlaunched : r.status = .launched)
    (h : beginCIWait lib job pullNumber branch headSHA agentModel deadline now initialResult s =
      .ok s') : Determined (s'.account job.id) := by
  have hstatus : (s.account job.id).status = some .launched := by
    simp [Store.account, hr, hlaunched]
  have htask := hv.task_of_uncommitted hstatus rfl
  rw [beginCIWait_account hr (hlaunched ▸ rfl) h, hlaunched]
  refine ⟨.waitingCI, ?_, rfl⟩
  rcases htask with htask | htask <;> simp [htask]

/-- From the CI wait of a launched job on, the job has the status of its task, and a final task
stays as it is. -/
theorem job_follows_task {s₀ s₁ : Store} {job : Job} {r : JobRow} {pullNumber deadline now : Int}
    {branch headSHA agentModel initialResult : GoString} (h₀ : WorkerRun env False .empty s₀)
    (hr : s₀.jobs.find? job.id = some r) (hlaunched : r.status = .launched)
    (hbegin : beginCIWait env.lib job pullNumber branch headSHA agentModel deadline now
      initialResult s₀ = .ok s₁) (h : WorkerRun env False s₁ s) :
    ∃ t row, s.ciTasks.find? job.id = some t ∧ s.jobs.find? job.id = some row ∧
      row.status = t.state.jobStatus ∧
      (t.state.isFinal = true → ∀ s', WorkerRun env False s s' →
        ∃ t', s'.ciTasks.find? job.id = some t' ∧ t'.state = t.state) := by
  have hs₀ := h₀.inStep
  have hmoves : Moves env.policy.1.maxAttempts job.id s₀ s₁ :=
    beginCIWait_moves ⟨r, hr, hlaunched ▸ rfl⟩ hbegin
  have hs₁ := hmoves.allAccounts kept_inStep_all hs₀
  have hdetermined := beginCIWait_determined (hs₀.accounts job.id).2 hr hlaunched hbegin
  obtain ⟨hs, state, htask, hstatus⟩ :=
    h.account_kept (fun _ _ hv hd hstep => hstep.determined hv hd) hs₁ hdetermined
  obtain ⟨t, ht, rfl⟩ := Option.map_eq_some_iff.mp htask
  obtain ⟨row, hrow, hrowStatus⟩ := Option.map_eq_some_iff.mp hstatus
  refine ⟨t, row, ht, hrow, hrowStatus, fun hfinal s' h' => ?_⟩
  -- A final task is kept as it is by every step.
  obtain ⟨-, htask'⟩ := h'.account_kept (D := fun v => v.task = some t.state)
    (fun _ _ hv ht hstep => hstep.final hv ht hfinal) hs htask
  exact Option.map_eq_some_iff.mp htask'

end Status

namespace Sample

/-- The CI wait of the launched job. -/
def enterCIWait : Except GoError Store :=
  beginCIWait lib job 7 (lit "task") (sha 97) (lit "agent") (3 * second + minute) (3 * second)
    (lit "\x7b\x7d") launchedStore

end Sample

open Sample in
/-- CI turns green in the pass after the CI wait began: job and task are completed. -/
theorem job_follows_completed :
    ∃ s₁ t row, enterCIWait = .ok s₁ ∧
      let s := run env [readyPass (4 * second)] s₁
      s.ciTasks.find? 1 = some t ∧ s.jobs.find? 1 = some row ∧ t.state = .completed ∧
        row.status = .completed ∧
        ∀ s', WorkerRun env False s s' →
          ∃ t', s'.ciTasks.find? 1 = some t' ∧ t'.state = .completed := by
  have hcheck : (enterCIWait.toOption.any fun s₁ =>
      ((run env [readyPass (4 * second)] s₁).ciTasks.find? 1).any fun t =>
        decide (t.state = .completed)) = true := by decide +kernel
  obtain ⟨s₁, hbegin, h⟩ := (Option.any_eq_true _ _).mp hcheck
  obtain ⟨t, ht, hstate⟩ := (Option.any_eq_true _ _).mp h
  have hlaunched : (launchedStore.jobs.find? job.id).any
      (fun r => r.status = .launched) = true := by decide +kernel
  obtain ⟨r, hr, hr'⟩ := (Option.any_eq_true _ _).mp hlaunched
  have hok : enterCIWait = .ok s₁ := by
    revert hbegin
    cases enterCIWait <;> simp [Except.toOption]
  obtain ⟨t', row, ht', hrow, hstatus, hfinal⟩ := job_follows_task
    (launchedStore_workerRun False) hr (of_decide_eq_true hr') hok
    (WorkerRun.refl.run [readyPass (4 * second)])
  obtain rfl : t = t' := Option.mem_unique ht ht'
  have hcompleted : t.state = .completed := of_decide_eq_true hstate
  refine ⟨s₁, t, row, hok, ht, hrow, hcompleted, by rw [hstatus, hcompleted]; rfl, fun s' h' => ?_⟩
  rw [← hcompleted]
  exact hfinal (by rw [hcompleted]; rfl) s' h'

end SignalPlane.Dispatcher
