/-
SignalPlane.Dispatcher.CIJobTransactions — the transactions outside the CI
tables, as moves of accounts.

The worker moves a job outside its CI task as long as the job is uncommitted:
queued, launched, in an external wait, or to be reported. The guards of the
`UPDATE`s say so for most operations; `RecordRepositoryRunExternalWait` and
`QueueTerminalResult` accept more, and are right because the claim made sure
of it. `JobWork` is what all these operations have in common, and keeps a job
uncommitted. A delivery is at most the arrival of a new job.
-/
import SignalPlane.Dispatcher.CIAttemptTransactions
import SignalPlane.Dispatcher.JobPrograms
import SignalPlane.Dispatcher.Refinement
import SignalPlane.Dispatcher.Settled

namespace SignalPlane.Dispatcher

open Clock

variable {job : Job} {report : Report} {due : Int} {f : JobRow → JobRow} {r : JobRow}
  {p : JobRow → Bool}

/-! ## Work on a job -/

/-- The job is stored, and not left to its CI task. -/
def Uncommitted (j : Int) (s : Store) : Prop :=
  ∃ r, s.jobs.find? j = some r ∧ r.status.isUncommitted = true

/-- A transaction of the worker on job `j` outside the CI tables. -/
structure JobWork (j : Int) (s s' : Store) : Prop where
  ciTasks : s'.ciTasks = s.ciTasks
  attempts : s'.attempts = s.attempts
  escalations : s'.escalations = s.escalations
  others : ∀ i, i ≠ j → s'.jobs.find? i = s.jobs.find? i
  uncommitted : Uncommitted j s → Uncommitted j s'

section JobWork

variable {maxAttempts now j : Int} {s s' : Store}

theorem JobWork.refl (j : Int) (s : Store) : JobWork j s s := ⟨rfl, rfl, rfl, fun _ _ => rfl, id⟩

/-- The rewrite that an update of one job is. -/
def rewriteJob (j : Int) (p : JobRow → Bool) (f : JobRow → JobRow) (r : JobRow) : JobRow :=
  if decide (r.id = j) && p r then f r else r

theorem Store.jobs_rewrite (hrows : s'.jobs.rows = s.jobs.rows.map (rewriteJob j p f))
    (hf : ∀ r, (f r).id = r.id) : s'.jobs = s.jobs.updateKey j p f hf := Table.ext hrows

/-- An update of the job row to another status of the worker. -/
theorem JobWork.of_update (ht : s'.ciTasks = s.ciTasks) (ha : s'.attempts = s.attempts)
    (he : s'.escalations = s.escalations)
    (hrows : s'.jobs.rows = s.jobs.rows.map (rewriteJob j p f)) (hf : ∀ r, (f r).id = r.id)
    (h : ∀ r, p r = true → r.status.isUncommitted = true → (f r).status.isUncommitted = true) :
    JobWork j s s' := by
  have hjobs := Store.jobs_rewrite hrows hf
  refine ⟨ht, ha, he, fun i hi => ?_, fun ⟨r, hr, hu⟩ => ?_⟩
  · rw [hjobs, Table.find?_updateKey_ne _ _ _ _ hi]
  · refine ⟨if p r then f r else r, ?_, ?_⟩
    · rw [hjobs, Table.find?_updateKey_self, hr, Option.map_some]
    · split
      · next hp => exact h r hp hu
      · exact hu

/-- Work on an uncommitted job. -/
theorem JobWork.moves (h : JobWork j s s') (hu : Uncommitted j s) : Moves maxAttempts j s s' := by
  obtain ⟨r, hr, hstatus⟩ := hu
  obtain ⟨r', hr', -⟩ := h.uncommitted ⟨r, hr, hstatus⟩
  refine ⟨fun i hi => ?_, .inr ?_, fun hk => ?_⟩
  · simp only [Store.account, Store.attemptsOf, h.ciTasks, h.attempts, h.escalations, h.others i hi]
  · have hv : (s.account j).status = some r.status := by simp [Store.account, hr]
    have hself : s'.account j = { s.account j with status := some r'.status } := by
      simp only [Store.account, Store.attemptsOf, h.ciTasks, h.attempts, h.escalations, hr',
        Option.map_some]
    rw [hself]
    exact .work _ hv hstatus
  · rwa [Store.Keyed, h.attempts]

theorem JobWrites.work (h : JobWrites j due s s') : JobWork j s s' := by
  cases h with
  | refl => exact .refl j s
  | @row p f hf _ _ hrow =>
    refine .of_update rfl rfl rfl rfl hf fun r hp hu => ?_
    rcases (hrow r hp).status with h | h
    · rwa [h]
    · exact h

theorem queueTerminalResult_work {lib : GoLib} {r : TerminalResult}
    (h : queueTerminalResult lib job r now s = .ok s') : JobWork job.id s s' := by
  obtain ⟨-, _, -, h⟩ := queueTerminalResult_ok.mp h
  obtain ⟨-, rfl⟩ := storeTerminalResult_ok h
  exact .of_update rfl rfl rfl rfl (fun _ => rfl) fun _ _ _ => rfl

/-! ### Claims -/

theorem claimDue_moves {work : Option Work} (h : claimDue now s = .ok (work, s')) (j : Int) :
    Moves maxAttempts j s s' := by
  rcases claimDue_cases h with ⟨-, rfl⟩ | ⟨r, -, -, ⟨-, -, rfl⟩ | ⟨-, -, rfl⟩⟩
  · exact .of_tables rfl rfl rfl rfl
  · exact .of_tables rfl rfl rfl rfl
  · exact .of_same (Store.account_updateJob_same fun _ => rfl) id

/-- Only an uncommitted job is claimed. -/
theorem claimDue_uncommitted {work : Work} (h : claimDue now s = .ok (some work, s')) :
    Uncommitted work.job.id s' := by
  have hclaimed : ∀ {r}, s.head = some r → Uncommitted r.id s := by
    intro r hhead
    obtain ⟨hmem, hunfinished⟩ := List.mem_filter.mp (mem_of_pick hhead)
    refine ⟨r, Table.find?_key hmem, ?_⟩
    revert hunfinished
    unfold Store.unfinished
    cases r.status <;> simp [JobStatus.isUncommitted, JobStatus.isQueued, JobStatus.isPolled]
  rcases claimDue_cases h with ⟨hnone, -⟩ | ⟨r, hhead, -, ⟨-, hwork, rfl⟩ | ⟨-, hwork, rfl⟩⟩
  · cases hnone
  · cases hwork
    exact hclaimed hhead
  · cases hwork
    have hcounted : JobWork r.id s (s.updateJob r.id (fun r => r.status.isQueued)
        (fun r => r.attempted now) (fun _ => rfl)) :=
      .of_update rfl rfl rfl rfl (fun _ => rfl) fun _ _ hr => hr
    exact hcounted.uncommitted (hclaimed hhead)

/-! ### Reports -/

theorem isUncommitted_of_isReporting (h : r.isReporting = true) :
    r.status.isUncommitted = true := by
  simp only [JobRow.isReporting, Bool.or_eq_true, decide_eq_true_eq] at h
  rcases h with h | h <;> simp [JobStatus.isUncommitted, h]

/-- Both ends of a report are guarded by the status of the job. -/
theorem ReportWrites.moves (h : ReportWrites now report s s') :
    Moves maxAttempts report.jobID s s' := by
  obtain @⟨_, _, f, hf, hhits, -, -⟩ := h
  obtain ⟨r, hr, hreporting⟩ := Table.hits_iff.mp hhits
  have hv : (s.account report.jobID).status = some r.status := by simp [Store.account, hr]
  -- No account sees the outbox.
  have hmoves : Moves maxAttempts report.jobID s
      (s.updateJob report.jobID JobRow.isReporting f hf) := by
    refine ⟨fun i hi => Store.account_updateJob_ne hi, .inr ?_, id⟩
    rw [Store.account_updateJob hr hreporting]
    exact .work _ hv (isUncommitted_of_isReporting hreporting)
  exact ⟨hmoves.others, hmoves.step, hmoves.keyed⟩

/-! ### The CI wait -/

/-- Only a launched job changes its status, and a task that exists stays. -/
theorem beginCIWait_account {lib : GoLib} {pullNumber deadline : Int}
    {branch headSHA agentModel initialResult : GoString} (hr : s.jobs.find? job.id = some r)
    (hstatus : r.status.isUncommitted = true)
    (h : beginCIWait lib job pullNumber branch headSHA agentModel deadline now initialResult s =
      .ok s') : s'.account job.id =
      { s.account job.id with
        status := some (if r.status = .launched then .ciWaiting else r.status)
        task := some ((s.account job.id).task.getD .waitingCI) } := by
  simp only [beginCIWait, require_bind_eq_ok, pure_eq_ok] at h
  obtain ⟨-, -, -, rfl⟩ := h
  have henters : r.entersCIWait = decide (r.status = .launched) := by
    revert hstatus
    unfold JobRow.entersCIWait
    cases r.status <;> simp [JobStatus.isUncommitted, JobStatus.isQueued]
  refine CIAccount.ext ?_ ?_ ?_ rfl rfl
  · simp only [Store.account, Table.find?_updateKey_self, hr, Option.map_some, henters,
      decide_eq_true_eq]
    split <;> rfl
  all_goals
    simp only [Store.account, Table.find?_insert, newTask, if_true]
    cases s.ciTasks.find? job.id <;> rfl

theorem beginCIWait_moves {lib : GoLib} {pullNumber deadline : Int}
    {branch headSHA agentModel initialResult : GoString} (hu : Uncommitted job.id s)
    (h : beginCIWait lib job pullNumber branch headSHA agentModel deadline now initialResult s =
      .ok s') : Moves maxAttempts job.id s s' := by
  obtain ⟨r, hr, hstatus⟩ := hu
  have hv : (s.account job.id).status = some r.status := by simp [Store.account, hr]
  have hself := beginCIWait_account hr hstatus h
  simp only [beginCIWait, require_bind_eq_ok, pure_eq_ok] at h
  obtain ⟨-, -, -, rfl⟩ := h
  refine ⟨fun i hi => ?_, .inr ?_, id⟩
  · simp [Store.account, Store.attemptsOf, hi, newTask, Table.find?_insert]
  · rw [hself]
    exact .enter hv hstatus

/-! ### Deliveries -/

variable {lib : GoLib}

theorem DeliveryTransaction.step (h : DeliveryTransaction lib s s') : DeliveryStep s s' := by
  cases h with
  | event h => exact .same (recordCIEvent_view h)
  | wake h => exact recordWake_step h
  | record h => exact record_step h

theorem DeliveryTransaction.escalations (h : DeliveryTransaction lib s s') :
    s'.escalations = s.escalations := by
  cases h with
  | event h =>
    obtain ⟨_, _, _, rfl⟩ := recordCIEvent_frame h
    rfl
  | wake h =>
    obtain ⟨_, _, rfl⟩ := recordRepositoryRunExternalWake_frame h
    rfl
  | record h =>
    obtain ⟨_, _, _, _, rfl⟩ := record_frame h
    rfl

/-- Of an account, a delivery can only change the status. -/
theorem DeliveryTransaction.account (h : DeliveryTransaction lib s s') (i : Int) :
    s'.account i = { s.account i with status := (s'.view i).status } := by
  obtain ⟨g, hg, hrows⟩ := h.attempts
  have hattempts : (s'.attemptsOf i).map AttemptRow.entry =
      (s.attemptsOf i).map AttemptRow.entry := by
    have hlist : s'.attemptsOf i = (s.attemptsOf i).map g :=
      Store.attemptsOf_map hrows fun a => by obtain ⟨_, _, ha⟩ := hg a; rw [ha]
    rw [hlist, List.map_map]
    refine List.map_congr_left fun a _ => ?_
    obtain ⟨_, _, ha⟩ := hg a
    rw [Function.comp_apply, ha]
    rfl
  simp only [Store.account, h.ciTasks, h.escalations, hattempts]
  rfl

theorem DeliveryTransaction.keyed (h : DeliveryTransaction lib s s') (hk : s.Keyed) : s'.Keyed := by
  obtain ⟨g, hg, hrows⟩ := h.attempts
  refine Store.keyed_map hrows (fun a => ?_) hk
  obtain ⟨_, _, ha⟩ := hg a
  rw [ha]
  exact ⟨rfl, rfl, rfl⟩

/-- A delivery creates at most one job, and changes no account otherwise. -/
theorem DeliveryTransaction.moves (h : DeliveryTransaction lib s s') :
    ∃ j, Moves maxAttempts j s s' := by
  have hsame : ∀ i, (s'.view i).status = (s.view i).status → s'.account i = s.account i :=
    fun i hi => (h.account i).trans (by rw [hi]; rfl)
  cases h.step with
  | same hview =>
    exact ⟨0, .of_same (funext fun i => hsame i (by rw [hview])) h.keyed⟩
  | wake hwake =>
    refine ⟨0, .of_same (funext fun i => hsame i ?_) h.keyed⟩
    rcases hwake i with he | ⟨_, -, -, -, he⟩ <;> rw [he]
  | arrive k t others new last hnew =>
    refine ⟨k, fun i hi => hsame i (by rw [others i hi]), .inr ?_, h.keyed⟩
    rw [h.account k, hnew]
    exact .arrive new

/-- A stored job keeps its key, its run and its status. -/
theorem DeliveryTransaction.job_row (h : DeliveryTransaction lib s s')
    (hr : s.jobs.find? j = some r) : ∃ r', s'.jobs.find? j = some r' ∧
      r'.semanticKey = r.semanticKey ∧ r'.brokerRunID = r.brokerRunID ∧ r'.status = r.status := by
  cases h with
  | event h =>
    obtain ⟨_, _, _, rfl⟩ := recordCIEvent_frame h
    exact ⟨r, hr, rfl, rfl, rfl⟩
  | wake h =>
    unfold recordRepositoryRunExternalWake at h
    dsimp only at h
    split at h
    · cases h
      exact ⟨r, hr, rfl, rfl, rfl⟩
    · split at h <;> cases h
      · refine ⟨_, by rw [Table.find?_update, hr, Option.map_some], ?_⟩
        split <;> exact ⟨rfl, rfl, rfl⟩
      · exact ⟨r, hr, rfl, rfl, rfl⟩
  | record h =>
    refine ⟨r, ?_, rfl, rfl, rfl⟩
    rcases record_jobs h with hjobs | ⟨c, hjobs⟩ <;> rw [hjobs]
    · exact hr
    · unfold Store.insertJob
      split
      · exact hr
      · exact Table.find?_insert_of_some hr

theorem DeliveryTransaction.uncommitted (h : DeliveryTransaction lib s s')
    (hu : Uncommitted j s) : Uncommitted j s' := by
  obtain ⟨r, hr, hstatus⟩ := hu
  obtain ⟨r', hr', -, -, he⟩ := h.job_row hr
  exact ⟨r', hr', he ▸ hstatus⟩

theorem DeliveryTransaction.job_isSome (h : DeliveryTransaction lib s s')
    (hj : (s.jobs.find? j).isSome = true) : (s'.jobs.find? j).isSome = true := by
  obtain ⟨r, hr⟩ := Option.isSome_iff_exists.mp hj
  obtain ⟨r', hr', -⟩ := h.job_row hr
  exact Option.isSome_iff_exists.mpr ⟨r', hr'⟩

end JobWork

end SignalPlane.Dispatcher
