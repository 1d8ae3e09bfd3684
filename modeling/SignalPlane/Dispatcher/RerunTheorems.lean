/-
SignalPlane.Dispatcher.RerunTheorems — running an interrupted recovery again.

`Runner.Run` validates the restored database at its start, and its own replay
changes what it validates: a recorded message moves the checkpoint away from
the manifest, and adds jobs that were never launched. So a recovery that was
interrupted completes when it is run again only if the interruption left the
checkpoint and the restored jobs as the check wants them. `Resumable` is that
condition on the store at the interruption.

The run that was interrupted is arbitrary: any stream, any clock, any broker,
cut after any transaction. What it leaves of the recovery tables is an
invariant of it (`History`), kept by every transaction it makes. The run that
follows sees a broker whose runs all go on and a backlog of well-formed
messages.
-/
import SignalPlane.Dispatcher.RecoveryHistory

namespace SignalPlane.Dispatcher

open Workflow (Post post_pure post_bind post_atomic post_commit post_request post_mono)

variable {job : Job} {report : RecoveryReport} {recoveryID : GoString} {backlog : List Delivery}
  {manifestSequence streamSequence : Nat} {jobs : List Job} {now : Int}

/-! ## Replayed messages -/

/-- A message the replay can store: it has a sequence that the driver takes, it decodes, a CI event
of a routed repository is complete, and it can be acknowledged. -/
def Delivery.WellFormed (env : Env) (delivery : Delivery) : Prop :=
  ∃ streamSequence signal, delivery.streamSequence = .ok streamSequence ∧ streamSequence ≠ 0 ∧
    streamSequence < 2 ^ 63 ∧
    env.lib.unmarshalSignal delivery.data = .ok signal ∧ delivery.ackSync = .ok () ∧
    (routeOwnsRepository env.routes signal.nameSpace = true →
      isCIWakeEvent signal.sourceEvent = true →
        signal.source = lit "github" ∧ signal.sourceDeliveryID ≠ [] ∧ signal.nameSpace ≠ [] ∧
          isGithubSHA signal.sourceRevision = true ∧
          ∃ pullNumber, ciEventPull env.lib signal = .ok pullNumber)

/-- What a replayed message leaves alone: the recovery tables, the terminal results, and every
job that can be polled. -/
structure Replayed (s s' : Store) : Prop extends SameTables s s' where
  terminals : s'.terminalResults = s.terminalResults
  polled : ∀ j row, row.isPollResult = true →
    (s'.jobs.find? j = some row ↔ s.jobs.find? j = some row)

theorem Replayed.refl (s : Store) : Replayed s s := ⟨⟨rfl, rfl, rfl⟩, rfl, fun _ _ _ => Iff.rfl⟩

theorem Replayed.trans {s s1 s2 : Store} (h : Replayed s s1) (h' : Replayed s1 s2) :
    Replayed s s2 :=
  ⟨⟨h'.runs.trans h.runs, h'.frozen.trans h.frozen, h'.evidence.trans h.evidence⟩,
    h'.terminals.trans h.terminals, fun j row hrow => (h'.polled j row hrow).trans
      (h.polled j row hrow)⟩

section Replay

variable {env : Env} {o : BrokerAnswers} {signal : Signal} {s s' : Store}

theorem recordCIEvent_accepts {pullNumber : Int} (hsource : signal.source = lit "github")
    (hdelivery : signal.sourceDeliveryID ≠ []) (hrepository : signal.nameSpace ≠ [])
    (hhead : isGithubSHA signal.sourceRevision = true)
    (hpull : ciEventPull env.lib signal = .ok pullNumber) :
    ∃ r, recordCIEvent env.lib signal now s = .ok r := by
  simp only [recordCIEvent, require_bind_eq_ok, exists_and_left]
  refine ⟨by simp [hsource, hdelivery, hrepository, hhead], ?_⟩
  split
  · exact ⟨_, rfl⟩
  · simp only [bind_eq_ok, hpull, Except.ok.injEq, exists_eq_left']
    split <;> exact ⟨_, rfl⟩

theorem recordCIEvent_replayed {b : Bool}
    (h : recordCIEvent env.lib signal now s = .ok (b, s')) : Replayed s s' := by
  obtain ⟨_, _, _, rfl⟩ := recordCIEvent_frame h
  exact ⟨⟨rfl, rfl, rfl⟩, rfl, fun _ _ _ => Iff.rfl⟩

theorem recordRepositoryRunExternalWake_accepts (lib : GoLib) (signal : Signal) (now : Int)
    (s : Store) : ∃ r, recordRepositoryRunExternalWake lib signal now s = .ok r := by
  unfold recordRepositoryRunExternalWake
  split
  · exact ⟨_, rfl⟩
  · dsimp only
    split <;> exact ⟨_, rfl⟩

/-- A wake moves jobs that wait for an outside service, and none of these can be polled. -/
theorem recordRepositoryRunExternalWake_replayed {b : Bool}
    (h : recordRepositoryRunExternalWake env.lib signal now s = .ok (b, s')) : Replayed s s' := by
  unfold recordRepositoryRunExternalWake at h
  split at h
  · cases h
    exact .refl s
  · next issueNumber hissue =>
    dsimp only at h
    split at h
    · cases h
      refine ⟨⟨rfl, rfl, rfl⟩, rfl, fun j row hrow => ?_⟩
      have hwaits : ∀ r : JobRow, r.status = .externalWaiting → ¬ r.isPollResult = true := by
        intro r hr
        simp [JobRow.isPollResult, hr]
      refine Table.find?_map_iff (t := s.jobs) (D := fun r => r.isPollResult = true)
        (p := fun r => r.awaitsIssue signal.nameSpace issueNumber)
        (f := fun r => { r with dueAt := Clock.unixMilli now, updatedAt := Clock.unixMilli now })
        rfl (fun _ => rfl) (fun r hr => ?_) hrow
      simp only [JobRow.awaitsIssue, Bool.and_eq_true, decide_eq_true_eq] at hr
      exact ⟨hwaits r hr.2, hwaits _ hr.2⟩
    · cases h
      exact .refl s

theorem record_accepts (hn : streamSequence ≠ 0) (hsequence : streamSequence < 2 ^ 63)
    (hopen : s.recoveryRuns.hits recoveryID (fun r => r.status = .incomplete) = true) :
    ∃ s', record recoveryID signal.sourceDeliveryID
      (selectOutcome (select env.lib signal env.routes)) streamSequence
      (select env.lib signal env.routes).toOption now s = .ok s' := by
  have hcandidate : ∀ c ∈ (select env.lib signal env.routes).toOption,
      signal.sourceDeliveryID ≠ [] ∧ c.deliveryID = signal.sourceDeliveryID := by
    intro c hc
    cases hselect : select env.lib signal env.routes with
    | error e => simp [hselect, Except.toOption] at hc
    | ok c' =>
      obtain rfl : c' = c := by simpa [hselect, Except.toOption] using hc
      obtain ⟨hdelivery, hid, -⟩ := (select_spec env.lib signal env.routes).1 c' hselect
      exact ⟨hdelivery, hid⟩
  exact ⟨_, record_eq_ok.mpr ⟨⟨hn, hsequence, hcandidate⟩, .inr hopen, rfl⟩⟩

/-- The new job is still to be launched. -/
theorem record_replayed {deliveryID outcome : GoString} {candidate : Option Candidate}
    (h : record recoveryID deliveryID outcome streamSequence candidate now s = .ok s') :
    Replayed s s' := by
  have hjobs := record_jobs h
  obtain ⟨_, jobs, _, _, rfl⟩ := record_frame h
  refine ⟨⟨rfl, rfl, rfl⟩, rfl, fun j row hrow => ?_⟩
  rcases hjobs with hjobs | ⟨c, hjobs⟩
  · rw [hjobs]
  · rw [hjobs, Store.insertJob]
    split
    · rfl
    · exact Table.find?_insert_iff (D := fun r : JobRow => r.isPollResult = true)
        (by simp [JobRow.isPollResult]) hrow

/-- A well-formed message of an open recovery is stored. -/
theorem process_replayed {delivery : Delivery} (hmessage : delivery.WellFormed env)
    (hopen : s.recoveryRuns.hits recoveryID (fun r => r.status = .incomplete) = true) :
    Post (fun _ _ => True) o (process env recoveryID delivery now) s
      (fun v s' => v = .ok () ∧ Replayed s s') := by
  obtain ⟨streamSequence, signal, hsequence, hn, hbound, hdata, hack, hevent⟩ := hmessage
  have hwake : ∀ s1 (k : Except GoError Bool → Dispatch (Except GoError Unit)),
      (∀ b, k (.ok b) = pure (.ok ())) → Replayed s s1 → Post (fun _ _ => True) o
        (Workflow.atomic (recordRepositoryRunExternalWake env.lib signal now) >>= k) s1
        (fun v s2 => v = .ok () ∧ Replayed s s2) := by
    intro s1 k hk hs1
    obtain ⟨r, hr⟩ := recordRepositoryRunExternalWake_accepts env.lib signal now s1
    refine Workflow.post_atomic_ok hr ?_
    rw [hk]
    exact post_pure.mpr ⟨rfl, hs1.trans (recordRepositoryRunExternalWake_replayed hr)⟩
  have hwakes : Post (fun _ _ => True) o (recordWakes env signal now) s
      (fun v s1 => v = .ok () ∧ Replayed s s1) := by
    unfold recordWakes
    split
    · next howned =>
      split
      · next hci =>
        obtain ⟨hsource, hdelivery, hrepository, hhead, pullNumber, hpull⟩ := hevent howned hci
        obtain ⟨r, hr⟩ : ∃ r, recordCIEvent env.lib signal now s = .ok r :=
          recordCIEvent_accepts hsource hdelivery hrepository hhead hpull
        exact Workflow.post_atomic_ok hr (hwake r.2 _ (fun _ => rfl) (recordCIEvent_replayed hr))
      · exact hwake s _ (fun _ => rfl) (.refl s)
    · exact post_pure.mpr ⟨rfl, .refl s⟩
  unfold process
  simp only [hsequence, hdata, if_neg hn]
  refine post_bind.mpr (post_mono hwakes ?_)
  rintro _ s1 ⟨rfl, hs1⟩
  obtain ⟨s2, hs2⟩ : ∃ s2, record recoveryID signal.sourceDeliveryID
      (selectOutcome (select env.lib signal env.routes)) streamSequence
      (select env.lib signal env.routes).toOption now s1 = .ok s2 :=
    record_accepts hn hbound (hs1.runs ▸ hopen)
  refine Workflow.post_commit_ok hs2 ?_
  simp only [hack]
  exact post_pure.mpr ⟨rfl, hs1.trans (record_replayed hs2)⟩

/-- A backlog of well-formed messages is replayed to its end. -/
theorem replayMessages_replayed {clock : RecoveryClock} {pending : Nat}
    (hbacklog : ∀ d ∈ backlog, d.WellFormed env)
    (hopen : s.recoveryRuns.hits recoveryID (fun r => r.status = .incomplete) = true) (i : Nat) :
    Post (fun _ _ => True) o
      (replayMessages env recoveryID clock pending (backlog.map .ok) i) s
      (fun v s' => v = .ok () ∧ Replayed s s') := by
  induction backlog generalizing s i with
  | nil => exact post_pure.mpr ⟨rfl, .refl s⟩
  | cons d backlog ih =>
    have hd := hbacklog d List.mem_cons_self
    refine post_bind.mpr (post_mono (process_replayed hd hopen) ?_)
    rintro _ s1 ⟨rfl, hs1⟩
    refine post_mono (ih (fun d' hd' => hbacklog d' (List.mem_cons_of_mem _ hd'))
      (hs1.runs ▸ hopen) (i + 1)) ?_
    rintro v s2 ⟨hv, hs2⟩
    exact ⟨hv, hs1.trans hs2⟩

end Replay

/-! ## Reconciling against runs that go on -/

/-- Every run goes on, and the broker says so under its id. -/
def RunsGoOn (o : BrokerAnswers) : Prop :=
  ∀ jobID runID, ∃ status : RunStatus,
    (o ⟨.poll jobID, .status runID⟩ : Except GoError RunStatus) = .ok status ∧
      status.runID = runID ∧ reconciledStatus status.status = .ok .launched

/-- A frozen job that can be polled again, with its evidence or as it was frozen. -/
def Reconcilable (id : GoString) (job : Job) (s : Store) : Prop :=
  ∃ row, s.jobs.find? job.id = some row ∧ row.isPollResult = true ∧
    ((s.recoveryReconciliations.find? (id, job.id)).isSome = true ∨
      (row.brokerRunID = job.brokerRunID ∧ s.hasTerminal job.id = false))

/-- What reconciling a job changes: its own row and its own evidence. -/
structure Reconciled (id : GoString) (job : Job) (s s' : Store) : Prop where
  runs : s'.recoveryRuns = s.recoveryRuns
  frozen : s'.recoveryJobs = s.recoveryJobs
  terminals : s'.terminalResults = s.terminalResults
  row : (s'.recoveryReconciliations.find? (id, job.id)).isSome = true
  evidence : ∀ k, k ≠ (id, job.id) →
    s'.recoveryReconciliations.find? k = s.recoveryReconciliations.find? k
  jobs : ∀ j, j ≠ job.id → s'.jobs.find? j = s.jobs.find? j

section Reconcile

variable {env : Env} {o : BrokerAnswers} {id : GoString} {clock : RecoveryClock} {s s' : Store}

/-- Reconcilability is decided by the tables a replayed message leaves alone. -/
theorem Replayed.reconcilable_iff (h : Replayed s s') :
    Reconcilable id job s' ↔ Reconcilable id job s := by
  unfold Reconcilable Store.hasTerminal
  rw [h.evidence, h.terminals]
  refine exists_congr fun row => ?_
  constructor
  · rintro ⟨hfind, hpoll, hrest⟩
    exact ⟨(h.polled _ _ hpoll).mp hfind, hpoll, hrest⟩
  · rintro ⟨hfind, hpoll, hrest⟩
    exact ⟨(h.polled _ _ hpoll).mpr hfind, hpoll, hrest⟩

/-- Reconciling one job does not matter to another. -/
theorem Reconciled.reconcilable_iff {job' : Job} (h : Reconciled id job s s')
    (hne : job'.id ≠ job.id) : Reconcilable id job' s' ↔ Reconcilable id job' s := by
  have hkey : (id, job'.id) ≠ (id, job.id) := fun he => hne (Prod.mk.inj he).2
  unfold Reconcilable Store.hasTerminal
  rw [h.jobs _ hne, h.evidence _ hkey, h.terminals]

/-- The polled job is recorded exactly when its evidence is there or it is as it was frozen. -/
theorem recordState_polled {row : JobRow} {brokerStatus : GoString} {context : String}
    (hstatus : job.status = .launched) (hrun : job.brokerRunID ≠ [])
    (hopened : (s.recoveryRuns.find? id).isSome = true) (hfind : s.jobs.find? job.id = some row)
    (hpoll : row.isPollResult = true) : Post (fun _ _ => True) o
      (recordState id clock job brokerStatus context (.ok .launched)) s
      (fun v s' => (v = .ok () ↔ Reconcilable id job s) ∧ (v = .ok () → Reconciled id job s s'))
  := by
  have hiff : (∃ s', recordReconciliation id job brokerStatus .launched (clock.recorded job.id) s =
      .ok s') ↔ Reconcilable id job s := by
    rw [recordReconciliation_succeeds_iff hstatus hrun hopened]
    have hrow : row.id = job.id := Table.key_of_find? hfind
    simp [Store.Evident, Reconcilable, Table.hits, hfind, hpoll, hrow]
  refine post_bind.mpr (post_commit (fun s1 hs1 => post_pure.mpr ?_) fun e he => post_pure.mpr ?_)
  · refine ⟨iff_of_true rfl (hiff.mp ⟨s1, hs1⟩), fun _ => ?_⟩
    have hevidence := recordReconciliation_row hs1
    obtain ⟨-, -, ⟨-, rfl⟩ | ⟨-, -, -, rfl⟩⟩ := recordReconciliation_ok.mp hs1
    · exact ⟨rfl, rfl, rfl, hevidence, fun _ _ => rfl, fun _ _ => rfl⟩
    · refine ⟨rfl, rfl, rfl, hevidence, fun k hk => ?_, fun j hj => ?_⟩
      · exact (Table.find?_insert _ _ _).trans (if_neg hk)
      · exact Table.find?_updateKey_ne s.jobs _ (JobRow.reconciledLaunched _) (fun _ => rfl) hj
  · refine ⟨iff_of_false (by simp [Except.mapError]) fun hok => ?_, by simp [Except.mapError]⟩
    obtain ⟨s1, hs1⟩ := hiff.mpr hok
    simp [he] at hs1

/-- With a run that goes on, the loop body succeeds exactly for a reconcilable job. -/
theorem reconcileJob_running (ho : RunsGoOn o) (hstatus : job.status = .launched)
    (hrun : job.brokerRunID ≠ []) (hopened : (s.recoveryRuns.find? id).isSome = true) :
    Post (fun _ _ => True) o (reconcileJob env id clock job) s
      (fun v s' => (v = .ok () ↔ Reconcilable id job s) ∧ (v = .ok () → Reconciled id job s s'))
  := by
  obtain ⟨status, hanswer, hsame, hword⟩ := ho job.id job.brokerRunID
  unfold reconcileJob
  refine post_bind.mpr (post_request.mpr ⟨trivial, ?_⟩)
  generalize (o ⟨.poll job.id, .status job.brokerRunID⟩ : Except GoError RunStatus) = answer
    at hanswer
  subst hanswer
  have hrunID : ¬ (status.runID = [] ∨ status.runID ≠ job.brokerRunID) := by simp [hsame, hrun]
  have hwait : status.status ≠ lit "waiting_external" := ne_waiting_of_reconciledStatus hword
  have hlive : job.status ≠ .externalWaiting := by simp [hstatus]
  simp only [reconcileStatusResult, if_neg hrunID, if_neg hwait, if_neg hlive, settleRun, hword]
  by_cases hhits : s.jobs.hits job.id JobRow.isPollResult = true
  · obtain ⟨row, hfind, hpoll⟩ := Table.hits_iff.mp hhits
    have hmark := markStatus_launched (clock.reconciled job.id) hhits
    refine post_bind.mpr (Workflow.post_commit_ok hmark (post_pure.mpr ?_))
    let s1 := s.updateJob job.id JobRow.isPollResult (JobRow.polledAgain (clock.reconciled job.id))
      (fun _ => rfl)
    have hfind1 : s1.jobs.find? job.id = some (row.polledAgain (clock.reconciled job.id)) :=
      find?_polledAgain _ hfind hpoll
    have hpoll1 : (row.polledAgain (clock.reconciled job.id)).isPollResult = true := by
      simp [JobRow.polledAgain, JobRow.isPollResult]
    -- Polling keeps the run of the row, so nothing that decides reconcilability changed.
    have hiff : Reconcilable id job s1 ↔ Reconcilable id job s := by
      simp only [Reconcilable, hfind1, hfind, Option.some.injEq, exists_eq_left', hpoll1, hpoll,
        true_and]
      rfl
    refine post_mono (recordState_polled hstatus hrun hopened hfind1 hpoll1) fun v s2 h => ?_
    refine ⟨h.1.trans hiff, fun hv => ?_⟩
    obtain ⟨hruns, hfrozen, hterminals, hrow, hevidence, hjobs⟩ := h.2 hv
    refine ⟨hruns, hfrozen, hterminals, hrow, hevidence, fun j hj => (hjobs j hj).trans ?_⟩
    exact Table.find?_updateKey_ne s.jobs _ (JobRow.polledAgain _) (fun _ => rfl) hj
  · refine post_bind.mpr (post_bind.mpr (post_commit (fun s1 hs1 => ?_) fun e _ => ?_))
    · simp only [markStatus, expectOne_bind_eq_ok] at hs1
      exact absurd hs1.1 hhits
    · refine post_pure.mpr (post_pure.mpr ⟨iff_of_false (by simp) ?_, by simp⟩)
      rintro ⟨row, hfind, hpoll, -⟩
      exact hhits (Table.hits_iff.mpr ⟨row, hfind, hpoll⟩)

/-- What reconciling the jobs of a list changes. -/
structure ReconciledAll (id : GoString) (jobs : List Job) (s s' : Store) : Prop where
  runs : s'.recoveryRuns = s.recoveryRuns
  frozen : s'.recoveryJobs = s.recoveryJobs
  rows : ∀ job ∈ jobs, (s'.recoveryReconciliations.find? (id, job.id)).isSome = true
  evidence : ∀ k, (∀ job ∈ jobs, k ≠ (id, job.id)) →
    s'.recoveryReconciliations.find? k = s.recoveryReconciliations.find? k

/-- The loop succeeds exactly when every job is reconcilable before it. -/
theorem reconcileJobs_running (ho : RunsGoOn o)
    (hjobs : ∀ job ∈ jobs, job.status = .launched ∧ job.brokerRunID ≠ [])
    (hnodup : (jobs.map Job.id).Nodup) (hopened : (s.recoveryRuns.find? id).isSome = true) :
    Post (fun _ _ => True) o (reconcileJobs env id clock jobs) s
      (fun v s' => (v = .ok () ↔ ∀ job ∈ jobs, Reconcilable id job s) ∧
        (v = .ok () → ReconciledAll id jobs s s')) := by
  induction jobs generalizing s with
  | nil => exact post_pure.mpr ⟨by simp, fun _ => ⟨rfl, rfl, by simp, fun _ _ => rfl⟩⟩
  | cons job jobs ih =>
    simp only [List.map_cons, List.nodup_cons] at hnodup
    obtain ⟨hstatus, hrun⟩ := hjobs job List.mem_cons_self
    refine post_bind.mpr (post_mono (reconcileJob_running ho hstatus hrun hopened) ?_)
    rintro v s1 ⟨hiff, hreconciled⟩
    cases v with
    | error e =>
      have hno : ¬ Reconcilable id job s := fun h => by simpa using hiff.mpr h
      refine post_pure.mpr ⟨iff_of_false (by simp) fun hall => ?_, by simp⟩
      exact hno (hall job List.mem_cons_self)
    | ok _ =>
      have hone := hreconciled rfl
      have hne : ∀ job' ∈ jobs, job'.id ≠ job.id := fun job' hjob' he =>
        hnodup.1 (he ▸ List.mem_map_of_mem hjob')
      refine post_mono (ih (fun j hj => hjobs j (List.mem_cons_of_mem _ hj)) hnodup.2
        (hone.runs ▸ hopened)) fun v s2 h => ⟨h.1.trans ?_, fun hv => ?_⟩
      · rw [List.forall_mem_cons, and_iff_right (hiff.mp rfl)]
        exact forall₂_congr fun job' hjob' => hone.reconcilable_iff (hne job' hjob')
      · obtain ⟨hruns, hfrozen, hrows, hevidence⟩ := h.2 hv
        refine ⟨hruns.trans hone.runs, hfrozen.trans hone.frozen, fun job' hjob' => ?_,
          fun k hk => ?_⟩
        · rcases List.mem_cons.mp hjob' with rfl | hjob'
          · rw [hevidence _ fun job'' hjob'' he => hne job'' hjob'' (Prod.mk.inj he).2.symm]
            exact hone.row
          · exact hrows job' hjob'
        · rw [hevidence k fun j hj => hk j (List.mem_cons_of_mem _ hj)]
          exact hone.evidence k (hk job List.mem_cons_self)

/-! ## The end of a recovery -/

/-- The jobs of a recovery have different ids. -/
theorem nodup_frozenInOrder (s : Store) (id : GoString) :
    ((frozenInOrder (s.frozenJobs id)).map Job.id).Nodup := by
  have hperm : ((frozenInOrder (s.frozenJobs id)).map Job.id).Perm
      ((s.frozenJobs id).map RecoveryJobRow.jobID) := by
    rw [frozenInOrder, List.map_map]
    exact (List.perm_insertionSort _ _).map _
  rw [hperm.nodup_iff, List.nodup_map_iff_inj_on]
  · -- Rows of one recovery with one job id have one key.
    intro f hf f' hf' he
    have hfind := find?_of_mem_frozen hf
    have hfind' := find?_of_mem_frozen hf'
    have hjob : f.toJob.id = f'.toJob.id := he
    rw [hjob] at hfind
    exact Option.mem_unique hfind hfind'
  · exact (List.Nodup.of_map _ s.recoveryJobs.nodup).filter _

/-- With evidence about every frozen job there are as many rows of it as jobs. -/
theorem length_evidence (hevidence : ∀ c ∈ s.recoveryReconciliations.rows, c.recoveryID = id →
      (s.recoveryJobs.find? (id, c.jobID)).isSome = true)
    (hall : ∀ job ∈ frozenInOrder (s.frozenJobs id),
      (s.recoveryReconciliations.find? (id, job.id)).isSome = true) :
    (s.recoveryReconciliations.rows.filter (fun c => c.recoveryID = id)).length =
      (frozenInOrder (s.frozenJobs id)).length := by
  -- Both sides list the same job ids, each once.
  have hkeys : ((s.recoveryReconciliations.rows.filter (fun c => c.recoveryID = id)).map
      RecoveryReconciliationRow.jobID).Perm ((frozenInOrder (s.frozenJobs id)).map Job.id) := by
    refine (List.perm_ext_iff_of_nodup ?_ (nodup_frozenInOrder s id)).mpr fun j => ?_
    · rw [List.nodup_map_iff_inj_on
        ((List.Nodup.of_map _ s.recoveryReconciliations.nodup).filter _)]
      intro c hc c' hc' he
      obtain ⟨hc, hid⟩ := List.mem_filter.mp hc
      obtain ⟨hc', hid'⟩ := List.mem_filter.mp hc'
      have hkey : c.key = c'.key :=
        Prod.ext ((of_decide_eq_true hid).trans (of_decide_eq_true hid').symm) he
      exact Option.mem_unique (Table.find?_key hc) (hkey ▸ Table.find?_key hc')
    · simp only [List.mem_map, List.mem_filter, decide_eq_true_eq]
      constructor
      · rintro ⟨c, ⟨hc, hid⟩, rfl⟩
        obtain ⟨f, hf⟩ := Option.isSome_iff_exists.mp (hevidence c hc hid)
        have hkey : f.key = (id, c.jobID) := Table.key_of_find? hf
        have hmem : f ∈ s.frozenJobs id :=
          List.mem_filter.mpr ⟨Table.mem_of_find? hf, by simpa using (Prod.mk.inj hkey).1⟩
        exact ⟨f.toJob, mem_frozenInOrder.mpr ⟨f, hmem, rfl⟩, (Prod.mk.inj hkey).2⟩
      · rintro ⟨job, hjob, rfl⟩
        obtain ⟨c, hc⟩ := Option.isSome_iff_exists.mp (hall job hjob)
        have hkey : c.key = (id, job.id) := Table.key_of_find? hc
        exact ⟨c, ⟨Table.mem_of_find? hc, (Prod.mk.inj hkey).1⟩, (Prod.mk.inj hkey).2⟩
  simpa using hkeys.length_eq

/-- With its marker open and as many rows of evidence as jobs, a recovery completes. -/
theorem finishRecovery_completes
    (hopen : s.recoveryRuns.hits id (fun r => r.status = .incomplete) = true)
    (hlength : (s.recoveryReconciliations.rows.filter (fun c => c.recoveryID = id)).length =
      jobs.length) : Post (fun _ _ => True) o (finishRecovery id clock report jobs) s
      (fun v _ => ∃ r, v = .ok r ∧ r.status = .completed) := by
  obtain ⟨run, hrun, hstatus⟩ := Table.hits_iff.mp hopen
  have hcount :
      s.recoveryReconciliations.rows.countP (fun r => r.recoveryID = id) = jobs.length := by
    rw [List.countP_eq_length_filter, hlength]
  obtain ⟨s1, hs1⟩ : ∃ s1, completeRecovery id jobs.length clock.completed s = .ok s1 := by
    simp only [completeRecovery, require_bind_eq_ok, expectOne_bind_eq_ok, exists_and_left]
    exact ⟨hcount, hopen, _, rfl⟩
  refine Workflow.post_commit_ok hs1 ?_
  simp only [completeRecovery, require_bind_eq_ok, expectOne_bind_eq_ok, pure_eq_ok] at hs1
  obtain ⟨-, -, rfl⟩ := hs1
  refine post_bind.mpr (post_atomic (fun r s2 hs2 => ?_) fun e he => ?_)
  all_goals simp only [recoveryEvidence, Table.find?_updateKey_self, hrun, Option.map_some,
    hstatus, if_true, Except.map] at *
  · cases hs2
    simp only [List.length_insertionSort, hlength, ne_eq, not_true, if_false]
    exact post_pure.mpr ⟨_, rfl, rfl⟩
  · cases he

end Reconcile

/-! ## The second run -/

section Rerun

variable {env : Env} {o : BrokerAnswers} {stream : ReplayStream} {clock : RecoveryClock}
  {opts : RecoveryOptions} {s : Store}

/-- The dry run accepts exactly the databases at the manifest whose restored jobs are launched. -/
theorem validateRestored_ok : validateRestored opts s = .ok report ↔
      ¬ (opts.recoveryID = [] ∨ opts.durable = [] ∨ opts.subject = []) ∧
        s.checkpoint = opts.manifestSequence ∧ s.AllLaunched ∧ opts.report s = report := by
  simp only [validateRestored, require_bind_eq_ok]
  refine and_congr_right fun _ => and_congr_right fun _ => ?_
  have hnone : (recoveryJobs s).find? (fun job => job.status ≠ .launched || job.brokerRunID = []) =
      none ↔ s.AllLaunched := by
    simp [recoveryJobs, Store.AllLaunched, Store.restoredRows, List.find?_eq_none,
      List.mem_insertionSort, JobRow.toJob]
  constructor
  · intro h
    split at h
    · cases h
    · next hfind => exact ⟨hnone.mp hfind, Except.ok.inj h⟩
  · rintro ⟨hlaunched, rfl⟩
    rw [hnone.mpr hlaunched]
    rfl

/-- A recovery that begins on a database its dry run accepts has its history. -/
theorem beginRecovery_history (htables : RecoveryTables opts.recoveryID s)
    (hcheckpoint : s.checkpoint = opts.manifestSequence)
    (hbegin : (beginRecovery opts.recoveryID opts.durable s.checkpoint now s).1 = .ok ()) :
    History opts (beginRecovery opts.recoveryID opts.durable s.checkpoint now s).2 ∧
      (beginRecovery opts.recoveryID opts.durable s.checkpoint now s).2.jobs = s.jobs := by
  obtain ⟨hopens, ⟨run, hrun, hrundurable, hmanifest, hstart, -⟩, hothers⟩ :=
    beginRecovery_ok.mp hbegin
  rw [beginRecovery_store, if_pos hopens]
  refine ⟨⟨?_, ⟨run, hrun, hrundurable, hcheckpoint ▸ hmanifest, hcheckpoint ▸ hstart⟩, hothers⟩,
    rfl⟩
  cases hnew : s.recoveryRuns.find? opts.recoveryID with
  | some _ =>
    have hsame : s.marked opts.recoveryID opts.durable s.checkpoint now = s.recoveryRuns :=
      Table.insert_of_find? hnew
    rwa [hsame]
  | none =>
    -- The count of the new marker is the column's default.
    have hfresh : ∀ run, (s.marked opts.recoveryID opts.durable s.checkpoint now).find?
        opts.recoveryID = some run → run.restoredJobCount = -1 := by
      intro run hrun
      rw [Table.find?_insert] at hrun
      simp only [newMarker, if_true, hnew, Option.getD_none, Option.some.injEq] at hrun
      rw [← hrun]
    refine ⟨fun _ => htables.unfrozen (by simp [hnew]), fun run hrun _ => hfresh run hrun,
      htables.launched, htables.evidence⟩

/-- The second `BeginRecovery` succeeds exactly while the marker is incomplete. -/
theorem beginRecovery_again (now : Int) (h : Begun opts s)
    (hopens : s.Opens opts.recoveryID opts.durable s.checkpoint)
    (hcheckpoint : s.checkpoint = opts.manifestSequence) :
    ((beginRecovery opts.recoveryID opts.durable s.checkpoint now s).1 = .ok () ↔
      s.recoveryRuns.hits opts.recoveryID (fun r => r.status = .incomplete) = true) ∧
    (beginRecovery opts.recoveryID opts.durable s.checkpoint now s).2 = s := by
  obtain ⟨⟨run, hrun, hrundurable, hmanifest, hstart⟩, hothers⟩ := h
  have hsame : s.marked opts.recoveryID opts.durable s.checkpoint now = s.recoveryRuns :=
    Table.insert_of_find? hrun
  refine ⟨?_, by rw [beginRecovery_store, if_pos hopens, hsame]⟩
  rw [beginRecovery_ok, and_iff_right hopens, hsame]
  simp only [Table.hits, hrun, Option.some.injEq, exists_eq_left', Option.any_some,
    decide_eq_true_eq, hrundurable, hmanifest, hstart, hcheckpoint, true_and]
  exact ⟨fun h => h.1, fun h => ⟨h, hothers⟩⟩

/-- What the second run needs of the store that the first one left. -/
structure Resumable (opts : RecoveryOptions) (s : Store) : Prop where
  incomplete : s.recoveryRuns.hits opts.recoveryID (fun r => r.status = .incomplete) = true
  checkpoint : s.checkpoint = opts.manifestSequence
  launched : s.AllLaunched
  reconcilable : ∀ f ∈ s.pendingJobs opts.recoveryID, Reconcilable opts.recoveryID f.toJob s

/-- A report of a completed recovery. -/
def Completed (v : Except GoError RecoveryReport) : Prop :=
  ∃ report, v = .ok report ∧ report.status = .completed

theorem not_completed_error (e : GoError) : ¬ Completed (.error e) := fun ⟨_, h, _⟩ => by cases h

/-- After `BeginRecovery`, the second run completes exactly when every frozen job is
reconcilable. -/
theorem recoverJobs_completes (ho : RunsGoOn o) (hhistory : History opts s)
    (hlaunched : s.AllLaunched)
    (hopen : s.recoveryRuns.hits opts.recoveryID (fun r => r.status = .incomplete) = true)
    (hreset : stream.reset opts.subject opts.durable report.startSequence =
      .ok (backlog.map .ok)) (hbacklog : ∀ d ∈ backlog, d.WellFormed env) :
    Post (fun _ _ => True) o (recoverJobs env stream clock opts report) s
      (fun v _ => Completed v ↔
        ∀ f ∈ s.pendingJobs opts.recoveryID, Reconcilable opts.recoveryID f.toJob s) := by
  obtain ⟨run, hrun, hstatus⟩ := Table.hits_iff.mp hopen
  obtain ⟨runs, frozen, hfreeze, hhistory1, hpending, hopen1⟩ :=
    freezeRecoveryJobs_spec hhistory hlaunched hrun (of_decide_eq_true hstatus)
  let s1 := { s with recoveryRuns := runs, recoveryJobs := frozen }
  have hprepare : prepareRecoveryJobs opts.recoveryID s =
      .ok (frozenInOrder (s1.frozenJobs opts.recoveryID), s1) :=
    prepareRecoveryJobs_ok.mpr ⟨hfreeze, rfl⟩
  refine Workflow.post_atomic_ok hprepare ?_
  simp only [hreset]
  refine post_bind.mpr (post_mono (replayMessages_replayed hbacklog hopen1 0) ?_)
  rintro _ s2 ⟨rfl, hs2⟩
  -- The jobs of the loop are the frozen rows, and neither freeze nor replay matters to them.
  have hiff : (∀ job ∈ frozenInOrder (s1.frozenJobs opts.recoveryID),
      Reconcilable opts.recoveryID job s2) ↔
      ∀ f ∈ s.pendingJobs opts.recoveryID, Reconcilable opts.recoveryID f.toJob s := by
    have hsame : ∀ job, Reconcilable opts.recoveryID job s2 ↔ Reconcilable opts.recoveryID job s :=
      fun job => hs2.reconcilable_iff
    simp only [mem_frozenInOrder, forall_exists_index, and_imp, forall_apply_eq_imp_iff₂, hsame,
      ← hpending]
    rfl
  have hjobs : ∀ job ∈ frozenInOrder (s1.frozenJobs opts.recoveryID),
      job.status = .launched ∧ job.brokerRunID ≠ [] := by
    intro job hjob
    obtain ⟨f, hf, rfl⟩ := mem_frozenInOrder.mp hjob
    exact hhistory1.tables.launched f hf
  have hopen2 : s2.recoveryRuns.hits opts.recoveryID (fun r => r.status = .incomplete) = true :=
    hs2.runs ▸ hopen1
  have hopened : (s2.recoveryRuns.find? opts.recoveryID).isSome = true := by
    obtain ⟨run, hrun, -⟩ := Table.hits_iff.mp hopen2
    rw [hrun]
    rfl
  refine post_bind.mpr (post_mono
    (reconcileJobs_running ho hjobs (nodup_frozenInOrder s1 _) hopened) ?_)
  rintro v s3 ⟨hv, hall⟩
  cases v with
  | error e =>
    refine post_pure.mpr (iff_of_false (not_completed_error e) fun h => ?_)
    simpa using hv.mpr (hiff.mpr h)
  | ok _ =>
    have hs3 := hall rfl
    have hfrozen : s3.recoveryJobs = s1.recoveryJobs := hs3.frozen.trans hs2.frozen
    have hlength : (s3.recoveryReconciliations.rows.filter
        (fun c => c.recoveryID = opts.recoveryID)).length =
        (frozenInOrder (s1.frozenJobs opts.recoveryID)).length := by
      have hsame : s3.frozenJobs opts.recoveryID = s1.frozenJobs opts.recoveryID := by
        rw [Store.frozenJobs, hfrozen, Store.frozenJobs]
      rw [← hsame]
      refine length_evidence (fun c hc hcid => ?_) fun job hjob => hs3.rows job (hsame ▸ hjob)
      -- A row is evidence about a job of the loop or was there before it.
      by_cases hjob : ∃ job ∈ frozenInOrder (s1.frozenJobs opts.recoveryID), job.id = c.jobID
      · obtain ⟨job, hjob, hjobID⟩ := hjob
        obtain ⟨f, hf, rfl⟩ := mem_frozenInOrder.mp hjob
        rw [hfrozen, ← hjobID, find?_of_mem_frozen hf]
        rfl
      · have hkey : c.key = (opts.recoveryID, c.jobID) := Prod.ext hcid rfl
        have hfind := hs3.evidence c.key fun job hjob' he =>
          hjob ⟨job, hjob', (Prod.mk.inj (hkey.symm.trans he)).2.symm⟩
        rw [Table.find?_key hc, hs2.evidence] at hfind
        rw [hfrozen]
        exact hhistory1.tables.evidence c (Table.mem_of_find? hfind.symm) hcid
    refine post_mono (finishRecovery_completes (hs3.runs ▸ hopen2) hlength) fun v s4 h => ?_
    exact iff_of_true h (hiff.mp (hv.mp rfl))

theorem recoverFrom_completes (ho : RunsGoOn o) (hhistory : History opts s)
    (hlaunched : s.AllLaunched)
    (hopen : s.recoveryRuns.hits opts.recoveryID (fun r => r.status = .incomplete) = true)
    (hreset : stream.reset opts.subject opts.durable report.startSequence =
      .ok (backlog.map .ok)) (hbacklog : ∀ d ∈ backlog, d.WellFormed env) :
    Post (fun _ _ => True) o (recoverFrom env stream clock opts report) s
      (fun v _ => Completed v ↔
        ∀ f ∈ s.pendingJobs opts.recoveryID, Reconcilable opts.recoveryID f.toJob s) := by
  refine post_bind.mpr (post_mono
    (recoverJobs_completes ho hhistory hlaunched hopen hreset hbacklog) fun v s1 h => ?_)
  cases v with
  | error e =>
    refine post_bind.mpr (Workflow.post_perform.mpr (post_pure.mpr ?_))
    exact iff_of_false (not_completed_error e) fun h' => not_completed_error e (h.mpr h')
  | ok report => exact post_pure.mpr h

/-- On a store with the history of a recovery, `Runner.Run` completes exactly when the store is
resumable. -/
theorem runRecovery_completes_iff (ho : RunsGoOn o) (hhistory : History opts s)
    (hexecute : opts.execute = true)
    (hoptions : ¬ (opts.recoveryID = [] ∨ opts.durable = [] ∨ opts.subject = []))
    (hsequence : opts.manifestSequence + 1 < 2 ^ 63)
    (hreset : stream.reset opts.subject opts.durable (opts.manifestSequence + 1) =
      .ok (backlog.map .ok)) (hbacklog : ∀ d ∈ backlog, d.WellFormed env) :
    Post (fun _ _ => True) o (runRecovery env stream clock opts) s
      (fun v _ => Completed v ↔ Resumable opts s) := by
  have hid : opts.recoveryID ≠ [] := fun h => hoptions (.inl h)
  have hdurable : opts.durable ≠ [] := fun h => hoptions (.inr (.inl h))
  cases hvalid : validateRestored opts s with
  | error e =>
    -- The check fails on a checkpoint that moved or a job that is not launched.
    refine Workflow.post_atomic_error (by rw [hvalid]; rfl) (post_pure.mpr ?_)
    refine iff_of_false (not_completed_error e) fun h => ?_
    have hok := validateRestored_ok.mpr ⟨hoptions, h.checkpoint, h.launched, rfl⟩
    cases hok.symm.trans hvalid
  | ok report =>
    refine Workflow.post_atomic_ok (by rw [hvalid]; rfl) ?_
    obtain ⟨-, hcheckpoint, hlaunched, rfl⟩ := validateRestored_ok.mp hvalid
    simp only [if_pos hexecute]
    obtain ⟨hagain, hsame⟩ := beginRecovery_again clock.begun hhistory.begun
      ⟨hid, hdurable, rfl, hcheckpoint ▸ hsequence⟩ hcheckpoint
    refine post_bind.mpr (Workflow.post_perform.mpr ?_)
    simp only [RecoveryOptions.report, hsame]
    cases hbegin : (beginRecovery opts.recoveryID opts.durable s.checkpoint clock.begun s).1 with
    | error e =>
      refine post_pure.mpr (iff_of_false (not_completed_error _) fun h => ?_)
      cases (hagain.mpr h.incomplete).symm.trans hbegin
    | ok _ =>
      have hopen := hagain.mp hbegin
      refine post_mono (recoverFrom_completes ho hhistory hlaunched hopen ?_ hbacklog) ?_
      · rw [← hreset, ← hcheckpoint]
        rfl
      · exact fun v _ h => h.trans ⟨fun hall => ⟨hopen, hcheckpoint, hlaunched, hall⟩,
          fun hres => hres.reconcilable⟩

/-- A recovery of a database that the dry run accepts, interrupted anywhere after `BeginRecovery`
and run again with the same options, completes exactly when the interruption left a resumable
store. -/
theorem rerun_completes_iff (env : Env) (opts : RecoveryOptions) (hexecute : opts.execute = true)
    (restored : Store) (report : RecoveryReport)
    (hvalid : validateRestored opts restored = .ok report)
    (htables : RecoveryTables opts.recoveryID restored) (stream : ReplayStream)
    (clock : RecoveryClock)
    (hbegin : (beginRecovery opts.recoveryID opts.durable report.manifestSequence clock.begun
      restored).1 = .ok ())
    (s : Store) (hinterrupted : Workflow.Interleaved nobody
      (recoverFrom env stream clock opts { report with mode := .execute, status := .incomplete })
      (beginRecovery opts.recoveryID opts.durable report.manifestSequence clock.begun restored).2 s)
    (o : BrokerAnswers) (ho : RunsGoOn o) (stream' : ReplayStream) (clock' : RecoveryClock)
    (backlog : List Delivery)
    (hreset : stream'.reset opts.subject opts.durable (opts.manifestSequence + 1) =
      .ok (backlog.map .ok)) (hbacklog : ∀ d ∈ backlog, d.WellFormed env) :
    Completed ((runRecovery env stream' clock' opts).exec o s).value ↔ Resumable opts s := by
  obtain ⟨hoptions, hcheckpoint, hlaunched, rfl⟩ := validateRestored_ok.mp hvalid
  obtain ⟨hhistory, hjobs⟩ := beginRecovery_history htables hcheckpoint hbegin
  have hlaunched' : (beginRecovery opts.recoveryID opts.durable restored.checkpoint clock.begun
      restored).2.AllLaunched := by
    rwa [Store.AllLaunched, Store.restoredRows, hjobs]
  exact (runRecovery_completes_iff ho (recoverFrom_history hhistory hlaunched' hinterrupted)
    hexecute hoptions (hcheckpoint ▸ (beginRecovery_ok.mp hbegin).1.2.2.2) hreset hbacklog).final

end Rerun

namespace Sample

def recoveryOptions : RecoveryOptions :=
  { recoveryID := lit "recovery"
    durable := lit "dispatcher"
    subject := lit "signals"
    manifestSequence := 1
    execute := true }

/-- A broker whose runs all go on. -/
def goingOn : BrokerAnswers
  | ⟨_, .status runID⟩ =>
    (.ok { runID := runID, status := lit "running" } : Except GoError RunStatus)
  | request => answers completed (.ok ready) green request

theorem goingOn_runsGoOn : RunsGoOn goingOn := fun _ _ =>
  ⟨_, rfl, rfl, (by decide : reconciledStatus (lit "running") = .ok .launched)⟩

/-- Message number `n` of the stream. -/
def message (n : Nat) : Delivery := ⟨.ok n, lit "delivery" ++ GoString.decimal n, .ok ()⟩

theorem message_wellFormed {n : Nat} (hn : n ≠ 0) (hn' : n < 2 ^ 63) : (message n).WellFormed env :=
  ⟨n, _, rfl, hn, hn', rfl, rfl,
    fun _ h => absurd h (by decide : ¬ isCIWakeEvent (lit "issues") = true)⟩

def fetching (fetches : List (Except GoError Delivery)) : ReplayStream := ⟨fun _ _ _ => .ok fetches⟩

/-- The report that a recovery of the launched job starts with. -/
def begunReport : RecoveryReport :=
  { recoveryOptions.report launchedStore with mode := .execute, status := .incomplete }

/-- The second of two messages could not be fetched. -/
def interruptedStore : Store :=
  ((recoverFrom env (fetching [.ok (message 2), .error unavailable]) recoveryClock recoveryOptions
    begunReport).exec goingOn recoveredStore).store

theorem launchedStore_valid : validateRestored recoveryOptions launchedStore =
    .ok (recoveryOptions.report launchedStore) := by
  decide +kernel

theorem launchedStore_tables : RecoveryTables recoveryOptions.recoveryID launchedStore := by
  have hruns : launchedStore.recoveryRuns.find? recoveryOptions.recoveryID = none := by
    decide +kernel
  have hfrozen : launchedStore.frozenJobs recoveryOptions.recoveryID = [] := by decide +kernel
  have hevidence : launchedStore.recoveryReconciliations.rows = [] := by decide +kernel
  refine ⟨fun _ => hfrozen, fun run hrun => ?_, fun f hf => ?_, fun c hc => ?_⟩
  · rw [hruns] at hrun
    cases hrun
  · rw [hfrozen] at hf
    cases hf
  · rw [hevidence] at hc
    cases hc

end Sample

open Sample in
/-- A recovery that was killed right after `BeginRecovery` completes. -/
theorem rerun_completes_untouched :
    Resumable recoveryOptions recoveredStore ∧
      Completed ((runRecovery env (fetching [.ok (message 2), .ok (message 3)]) recoveryClock
        recoveryOptions).exec goingOn recoveredStore).value := by
  have hiff := rerun_completes_iff env recoveryOptions rfl launchedStore _ launchedStore_valid
    launchedStore_tables (fetching []) recoveryClock (by decide +kernel) recoveredStore .stop
    goingOn goingOn_runsGoOn (fetching [.ok (message 2), .ok (message 3)]) recoveryClock
    [message 2, message 3] rfl (by simp [message_wellFormed])
  have hjobs : ∀ f ∈ recoveredStore.pendingJobs recoveryOptions.recoveryID,
      (recoveredStore.jobs.find? f.jobID).any (fun row => row.isPollResult &&
        row.brokerRunID = f.brokerRunID) = true ∧ recoveredStore.hasTerminal f.jobID = false := by
    decide +kernel
  have hlaunched : ∀ r ∈ recoveredStore.restoredRows,
      r.status = .launched ∧ r.brokerRunID ≠ [] := by decide +kernel
  have hresumable : Resumable recoveryOptions recoveredStore := by
    refine ⟨by decide +kernel, by decide +kernel, hlaunched, fun f hf => ?_⟩
    obtain ⟨hany, hterminal⟩ := hjobs f hf
    obtain ⟨row, hrow, h⟩ := (Option.any_eq_true _ _).mp hany
    simp only [Bool.and_eq_true, decide_eq_true_eq] at h
    exact ⟨row, hrow, h.1, .inr ⟨h.2, hterminal⟩⟩
  exact ⟨hresumable, hiff.mpr hresumable⟩

open Sample in
/-- One replayed message moves the checkpoint, and the second run refuses the database. -/
theorem rerun_refuses_replayed :
    validateRestored recoveryOptions launchedStore = .ok (recoveryOptions.report launchedStore) ∧
      RecoveryTables recoveryOptions.recoveryID launchedStore ∧
      beginRecovery recoveryOptions.recoveryID recoveryOptions.durable 1 minute launchedStore =
        (.ok (), recoveredStore) ∧
      Workflow.Interleaved nobody (recoverFrom env
        (fetching [.ok (message 2), .error unavailable]) recoveryClock recoveryOptions begunReport)
        recoveredStore interruptedStore ∧
      RunsGoOn goingOn ∧ (message 2).WellFormed env ∧ (message 3).WellFormed env ∧
      ((runRecovery env (fetching [.ok (message 2), .ok (message 3)]) recoveryClock
        recoveryOptions).exec goingOn interruptedStore).value = .error (newError
          "manifest sequence 1 does not match restored SQLite checkpoint 2") := by
  refine ⟨launchedStore_valid, launchedStore_tables, Prod.ext (by decide +kernel) rfl,
    Workflow.interleaved_exec _ _ _, goingOn_runsGoOn,
    message_wellFormed (by decide) (by decide), message_wellFormed (by decide) (by decide),
    by decide +kernel⟩

end SignalPlane.Dispatcher
