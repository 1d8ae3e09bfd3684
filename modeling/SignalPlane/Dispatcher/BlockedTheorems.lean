/-
SignalPlane.Dispatcher.BlockedTheorems — blocked reports and their evidence.

A pass of the worker is a walk of report steps (`runOne_reportMoves`): a job's
program queues results under the job's own key and run, and `RunOne` marks the
report and the escalation it has just claimed. Two invariants of every run
follow: a report is filed under the job's key and run (`JobRow.Filed`), and ids
and keys are not shared.

`report_blocked` is written by two operations. `MarkReportFailure` writes it
with a blocked outbox row and the same error. `MarkCIEscalationFailure` writes
it without a terminal result or an outbox row, so the evidence the status
promises is there only as long as no escalation is given up
(`blocked_has_evidence`), and a report can be requeued only when nothing has
replaced the error it was blocked with (`requeue_succeeds_iff`).
-/
import SignalPlane.Lib.Utf8
import SignalPlane.Dispatcher.Pass

namespace SignalPlane.Dispatcher

open Clock
open Workflow
open Relation (ReflTransGen)

variable {s : Store} {tie : Nat} {rules : ReportRules} {recoveryID : GoString} {delivery : Delivery}
  {t : Option TerminalResultRow}

/-! ## What a pass files -/

/-- The report of a job carries its run and its key. -/
def JobRow.Filed (lib : GoLib) (r : JobRow) (t : TerminalResultRow) (o : OutboxRow) : Prop :=
  t.runID = r.brokerRunID ∧ o.idempotencyKey = reportKey lib r.toJob terminalResultVersion

/-- What the dispatcher does to reports. -/
def dispatchRules (lib : GoLib) (arrivals blocks : Prop) (error : GoString → Prop) :
    ReportRules where
  elsewhere := True
  arrivals := arrivals
  files := JobRow.Filed lib
  blocks := blocks
  error := error

section Pass

variable {env : Env} {arrivals blocks : Prop} {error : GoString → Prop} {now : Int} {job : Job}
  {s' : Store} {α : Type}

theorem validateTerminalResult_correlation {lib : GoLib} {r : TerminalResult}
    (h : validateTerminalResult lib job r = .ok ()) :
    r.version = terminalResultVersion ∧ r.runID = job.brokerRunID := by
  simp only [validateTerminalResult, require_bind_eq_ok] at h
  exact ⟨h.1.1, h.1.2.1⟩

theorem queueTerminalResult_reportMoves {lib : GoLib} (status : JobStatus) {r : TerminalResult}
    (hk : s.Knows job)
    (h : queueTerminalResult lib { job with status := status } r now s = .ok s') :
    ReportMoves (dispatchRules lib arrivals blocks error) s s' := by
  obtain ⟨hvalid, body, -, h⟩ := queueTerminalResult_ok.mp h
  obtain ⟨hversion, hrunID⟩ := validateTerminalResult_correlation hvalid
  obtain ⟨row, hrow, hkey, hrun⟩ := hk
  refine storeTerminalResult_reportMoves h fun row' hrow' _ => ?_
  cases hrow.symm.trans hrow'
  refine ⟨hrunID.trans hrun.symm, ?_⟩
  simp only [Store.newOutboxRow, reportKey, JobRow.toJob, hkey, hversion]

/-- Comments fail with errors that a report may be blocked with. -/
def CommentErrors (o : BrokerAnswers) (error : GoString → Prop) : Prop :=
  ∀ (u : WorkUnit) (job : Job) (body key : GoString) (e : GoError),
    o ⟨u, .comment job body key⟩ = .error e → error (safeBrokerError e) ∧
      error (lit "terminal issue comment delivery retry limit exhausted: " ++ safeBrokerError e)

/-- A transaction of a pass moves reports by the rules, if the comments it may make allow it. -/
theorem PassStep.reportMoves {claimed : CIEscalationReport → Prop} (hs : s.OutboxIDs)
    (hblocks : ∀ report e, claimed report → o ⟨.escalation report.job.id, .comment report.job
        report.body report.operationKey⟩ = .error e →
      report.givesUp (isRetryable e) = true → blocks)
    (herror : CommentErrors o error) (h : PassStep env now (fun q a => o q = a) claimed s s') :
    ReportMoves (dispatchRules env.lib arrivals blocks error) s s' := by
  cases h with
  | spares h _ => exact h.reportMoves trivial
  | queues status _ hk h => exact queueTerminalResult_reportMoves status hk h
  | delivers hof h => exact markReportDelivered_reportMoves hs hof h
  | fails hof hanswer hsafe h =>
    obtain ⟨hplain, hexhausted⟩ := herror _ _ _ _ _ hanswer
    refine markReportFailure_reportMoves hs hof (fun _ => ?_) h
    rcases hsafe with rfl | rfl
    · exact hplain
    · exact hexhausted
  | escalates _ h => exact markCIEscalationDelivered_reportMoves trivial h
  | givesUp hclaimed _ hanswer h =>
    exact markCIEscalationFailure_reportMoves (hblocks _ _ hclaimed hanswer) h

/-- So does an uninterrupted run of a part of it. -/
theorem PassSteps.reportMoves {α : Type} {p : Dispatch α} {claimed : CIEscalationReport → Prop}
    (hs : s.OutboxIDs) (hblocks : ∀ report e, claimed report → o ⟨.escalation report.job.id,
        .comment report.job report.body report.operationKey⟩ = .error e →
      report.givesUp (isRetryable e) = true → blocks)
    (herror : CommentErrors o error) (h : PassSteps env now (fun q a => o q = a) claimed p s) :
    ReportMoves (dispatchRules env.lib arrivals blocks error) s (exec o p s).store := by
  have hsteps := (Honours.post h trivial fun _ => rfl).final
  refine stable (K := ReportMoves _ s) (fun s1 s2 hstep hmoves => ?_) (.refl s) hsteps
  exact hmoves.trans (hstep.reportMoves (hmoves.ids hs) hblocks herror)

/-- A pass moves reports by the rules, if the comments it may make allow it. -/
theorem runOne_reportMoves (hs : s.OutboxIDs)
    (hblocks : ∀ report, claimCIEscalation now s = .ok (some report, s) → ∀ e,
      o ⟨.escalation report.job.id, .comment report.job report.body report.operationKey⟩ =
        .error e → report.givesUp (isRetryable e) = true → blocks)
    (herror : CommentErrors o error) :
    ReportMoves (dispatchRules env.lib arrivals blocks error) s
      (exec o (runOne env tie now) s).store := by
  have hrest : PassSteps env now (fun q a => o q = a) (fun _ => False) (runCIOrRest env tie now)
      s :=
    runCIOrRest_passes
  have rest : ReportMoves (dispatchRules env.lib arrivals blocks error) s _ :=
    hrest.reportMoves hs (fun _ _ h => h.elim) herror
  suffices hpost : Post (fun _ _ => True) o (runOne env tie now) s fun _ s' =>
      ReportMoves (dispatchRules env.lib arrivals blocks error) s s' from hpost.final
  unfold runOne
  split
  · refine post_bind.mpr (post_atomic (fun work s1 hclaim => ?_) fun e _ => post_pure.mpr (.refl s))
    obtain rfl := claimCIEscalation_store hclaim
    refine ⟨fun _ _ => trivial, ?_⟩
    cases work with
    | none => exact rest
    | some report =>
      have hpasses : PassSteps env now (fun q a => o q = a) (fun r => r = report)
          (runEscalation env report now) s1 := runEscalation_passes hclaim rfl
      refine hpasses.reportMoves hs (fun r e hr => ?_) herror
      subst hr
      exact hblocks r hclaim e
  · exact ⟨fun _ _ => trivial, rest⟩

/-- A delivery moves reports by the rules: it brings jobs, and wakes them. -/
theorem process_reportMoves : ReportMoves (dispatchRules env.lib True blocks error) s
      (exec o (process env recoveryID delivery now) s).store := by
  obtain ⟨s1, s2, hpath⟩ := (process_path env o recoveryID delivery now s).final
  have h1 : ReportMoves (dispatchRules env.lib True blocks error) s s1 := by
    rcases hpath.event with rfl | ⟨signal, b, -, -, -, h⟩
    · exact .refl _
    · exact (recordCIEvent_spares h).reportMoves trivial
  have h2 : ReportMoves (dispatchRules env.lib True blocks error) s1 s2 := by
    rcases hpath.wake with rfl | ⟨signal, b, -, h⟩
    · exact .refl _
    · exact (recordRepositoryRunExternalWake_spares h).reportMoves trivial
  refine (h1.trans h2).trans ?_
  rcases hpath.recorded with h | ⟨signal, streamSequence, -, -, h⟩
  · rw [h]
    exact .refl _
  · have hrecord : DeliveryTransaction env.lib s2 _ := .record h
    exact hrecord.reportMoves trivial trivial

end Pass

/-! ## Filed reports -/

theorem JobRow.Filed.of_moves {lib : GoLib} {r r' : JobRow} {t : TerminalResultRow}
    {o o' : OutboxRow} (h : r.Filed lib t o) (hkey : r'.semanticKey = r.semanticKey)
    (hrun : r'.brokerRunID = r.brokerRunID) (hidempotency : o'.idempotencyKey = o.idempotencyKey) :
    r'.Filed lib t o' := by
  refine ⟨h.1.trans hrun.symm, ?_⟩
  rw [hidempotency, h.2]
  simp only [reportKey, JobRow.toJob, hkey]

/-- A report there is was filed for its job. -/
def ReportRecord.IsFiled (lib : GoLib) (v : ReportRecord) : Prop :=
  ∀ r t o, v.row = some r → v.terminal = some t → v.outbox = some o → r.Filed lib t o

section Filed

variable {lib : GoLib} {arrivals blocks : Prop} {error : GoString → Prop} {v v' : ReportRecord}

/-- The rows move on; key, run and text stay. -/
theorem ReportRecord.IsFiled.of_moves {r r' : JobRow} {o o' : OutboxRow} {status : JobStatus}
    {outbox : OutboxStatus} (hv : IsFiled lib ⟨some r, t, some o⟩) (hr : r.Moves r' status)
    (ho : o.Moves o' outbox) : IsFiled lib ⟨some r', t, some o'⟩ := by
  intro r1 t1 o1 hr1 ht1 ho1
  cases hr1
  cases ho1
  exact (hv r t1 o rfl ht1 rfl).of_moves hr.semanticKey hr.run ho.key

theorem ReportRecord.Step.isFiled
    (h : ReportRecord.Step (dispatchRules lib arrivals blocks error) v v') (hs : v.Sound)
    (hv : v.IsFiled lib) : v'.IsFiled lib := by
  cases h with
  | @works r r' t o _ hr =>
    intro r1 t1 o1 hr1 ht1 ho1
    cases hr1
    refine (hv r t1 o1 rfl ht1 ho1).of_moves hr.semanticKey ?_ rfl
    rcases hr.run with h | h
    · exact h
    · -- A job in the launch line has no report.
      rw [hs.launched r o1 rfl ho1] at h
      cases h
  | arrives _ _ _ =>
    intro r1 t1 o1 _ _ ho1
    cases (hs.row rfl).symm.trans ho1
  | @blocks r r' t o _ hr' =>
    intro r1 t1 o1 hr1 ht1 ho1
    cases hr1
    exact (hv r t1 o1 rfl ht1 ho1).of_moves hr'.semanticKey hr'.run rfl
  | @queues r r' t0 o0 t o hr hr' hstatus hunsent hversion hfiles =>
    intro r1 t1 o1 hr1 ht1 ho1
    cases hr1
    cases ht1
    cases ho1
    cases o0 with
    | none =>
      obtain rfl := hs.both.mp rfl
      exact hfiles.of_moves hr'.semanticKey hr'.run rfl
    | some o1 =>
      cases t0 with
      | none => cases hs.both.mpr rfl
      | some t1 => exact (hv r t1 o1 rfl rfl rfl).of_moves hr'.semanticKey hr'.run rfl
  | delivers _ _ hr' ho' | retries _ _ hr' ho' | fails _ _ hr' ho' | requeues _ _ hr' ho' =>
    exact hv.of_moves hr' ho'

end Filed

/-! ## Keys -/

/-- Jobs have positive ids, and no two the same semantic key. -/
structure Store.KeyedJobs (s : Store) : Prop where
  positive : ∀ j row, s.jobs.find? j = some row → 1 ≤ j
  semantic : ∀ j k r r', s.jobs.find? j = some r → s.jobs.find? k = some r' →
    r.semanticKey = r'.semanticKey → j = k

section Keys

variable {s' : Store}

/-- The same jobs under the same keys. -/
theorem Store.KeyedJobs.of_map (h : s.KeyedJobs) (hmap : ∀ j,
    (s'.jobs.find? j).map JobRow.semanticKey = (s.jobs.find? j).map JobRow.semanticKey) :
    s'.KeyedJobs := by
  have old : ∀ j r, s'.jobs.find? j = some r →
      ∃ r0, s.jobs.find? j = some r0 ∧ r0.semanticKey = r.semanticKey := by
    intro j r hr
    have := hmap j
    rw [hr, Option.map_some] at this
    exact Option.map_eq_some_iff.mp this.symm
  refine ⟨fun j row hrow => ?_, fun j k r r' hr hr' he => ?_⟩
  · obtain ⟨r0, hr0, -⟩ := old j row hrow
    exact h.positive j r0 hr0
  · obtain ⟨a, ha, hka⟩ := old j r hr
    obtain ⟨b, hb, hkb⟩ := old k r' hr'
    exact h.semantic j k a b ha hb (hka.trans (he.trans hkb.symm))

theorem Spares.keyedJobs (h : Spares s s') (hs : s.KeyedJobs) : s'.KeyedJobs := by
  refine hs.of_map fun j => ?_
  have hj := h.jobs j
  generalize s.jobs.find? j = a, s'.jobs.find? j = b at hj
  cases hj with
  | none => rfl
  | some hr => exact congrArg some hr.semanticKey

theorem nextID_pos (ids : List Int) : 1 ≤ nextID ids := by
  have := (le_foldl_max ids 0).1
  simp only [nextID]
  omega

theorem Arrives.keyedJobs {row : JobRow} (h : Arrives s s' row) (hs : s.KeyedJobs) :
    s'.KeyedJobs := by
  -- A job is an old one or the new one.
  have cases : ∀ j r, s'.jobs.find? j = some r →
      s.jobs.find? j = some r ∨ j = row.id ∧ r = row := by
    intro j r hr
    rw [h.jobs, Table.find?_insert] at hr
    split at hr
    · next hj =>
      subst hj
      cases hfound : s.jobs.find? row.id with
      | none =>
        rw [hfound] at hr
        cases hr
        exact .inr ⟨rfl, rfl⟩
      | some r0 =>
        rw [hfound] at hr
        cases hr
        exact .inl rfl
    · exact .inl hr
  have fresh : ∀ j r, s.jobs.find? j = some r → r.semanticKey ≠ row.semanticKey :=
    fun j r hr => h.key r (Table.mem_of_find? hr)
  refine ⟨fun j r hr => ?_, fun j k r r' hr hr' he => ?_⟩
  · rcases cases j r hr with hr | ⟨rfl, -⟩
    · exact hs.positive j r hr
    · rw [h.id]
      exact nextID_pos _
  · rcases cases j r hr with hr | ⟨rfl, rfl⟩ <;> rcases cases k r' hr' with hr' | ⟨rfl, rfl⟩
    · exact hs.semantic j k r r' hr hr' he
    · exact absurd he (fresh j r hr)
    · exact absurd he.symm (fresh k r' hr')
    · rfl

theorem DeliveryTransaction.keyedJobs {lib : GoLib} (h : DeliveryTransaction lib s s')
    (hs : s.KeyedJobs) : s'.KeyedJobs := by
  rcases h.spares with h | ⟨row, h⟩
  · exact h.keyedJobs hs
  · exact h.keyedJobs hs

end Keys

/-! ## Every run -/

/-- What holds of the reports in every run. -/
structure Store.ReportsFiled (lib : GoLib) (s : Store) : Prop where
  ids : s.OutboxIDs
  keys : s.KeyedJobs
  sound : ∀ j, (s.report j).Sound
  filed : ∀ j, (s.report j).IsFiled lib
  counted : ∀ j, (s.report j).Counted

theorem Store.ReportsFiled.empty (lib : GoLib) : Store.empty.ReportsFiled lib where
  ids _ _ _ _ ho := by cases ho
  keys := ⟨fun _ _ hr => (by cases hr), fun _ _ _ _ hr => (by cases hr)⟩
  sound _ := ReportRecord.sound_none none
  filed _ _ _ _ hr := by cases hr
  counted _ _ hr := by cases hr

theorem Store.ReportsFiled.moves {lib : GoLib} {arrivals blocks : Prop} {error : GoString → Prop}
    {s' : Store} (hs : s.ReportsFiled lib)
    (h : ReportMoves (dispatchRules lib arrivals blocks error) s s') (hkeys : s'.KeyedJobs) :
    s'.ReportsFiled lib := by
  have both : ∀ j, (s'.report j).Sound ∧ (s'.report j).IsFiled lib := fun j =>
    ReportRecord.Step.preserve (I := fun v => v.Sound ∧ v.IsFiled lib)
      (fun _ _ hv hstep => ⟨hstep.sound hv.1, hstep.isFiled hv.1 hv.2⟩) (h.records j)
      ⟨hs.sound j, hs.filed j⟩
  have counted : ∀ j, (s'.report j).Counted := fun j =>
    ReportRecord.Step.preserve (fun _ _ hv hstep => hstep.counted hv) (h.records j) (hs.counted j)
  exact ⟨h.ids hs.ids, hkeys, fun j => (both j).1, fun j => (both j).2, counted⟩

/-- Work that brings no job keeps the keys. -/
theorem ReportMoves.keyedJobs {s' : Store} (h : ReportMoves rules s s') (ha : ¬ rules.arrivals)
    (hs : s.KeyedJobs) : s'.KeyedJobs :=
  hs.of_map fun j => ReportRecord.semanticKey_of_steps ha (h.records j)

theorem process_keyedJobs {env : Env} {o : BrokerAnswers} {now : Int} (hs : s.KeyedJobs) :
    (exec o (process env recoveryID delivery now) s).store.KeyedJobs := by
  obtain ⟨s1, s2, hpath⟩ := (process_path env o recoveryID delivery now s).final
  have h1 : s1.KeyedJobs := by
    rcases hpath.event with rfl | ⟨signal, b, -, -, -, h⟩
    · exact hs
    · exact (recordCIEvent_spares h).keyedJobs hs
  have h2 : s2.KeyedJobs := by
    rcases hpath.wake with rfl | ⟨signal, b, -, h⟩
    · exact h1
    · exact (recordRepositoryRunExternalWake_spares h).keyedJobs h1
  rcases hpath.recorded with h | ⟨signal, streamSequence, -, -, h⟩
  · rw [h]
    exact h2
  · have hrecord : DeliveryTransaction env.lib s2 _ := .record h
    exact hrecord.keyedJobs h2

theorem Input.reportsFiled {env : Env} (i : Input) (hs : s.ReportsFiled env.lib) :
    (i.step env s).ReportsFiled env.lib := by
  cases i with
  | process delivery now =>
    have hmoves : ReportMoves (dispatchRules env.lib True True fun _ => True) s
        ((Input.process delivery now).step env s) := process_reportMoves
    exact hs.moves hmoves (process_keyedJobs hs.keys)
  | runOne tie now answers =>
    have hmoves : ReportMoves (dispatchRules env.lib False True fun _ => True) s
        ((Input.runOne tie now answers).step env s) :=
      runOne_reportMoves hs.ids (fun _ _ _ _ _ => trivial) fun _ _ _ _ _ _ => ⟨trivial, trivial⟩
    exact hs.moves hmoves (hmoves.keyedJobs id hs.keys)

theorem Reachable.reportsFiled {env : Env} (h : Reachable env s) : s.ReportsFiled env.lib :=
  ReachableBy.invariant (.empty env.lib) (fun _ i hs _ => i.reportsFiled hs) h

/-! ## Three runs that end blocked -/

namespace Sample

/-- A failure that is final. -/
def refused : GoError := newError "refused"

/-- A broker that refuses every comment, resumption and observation of CI. -/
def refusing (launch : Except GoError GoString) (projection : Except GoError TerminalResult) :
    BrokerAnswers
  | ⟨_, .launch _⟩ => launch
  | ⟨_, .launchRepair ..⟩ => (.error refused : Except GoError GoString)
  | ⟨_, .status _⟩ => completed
  | ⟨_, .resumeRun ..⟩ => (.error refused : Except GoError RunStatus)
  | ⟨_, .terminalResult _⟩ => projection
  | ⟨_, .comment ..⟩ => (.error refused : Except GoError CommentResult)
  | ⟨_, .observeCI ..⟩ => (.error refused : Except GoError CIObservation)

/-- The run has no projection and the comment about it is refused. -/
def unprojectedPass (now : Int) : Input := .runOne 0 now (refusing (.ok []) (.error refused))

/-- The report of a launched run is blocked. -/
def blockedStore : Store :=
  run env [unprojectedPass (3 * second), unprojectedPass (4 * second)] launchedStore

/-- The launch is refused, and so is the comment about it. -/
def unlaunchedPass (now : Int) : Input := .runOne 0 now (refusing (.error refused) (.ok ready))

/-- The report of a launch that no broker acknowledged is blocked. -/
def unlaunchedStore : Store :=
  run env [deliver 1 0, unlaunchedPass second, unlaunchedPass (2 * second)] .empty

/-- The run is ready for review, CI cannot be observed, and comments are refused. -/
def unobservedPass (now : Int) : Input := .runOne 0 now (refusing (.ok []) (.ok ready))

/-- The escalation of a job is given up. -/
def unescalatedRun : List Input :=
  launchedRun ++ [unobservedPass (3 * second), unobservedPass (4 * second),
    unobservedPass (5 * second)]

end Sample

/-! ## Requeueing -/

/-- The report of job `j` is requeued and nothing else is changed. -/
structure Requeued (j now : Int) (r : JobRow) (o : OutboxRow) (s s' : Store) : Prop where
  rest : s' = { s with jobs := s'.jobs, outbox := s'.outbox }
  job : ∀ k, s'.jobs.find? k = if k = j then some { r with
    status := .reportRetry
    dueAt := unixMilli now
    updatedAt := unixMilli now } else s.jobs.find? k
  outbox : ∀ k, s'.outbox.find? k = if k = j then some { o with
    status := .retry
    dueAt := unixMilli now
    updatedAt := unixMilli now } else s.outbox.find? k

section Requeue

variable {s' : Store} {j now : Int} {row : JobRow} {o : OutboxRow}

/-- One row has the id of the report. -/
theorem countP_outbox {q : OutboxRow → Bool} (hs : s.OutboxIDs) (ho : s.outbox.find? j = some o)
    (hq : q o = true) : s.outbox.rows.countP (fun row => row.id = o.id && q row) = 1 := by
  have hmem := Table.mem_of_find? ho
  have hnodup : s.outbox.rows.Nodup := List.Nodup.of_map _ s.outbox.nodup
  rw [← List.count_eq_one_of_mem hnodup hmem, List.count]
  refine List.countP_congr fun row hrow => ?_
  simp only [Bool.and_eq_true, decide_eq_true_eq, beq_iff_eq]
  constructor
  · rintro ⟨hid, -⟩
    have hrow' := Table.find?_key hrow
    rw [hs _ _ _ _ hrow' ho hid, ho] at hrow'
    exact (Option.some.inj hrow').symm
  · rintro rfl
    exact ⟨rfl, hq⟩

theorem requeued_of_ok {brokerRunID idempotencyKey : GoString} (hs : s.OutboxIDs)
    (hrow : s.jobs.find? j = some row) (ho : s.outbox.find? j = some o)
    (h : reconcileBlockedReport j brokerRunID idempotencyKey now s = .ok s') :
    Requeued j now row o s s' := by
  obtain ⟨-, -, -, r, t, o', hrecord, -, -, -, -, hr, -, -, -, -, -, hcount, rfl⟩ :=
    reconcileBlockedReport_ok.mp h
  simp only [Store.report, hrow, ho, ReportRecord.mk.injEq, Option.some.injEq] at hrecord
  obtain ⟨rfl, -, rfl⟩ := hrecord
  simp only [Bool.and_assoc] at hcount ⊢
  obtain ⟨-, hself, hother⟩ := outbox_update (fun row => { row with
    status := .retry
    dueAt := unixMilli now
    updatedAt := unixMilli now }) (fun _ => rfl) hs ho rfl hcount
  refine ⟨rfl, fun k => ?_, fun k => ?_⟩
  · dsimp only
    rw [Table.find?_updateKey, hrow, Option.map_some, if_pos (decide_eq_true hr)]
  · split
    · next hk => exact hk ▸ hself
    · next hk => exact hother k hk

end Requeue

/-- In every state the dispatcher reaches, a blocked report of a blocked job is requeued exactly
when the job has a run and still shows the error its report was blocked with. -/
theorem requeue_succeeds_iff (env : Env) (s : Store) (hs : Reachable env s) (j now : Int)
    (row : JobRow) (o : OutboxRow) (hrow : s.jobs.find? j = some row)
    (ho : s.outbox.find? j = some o) (hjob : row.status = .reportBlocked)
    (hreport : o.status = .blocked) :
    (∃ s', reconcileBlockedReport j row.brokerRunID o.idempotencyKey now s = .ok s' ∧
      Requeued j now row o s s') ↔
    row.brokerRunID ≠ [] ∧ o.lastError ≠ [] ∧ row.lastError = o.lastError := by
  have hfiled := hs.reportsFiled
  constructor
  · rintro ⟨s', h, -⟩
    obtain ⟨-, hrun, -, r, t, o', hrecord, -, -, -, -, -, -, -, -, hne, hsame, -, -⟩ :=
      reconcileBlockedReport_ok.mp h
    simp only [Store.report, hrow, ho, ReportRecord.mk.injEq, Option.some.injEq] at hrecord
    obtain ⟨rfl, -, rfl⟩ := hrecord
    exact ⟨hrun, hne, hsame⟩
  · rintro ⟨hrun, hne, hsame⟩
    obtain ⟨t, ht⟩ : ∃ t, s.terminalResults.find? j = some t := by
      refine Option.ne_none_iff_exists'.mp fun hnone => ?_
      cases ho.symm.trans ((hfiled.sound j).both.mpr hnone)
    obtain ⟨hrunID, hkey⟩ := hfiled.filed j row t o hrow ht ho
    have hkey' : o.idempotencyKey ≠ [] := by
      rw [hkey, reportKey]
      exact List.append_ne_nil_of_left_ne_nil (by decide) _
    have hunsent := (hfiled.sound j).unsent o ho (by rw [hreport]; decide)
    have hcount := countP_outbox (q := fun row => row.status = .blocked && (row.commentID = none &&
      (row.commentURL = [] && row.deliveredAt = none))) hfiled.ids ho
      (by simp [hreport, hunsent.1, hunsent.2.1, hunsent.2.2])
    simp only [← Bool.and_assoc] at hcount
    have hrecord : s.report j = ⟨some row, some t, some o⟩ := by rw [Store.report, hrow, ht, ho]
    obtain ⟨s', hok⟩ : ∃ s',
        reconcileBlockedReport j row.brokerRunID o.idempotencyKey now s = .ok s' :=
      ⟨_, reconcileBlockedReport_ok.mpr ⟨hfiled.keys.positive j row hrow, hrun, hkey', row, t, o,
        hrecord, rfl, hrunID, rfl, (hfiled.sound j).version t o ht ho, hjob, hreport, hunsent,
        hsame ▸ hne, hne, hsame, hcount, rfl⟩⟩
    exact ⟨s', hok, requeued_of_ok hfiled.ids hrow ho hok⟩

open Sample in
theorem blocked_report_requeued :
    ∃ row o s', blockedStore.jobs.find? 1 = some row ∧
      blockedStore.outbox.find? 1 = some o ∧
      reconcileBlockedReport 1 row.brokerRunID o.idempotencyKey minute blockedStore = .ok s' := by
  have hjob : blockedStore.jobs.hits 1 (fun row => row.status = .reportBlocked &&
      row.brokerRunID ≠ [] && row.lastError = lit "refused") = true := by decide +kernel
  have hreport : blockedStore.outbox.hits 1 (fun o => o.status = .blocked &&
      o.lastError = lit "refused") = true := by decide +kernel
  obtain ⟨row, hrow, hjob⟩ := Table.hits_iff.mp hjob
  obtain ⟨o, ho, hreport⟩ := Table.hits_iff.mp hreport
  simp only [Bool.and_eq_true, decide_eq_true_eq] at hjob hreport
  obtain ⟨s', h, -⟩ := (requeue_succeeds_iff env blockedStore
    (launchedStore_reachable.run _) 1 minute row o hrow ho hjob.1.1 hreport.1).mpr
    ⟨hjob.1.2, by rw [hreport.2]; decide, hjob.2.trans hreport.2.symm⟩
  exact ⟨row, o, s', hrow, ho, h⟩

open Sample in
/-- The blocked report of a launch that was never acknowledged cannot be requeued: it has no run,
and the operation wants one. -/
theorem unacknowledged_launch_not_requeued :
    Reachable env unlaunchedStore ∧
      ∃ row o, unlaunchedStore.jobs.find? 1 = some row ∧
        unlaunchedStore.outbox.find? 1 = some o ∧ row.status = .reportBlocked ∧
        o.status = .blocked ∧
        ∀ now, reconcileBlockedReport 1 row.brokerRunID o.idempotencyKey now
          unlaunchedStore =
            .error (newError "job id, broker run id, and idempotency key are required") := by
  refine ⟨Reachable.empty.run _, ?_⟩
  have hjob : unlaunchedStore.jobs.hits 1 (fun row => row.status = .reportBlocked &&
      row.brokerRunID = []) = true := by decide +kernel
  have hreport : unlaunchedStore.outbox.hits 1 (fun o => o.status = .blocked) = true := by
    decide +kernel
  obtain ⟨row, hrow, hjob⟩ := Table.hits_iff.mp hjob
  obtain ⟨o, ho, hreport⟩ := Table.hits_iff.mp hreport
  simp only [Bool.and_eq_true, decide_eq_true_eq] at hjob hreport
  refine ⟨row, o, hrow, ho, hjob.1, hreport, fun now => ?_⟩
  rw [hjob.2, reconcileBlockedReport, require, if_neg (fun h => h (.inr (.inl rfl)))]
  rfl

/-! ## Error texts -/

theorem utf8_replacement : GoString.Utf8 [0xEF, 0xBF, 0xBD] := GoString.validUTF8_iff.mp (by decide)

theorem utf8_safeBrokerError (e : GoError) : GoString.Utf8 (safeBrokerError e) := by
  unfold safeBrokerError
  dsimp only
  split
  · refine GoString.utf8_trimToValid ?_
    rw [List.length_take]
    omega
  · exact GoString.utf8_toValidUTF8 utf8_replacement

theorem length_safeBrokerError (e : GoError) : (safeBrokerError e).length ≤ 512 := by
  unfold safeBrokerError
  dsimp only
  split
  · refine (GoString.length_trimToValid _ _).trans ?_
    rw [List.length_take]
    omega
  · omega

theorem safeBrokerError_ne_nil {e : GoError} (h : e.text ≠ []) : safeBrokerError e ≠ [] := by
  have htext := GoString.toValidUTF8_ne_nil h (show [0xEF, 0xBF, 0xBD] ≠ [] by decide)
  unfold safeBrokerError
  dsimp only
  split
  · exact GoString.trimToValid_take_ne_nil (GoString.utf8_toValidUTF8 utf8_replacement) htext
      (by decide)
  · exact htext

/-! ## Evidence -/

/-- A blocked job has a result, and a blocked report without a comment that shows the same
error. -/
def ReportRecord.Evident (v : ReportRecord) : Prop :=
  ∀ r, v.row = some r → r.status = .reportBlocked → ∃ t o, v.terminal = some t ∧
    v.outbox = some o ∧ o.status = .blocked ∧ o.Unsent ∧ r.lastError = o.lastError ∧
    o.lastError ≠ []

/-- A row in another status needs no evidence. -/
theorem ReportRecord.evident_of_status {r : JobRow} {o : Option OutboxRow}
    (h : r.status ≠ .reportBlocked) : ReportRecord.Evident ⟨some r, t, o⟩ := by
  intro r1 hr1 hb
  cases hr1
  exact absurd hb h

theorem ReportRecord.Step.evident {lib : GoLib} {arrivals : Prop} {v v' : ReportRecord}
    (h : ReportRecord.Step (dispatchRules lib arrivals False (· ≠ [])) v v') (hs : v.Sound)
    (hv : v.Evident) : v'.Evident := by
  cases h with
  | @works r r' t o _ hr =>
    intro r1 hr1 hb
    cases hr1
    obtain ⟨hb', herror⟩ := hr.blocked hb
    rw [herror]
    exact hv r rfl hb'
  | arrives _ hstatus _ => exact evident_of_status (by rw [hstatus]; decide)
  | blocks h _ => exact h.elim
  | queues _ hr' | retries _ _ hr' | requeues _ _ hr' =>
    exact evident_of_status (by rw [hr'.status]; decide)
  | @delivers r r' t o o' _ _ hr' _ =>
    refine evident_of_status ?_
    rw [hr'.status]
    exact (deliveredStatus_ne t.outcome).2.2
  | @fails r r' t o o' _ hopen hr' ho' hunsent hsame herror =>
    intro r1 hr1 _
    cases hr1
    cases t with
    | none => cases hs.both.mpr rfl
    | some t =>
      exact ⟨t, o', rfl, rfl, ho'.status, hunsent (hs.unsent o rfl (OutboxRow.isOpen_ne hopen)),
        hsame, herror⟩

/-! ## Runs with an operator -/

/-- A step of the dispatcher, or of an operator who requeues a blocked report. -/
inductive OperatedInput where
  | dispatch (i : Input)
  | reconcileBlockedReport (jobID : Int) (brokerRunID idempotencyKey : GoString) (now : Int)

def OperatedInput.step (env : Env) (s : Store) : OperatedInput → Store
  | .dispatch i => i.step env s
  | .reconcileBlockedReport jobID brokerRunID idempotencyKey now =>
    match Dispatcher.reconcileBlockedReport jobID brokerRunID idempotencyKey now s with
    | .ok s' => s'
    | .error _ => s

/-- The states reached from an empty store by steps that all meet the condition `ok`. -/
inductive OperatedBy (env : Env) (ok : Store → OperatedInput → Prop) : Store → Prop where
  | empty : OperatedBy env ok Store.empty
  | step {s : Store} (i : OperatedInput) (h : OperatedBy env ok s) (hi : ok s i) :
      OperatedBy env ok (i.step env s)

/-- The escalation that a pass claims is not given up, and the errors of comments have a text. -/
def OperatedInput.KeepsEscalation (s : Store) : OperatedInput → Prop
  | .dispatch (.runOne _ now answers) =>
    (∀ report, claimCIEscalation now s = .ok (some report, s) → ∀ e,
      answers ⟨.escalation report.job.id, .comment report.job report.body report.operationKey⟩ =
        .error e → report.givesUp (isRetryable e) = false) ∧
    ∀ (u : WorkUnit) (job : Job) (body key : GoString) (e : GoError),
      answers ⟨u, .comment job body key⟩ = .error e → e.text ≠ []
  | _ => True

theorem OperatedInput.reportMoves (env : Env) (i : OperatedInput) (hids : s.OutboxIDs)
    (hi : i.KeepsEscalation s) :
    ReportMoves (dispatchRules env.lib True False (· ≠ [])) s (i.step env s) := by
  cases i with
  | dispatch i =>
    cases i with
    | process delivery now => exact process_reportMoves
    | runOne tie now answers =>
      obtain ⟨hescalation, htext⟩ := hi
      refine runOne_reportMoves hids (fun report hclaim e he hgives => ?_)
        fun u job body key e he => ⟨?_, ?_⟩
      · rw [hescalation report hclaim e he] at hgives
        cases hgives
      · exact safeBrokerError_ne_nil (htext u job body key e he)
      · exact List.append_ne_nil_of_left_ne_nil (by decide) _
  | reconcileBlockedReport jobID brokerRunID idempotencyKey now =>
    simp only [OperatedInput.step]
    split
    · next s' h => exact reconcileBlockedReport_reportMoves hids h
    · exact .refl s

/-- In every run of the dispatcher with an operator in which no escalation is given up, a job in
`report_blocked` has its terminal result and its blocked, uncommented report, with one error. -/
theorem blocked_has_evidence (env : Env) (s : Store)
    (hs : OperatedBy env OperatedInput.KeepsEscalation s) (j : Int) (row : JobRow)
    (hrow : s.jobs.find? j = some row) (hblocked : row.status = .reportBlocked) :
    ∃ t o, s.terminalResults.find? j = some t ∧ s.outbox.find? j = some o ∧
      o.status = .blocked ∧ o.commentID = none ∧ o.commentURL = [] ∧ o.deliveredAt = none ∧
      row.lastError = o.lastError ∧ o.lastError ≠ [] := by
  have hinv : s.OutboxIDs ∧ ∀ j, (s.report j).Sound ∧ (s.report j).Evident := by
    clear hrow
    induction hs with
    | empty =>
      refine ⟨fun _ _ _ _ ho => ?_, fun j => ⟨ReportRecord.sound_none none, fun r hr => ?_⟩⟩
      · cases ho
      · cases hr
    | step i _ hi ih =>
      have hmoves := i.reportMoves env ih.1 hi
      refine ⟨hmoves.ids ih.1, fun j => ?_⟩
      exact ReportRecord.Step.preserve (I := fun v => v.Sound ∧ v.Evident)
        (fun _ _ hv hstep => ⟨hstep.sound hv.1, hstep.evident hv.1 hv.2⟩) (hmoves.records j)
        (ih.2 j)
  obtain ⟨t, o, ht, ho, hstatus, ⟨hid, hurl, hat⟩, hsame, hne⟩ := (hinv.2 j).2 row hrow hblocked
  exact ⟨t, o, ht, ho, hstatus, hid, hurl, hat, hsame, hne⟩

/-- A pass in a store without escalations claims none. -/
theorem keepsEscalation_of_none {now : Int} {answers : BrokerAnswers} (hs : s.escalations.rows = [])
    (htext : ∀ (u : WorkUnit) (job : Job) (body key : GoString) (e : GoError),
      answers ⟨u, .comment job body key⟩ = .error e → e.text ≠ []) :
    OperatedInput.KeepsEscalation s (.dispatch (.runOne tie now answers)) := by
  refine ⟨fun report h => ?_, htext⟩
  simp only [claimCIEscalation, hs, List.filter_nil, pick_nil, Except.ok.injEq, Prod.mk.injEq,
    reduceCtorEq, false_and] at h

open Sample in
theorem Sample.blockedStore_operated :
    OperatedBy env OperatedInput.KeepsEscalation blockedStore := by
  have hrefused : ∀ launch projection (u : WorkUnit) (job : Job) (body key : GoString)
      (e : GoError), refusing launch projection ⟨u, .comment job body key⟩ = .error e →
      e.text ≠ [] := by
    intro launch projection u job body key e he
    cases he
    decide
  have hlaunched : OperatedBy env OperatedInput.KeepsEscalation launchedStore := by
    refine .step (.dispatch (readyPass second))
      (.step (.dispatch (deliver 1 0)) .empty trivial) (keepsEscalation_of_none ?_ ?_)
    · decide +kernel
    · intro u job body key e he
      cases he
  refine .step (.dispatch (unprojectedPass (4 * second)))
    (.step (.dispatch (unprojectedPass (3 * second))) hlaunched
      (keepsEscalation_of_none ?_ (hrefused _ _)))
    (keepsEscalation_of_none ?_ (hrefused _ _)) <;> decide +kernel

open Sample in
theorem blocked_report_has_evidence :
    ∃ row o, blockedStore.jobs.find? 1 = some row ∧ row.status = .reportBlocked ∧
      blockedStore.outbox.find? 1 = some o ∧ o.status = .blocked ∧
      row.lastError = o.lastError := by
  have hjob : blockedStore.jobs.hits 1 (fun row => row.status = .reportBlocked) = true := by
    decide +kernel
  obtain ⟨row, hrow, hblocked⟩ := Table.hits_iff.mp hjob
  obtain ⟨t, o, -, ho, hstatus, -, -, -, hsame, -⟩ := blocked_has_evidence env
    blockedStore blockedStore_operated 1 row hrow (of_decide_eq_true hblocked)
  exact ⟨row, o, hrow, of_decide_eq_true hblocked, ho, hstatus, hsame⟩

open Sample in
/-- A job whose escalation was given up is `report_blocked` without a result or a report. -/
theorem escalation_blocks_without_evidence :
    OperatedBy env (fun _ _ => True) (run env unescalatedRun .empty) ∧
      (run env unescalatedRun .empty).jobs.hits 1 (fun row => row.status = .reportBlocked) = true ∧
      (run env unescalatedRun .empty).terminalResults.rows = [] ∧
      (run env unescalatedRun .empty).outbox.rows = [] := by
  have operated : ∀ (inputs : List Input) (s : Store), OperatedBy env (fun _ _ => True) s →
      OperatedBy env (fun _ _ => True) (run env inputs s) := by
    intro inputs
    induction inputs with
    | nil => exact fun s hs => hs
    | cons i inputs ih => exact fun s hs => ih _ (.step (.dispatch i) hs trivial)
  exact ⟨operated _ _ .empty, by decide +kernel⟩

end SignalPlane.Dispatcher
