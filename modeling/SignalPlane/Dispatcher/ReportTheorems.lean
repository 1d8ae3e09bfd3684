/-
SignalPlane.Dispatcher.ReportTheorems — a job and its outbox row agree.

The report operations are the five that write the report of a job:
`QueueTerminalResult`, `ClaimReportDue`, `MarkReportDelivered`,
`MarkReportFailure` and `ReconcileBlockedReport`. A `ReportDesk` is the store
with the reports that claims have handed out; a claimed report may be marked at
any later moment, also when it is stale. `reports_coherent` is about every
order of these operations from jobs that have no report yet.

`QueueTerminalResult` takes a result for a job in status `failed`, so a replay
of a failed result after its delivery makes the job `report_pending` again
while the outbox row stays `delivered`. The theorem therefore leaves out
results that are queued for a failed job, and `replayed_after_delivery` is such
a run.
-/
import SignalPlane.Dispatcher.Report

namespace SignalPlane.Dispatcher

open Clock

/-! ## Coherent records -/

/-- The job status that belongs to an outbox row of status `o` for the result `t`. -/
def OutboxStatus.Agrees (o : OutboxStatus) (t : TerminalResultRow) (status : JobStatus) : Prop :=
  match o with
  | .pending | .retry => status = .reportPending ∨ status = .reportRetry
  | .blocked => status = .reportBlocked
  | .delivered => status = deliveredStatus t.outcome

/-- A job without a report is launched or to be launched; with one, its status is that of the
outbox row. -/
structure ReportRecord.Coherent (v : ReportRecord) : Prop where
  unreported : ∀ r, v.row = some r → v.outbox = none →
    r.status = .launched ∨ r.status.isQueued = true
  reported : ∀ r t o, v.row = some r → v.terminal = some t → v.outbox = some o →
    o.status.Agrees t r.status

/-- Reports only, no escalations, and nothing is queued for a failed job. -/
def deskRules : ReportRules where
  elsewhere := False
  arrivals := False
  files r _ _ := r.status ≠ .failed
  blocks := False
  error _ := True

section Coherent

variable {v v' : ReportRecord}

/-- Two rows that moved together. -/
theorem coherent_of_moves {r r' : JobRow} {t : Option TerminalResultRow} {o o' : OutboxRow}
    {status : JobStatus} {outbox : OutboxStatus} (hr : r.Moves r' status) (ho : o.Moves o' outbox)
    (h : ∀ t1, t = some t1 → outbox.Agrees t1 status) :
    ReportRecord.Coherent ⟨some r', t, some o'⟩ where
  unreported _ _ hnone := by cases hnone
  reported r1 t1 o1 hr1 ht1 ho1 := by
    cases hr1
    cases ho1
    rw [hr.status, ho.status]
    exact h t1 ht1

/-- A job that takes a result has none, or one that is not delivered yet. -/
theorem ReportRecord.Coherent.isOpen {r : JobRow} {t : TerminalResultRow} {o : OutboxRow}
    (hv : ReportRecord.Coherent ⟨some r, some t, some o⟩) (hr : r.acceptsResult = true)
    (hfailed : r.status ≠ .failed) : o.isOpen = true := by
  have hagrees := hv.reported r t o rfl rfl rfl
  rw [OutboxRow.isOpen_iff]
  cases ho : o.status with
  | pending => exact .inl rfl
  | retry => exact .inr rfl
  | blocked =>
    rw [ho] at hagrees
    rw [JobRow.acceptsResult, show r.status = .reportBlocked from hagrees] at hr
    cases hr
  | delivered =>
    rw [ho] at hagrees
    have hmem := deliveredStatus_mem t.outcome
    rw [← show r.status = deliveredStatus t.outcome from hagrees] at hmem
    simp only [List.mem_cons, List.not_mem_nil, or_false, hfailed] at hmem
    rcases hmem with h | h | h | h <;> simp [JobRow.acceptsResult, h, JobStatus.isQueued] at hr

theorem ReportRecord.Step.coherent (h : ReportRecord.Step deskRules v v') (hs : v.Sound)
    (hv : v.Coherent) : v'.Coherent := by
  cases h with
  | works he | arrives he => exact he.elim
  | blocks hb _ => exact hb.elim
  | delivers hr ho hr' ho' =>
    refine coherent_of_moves hr' ho' fun t1 ht1 => ?_
    cases ht1
    rfl
  | retries _ _ hr' ho' | requeues _ _ hr' ho' =>
    exact coherent_of_moves hr' ho' fun _ _ => .inr rfl
  | fails hr ho hr' ho' _ _ _ => exact coherent_of_moves hr' ho' fun _ _ => rfl
  | @queues r r' t0 o0 t o hr hr' hstatus hunsent hversion hfailed =>
    refine ⟨fun _ _ hnone => ?_, fun r1 t1 o1 hr1 ht1 ho1 => ?_⟩
    · cases hnone
    cases hr1
    cases ht1
    cases ho1
    rw [hr'.status]
    -- The outbox row is the new one, or one that is still open.
    have hopen : (o0.getD o).isOpen = true := by
      cases o0 with
      | none => exact OutboxRow.isOpen_iff.mpr (.inl hstatus)
      | some o1 =>
        cases t0 with
        | none => cases hs.both.mpr rfl
        | some t1 => exact hv.isOpen hr hfailed
    rcases OutboxRow.isOpen_iff.mp hopen with h | h <;> rw [h] <;> exact .inl rfl

end Coherent

/-! ## The desk -/

/-- The store and the reports that claims have handed out. -/
structure ReportDesk where
  store : Store
  claimed : List Report

/-- A report operation with its arguments. -/
inductive DeskOperation where
  | queueTerminalResult (job : Job) (result : TerminalResult) (now : Int)
  | claimReportDue (now : Int)
  | markReportDelivered (report : Report) (id : Int) (url : GoString) (now : Int)
  | markReportFailure (report : Report) (retry : Bool) (safe : GoString) (now : Int)
  | reconcileBlockedReport (jobID : Int) (brokerRunID idempotencyKey : GoString) (now : Int)

/-- An operation that fails leaves the store as it was. -/
def ReportDesk.commit (d : ReportDesk) (op : Store → Except GoError Store) : ReportDesk :=
  match op d.store with
  | .ok s => { d with store := s }
  | .error _ => d

/-- The desk after an operation. Only a claimed report can be marked. -/
def ReportDesk.perform (lib : GoLib) (d : ReportDesk) : DeskOperation → ReportDesk
  | .queueTerminalResult job result now => d.commit (queueTerminalResult lib job result now)
  | .claimReportDue now =>
    match claimReportDue now d.store with
    | .ok (some report, s) => ⟨s, report :: d.claimed⟩
    | _ => d
  | .markReportDelivered report id url now =>
    if report ∈ d.claimed then d.commit (markReportDelivered report id url now) else d
  | .markReportFailure report retry safe now =>
    if report ∈ d.claimed then d.commit (markReportFailure report retry safe now) else d
  | .reconcileBlockedReport jobID brokerRunID idempotencyKey now =>
    d.commit (reconcileBlockedReport jobID brokerRunID idempotencyKey now)

def ReportDesk.run (lib : GoLib) (d : ReportDesk) (ops : List DeskOperation) : ReportDesk :=
  ops.foldl (ReportDesk.perform lib) d

/-- No result is queued for a job that has failed. -/
def DeskOperation.sparesFailed (s : Store) : DeskOperation → Bool
  | .queueTerminalResult job _ _ => !s.jobs.hits job.id (fun row => row.status = .failed)
  | _ => true

/-- Every operation of the list meets the condition when its turn comes. -/
def ReportDesk.follows (lib : GoLib) (d : ReportDesk) : List DeskOperation → Bool
  | [] => true
  | op :: ops => op.sparesFailed d.store && (d.perform lib op).follows lib ops

/-- No job has a CI task or a report, and each is launched or to be launched. -/
structure ReportDesk.Starts (d : ReportDesk) : Prop where
  claimed : d.claimed = []
  ciTasks : d.store.ciTasks.rows = []
  terminalResults : d.store.terminalResults.rows = []
  outbox : d.store.outbox.rows = []
  jobs : ∀ row ∈ d.store.jobs.rows,
    row.status = .launched ∨ row.status = .pendingLaunch ∨ row.status = .launchRetry

namespace ReportDesk

variable {lib : GoLib} {d : ReportDesk}

/-- What holds of the desk along the way. -/
structure Invariant (d : ReportDesk) : Prop where
  ids : d.store.OutboxIDs
  sound : ∀ j, (d.store.report j).Sound
  coherent : ∀ j, (d.store.report j).Coherent
  claimed : ∀ report ∈ d.claimed, report.Of d.store

theorem Starts.invariant (h : d.Starts) : d.Invariant := by
  have hnone : ∀ j, d.store.report j = ⟨d.store.jobs.find? j, none, none⟩ := fun j => by
    simp [Store.report, Table.find?, h.terminalResults, h.outbox]
  refine ⟨fun j k o o' ho => ?_, fun j => ?_, fun j => ?_, fun report hr => ?_⟩
  · simp [Table.find?, h.outbox] at ho
  · rw [hnone]
    exact ReportRecord.sound_none _
  · rw [hnone]
    refine ⟨fun r hr _ => ?_, fun _ _ _ _ ht => by cases ht⟩
    rcases h.jobs r (Table.mem_of_find? hr) with h | h | h
    · exact .inl h
    · exact .inr (by rw [h]; rfl)
    · exact .inr (by rw [h]; rfl)
  · rw [h.claimed] at hr
    cases hr

/-- A committed operation that moves reports by the rules of the desk. -/
theorem moves_of_commit {op : Store → Except GoError Store}
    (h : ∀ s', op d.store = .ok s' → ReportMoves deskRules d.store s') :
    ReportMoves deskRules d.store (d.commit op).store ∧ (d.commit op).claimed = d.claimed := by
  unfold ReportDesk.commit
  split
  · next s' hop => exact ⟨h s' hop, rfl⟩
  · exact ⟨.refl _, rfl⟩

/-- An operation moves reports by the rules, and what it hands out belongs to its job. -/
theorem perform_moves (lib : GoLib) (hd : d.Invariant) {op : DeskOperation}
    (hop : op.sparesFailed d.store = true) :
    ReportMoves deskRules d.store (d.perform lib op).store ∧
      ∀ report ∈ (d.perform lib op).claimed, report ∈ d.claimed ∨ report.Of d.store := by
  have same : ∀ {d' : ReportDesk}, ReportMoves deskRules d.store d'.store ∧ d'.claimed = d.claimed →
      ReportMoves deskRules d.store d'.store ∧
        ∀ report ∈ d'.claimed, report ∈ d.claimed ∨ report.Of d.store :=
    fun h => ⟨h.1, fun report hr => .inl (h.2 ▸ hr)⟩
  cases op with
  | queueTerminalResult job result now =>
    refine same (moves_of_commit fun s' h => ?_)
    obtain ⟨-, body, -, h⟩ := queueTerminalResult_ok.mp h
    refine storeTerminalResult_reportMoves h fun row hrow _ hfailed => ?_
    simp [DeskOperation.sparesFailed, Table.hits, hrow, hfailed] at hop
  | claimReportDue now =>
    simp only [perform]
    split
    · next report s h =>
      obtain ⟨rfl, hof⟩ := claimReportDue_of h
      refine ⟨.refl _, fun r hr => ?_⟩
      rcases List.mem_cons.mp hr with rfl | hr
      · exact .inr hof
      · exact .inl hr
    · exact same ⟨.refl _, rfl⟩
  | markReportDelivered report id url now =>
    simp only [perform]
    split
    · next hmem =>
      exact same (moves_of_commit fun s' h =>
        markReportDelivered_reportMoves hd.ids (hd.claimed report hmem) h)
    · exact same ⟨.refl _, rfl⟩
  | markReportFailure report retry safe now =>
    simp only [perform]
    split
    · next hmem =>
      exact same (moves_of_commit fun s' h =>
        markReportFailure_reportMoves hd.ids (hd.claimed report hmem) (fun _ => trivial) h)
    · exact same ⟨.refl _, rfl⟩
  | reconcileBlockedReport jobID brokerRunID idempotencyKey now =>
    exact same (moves_of_commit fun s' h => reconcileBlockedReport_reportMoves hd.ids h)

theorem Invariant.perform (hd : d.Invariant) {op : DeskOperation}
    (hop : op.sparesFailed d.store = true) : (d.perform lib op).Invariant := by
  obtain ⟨hmoves, hclaimed⟩ := perform_moves lib hd hop
  have both : ∀ j, (((d.perform lib op).store).report j).Sound ∧
      (((d.perform lib op).store).report j).Coherent := fun j =>
    ReportRecord.Step.preserve (I := fun v => v.Sound ∧ v.Coherent)
      (fun _ _ hv hstep => ⟨hstep.sound hv.1, hstep.coherent hv.1 hv.2⟩) (hmoves.records j)
      ⟨hd.sound j, hd.coherent j⟩
  refine ⟨hmoves.ids hd.ids, fun j => (both j).1, fun j => (both j).2, fun report hr => ?_⟩
  rcases hclaimed report hr with hr | hr
  · exact (hd.claimed report hr).moves hmoves
  · exact hr.moves hmoves

/-- Along a list of operations the invariant holds and what is written stays. -/
theorem run_kept (hd : d.Invariant) {ops : List DeskOperation} (hops : d.follows lib ops = true) :
    (d.run lib ops).Invariant ∧
      ∀ j, (d.store.report j).Kept ((d.run lib ops).store.report j) := by
  induction ops generalizing d with
  | nil => exact ⟨hd, fun j => .refl _⟩
  | cons op ops ih =>
    obtain ⟨hop, hops⟩ := Bool.and_eq_true_iff.mp hops
    obtain ⟨hinv, hkept⟩ := ih (hd.perform hop) hops
    have hmoves := (perform_moves lib hd hop).1
    exact ⟨hinv, fun j => (ReportRecord.kept_of_steps (hmoves.records j)).trans (hkept j)⟩

theorem follows_append {ops ops' : List DeskOperation} (h : d.follows lib (ops ++ ops') = true) :
    d.follows lib ops = true ∧ (d.run lib ops).follows lib ops' = true := by
  induction ops generalizing d with
  | nil => exact ⟨rfl, h⟩
  | cons op ops ih =>
    obtain ⟨hop, h⟩ := Bool.and_eq_true_iff.mp h
    obtain ⟨h1, h2⟩ := ih h
    exact ⟨Bool.and_eq_true_iff.mpr ⟨hop, h1⟩, h2⟩

end ReportDesk

/-! ## Every order -/

/-- What the outbox says and what the jobs say about reports is the same. -/
structure Store.ReportsCoherent (s : Store) : Prop where
  oneTerminal : ∀ t ∈ s.terminalResults.rows, ∀ t' ∈ s.terminalResults.rows,
    t.jobID = t'.jobID → t = t'
  oneOutbox : ∀ o ∈ s.outbox.rows, ∀ o' ∈ s.outbox.rows, o.jobID = o'.jobID → o = o'
  reporting : ∀ j row, s.jobs.find? j = some row →
    ((row.status = .reportPending ∨ row.status = .reportRetry) ↔
      ∃ o, s.outbox.find? j = some o ∧ (o.status = .pending ∨ o.status = .retry))
  blocked : ∀ j row, s.jobs.find? j = some row →
    (row.status = .reportBlocked ↔ ∃ o, s.outbox.find? j = some o ∧ o.status = .blocked)
  delivered : ∀ j row, s.jobs.find? j = some row →
    ((∃ t, s.terminalResults.find? j = some t ∧ row.status = deliveredStatus t.outcome) ↔
      ∃ o, s.outbox.find? j = some o ∧ o.status = .delivered)

/-- A job has no report and none of the statuses of one, or both rows of a report it agrees with. -/
theorem ReportDesk.Invariant.row {d : ReportDesk} (hd : d.Invariant) {j : Int} {row : JobRow}
    (hrow : d.store.jobs.find? j = some row) :
    (d.store.terminalResults.find? j = none ∧ d.store.outbox.find? j = none ∧
      (row.status = .launched ∨ row.status.isQueued = true)) ∨
    ∃ t o, d.store.terminalResults.find? j = some t ∧ d.store.outbox.find? j = some o ∧
      o.status.Agrees t row.status := by
  have hboth := (hd.sound j).both
  have hunreported := (hd.coherent j).unreported row hrow
  have hreported := (hd.coherent j).reported row
  simp only [Store.report] at hboth hunreported hreported
  cases ho : d.store.outbox.find? j with
  | none => exact .inl ⟨hboth.mp ho, rfl, hunreported ho⟩
  | some o =>
    cases ht : d.store.terminalResults.find? j with
    | none =>
      rw [hboth.mpr ht] at ho
      cases ho
    | some t => exact .inr ⟨t, o, rfl, rfl, hreported t o hrow ht ho⟩

theorem ReportDesk.Invariant.reportsCoherent {d : ReportDesk} (hd : d.Invariant) :
    d.store.ReportsCoherent := by
  refine ⟨fun t ht t' ht' he => ?_, fun o ho o' ho' he => ?_, fun j row hrow => ?_,
    fun j row hrow => ?_, fun j row hrow => ?_⟩
  · exact Option.mem_unique (Table.find?_key ht) (he ▸ Table.find?_key ht')
  · exact Option.mem_unique (Table.find?_key ho) (he ▸ Table.find?_key ho')
  · rcases hd.row hrow with ⟨-, ho, hstatus⟩ | ⟨t, o, -, ho, hagrees⟩
    · simp only [ho, reduceCtorEq, false_and, exists_false, iff_false, not_or]
      rcases hstatus with h | h
      · simp [h]
      · constructor <;> intro he <;> rw [he] at h <;> cases h
    · obtain ⟨hp, hr, hb⟩ := deliveredStatus_ne t.outcome
      simp only [ho, Option.some.injEq, exists_eq_left']
      cases hs : o.status <;> rw [hs] at hagrees <;> simp only [OutboxStatus.Agrees] at hagrees <;>
        simp [hagrees, hp, hr]
  · rcases hd.row hrow with ⟨-, ho, hstatus⟩ | ⟨t, o, -, ho, hagrees⟩
    · simp only [ho, reduceCtorEq, false_and, exists_false, iff_false]
      rintro he
      rw [he] at hstatus
      rcases hstatus with h | h <;> cases h
    · obtain ⟨hp, hr, hb⟩ := deliveredStatus_ne t.outcome
      simp only [ho, Option.some.injEq, exists_eq_left']
      cases hs : o.status <;> rw [hs] at hagrees <;> simp only [OutboxStatus.Agrees] at hagrees
      · rcases hagrees with h | h <;> simp [h]
      · rcases hagrees with h | h <;> simp [h]
      · simp [hagrees, hb]
      · simp [hagrees]
  · rcases hd.row hrow with ⟨ht, ho, -⟩ | ⟨t, o, ht, ho, hagrees⟩
    · simp [ht, ho]
    · obtain ⟨hp, hr, hb⟩ := deliveredStatus_ne t.outcome
      simp only [ht, ho, Option.some.injEq, exists_eq_left']
      cases hs : o.status <;> rw [hs] at hagrees <;> simp only [OutboxStatus.Agrees] at hagrees
      · rcases hagrees with h | h <;> simp [h, hp.symm, hr.symm]
      · rcases hagrees with h | h <;> simp [h, hp.symm, hr.symm]
      · simp [hagrees]
      · simp [hagrees, hb.symm]

/-- In every order of the report operations that queues no result for a failed job, jobs and
outbox agree at every moment, what is written about a report stays, and `delivered` is not left. -/
theorem reports_coherent (lib : GoLib) (d : ReportDesk) (hstart : d.Starts)
    (ops more : List DeskOperation) (hops : d.follows lib (ops ++ more) = true) :
    (d.run lib ops).store.ReportsCoherent ∧
      ∀ j, ((d.run lib ops).store.report j).Kept ((d.run lib (ops ++ more)).store.report j) := by
  obtain ⟨hpast, hfuture⟩ := ReportDesk.follows_append hops
  have hnow := (ReportDesk.run_kept hstart.invariant hpast).1
  refine ⟨hnow.reportsCoherent, fun j => ?_⟩
  have hrun : d.run lib (ops ++ more) = (d.run lib ops).run lib more := by
    simp [ReportDesk.run]
  rw [hrun]
  exact (ReportDesk.run_kept hnow hfuture).2 j

namespace Sample

/-- The result of a run that failed. -/
def failedResult : TerminalResult :=
  { version := terminalResultVersion
    runID := lit "run-1"
    profile := lit "agent"
    repo := lit "octo/repo"
    status := lit "failed"
    outcome := lit "failed"
    idempotencyKeyDigest := lit "digest"
    requestFingerprint := lit "fingerprint"
    launchConfigVersion := lit "v1"
    failureStage := lit "worker"
    failureReason := lit "exit status 1" }

/-- The launched job, before its run failed. -/
def desk : ReportDesk := ⟨launchedStore, []⟩

/-- The failed result is queued and its report claimed. -/
def claimedDesk : ReportDesk :=
  desk.run lib [.queueTerminalResult job failedResult (3 * second), .claimReportDue (4 * second)]

/-- The result is queued, and its claimed report delivered. -/
def deliveredOperations : List DeskOperation :=
  [.queueTerminalResult job failedResult (3 * second), .claimReportDue (4 * second)] ++
    claimedDesk.claimed.map fun report =>
      .markReportDelivered report 1 (lit "https://github.com/c/1") (5 * second)

/-- The same result is queued once more after the delivery. -/
def replayedStore : Store :=
  (desk.run lib
    (deliveredOperations ++ [.queueTerminalResult job failedResult (6 * second)])).store

theorem desk_starts : desk.Starts := by
  refine ⟨rfl, ?_, ?_, ?_, ?_⟩ <;> decide +kernel

end Sample

open Sample in
theorem delivered_report_coherent :
    (desk.run lib deliveredOperations).store.ReportsCoherent ∧
      (desk.run lib deliveredOperations).store.outbox.hits 1
        (fun o => o.status = .delivered) = true :=
  ⟨(reports_coherent lib desk desk_starts deliveredOperations []
    (by decide +kernel)).1, by decide +kernel⟩

open Sample in
/-- The replay of a failed result after its delivery: the job is `report_pending`, the outbox row
`delivered`. -/
theorem replayed_after_delivery :
    desk.Starts ∧ ¬ replayedStore.ReportsCoherent := by
  refine ⟨desk_starts, fun h => ?_⟩
  have hjob : replayedStore.jobs.hits 1 (fun row => row.status = .reportPending) = true := by
    decide +kernel
  have houtbox : replayedStore.outbox.hits 1 (fun o => o.status = .delivered) = true := by
    decide +kernel
  obtain ⟨row, hrow, hpending⟩ := Table.hits_iff.mp hjob
  obtain ⟨o, ho, hdelivered⟩ := Table.hits_iff.mp houtbox
  obtain ⟨o', ho', hopen⟩ := (h.reporting 1 row hrow).mp (.inl (of_decide_eq_true hpending))
  cases ho.symm.trans ho'
  rw [of_decide_eq_true hdelivered] at hopen
  rcases hopen with h | h <;> cases h

end SignalPlane.Dispatcher
