/-
SignalPlane.Dispatcher.Pass — one pass of the worker, while signals arrive.

Between two transactions of a pass deliveries commit theirs, and the pass may
stop at any point. `PassStep` is what one of its transactions does: it spares
reports and escalations, or it is one of the five operations on them, for the
row the pass has claimed. What was known at the claim still holds at the
transaction, because deliveries do not take it away.

`runOne_passes` is the one walk through the control flow: a pass honours
`passContract`. Results about every moment of a pass, about what it asks and
about an uninterrupted run are case analyses on `PassStep`.
-/
import SignalPlane.Dispatcher.Report

namespace SignalPlane.Dispatcher

open Clock
open Workflow

/-! ## What a pass knows about a job -/

/-- The row of the job has the key and the run the caller knows. -/
def Store.Knows (s : Store) (job : Job) : Prop :=
  ∃ row, s.jobs.find? job.id = some row ∧ row.semanticKey = job.semanticKey ∧
    row.brokerRunID = job.brokerRunID

/-- It is also past its launch, so that nothing changes its run any more. -/
def Store.Launched (s : Store) (job : Job) : Prop :=
  ∃ row, s.jobs.find? job.id = some row ∧ row.semanticKey = job.semanticKey ∧
    row.brokerRunID = job.brokerRunID ∧ row.status.isQueued = false

section Knowledge

variable {job : Job} {lib : GoLib} {s s' : Store}

theorem Store.Launched.knows (h : s.Launched job) : s.Knows job := by
  obtain ⟨row, hrow, hkey, hrun, -⟩ := h
  exact ⟨row, hrow, hkey, hrun⟩

theorem DeliveryTransaction.knows (h : DeliveryTransaction lib s s') (hk : s.Knows job) :
    s'.Knows job := by
  obtain ⟨row, hrow, hkey, hrun⟩ := hk
  obtain ⟨row', hrow', hkey', hrun', -⟩ := h.job_row hrow
  exact ⟨row', hrow', hkey'.trans hkey, hrun'.trans hrun⟩

theorem DeliveryTransaction.launched (h : DeliveryTransaction lib s s') (hk : s.Launched job) :
    s'.Launched job := by
  obtain ⟨row, hrow, hkey, hrun, hq⟩ := hk
  obtain ⟨row', hrow', hkey', hrun', hstatus⟩ := h.job_row hrow
  exact ⟨row', hrow', hkey'.trans hkey, hrun'.trans hrun, hstatus ▸ hq⟩

theorem DeliveryTransaction.reportOf {report : Report} (h : DeliveryTransaction lib s s')
    (hof : report.Of s) : report.Of s' := by
  have houtbox : s'.outbox = s.outbox := by
    rcases h.spares with h | ⟨row, h⟩ <;> exact h.outbox
  rwa [Report.Of, houtbox]

theorem Spares.launched (h : Spares s s') (hk : s.Launched job) : s'.Launched job := by
  obtain ⟨row, hrow, hkey, hrun, hq⟩ := hk
  have hj := h.jobs job.id
  rw [hrow] at hj
  generalize hrow' : s'.jobs.find? job.id = row' at hj
  cases hj with
  | some hr =>
    refine ⟨_, hrow', hr.semanticKey.trans hkey, ?_, ?_⟩
    · rcases hr.run with h | h
      · exact h.trans hrun
      · rw [hq] at h
        cases h
    · by_contra h
      rw [hr.queued (by simpa using h)] at hq
      cases hq

end Knowledge

/-! ## Transactions -/

/-- A transaction of a pass at `now`. Broker answers are in `answers`, and escalations that the pass
claims in `claimed`. -/
inductive PassStep (env : Env) (now : Int) (answers : (q : Request) → q.Answer → Prop)
    (claimed : CIEscalationReport → Prop) (s s' : Store) : Prop where
  | spares (h : Spares s s')
      (hmoves : s.Keyed → (∀ j, Accounted env.policy.1.maxAttempts (s.account j)) →
        ∃ j, Moves env.policy.1.maxAttempts j s s')
  | queues {job : Job} (status : JobStatus) {r : TerminalResult} (hu : Uncommitted job.id s)
      (hk : s.Knows job)
      (h : queueTerminalResult env.lib { job with status := status } r now s = .ok s')
  | delivers {report : Report} {id : Int} {url : GoString} (hof : report.Of s)
      (h : markReportDelivered report id url now s = .ok s')
  | fails {report : Report} {e : GoError} {retry : Bool} {safe : GoString} (hof : report.Of s)
      (hanswer : answers ⟨.report report.jobID, .comment report.job report.body
        report.idempotencyKey⟩ (.error e))
      (hsafe : safe = safeBrokerError e ∨
        safe = lit "terminal issue comment delivery retry limit exhausted: " ++ safeBrokerError e)
      (h : markReportFailure report retry safe now s = .ok s')
  | escalates {report : CIEscalationReport} {result : CommentResult}
      (hj : (s.jobs.find? report.job.id).isSome = true)
      (h : markCIEscalationDelivered env.lib report result now s = .ok s')
  | givesUp {report : CIEscalationReport} {e : GoError} (hclaimed : claimed report)
      (hj : (s.jobs.find? report.job.id).isSome = true)
      (hanswer : answers ⟨.escalation report.job.id, .comment report.job report.body
        report.operationKey⟩ (.error e))
      (h : markCIEscalationFailure report (isRetryable e) (safeBrokerError e) now s = .ok s')

/-- The call for escalation `j` carries the key and the body of its row, which is pending. -/
def Store.Escalates (s : Store) (j : Int) (q : Request) : Prop :=
  ∃ o job, s.escalations.find? j = some o ∧ o.state = .pending ∧
    q.call = .comment job o.body o.operationKey

section Pass

variable {env : Env} {now : Int} {answers : (q : Request) → q.Answer → Prop}
  {claimed : CIEscalationReport → Prop} {s s' : Store}

theorem PassStep.refl (s : Store) : PassStep env now answers claimed s s :=
  .spares (.refl s) fun _ _ => ⟨0, .of_tables rfl rfl rfl rfl⟩

theorem PassStep.of_follows {due : Int} (h : Follows due s s') :
    PassStep env now answers claimed s s' :=
  .spares h.spares fun _ _ => ⟨0, h.moves 0⟩

/-- A pass, with deliveries in between. -/
def passContract (env : Env) (now : Int) (answers : (q : Request) → q.Answer → Prop)
    (claimed : CIEscalationReport → Prop) : Contract Store Request Request.Answer where
  rely := DeliveryTransaction env.lib
  guarantee := PassStep env now answers claimed
  inv _ := True
  asks q s := ∀ j, q.unit = .escalation j → s.Escalates j q
  answers := answers
  kept _ _ := trivial
  unchanged := .refl

/-- Started in `s`, the program is part of a pass. -/
abbrev PassSteps (env : Env) (now : Int) (answers : (q : Request) → q.Answer → Prop)
    (claimed : CIEscalationReport → Prop) {α : Type} (p : Dispatch α) (s : Store) : Prop :=
  Honours (passContract env now answers claimed) p s fun _ _ => True

/-! ## Rules -/

section Rules

variable {op : Store → Except GoError Store} {α β : Type} {K : Store → Prop}

/-- The transaction at the end of a pass. -/
theorem passes_worked (hothers : ∀ s s', DeliveryTransaction env.lib s s' → K s → K s') (hK : K s)
    (hop : ∀ s s', K s → op s = .ok s' → PassStep env now answers claimed s s') :
    PassSteps env now answers claimed (commit op >>= fun r => pure (worked r)) s :=
  honours_commit
    (fun s1 s' hs1 _ h => ⟨trivial, hop s1 s' (stable hothers hK hs1) h, honours_done⟩)
    fun _ _ _ _ _ => honours_done

theorem passes_claim {op : Store → Except GoError (β × Store)} {k : Except GoError β → Dispatch α}
    (hop : ∀ s b s', op s = .ok (b, s') → PassStep env now answers claimed s s' ∧
      PassSteps env now answers claimed (k (.ok b)) s')
    (herr : ∀ e s, PassSteps env now answers claimed (k (.error e)) s) :
    PassSteps env now answers claimed (atomic op >>= k) s :=
  honours_atomic (fun s1 b s' _ _ h => ⟨trivial, hop s1 b s' h⟩) fun s1 e _ _ _ => herr e s1

theorem passes_request {q : Request} {k : q.Answer → Dispatch α} (hq : q.Unescalating)
    (h : ∀ a, answers q a → PassSteps env now answers claimed (k a) s) :
    PassSteps env now answers claimed (request q >>= k) s :=
  honours_request (fun _ _ _ j hj => absurd hj (hq j)) h

end Rules

/-! ## The parts of a pass -/

theorem JobEnd.passStep {job : Job} (h : JobEnd env now job s s') (hu : Uncommitted job.id s)
    (hk : s.Knows job) : PassStep env now answers claimed s s' := by
  cases h with
  | writes h => exact .spares h.spares fun _ _ => ⟨_, h.work.moves hu⟩
  | queues status h => exact .queues status hu hk h
  | begins status h =>
    have hu' : Uncommitted ({ job with status := status } : Job).id s := hu
    exact .spares (beginCIWait_spares h) fun _ _ => ⟨_, beginCIWait_moves hu' h⟩

theorem runStatus_passes {job : Job} (hu : Uncommitted job.id s) (hk : s.Launched job) :
    PassSteps env now answers claimed (runStatus env job now) s :=
  Conforms.honours (K := fun s => Uncommitted job.id s ∧ s.Launched job) runStatus_worksOn ⟨hu, hk⟩
    (fun _ _ hq j hj => absurd hj (hq j))
    (fun _ _ h => ⟨fun hK => ⟨h.uncommitted hK.1, h.launched hK.2⟩, id⟩) (fun _ _ => trivial)
    (fun _ _ _ hK h => h.elim fun _ h => ⟨trivial, JobEnd.passStep (.writes h) hK.1 hK.2.knows,
      h.work.uncommitted hK.1, h.spares.launched hK.2⟩)
    fun _ _ _ hK h => ⟨trivial, h.passStep hK.1 hK.2.knows, trivial⟩

theorem runLaunch_passes {job : Job} (hu : Uncommitted job.id s) (hk : s.Knows job) :
    PassSteps env now answers claimed (runLaunch env job now) s :=
  Conforms.honours (K := fun s => Uncommitted job.id s ∧ s.Knows job) runLaunch_worksOn ⟨hu, hk⟩
    (fun _ _ hq j hj => absurd hj (hq j))
    (fun _ _ h => ⟨fun hK => ⟨h.uncommitted hK.1, h.knows hK.2⟩, id⟩) (fun _ _ => trivial)
    (fun _ _ _ _ h => h.elim) fun _ _ _ hK h => ⟨trivial, h.passStep hK.1 hK.2, trivial⟩

theorem runJob_passes : PassSteps env now answers claimed (runJob env now) s := by
  unfold runJob
  refine passes_claim (fun s1 work s2 h => ?_) fun _ _ => honours_done
  refine ⟨.spares (claimDue_spares h) fun _ _ => ⟨0, claimDue_moves h 0⟩, ?_⟩
  cases work with
  | none => exact honours_done
  | some work =>
    have hu := claimDue_uncommitted h
    obtain ⟨hnone, -⟩ | ⟨r, hhead, -, ⟨hpolled, hwork, rfl⟩ | ⟨-, hwork, rfl⟩⟩ := claimDue_cases h
    · cases hnone
    · -- A polled job is past its launch.
      cases hwork
      have hrow := (Store.head_row hhead).1
      have hk : s2.Launched r.toJob := by
        refine ⟨r, hrow, rfl, rfl, ?_⟩
        rcases (Store.view_polled hrow).mp hpolled with h | h | ⟨h, -⟩ <;> rw [h] <;> rfl
      dsimp only
      split
      · exact passes_worked (K := Uncommitted r.id) (fun _ _ h => h.uncommitted) hu fun _ _ hu h =>
          have hwrites := deferReportPending_writes h
          .spares hwrites.spares fun _ _ => ⟨_, hwrites.work.moves hu⟩
      · exact runStatus_passes hu hk
    · cases hwork
      refine runLaunch_passes hu ?_
      have hself := s1.jobs.find?_updateKey_self r.id (fun r => r.status.isQueued)
        (fun r => r.attempted now) (fun _ => rfl)
      rw [(Store.head_row hhead).1, Option.map_some] at hself
      refine ⟨_, hself, ?_, ?_⟩ <;> split <;> rfl

theorem runReport_passes {report : Report} (hof : report.Of s) :
    PassSteps env now answers claimed (runReport report now) s := by
  unfold runReport
  refine passes_request (fun j => by simp) fun answer hanswer => ?_
  split
  · exact passes_worked (fun _ _ h => h.reportOf) hof fun _ _ hof h => .delivers hof h
  · refine passes_worked (fun _ _ h => h.reportOf) hof fun _ _ hof h =>
      .fails hof hanswer ?_ h
    split
    · exact .inr rfl
    · exact .inl rfl

theorem runReportOrJob_passes : PassSteps env now answers claimed (runReportOrJob env now) s := by
  unfold runReportOrJob
  split
  · refine passes_claim (fun s1 report s2 h => ?_) fun _ _ => honours_done
    obtain rfl := claimReportDue_store h
    refine ⟨.refl _, ?_⟩
    cases report with
    | none => exact runJob_passes
    | some report => exact runReport_passes (claimReportDue_of h).2
  · exact runJob_passes

theorem runReconciliation_passes {work : CIReconciliation} (hw : TaskWaits work.task.jobID s) :
    PassSteps env now answers claimed (runReconciliation env work now) s := by
  unfold runReconciliation
  refine passes_request (fun j => by simp) fun answer _ => ?_
  split
  · exact passes_worked (fun _ _ h => h.waiting) hw fun _ _ hw h =>
      .spares (failCIReconciliation_writes False.elim h).spares fun _ hv =>
        ⟨_, failCIReconciliation_moves (hv _) hw h⟩
  · exact passes_worked (fun _ _ h => h.waiting) hw fun _ _ hw h =>
      .spares (applyCIObservation_writes h).spares fun hkeyed hv =>
        ⟨_, applyCIObservation_moves hkeyed (hv _) hw h⟩

/-- The end of an attempt in hand. -/
theorem PassStep.finishes {attempt : CIRepairAttempt} {state : AttemptState}
    {failureClass detail : GoString} {modelStarted : Bool} (ha : Attending attempt state s)
    (hopen : state = .ready ∨ state = .running)
    (h : finishCIRepairFailure env.lib env.policy.1 attempt failureClass modelStarted detail
      env.policy.1.maxAttempts now s = .ok s') : PassStep env now answers claimed s s' :=
  .spares (finishCIRepairFailure_writes h).spares fun _ hv =>
    ⟨_, finishCIRepairFailure_moves ha hopen (hv _) h⟩

theorem runRepairLaunch_passes {task : CIRepairTask} {attempt : CIRepairAttempt}
    (ha : Attending attempt .ready s) :
    PassSteps env now answers claimed (runRepairLaunch env task attempt now) s := by
  unfold runRepairLaunch
  refine passes_request (fun j => by simp) fun answer _ => ?_
  split
  · exact passes_worked (fun _ _ h => h.attending) ha fun _ _ ha h =>
      .spares (bindCIRepairRun_writes h).spares fun _ hv =>
        ⟨_, bindCIRepairRun_moves ha (.inl rfl) (hv _) h⟩
  · split
    · exact passes_worked (fun _ _ h => h.attending) ha fun _ _ _ h =>
        .of_follows (deferAttempt_follows h)
    · exact passes_worked (fun _ _ h => h.attending) ha fun _ _ ha h => .finishes ha (.inl rfl) h

theorem RepairStep.passStep {attempt : CIRepairAttempt} (h : RepairStep now attempt s s')
    (ha : Attending attempt .running s) :
    PassStep env now answers claimed s s' ∧ Attending attempt .running s' := by
  cases h with
  | none h =>
    subst h
    exact ⟨.refl _, ha⟩
  | waits h =>
    have hfollows := recordCIRepairExternalWait_follows 0 h
    exact ⟨.of_follows hfollows, hfollows.attending ha⟩
  | resumes h =>
    have hfollows := markCIRepairExternalResumed_follows h
    exact ⟨.of_follows hfollows, hfollows.attending ha⟩
  | charges h =>
    exact ⟨.spares (chargeCIRepairAttempt_writes h).spares fun _ hv =>
      ⟨_, chargeCIRepairAttempt_moves ha (hv _) h⟩, chargeCIRepairAttempt_attends ha h⟩

theorem RepairEnd.passStep {attempt : CIRepairAttempt} (h : RepairEnd env now attempt s s')
    (ha : Attending attempt .running s) : PassStep env now answers claimed s s' := by
  cases h with
  | step h => exact (h.passStep ha).1
  | defers _ h => exact .of_follows (deferAttempt_follows h)
  | schedules h => exact .of_follows (scheduleCIRepairStatus_follows h)
  | finishes h => exact .finishes ha (.inr rfl) h
  | completes h =>
    exact .spares (completeCIRepairDelivery_writes False.elim h).spares fun _ hv =>
      ⟨_, completeCIRepairDelivery_moves ha (hv _) h⟩

theorem runCIRepairStatus_passes {task : CIRepairTask} {attempt : CIRepairAttempt}
    (ha : Attending attempt .running s) :
    PassSteps env now answers claimed (runCIRepairStatus env task attempt now) s := by
  refine Conforms.honours (runCIRepairStatus_repairs task) ha (fun q _ hq j hj => ?_)
    (fun _ _ h => ⟨h.attending, id⟩) (fun _ _ => trivial)
    (fun _ _ _ ha h => ⟨trivial, h.passStep ha⟩) fun _ _ _ ha h => ⟨trivial, h.passStep ha, trivial⟩
  cases hq.1.symm.trans hj

theorem runCIOrRest_passes {tie : Nat} :
    PassSteps env now answers claimed (runCIOrRest env tie now) s := by
  unfold runCIOrRest
  split
  · refine passes_claim (fun s1 work s2 h => ?_) fun _ _ => honours_done
    refine ⟨.spares (claimCIReconciliation_spares h) fun _ _ =>
      ⟨0, claimCIReconciliation_moves 0 h⟩, ?_⟩
    cases work with
    | some work => exact runReconciliation_passes (claimCIReconciliation_waits h)
    | none =>
      refine passes_claim (fun s1 work s2 h => ?_) fun _ _ => honours_done
      refine ⟨.of_follows (claimCIRepair_follows 0 h), ?_⟩
      cases work with
      | some work => exact runRepairLaunch_passes (claimCIRepair_attends h)
      | none =>
        refine passes_claim (fun s1 work s2 h => ?_) fun _ _ => honours_done
        refine ⟨.of_follows (claimCIRepairStatus_follows h), ?_⟩
        cases work with
        | some work => exact runCIRepairStatus_passes (claimCIRepairStatus_attends h)
        | none => exact runReportOrJob_passes
  · exact runReportOrJob_passes

/-- The claimed escalation is a pending row, and carries its key and body. -/
theorem claimCIEscalation_row {report : CIEscalationReport}
    (h : claimCIEscalation now s = .ok (some report, s')) :
    s' = s ∧ ∃ o, s.escalations.find? report.job.id = some o ∧ o.state = .pending ∧
      o.operationKey = report.operationKey ∧ o.body = report.body := by
  unfold claimCIEscalation at h
  dsimp only at h
  split at h
  · cases h
  · next o hpick =>
    have hdue := mem_of_pick hpick
    simp only [List.mem_filter, Bool.and_eq_true, decide_eq_true_eq] at hdue
    split at h
    · cases h
    · next j hj =>
      cases h
      have hid : j.id = o.jobID := Table.key_of_find? hj
      have hrow : s.escalations.find? j.id = some o := hid ▸ Table.find?_key hdue.1
      exact ⟨rfl, o, hrow, hdue.2.1.1, rfl, rfl⟩

theorem runEscalation_passes {report : CIEscalationReport}
    (h : claimCIEscalation now s' = .ok (some report, s)) (hclaimed : claimed report) :
    PassSteps env now answers claimed (runEscalation env report now) s := by
  have hjob := claimCIEscalation_job h
  obtain ⟨rfl, o, ho, hpending, hkey, hbody⟩ := claimCIEscalation_row h
  unfold runEscalation
  refine honours_request (fun s1 hs1 _ j hj => ?_) fun answer hanswer => ?_
  · -- Signals that arrive do not touch the escalations.
    cases hj
    have hrow : s1.escalations.find? report.job.id = some o :=
      stable (K := fun s => s.escalations.find? report.job.id = some o)
        (fun _ _ h ho => by rw [h.escalations]; exact ho) ho hs1
    exact ⟨o, report.job, hrow, hpending, by rw [hkey, hbody]⟩
  · split
    · exact passes_worked (fun _ _ h => h.job_isSome) hjob fun _ _ hj h => .escalates hj h
    · exact passes_worked (fun _ _ h => h.job_isSome) hjob fun _ _ hj h =>
        .givesUp hclaimed hj hanswer h

/-- Every pass is made of these transactions. -/
theorem runOne_passes {tie : Nat} :
    PassSteps env now answers (fun _ => True) (runOne env tie now) s := by
  unfold runOne
  split
  · refine passes_claim (fun s1 report s2 h => ?_) fun _ _ => honours_done
    have hstore := claimCIEscalation_store h
    refine ⟨hstore ▸ .refl _, ?_⟩
    cases report with
    | some report => exact runEscalation_passes h trivial
    | none => exact runCIOrRest_passes
  · exact runCIOrRest_passes

end Pass

end SignalPlane.Dispatcher
