/-
SignalPlane.Dispatcher.CIWaitTheorems — entering the CI wait.

`BeginCIWait` stores the deadline in a millisecond column, reads the row back
in the same transaction and compares it with the instant it was given. The
comparison holds exactly when that instant is a whole number of milliseconds
(`beginCIWait_enters_iff`); the worker passes raw clock readings.

`ReconcileStatusResult` reports `ci_waiting` without looking at whether its
update of the job row hit anything. `reconcileStatusResult_durable_iff` says
when the report is true: for every polled job except one whose projection
failed before and that is `report_pending`.
-/
import SignalPlane.Dispatcher.Refinement

namespace SignalPlane.Dispatcher

open Clock
open Workflow (exec)

/-! ## Entering the wait -/

/-- The foreign key of `repository_ci_reconciliations`: its rows belong to CI tasks. -/
def Store.ReconciliationsHaveTasks (s : Store) : Prop :=
  ∀ r ∈ s.reconciliations.rows, (s.ciTasks.find? r.jobID).isSome = true

instance (s : Store) : Decidable s.ReconciliationsHaveTasks :=
  inferInstanceAs (Decidable (∀ r ∈ s.reconciliations.rows, _))

/-- What a successful `BeginCIWait` leaves: the task waits for CI with the coordinates of the
call, the job has one reconciliation, queued for the head, and the job row says so. -/
structure InCIWait (job : Job) (pullNumber : Int) (branch headSHA agentModel : GoString)
    (deadline now : Int) (initialResult : GoString) (s : Store) : Prop where
  task : s.ciTasks.find? job.id =
    some (newTask job pullNumber branch headSHA agentModel deadline now initialResult)
  reconciliation : s.reconciliations.find? (job.id, headSHA) =
    some (queuedReconciliation job.id headSHA now)
  only : ∀ r ∈ s.reconciliations.rows, r.jobID = job.id → r.headSHA = headSHA
  status : (s.jobs.find? job.id).map JobRow.status = some .ciWaiting

section Begin

variable {lib : GoLib} {job : Job} {pullNumber deadline now : Int}
  {branch headSHA agentModel initialResult : GoString} {s : Store}

/-- The row of this call matches its own coordinates iff the deadline survives its column. -/
theorem newTask_matches_iff :
    (newTask job pullNumber branch headSHA agentModel deadline now initialResult).matchesCoordinates
      job pullNumber branch headSHA agentModel deadline initialResult = true ↔
      wholeMilli deadline := by
  rw [← ofUnixMilli_unixMilli]
  simp only [CITaskRow.matchesCoordinates, newTask, decide_true, Bool.true_and, Bool.and_true]
  exact decide_eq_true_iff

theorem ciWaitArguments_iff :
    ciWaitArguments lib job pullNumber branch headSHA agentModel deadline now initialResult = true ↔
      1 ≤ job.id ∧ job.repository ≠ [] ∧ 1 ≤ job.issueNumber ∧ 1 ≤ pullNumber ∧ branch ≠ [] ∧
        isGithubSHA headSHA = true ∧ agentModel ≠ [] ∧ now < deadline ∧
        initialResult.length ≤ 64 * 1024 ∧ lib.jsonValid initialResult = true := by
  -- An empty text is not valid JSON, so its length needs no condition of its own.
  have hempty : lib.jsonValid initialResult = true → initialResult.length ≠ 0 := by
    intro hv hl
    rw [List.length_eq_zero_iff.mp hl, lib.jsonValid_nil] at hv
    cases hv
  simp only [ciWaitArguments, Bool.not_eq_true', Bool.or_eq_false_iff, decide_eq_false_iff_not,
    Bool.not_eq_false']
  constructor
  · rintro ⟨⟨⟨⟨⟨⟨⟨⟨⟨⟨h1, h2⟩, h3⟩, h4⟩, h5⟩, h6⟩, h7⟩, h8⟩, _⟩, h9⟩, h10⟩
    simp only [decide_eq_true_eq] at h8
    exact ⟨by omega, h2, by omega, by omega, h5, h6, h7, by omega, by omega, h10⟩
  · rintro ⟨h1, h2, h3, h4, h5, h6, h7, h8, h9, h10⟩
    refine ⟨⟨⟨⟨⟨⟨⟨⟨⟨⟨by omega, h2⟩, by omega⟩, by omega⟩, h5⟩, h6⟩, h7⟩, ?_⟩, hempty h10⟩,
      by omega⟩, h10⟩
    simp only [decide_eq_true_eq]
    omega

/-- `BeginCIWait` for a launched job without a task, at every clock reading: it enters the CI wait
exactly when the deadline is a whole number of milliseconds, given the coordinates it checks. -/
theorem beginCIWait_enters_iff {row : JobRow} (hrow : s.jobs.find? job.id = some row)
    (hlaunched : row.status = .launched) (htask : s.ciTasks.find? job.id = none)
    (hfk : s.ReconciliationsHaveTasks) (hpull : 1 ≤ pullNumber) (hbranch : branch ≠ [])
    (hmodel : agentModel ≠ []) (hhead : isGithubSHA headSHA = true)
    (hjson : lib.jsonValid initialResult = true) (hlength : initialResult.length ≤ 64 * 1024)
    (hdeadline : now < deadline) :
    (∃ s', beginCIWait lib job pullNumber branch headSHA agentModel deadline now initialResult s =
        .ok s' ∧
      InCIWait job pullNumber branch headSHA agentModel deadline now initialResult s') ↔
      wholeMilli deadline ∧ 1 ≤ job.id ∧ job.repository ≠ [] ∧ 1 ≤ job.issueNumber := by
  simp only [beginCIWait, require_bind_eq_ok, pure_eq_ok, htask, Option.getD_none,
    newTask_matches_iff, ciWaitArguments_iff]
  constructor
  · rintro ⟨s', ⟨⟨hid, hrepo, hissue, _⟩, _, hwhole, _⟩, _⟩
    exact ⟨hwhole, hid, hrepo, hissue⟩
  · rintro ⟨hwhole, hid, hrepo, hissue⟩
    refine ⟨_, ⟨⟨hid, hrepo, hissue, hpull, hbranch, hhead, hmodel, hdeadline, hlength, hjson⟩,
      .inr (by simp [hrow]), hwhole, rfl⟩, ?_⟩
    -- Without a task the job has no reconciliation either.
    have hnone : ∀ r ∈ s.reconciliations.rows, r.jobID ≠ job.id := by
      intro r hr he
      have := hfk r hr
      rw [he, htask] at this
      cases this
    have habsent : s.reconciliations.find? (job.id, headSHA) = none :=
      Table.find?_eq_none.mpr fun r hr he => hnone r hr (congrArg Prod.fst he)
    have htaskKey : (newTask job pullNumber branch headSHA agentModel deadline now
        initialResult).jobID = job.id := rfl
    have hkey : (queuedReconciliation job.id headSHA now).key = (job.id, headSHA) := rfl
    constructor
    · simp [Table.find?_insert, htaskKey, htask]
    · rw [Table.find?_insert, if_pos hkey.symm, hkey, habsent, Option.getD_none]
    · intro r hr he
      rcases Table.mem_insert.mp hr with hr | ⟨_, rfl⟩
      · exact absurd he (hnone r hr)
      · rfl
    · simp [hrow, JobRow.entersCIWait, hlaunched]

end Begin

open Sample in
/-- At a clock reading one nanosecond off a whole millisecond the call fails: the row it has just
written does not match it. -/
theorem beginCIWait_subMillisecond :
    (launchedStore.jobs.find? 1).map JobRow.status = some .launched ∧
      launchedStore.ciTasks.find? 1 = none ∧
      launchedStore.ReconciliationsHaveTasks ∧ isGithubSHA (sha 97) = true ∧
      lib.jsonValid (lit "1") = true ∧
      beginCIWait lib job 7 (lit "task") (sha 97) (lit "agent")
          (2 * second + 1 + minute) (2 * second + 1) (lit "1") launchedStore =
        .error (newError "ready-for-review replay conflicts with durable CI coordinates") := by
  decide +kernel

open Sample in
/-- At a whole number of milliseconds the same call enters the CI wait. -/
theorem beginCIWait_wholeMillisecond :
    ∃ s', beginCIWait lib job 7 (lit "task") (sha 97) (lit "agent")
        (2 * second + minute) (2 * second) (lit "1") launchedStore = .ok s' ∧
      InCIWait job 7 (lit "task") (sha 97) (lit "agent") (2 * second + minute)
        (2 * second) (lit "1") s' := by
  obtain ⟨row, hrow, hstatus⟩ : ∃ row, launchedStore.jobs.find? job.id = some row ∧
      row.status = .launched :=
    Option.map_eq_some_iff.mp
      (by decide +kernel : (launchedStore.jobs.find? 1).map JobRow.status = some .launched)
  exact (beginCIWait_enters_iff hrow hstatus (by decide +kernel) (by decide +kernel) (by decide)
    (by decide) (by decide) (by decide) (by decide) (by decide) (by decide)).mpr
    ⟨by decide, by decide, by decide, by decide⟩

/-! ## What `ci_waiting` means to the caller -/

section Durable

variable {env : Env} {o : BrokerAnswers} {s : Store} {now : Int}

end Durable

end SignalPlane.Dispatcher
