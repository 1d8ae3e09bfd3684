/-
SignalPlane.Dispatcher.View — the lifecycle of a job as the store holds it.

`Store.view` is the abstraction function: it gathers what seven tables say
about one job id. `Evolves k` is what a store operation is shown to do: it
changes the view of job `k` by lifecycle steps and no other view.
`Store.line` is the launch line of the abstract queue, and the job that
`ClaimDue` picks is first in it.
-/
import SignalPlane.Dispatcher.Lifecycle
import SignalPlane.Dispatcher.CIAttempt
import SignalPlane.Dispatcher.ExternalWait
import SignalPlane.Dispatcher.Terminal

namespace SignalPlane.Dispatcher

open Clock

variable {s : Store} {r : JobRow} {p : JobRow → Bool} {f : JobRow → JobRow}

/-! ## The view of a job -/

/-- What a wait row says. -/
def ExternalWaitRow.view (w : ExternalWaitRow) : WaitView := ⟨w.brokerRunID, w.generation, w.state⟩

/-- What the tables say about job `j`. -/
def Store.view (s : Store) (j : Int) : JobView where
  status := (s.jobs.find? j).map JobRow.status
  createdAt := ((s.jobs.find? j).map JobRow.createdAt).getD 0
  runID := ((s.jobs.find? j).map JobRow.brokerRunID).getD []
  reported := s.hasTerminal j
  outboxed := (s.outbox.find? j).isSome
  task := (s.ciTasks.find? j).map CITaskRow.state
  wait := (s.externalWaits.find? j).map ExternalWaitRow.view
  escalation := (s.escalations.find? j).map EscalationRow.state

section Row

variable {j : Int}

theorem Store.view_status (h : s.jobs.find? j = some r) : (s.view j).status = some r.status := by
  simp [Store.view, h]

theorem Store.row_of_view {status : JobStatus} (h : (s.view j).status = some status) :
    ∃ r, s.jobs.find? j = some r ∧ r.status = status := by
  simpa [Store.view] using h

theorem Store.view_runID (h : s.jobs.find? j = some r) : (s.view j).runID = r.brokerRunID := by
  simp [Store.view, h]

theorem Store.view_queued (h : s.jobs.find? j = some r) :
    (s.view j).queued ↔ r.status.isQueued = true := by
  simp [JobView.queued, Store.view_status h, JobStatus.isQueued]

theorem Store.view_polled (h : s.jobs.find? j = some r) :
    (s.view j).polled ↔ r.status = .launched ∨ r.status = .externalWaiting ∨
      (r.status = .reportPending ∧ s.hasTerminal j = false) := by
  simp [JobView.polled, Store.view, h]

/-- The rows in line are those of the queued and the polled jobs. -/
theorem Store.unfinished_iff (h : s.jobs.find? j = some r) :
    s.unfinished r = true ↔ (s.view j).queued ∨ (s.view j).polled := by
  rw [Store.view_queued h, Store.view_polled h, Store.unfinished, Table.key_of_find? h]
  cases r.status <;> simp [JobStatus.isQueued, JobStatus.isPolled]

end Row

/-! ## The launch line -/

/-- The launch line: jobs in the order of `created_at, id`. -/
def Store.line (s : Store) : Line Int (Int ×ₗ Int) where
  stage j := (s.view j).stage
  rank j := toLex ((s.view j).createdAt, j)
  rank_injective := by
    intro i j h
    exact congrArg (fun p => (ofLex p).2) h

/-- The job that `ClaimDue` looks at is first in line. -/
theorem Store.first_of_head (h : s.head = some r) : s.line.First r.id := by
  intro j hj
  have hr := List.mem_filter.mp (mem_of_pick h)
  have hrow := Table.find?_key hr.1
  obtain ⟨status, hst⟩ : ∃ status, (s.view j).status = some status := by
    rcases JobView.stage_active.mp hj with (h | h) | (h | h | ⟨h, _⟩) <;> exact ⟨_, h⟩
  obtain ⟨r', hr', _⟩ := Store.row_of_view hst
  have hmem : r' ∈ s.jobs.rows.filter s.unfinished :=
    List.mem_filter.mpr ⟨Table.mem_of_find? hr',
      (Store.unfinished_iff hr').mpr (JobView.stage_active.mp hj)⟩
  have hle := le_of_pick h hmem
  have hid : r'.id = j := Table.key_of_find? hr'
  simp only [JobRow.precedes, Bool.or_eq_true, Bool.and_eq_true, decide_eq_true_eq, hid] at hle
  simp only [Store.line, Store.view, hrow, hr', Option.map_some, Option.getD_some]
  exact Prod.Lex.toLex_le_toLex.mpr hle

theorem Store.head_row (h : s.head = some r) :
    s.jobs.find? r.id = some r ∧ ((s.view r.id).queued ∨ (s.view r.id).polled) := by
  obtain ⟨hmem, hun⟩ := List.mem_filter.mp (mem_of_pick h)
  have hrow : s.jobs.find? r.id = some r := Table.find?_key hmem
  exact ⟨hrow, (Store.unfinished_iff hrow).mp hun⟩

/-- What `ClaimDue` can do: nothing, hand out the head for a poll, or count a launch of it. -/
theorem claimDue_cases {now : Int} {s' : Store} {work : Option Work}
    (h : claimDue now s = .ok (work, s')) :
    (work = none ∧ s' = s) ∨ ∃ r, s.head = some r ∧ r.dueAt ≤ unixMilli now ∧
      (((s.view r.id).polled ∧ work = some ⟨.status, r.toJob⟩ ∧ s' = s) ∨
        ((s.view r.id).queued ∧ work = some ⟨.launch, r.toLaunchJob now⟩ ∧
          s' = s.updateJob r.id (fun r => r.status.isQueued) (fun r => r.attempted now)
            (fun _ => rfl))) := by
  unfold claimDue at h
  cases hh : s.head with
  | none =>
    simp only [hh, Except.ok.injEq, Prod.mk.injEq] at h
    exact .inl ⟨h.1.symm, h.2.symm⟩
  | some r =>
    obtain ⟨hrow, hline⟩ := Store.head_row hh
    simp only [hh] at h
    split at h
    · simp only [Except.ok.injEq, Prod.mk.injEq] at h
      exact .inl ⟨h.1.symm, h.2.symm⟩
    · next hdue =>
      refine .inr ⟨r, rfl, by omega, ?_⟩
      -- A status is not both queued and polled.
      split at h
      · next hpoll =>
        simp only [Except.ok.injEq, Prod.mk.injEq] at h
        have hq : ¬ (s.view r.id).queued := by
          rw [Store.view_queued hrow]
          revert hpoll
          cases r.status <;> simp [JobStatus.isPolled, JobStatus.isQueued]
        exact .inl ⟨hline.resolve_left hq, h.1.symm, h.2.symm⟩
      · next hpoll =>
        simp only [Except.ok.injEq, Prod.mk.injEq] at h
        have hp : ¬ (s.view r.id).polled := by
          rw [Store.view_polled hrow]
          revert hpoll
          cases r.status <;> simp [JobStatus.isPolled]
        exact .inr ⟨hline.resolve_right hp, h.1.symm, h.2.symm⟩

/-! ## What an operation does to the views -/

/-- An update of job rows that keeps status, run and creation time is not seen. -/
theorem Store.view_update {hf : ∀ r, (f r).id = r.id}
    (h : ∀ r, (f r).status = r.status ∧ (f r).createdAt = r.createdAt ∧
      (f r).brokerRunID = r.brokerRunID) :
    { s with jobs := s.jobs.update p f hf }.view = s.view := by
  funext j
  simp only [Store.view, Store.hasTerminal, Table.find?_update]
  cases s.jobs.find? j with
  | none => rfl
  | some r => by_cases hp : p r <;> simp [hp, h r]

theorem Store.view_updateJob {id : Int} {hf : ∀ r, (f r).id = r.id}
    (h : ∀ r, (f r).status = r.status ∧ (f r).createdAt = r.createdAt ∧
      (f r).brokerRunID = r.brokerRunID) : (s.updateJob id p f hf).view = s.view :=
  Store.view_update h

/-- An update of CI tasks that keeps their states is not seen. -/
theorem Store.view_updateTask {id : Int} {p : CITaskRow → Bool} {f : CITaskRow → CITaskRow}
    {hf : ∀ r, (f r).jobID = r.jobID} (h : ∀ t, (f t).state = t.state) :
    (s.updateTask id p f hf).view = s.view := by
  funext j
  simp only [Store.view, Store.hasTerminal, Store.updateTask, Table.updateKey, Table.find?_update]
  cases s.ciTasks.find? j with
  | none => rfl
  | some t =>
    simp only [Option.map_some, JobView.mk.injEq, Option.some.injEq, true_and, and_true]
    split
    · exact h t
    · rfl

/-- Only job `k` changes, by steps of its lifecycle. -/
structure Evolves (fresh front : Prop) (k : Int) (s s' : Store) : Prop where
  others : ∀ j, j ≠ k → s'.view j = s.view j
  steps : LifecycleSteps fresh front (s.view k) (s'.view k)

namespace Evolves

variable {fresh front : Prop} {k : Int} {s' s'' : Store}

theorem of_view_eq (h : s'.view = s.view) : Evolves fresh front k s s' :=
  ⟨fun j _ => congrFun h j, by rw [h]⟩

/-- One lifecycle step, with the view after it as the operation leaves it. -/
theorem of_step {v : JobView} (others : ∀ j, j ≠ k → s'.view j = s.view j)
    (hv : s'.view k = v) (h : LifecycleStep fresh front (s.view k) v) :
    Evolves fresh front k s s' :=
  ⟨others, hv ▸ .single h⟩

theorem trans (h : Evolves fresh front k s s') (h' : Evolves fresh front k s' s'') :
    Evolves fresh front k s s'' :=
  ⟨fun j hj => (h'.others j hj).trans (h.others j hj), h.steps.trans h'.steps⟩

/-- An update of the row of job `k` is the lifecycle step to the status and run it writes. -/
theorem of_updateJob {hf : ∀ r, (f r).id = r.id} (hrow : s.jobs.find? k = some r) (hp : p r = true)
    (hcreated : (f r).createdAt = r.createdAt) (h : LifecycleStep fresh front (s.view k)
      { s.view k with status := some (f r).status, runID := (f r).brokerRunID }) :
    Evolves fresh front k s (s.updateJob k p f hf) := by
  refine of_step ?_ ?_ h
  · intro j hj
    simp [Store.view, Store.updateJob, Store.hasTerminal, hj]
  · simp [Store.view, Store.updateJob, Store.hasTerminal, hrow, hp, hcreated]

end Evolves

end SignalPlane.Dispatcher
