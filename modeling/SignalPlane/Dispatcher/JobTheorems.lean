/-
SignalPlane.Dispatcher.JobTheorems — what holds of the jobs in every run.

Single flight: as long as the creation times follow the job ids, at most one
job is in flight, and a launch is asked for only when no earlier job is queued
or in flight. The store has no lock for this; it follows from the order in
which `ClaimDue` picks jobs, through the general result about lines in
`SignalPlane.Lib.SingleFlight`. Every transaction of a pass serves one job of
the line, and every delivery leaves the line alone or adds a job at its end.

External waits: a waiting job has a wait of its run that a wake can still make
ready, provided that no pass meets a status that reports a generation the wait
has already resumed. Such a replay puts the job back to `external_waiting` and
leaves the wait `resumed`, where no later event finds it.
-/
import SignalPlane.Dispatcher.Refinement

namespace SignalPlane.Dispatcher

open Clock
open Workflow (exec)

/-! ## The launch line in a run -/

section Line

variable {env : Env} {s s' : Store} {now : Int} {fresh : Prop}

/-- `created_at` is nondecreasing in the job id. -/
def Store.CreationOrdered (s : Store) : Prop :=
  ∀ r ∈ s.jobs.rows, ∀ r' ∈ s.jobs.rows, r.id ≤ r'.id → r.createdAt ≤ r'.createdAt

instance : Decidable s.CreationOrdered :=
  inferInstanceAs (Decidable (∀ r ∈ s.jobs.rows, ∀ r' ∈ s.jobs.rows, _ → _))

/-- Status `launched` or `external_waiting`, or `report_pending` without a terminal result. -/
def Store.inFlight (s : Store) (r : JobRow) : Bool :=
  r.status.isPolled && (r.status ≠ .reportPending || !s.hasTerminal r.id)

theorem Store.inFlight_iff {r : JobRow} (h : r ∈ s.jobs.rows) :
    s.inFlight r = true ↔ s.line.stage r.id = .inFlight := by
  have hpolled := Store.view_polled (Table.find?_key h)
  constructor
  · intro hr
    refine JobView.stage_of_polled (hpolled.mpr ?_)
    revert hr
    cases hs : r.status <;> simp [Store.inFlight, JobStatus.isPolled, hs]
  · intro hr
    rcases hpolled.mp (JobView.polled_of_stage hr) with h | h | ⟨h, ht⟩ <;>
      simp_all [Store.inFlight, JobStatus.isPolled]

theorem Store.creationOrdered_iff : s.CreationOrdered ↔
    ∀ i j, (s.view i).status ≠ none → (s.view j).status ≠ none → i ≤ j →
      (s.view i).createdAt ≤ (s.view j).createdAt := by
  constructor
  · intro h i j hi hj hij
    obtain ⟨a, ha⟩ := Option.ne_none_iff_exists'.mp hi
    obtain ⟨b, hb⟩ := Option.ne_none_iff_exists'.mp hj
    obtain ⟨r, hr, -⟩ := Store.row_of_view ha
    obtain ⟨r', hr', -⟩ := Store.row_of_view hb
    have hle := h r (Table.mem_of_find? hr) r' (Table.mem_of_find? hr')
      (by rwa [Table.key_of_find? hr, Table.key_of_find? hr'])
    simpa [Store.view, hr, hr'] using hle
  · intro h r hr r' hr' hle
    have hr := Table.find?_key hr
    have hr' := Table.find?_key hr'
    have hview := h r.id r'.id (by simp [Store.view_status hr]) (by simp [Store.view_status hr'])
      hle
    simpa [Store.view, hr, hr'] using hview

/-- The line depends on the stages and the creation times only. -/
theorem Store.line_congr (hstage : ∀ j, (s'.view j).stage = (s.view j).stage)
    (hcreated : ∀ j, (s'.view j).createdAt = (s.view j).createdAt) : s'.line = s.line := by
  simp only [Store.line, hstage, hcreated]

/-- A transaction serves one job of the line, or leaves the line alone. -/
theorem Transaction.line_step (hwf : ∀ j, (s.view j).WellFormed)
    (h : Transaction env now fresh s s') : s'.line = s.line ∨ Line.Step s.line s'.line := by
  obtain ⟨k, hk⟩ := h.evolves hwf
  by_cases habsent : (s.view k).status = none
  · have hview : ∀ j, s'.view j = s.view j := by
      intro j
      by_cases hj : j = k
      · subst hj
        have hsteps := hk.steps
        rw [(hwf j).absent habsent] at hsteps ⊢
        exact hsteps.eq_of_absent
      · exact hk.others j hj
    exact .inl (Store.line_congr (fun j => by rw [hview]) fun j => by rw [hview])
  · have hview : ∀ j, (s'.view j).createdAt = (s.view j).createdAt := by
      intro j
      by_cases hj : j = k
      · subst hj
        exact hk.steps.createdAt_eq
      · rw [hk.others j hj]
    refine .inr (.serve k ?_ ?_ ?_ ?_ ?_)
    · exact fun j hj => congrArg JobView.stage (hk.others j hj)
    · exact fun j _ => congrArg (fun c => toLex (c, j)) (hview j)
    · exact fun h => habsent (JobView.stage_eq_absent.mp h)
    · exact LifecycleSteps.stage_le (hwf k) hk.steps
    · exact fun hw hf => LifecycleSteps.front_of_polled (hwf k) hk.steps
        (JobView.queued_of_stage hw) (JobView.polled_of_stage hf)

/-- A delivery keeps the creation times of the jobs that exist. -/
theorem DeliveryStep.createdAt_eq (h : DeliveryStep s s') {j : Int}
    (hj : (s.view j).status ≠ none) :
    (s'.view j).status ≠ none ∧ (s'.view j).createdAt = (s.view j).createdAt := by
  cases h with
  | same h => rw [h]; exact ⟨hj, rfl⟩
  | wake h =>
    rcases h j with h | ⟨w, -, -, -, h⟩
    · rw [h]; exact ⟨hj, rfl⟩
    · rw [h]; exact ⟨hj, rfl⟩
  | arrive k t others new last h =>
    have hne : j ≠ k := fun he => hj (he ▸ new)
    rw [others j hne]
    exact ⟨hj, rfl⟩

theorem DeliveryStep.creationOrdered (h : DeliveryStep s s') (h' : s'.CreationOrdered) :
    s.CreationOrdered := by
  rw [Store.creationOrdered_iff] at h' ⊢
  intro i j hi hj hij
  obtain ⟨hi', hieq⟩ := h.createdAt_eq hi
  obtain ⟨hj', hjeq⟩ := h.createdAt_eq hj
  have hle := h' i j hi' hj' hij
  rwa [hieq, hjeq] at hle

/-- A delivery leaves the line alone, or adds a job at its end. -/
theorem DeliveryStep.line_step (h : DeliveryStep s s') (hordered : s'.CreationOrdered) :
    s'.line = s.line ∨ Line.Step s.line s'.line := by
  cases h with
  | same h => exact .inl (Store.line_congr (fun j => by rw [h]) fun j => by rw [h])
  | wake h =>
    refine .inl (Store.line_congr (fun j => ?_) fun j => ?_)
    · rcases h j with h | ⟨w, -, -, -, h⟩ <;> rw [h]
      rfl
    · rcases h j with h | ⟨w, -, -, -, h⟩ <;> rw [h]
  | arrive k t others new last h =>
    have hk : (s'.view k).status = some .pendingLaunch := by rw [h]
    have active : ∀ j, (s.line.stage j).active → (s.view j).status ≠ none ∧ j ≠ k := by
      intro j hj
      have hstatus : (s.view j).status ≠ none := by
        intro hnone
        have hstage : s.line.stage j = .absent := JobView.stage_eq_absent.mpr hnone
        rcases hj with hj | hj <;> rw [hstage] at hj <;> cases hj
      exact ⟨hstatus, fun he => hstatus (he ▸ new)⟩
    refine .inr (.arrive k ?_ ?_ ?_ ?_ ?_)
    · exact fun j hj => congrArg JobView.stage (others j hj)
    · exact fun j hj => congrArg (fun v => toLex (JobView.createdAt v, j))
        (others j (active j hj).2)
    · exact JobView.stage_eq_absent.mpr new
    · exact JobView.stage_of_queued (.inl hk)
    · -- Its creation time is not smaller, and its id is larger.
      intro j hj
      obtain ⟨hstatus, hne⟩ := active j hj
      have hlt := last j hstatus
      have hle := Store.creationOrdered_iff.mp hordered j k (by rwa [others j hne]) (by simp [hk])
        (by omega)
      rcases lt_or_eq_of_le hle with h | h
      · exact Prod.Lex.toLex_lt_toLex.mpr (.inl h)
      · exact Prod.Lex.toLex_lt_toLex.mpr (.inr ⟨h, hlt⟩)

theorem Transactions.line_ordered (hwf : ∀ j, (s.view j).WellFormed) (hline : s.line.Ordered)
    (h : Transactions env now fresh s s') : s'.line.Ordered := by
  induction h with
  | refl => exact hline
  | tail hsteps hstep ih =>
    rcases hstep.line_step (Transactions.wellFormed hsteps hwf) with h | h
    · rwa [h]
    · exact ih.step h

theorem DeliverySteps.line_ordered (hline : s.line.Ordered)
    (h : Relation.ReflTransGen DeliveryStep s s') (hordered : s'.CreationOrdered) :
    s'.line.Ordered := by
  induction h with
  | refl => exact hline
  | tail _ hstep ih =>
    have hline' := ih (hstep.creationOrdered hordered)
    rcases hstep.line_step hordered with h | h
    · rwa [h]
    · exact hline'.step h

/-- In every run with such creation times, the job in flight is ahead of the others. -/
theorem ReachableBy.line_ordered
    (h : ReachableBy env (fun s i => (i.step env s).CreationOrdered) s) : s.line.Ordered := by
  induction h with
  | empty =>
    intro i j hi
    cases hi
  | @step s i hs hordered ih =>
    cases i with
    | process delivery now =>
      exact DeliverySteps.line_ordered ih (process_steps env silentBroker [] delivery now _).final
        hordered
    | runOne tie now o =>
      exact Transactions.line_ordered (Reachable.wellFormed hs.reachable) ih
        (runOne_transactions tie).final

/-- Single flight: at most one job is in flight, and a launch is asked for only for a job with no
queued or polled job before it in the order of `created_at, id`. -/
theorem runOne_singleFlight
    (h : ReachableBy env (fun s i => (i.step env s).CreationOrdered) s) :
    (∀ r ∈ s.jobs.rows, ∀ r' ∈ s.jobs.rows, s.inFlight r = true → s.inFlight r' = true → r = r') ∧
      ∀ (tie : Nat) (now : Int) (o : BrokerAnswers), ∀ x ∈ (exec o (runOne env tie now) s).asked,
        ∀ job, x.1.call = .launch job → ∃ row, x.2.jobs.find? job.id = some row ∧
          ∀ r ∈ x.2.jobs.rows, r.createdAt < row.createdAt ∨
            (r.createdAt = row.createdAt ∧ r.id < row.id) → x.2.unfinished r = false := by
  constructor
  · intro r hr r' hr' hf hf'
    rw [Store.inFlight_iff hr] at hf
    rw [Store.inFlight_iff hr'] at hf'
    have hid : r.id = r'.id := h.line_ordered.atMostOne hf hf'
    have hrow := Table.find?_key hr
    rw [hid, Table.find?_key hr'] at hrow
    exact (Option.some.inj hrow).symm
  · intro tie now o x hx job hjob
    obtain ⟨⟨row, hrow⟩, hfirst⟩ := ((runOne_transactions tie).asked hx).first job hjob
    refine ⟨row, hrow, fun r hr hbefore => ?_⟩
    by_contra hun
    have hr' := Table.find?_key hr
    have hactive : (x.2.line.stage r.id).active :=
      JobView.stage_active.mpr ((Store.unfinished_iff hr').mp (by simpa using hun))
    have hle := Prod.Lex.toLex_le_toLex.mp (hfirst r.id hactive)
    have hid : row.id = job.id := Table.key_of_find? hrow
    simp only [Store.view, hrow, hr', Option.map_some, Option.getD_some] at hle
    omega

end Line

namespace Sample

/-- The deliveries label two issues. -/
def issuesEnv : Env :=
  { env with
    lib := { lib with
      unmarshalSignal := fun data => .ok { labelled data with payload := data }
      unmarshalIssueEvent := fun payload => some
        ⟨lit "labeled", lit "octo/repo", if payload = lit "delivery2" then 6 else 5, lit "open", [],
          lit "go", lit "octocat"⟩ } }

/-- Two jobs; the first is launched, and the second is queued behind it. -/
def twoJobs : Store := run issuesEnv [deliver 1 0, deliver 2 0, readyPass second] .empty

/-- The first job is through, and the second is still queued. -/
def secondTurn : Store := run issuesEnv [readyPass (3 * second), readyPass (4 * second)] twoJobs

end Sample

open Sample in
/-- Of the two jobs one is in flight. The other is launched when the first is through. -/
theorem runOne_singleFlight_launched :
    (∃ r ∈ twoJobs.jobs.rows, ∃ r' ∈ twoJobs.jobs.rows, twoJobs.inFlight r = true ∧
      r'.status = .pendingLaunch ∧
      ∀ r'' ∈ twoJobs.jobs.rows, twoJobs.inFlight r'' = true → r'' = r) ∧
    ∃ x ∈ (exec (answers completed (.ok ready) green) (runOne issuesEnv 0 (5 * second))
        secondTurn).asked, ∃ job, x.1.call = .launch job ∧ x.2.jobs.rows.map JobRow.id = [1, 2] ∧
      job.id = 2 ∧ ∃ row, x.2.jobs.find? job.id = some row ∧ ∀ r ∈ x.2.jobs.rows,
        r.createdAt < row.createdAt ∨ (r.createdAt = row.createdAt ∧ r.id < row.id) →
          x.2.unfinished r = false := by
  have hqueued : ReachableBy issuesEnv (fun s i => (i.step issuesEnv s).CreationOrdered)
      twoJobs :=
    .step (readyPass second) (.step (deliver 2 0) (.step (deliver 1 0) .empty (by decide +kernel))
      (by decide +kernel)) (by decide +kernel)
  have hnext : ReachableBy issuesEnv (fun s i => (i.step issuesEnv s).CreationOrdered) secondTurn :=
    .step (readyPass (4 * second)) (.step (readyPass (3 * second)) hqueued (by decide +kernel))
      (by decide +kernel)
  constructor
  · have hrows : ∃ r ∈ twoJobs.jobs.rows, ∃ r' ∈ twoJobs.jobs.rows,
        twoJobs.inFlight r = true ∧ r'.status = .pendingLaunch := by decide +kernel
    obtain ⟨r, hr, r', hr', hflight, hpending⟩ := hrows
    exact ⟨r, hr, r', hr', hflight, hpending, fun r'' hr'' hf =>
      (runOne_singleFlight hqueued).1 r'' hr'' r hr hf hflight⟩
  · have hasked : ((exec (answers completed (.ok ready) green) (runOne issuesEnv 0 (5 * second))
        secondTurn).asked.any fun x => match x.1.call with
          | .launch job => x.2.jobs.rows.map JobRow.id = [1, 2] && job.id = 2
          | _ => false) = true := by decide +kernel
    obtain ⟨x, hx, hlaunch⟩ := List.any_eq_true.mp hasked
    split at hlaunch
    · next job hjob =>
      rw [Bool.and_eq_true, decide_eq_true_eq, decide_eq_true_eq] at hlaunch
      exact ⟨x, hx, job, hjob, hlaunch.1, hlaunch.2,
        (runOne_singleFlight hnext).2 0 (5 * second) _ x hx job hjob⟩
    · cases hlaunch

/-! ## External waits -/

/-- The step meets no status that reports a generation which the wait has already resumed. -/
def Input.repeatsNoResumed (s : Store) : Input → Prop
  | .process .. => True
  | .runOne _ now o => NoResumedReplay now o s

/-- A waiting job can be woken as long as no pass meets a status that reports a generation which
the job's wait has already resumed. -/
theorem externalWaiting_wakeable {env : Env} {s : Store}
    (h : ReachableBy env (fun s i => i.repeatsNoResumed s) s) {r : JobRow}
    (hr : r ∈ s.jobs.rows) (hs : r.status = .externalWaiting) :
    ∃ w, s.externalWaits.find? r.id = some w ∧ w.brokerRunID = r.brokerRunID ∧
      (w.state = .waiting ∨ w.state = .resumeReady) := by
  have hrow := Table.find?_key hr
  have hinvariant : ∀ j, (s.view j).WellFormed ∧ (s.view j).StaysWakeable := by
    have hkept : ∀ front v v', v.WellFormed → v.StaysWakeable → LifecycleStep True front v v' →
        v'.StaysWakeable := fun _ _ _ _ hv hstep => hstep.staysWakeable hv
    refine ReachableBy.view_invariant (fun _ _ _ _ hok _ => hok) ?_ ?_ hkept h
    · simp [JobView.StaysWakeable]
    · simp [JobView.StaysWakeable, JobView.arrived]
  obtain ⟨w, hw, hrun, hstate⟩ := (hinvariant r.id).2 (by rw [Store.view_status hrow, hs])
  obtain ⟨w', hw', rfl⟩ := Option.map_eq_some_iff.mp hw
  rw [Store.view_runID hrow] at hrun
  refine ⟨w', hw', hrun, ?_⟩
  have hne : w'.state ≠ .resumed := hstate
  cases hw' : w'.state <;> simp_all

open Sample in
/-- The waiting job of the sample run can be woken. -/
theorem externalWaiting_wakeable_waiting : ∃ r ∈ waitingStore.jobs.rows,
    r.status = .externalWaiting ∧ ∃ w, waitingStore.externalWaits.find? r.id = some w ∧
      w.brokerRunID = r.brokerRunID ∧ (w.state = .waiting ∨ w.state = .resumeReady) := by
  -- Before the last pass there is no wait at all.
  have noWaits : ∀ {s : Store}, s.externalWaits.rows = [] → ∀ now o, NoResumedReplay now o s := by
    intro s hnone now o r _ _ result wait w _ _ _ _ hw
    exact absurd (Table.mem_of_find? hw) (by simp [hnone])
  have hdelivered : ReachableBy env (fun s i => i.repeatsNoResumed s)
      (Input.step env .empty (deliver 1 0)) := .step _ .empty trivial
  have hlaunched : ReachableBy env (fun s i => i.repeatsNoResumed s) launchedStore :=
    .step (readyPass second) hdelivered (noWaits (by decide +kernel) _ _)
  have hwaiting : ReachableBy env (fun s i => i.repeatsNoResumed s) waitingStore :=
    .step (waitPass (3 * second)) hlaunched (noWaits (by decide +kernel) _ _)
  have hrow : ∃ r ∈ waitingStore.jobs.rows, r.status = .externalWaiting := by
    decide +kernel
  obtain ⟨r, hr, hs⟩ := hrow
  exact ⟨r, hr, hs, externalWaiting_wakeable hwaiting hr hs⟩

open Sample in
/-- An issue event wakes the waiting job, the run is resumed, and then the broker reports the same
generation again: the job waits and its wait is `resumed`. -/
theorem externalWaiting_stranded :
    Reachable env (run env [deliver 2 (4 * second), waitPass (5 * second), waitPass (8 * second)]
      waitingStore) ∧
    ((run env [deliver 2 (4 * second), waitPass (5 * second), waitPass (8 * second)]
      waitingStore).jobs.find? 1).map JobRow.status = some .externalWaiting ∧
    ((run env [deliver 2 (4 * second), waitPass (5 * second), waitPass (8 * second)]
      waitingStore).externalWaits.find? 1).map ExternalWaitRow.state = some .resumed :=
  ⟨waitingStore_reachable.run _, by decide +kernel, by decide +kernel⟩

end SignalPlane.Dispatcher
