/-
SignalPlane.Dispatcher.Lifecycle — what can happen to one job.

The store spreads the state of a job over seven tables. A `JobView` is what
they say about one job id: its status and run, whether it has a terminal
result and an outbox row, and the states of its CI task, external wait and
escalation. `LifecycleStep` lists the ways a view can change. It is the
abstract machine that the store operations refine; an invariant of a single
job is proved here once, by cases on the step, and not once per operation.

`WellFormed` collects the facts that hold of every job in every run. `stage`
orders the life of a job: absent, waiting to be launched, in flight, and out
of the line. No step goes back.

Two parameters say what a step may assume. A step may replay an external wait
whose generation was already resumed; `fresh` excludes exactly that, and with
`fresh` true a waiting job has a wait that a wake can still make ready
(`StaysWakeable`). A launch needs `front`, which the store instantiates with
"first in line".
-/
import SignalPlane.Lib.SingleFlight
import SignalPlane.Dispatcher.Model

namespace SignalPlane.Dispatcher

variable {fresh front : Prop} {v v' : JobView} {generation : Int} {old : Option WaitView}

/-! ## Views -/

/-- The external wait of a job. -/
structure WaitView where
  runID : GoString
  generation : Int
  state : WaitState
  deriving DecidableEq, Repr

/-- What the tables say about one job id; the status is `none` for a job that does not exist. -/
@[ext] structure JobView where
  status : Option JobStatus := none
  createdAt : Int := 0
  runID : GoString := []
  reported : Bool := false
  outboxed : Bool := false
  task : Option CITaskState := none
  wait : Option WaitView := none
  escalation : Option EscalationState := none
  deriving DecidableEq, Repr

namespace JobView

/-- A job that a delivery has just created. -/
def arrived (createdAt : Int) : JobView :=
  { status := some .pendingLaunch, createdAt := createdAt }

/-- `pending_launch` or `launch_retry`. -/
def queued (v : JobView) : Prop :=
  v.status = some .pendingLaunch ∨ v.status = some .launchRetry

/-- The worker polls the run: launched, waiting for a service, or finished and not yet reported. -/
def polled (v : JobView) : Prop :=
  v.status = some .launched ∨ v.status = some .externalWaiting ∨
    (v.status = some .reportPending ∧ v.reported = false)

instance (v : JobView) : Decidable v.queued := inferInstanceAs (Decidable (_ ∨ _))

instance (v : JobView) : Decidable v.polled := inferInstanceAs (Decidable (_ ∨ _ ∨ _))

/-- The statuses from which `QueueTerminalResult` accepts a result. -/
def acceptsResult (v : JobView) : Prop :=
  v.queued ∨ v.status = some .launched ∨ v.status = some .reportPending ∨
    v.status = some .reportRetry ∨ v.status = some .failed

/-- A report is being delivered. -/
def reporting (v : JobView) : Prop :=
  v.status = some .reportPending ∨ v.status = some .reportRetry

end JobView

/-! ## Steps -/

/-- What a CI observation or the end of a repair makes of a job and its task. -/
inductive CIOutcome : JobStatus → CITaskState → Prop where
  | completed : CIOutcome .completed .completed
  | waiting : CIOutcome .ciWaiting .waitingCI
  | repair : CIOutcome .ciRepair .repairReady

/-- How a wait changes when the broker reports generation `generation` for the job's run. -/
inductive WaitStep (fresh : Prop) (runID : GoString) (generation : Int) :
    Option WaitView → WaitView → Prop where
  | first : WaitStep fresh runID generation none ⟨runID, generation, .waiting⟩
  | replay {w : WaitView} (hgen : w.generation = generation) (hrun : w.runID = runID)
      (hfresh : w.state = .resumed → ¬ fresh) : WaitStep fresh runID generation (some w) w
  | next {w : WaitView} (hgen : w.generation < generation) (hrun : w.runID = runID) :
      WaitStep fresh runID generation (some w) ⟨runID, generation, .waiting⟩

/-- One change of a job that exists. -/
inductive LifecycleStep (fresh front : Prop) : JobView → JobView → Prop where
  /-- The broker acknowledged a run. -/
  | launch {v : JobView} (r : GoString) (h : v.queued) (hr : r ≠ []) (hfront : front) :
      LifecycleStep fresh front v { v with status := some .launched, runID := r }
  /-- The launch failed and will be retried. -/
  | retryLaunch {v : JobView} (h : v.queued) :
      LifecycleStep fresh front v { v with status := some .launchRetry }
  /-- A poll without a final outcome. -/
  | poll {v : JobView} (status : JobStatus) (h : v.polled)
      (hs : status = .launched ∨ status = .reportPending) (hw : v.status ≠ some .externalWaiting) :
      LifecycleStep fresh front v { v with status := some status }
  /-- A terminal result and its report are queued. -/
  | queueResult {v : JobView} (h : v.acceptsResult) :
      LifecycleStep fresh front v
        { v with status := some .reportPending, reported := true, outboxed := true }
  /-- The run waits for an outside service. -/
  | wait {v : JobView} (generation : Int) (w : WaitView) (h : v.polled)
      (hw : WaitStep fresh v.runID generation v.wait w) :
      LifecycleStep fresh front v { v with status := some .externalWaiting, wait := some w }
  /-- A verified event makes the wait ready. -/
  | wake {v : JobView} (w : WaitView) (h : v.status = some .externalWaiting)
      (hw : v.wait = some w) (hs : w.state ≠ .resumed) :
      LifecycleStep fresh front v { v with wait := some { w with state := .resumeReady } }
  /-- A ready wait is resumed. -/
  | resume {v : JobView} (w : WaitView) (h : v.status = some .externalWaiting)
      (hw : v.wait = some w) (hs : w.state = .resumeReady) :
      LifecycleStep fresh front v
        { v with status := some .launched, wait := some { w with state := .resumed } }
  /-- The result is ready for review; only a launched job changes its status. -/
  | enterCI {v : JobView} (h : v.polled) :
      LifecycleStep fresh front v
        { v with
          status := if v.status = some .launched then some .ciWaiting else v.status
          task := some (v.task.getD .waitingCI) }
  /-- CI or a repair moved the task. -/
  | ci {v : JobView} {status : JobStatus} {state : CITaskState} (h : v.task ≠ none)
      (ho : CIOutcome status state) :
      LifecycleStep fresh front v { v with status := some status, task := some state }
  /-- A repair run was bound to its attempt. -/
  | bindRepair {v : JobView}
      (h : v.task = some .repairReady ∨ v.task = some .repairRunning) :
      LifecycleStep fresh front v { v with task := some .repairRunning }
  /-- An escalation is queued. -/
  | escalate {v : JobView} (h : v.task ≠ none) :
      LifecycleStep fresh front v
        { v with
          status := some .ciEscalation
          task := some .escalationPending
          escalation := some (v.escalation.getD .pending) }
  /-- The escalation was delivered. -/
  | escalated {v : JobView} (h : v.escalation = some .pending) :
      LifecycleStep fresh front v
        { v with
          status := some .failed
          task := v.task.map (fun t => if t = .escalationPending then .escalated else t)
          escalation := some .delivered }
  /-- The escalation cannot be delivered. -/
  | escalationBlocked {v : JobView} (h : v.escalation = some .pending) :
      LifecycleStep fresh front v
        { v with
          status := some .reportBlocked
          task := v.task.map (fun t => if t = .escalationPending then .escalationBlocked else t)
          escalation := some .blocked }
  /-- The report was delivered. -/
  | reportDelivered {v : JobView} (status : JobStatus) (h : v.reporting) (hr : v.reported = true)
      (hs : status ∈ [JobStatus.completed, .timedOut, .stopped, .cancelled, .failed]) :
      LifecycleStep fresh front v { v with status := some status }
  /-- The report could not be delivered. -/
  | reportFailed {v : JobView} (status : JobStatus) (h : v.reporting)
      (hs : status = .reportRetry ∨ status = .reportBlocked) :
      LifecycleStep fresh front v { v with status := some status }

/-- Any number of changes of one job. -/
abbrev LifecycleSteps (fresh front : Prop) : JobView → JobView → Prop :=
  Relation.ReflTransGen (LifecycleStep fresh front)

/-- A property that every step keeps is kept by any number of steps. -/
theorem LifecycleSteps.preserve {I : JobView → Prop}
    (hI : ∀ v v', I v → LifecycleStep fresh front v v' → I v') (h : LifecycleSteps fresh front v v')
    (hv : I v) : I v' := by
  induction h with
  | refl => exact hv
  | tail _ hstep ih => exact hI _ _ ih hstep

/-! ## Invariants of one job -/

/-- The facts that hold of every job in every run. -/
structure JobView.WellFormed (v : JobView) : Prop where
  /-- Nothing refers to a job that does not exist. -/
  absent : v.status = none → v = {}
  legacy : ∀ status ∈ v.status, status.isLegacy = false
  /-- A result and its outbox row are written together. -/
  outboxed : v.outboxed = v.reported
  /-- A job in the launch line has no run, no result and no dependants. -/
  queued : v.queued → v.runID = [] ∧ v.reported = false ∧ v.task = none ∧ v.wait = none ∧
    v.escalation = none
  /-- A polled job has a run and no result, and its CI task has not moved. -/
  polled : v.polled → v.runID ≠ [] ∧ v.reported = false ∧ (∀ t ∈ v.task, t = .waitingCI)
  /-- A wait belongs to the job's run. -/
  waitRun : ∀ w ∈ v.wait, w.runID = v.runID
  /-- An escalation belongs to a CI task. -/
  escalation : v.escalation ≠ none → v.task ≠ none

theorem JobView.wellFormed_absent : JobView.WellFormed {} where
  absent _ := rfl
  legacy := by simp
  outboxed := rfl
  queued := by simp [JobView.queued]
  polled := by simp [JobView.polled]
  waitRun := by simp
  escalation := by simp

theorem JobView.wellFormed_arrived (t : Int) : (JobView.arrived t).WellFormed where
  absent h := by simp [JobView.arrived] at h
  legacy := by simp [JobView.arrived, JobStatus.isLegacy]
  outboxed := rfl
  queued _ := ⟨rfl, rfl, rfl, rfl, rfl⟩
  polled := by simp [JobView.polled, JobView.arrived]
  waitRun := by simp [JobView.arrived]
  escalation := by simp [JobView.arrived]

namespace JobView.WellFormed

/-- A job that is polled again stays well formed, whatever becomes of its wait. -/
theorem polledAgain (hv : v.WellFormed) (hp : v.polled) {status : JobStatus}
    (hs : status = .launched ∨ status = .externalWaiting ∨ status = .reportPending)
    {wait : Option WaitView} (hw : ∀ w ∈ wait, w.runID = v.runID) :
    WellFormed { v with status := some status, wait := wait } := by
  have hpoll := hv.polled hp
  refine ⟨by simp, ?_, hv.outboxed, ?_, fun _ => hpoll, hw, hv.escalation⟩
  · rcases hs with rfl | rfl | rfl <;> simp [JobStatus.isLegacy]
  · rcases hs with rfl | rfl | rfl <;> simp [JobView.queued]

/-- A job that leaves the line stays well formed, whatever becomes of its task. -/
theorem offLine (hv : v.WellFormed) {status : JobStatus}
    (hs : status ∈ [JobStatus.completed, .failed, .timedOut, .reportRetry, .reportBlocked, .stopped,
      .cancelled, .ciWaiting, .ciRepair, .ciEscalation])
    {task : Option CITaskState} {escalation : Option EscalationState}
    (he : escalation ≠ none → task ≠ none) :
    WellFormed { v with status := some status, task := task, escalation := escalation } := by
  simp only [List.mem_cons, List.not_mem_nil, or_false] at hs
  refine ⟨by simp, ?_, hv.outboxed, ?_, ?_, hv.waitRun, he⟩
  · rcases hs with rfl | rfl | rfl | rfl | rfl | rfl | rfl | rfl | rfl | rfl <;>
      simp [JobStatus.isLegacy]
  · rcases hs with rfl | rfl | rfl | rfl | rfl | rfl | rfl | rfl | rfl | rfl <;>
      simp [JobView.queued]
  · rcases hs with rfl | rfl | rfl | rfl | rfl | rfl | rfl | rfl | rfl | rfl <;>
      simp [JobView.polled]

end JobView.WellFormed

theorem WaitStep.runID_eq {runID : GoString} {w : WaitView}
    (h : WaitStep fresh runID generation old w) : w.runID = runID := by
  cases h with
  | first => rfl
  | replay _ hrun _ => exact hrun
  | next _ _ => rfl

/-- Every step keeps a job well formed. -/
theorem LifecycleStep.wellFormed (hv : v.WellFormed) (h : LifecycleStep fresh front v v') :
    v'.WellFormed := by
  cases h with
  | launch r hq hr _ =>
    obtain ⟨_, hrep, htask, hwait, hesc⟩ := hv.queued hq
    refine ⟨by simp, by simp [JobStatus.isLegacy], hv.outboxed, by simp [JobView.queued],
      fun _ => ⟨hr, hrep, by simp [htask]⟩, by simp [hwait], by simp [hesc]⟩
  | retryLaunch hq =>
    exact ⟨by simp, by simp [JobStatus.isLegacy], hv.outboxed, fun _ => hv.queued hq,
      by simp [JobView.polled], hv.waitRun, hv.escalation⟩
  | poll status hp hs _ =>
    exact hv.polledAgain hp (hs.elim .inl fun h => .inr (.inr h)) hv.waitRun
  | queueResult _ =>
    exact ⟨by simp, by simp [JobStatus.isLegacy], rfl, by simp [JobView.queued],
      by simp [JobView.polled], hv.waitRun, hv.escalation⟩
  | wait generation w hp hw =>
    exact hv.polledAgain hp (.inr (.inl rfl)) (by simp [hw.runID_eq])
  | wake w hs hw _ =>
    have hpoll : v.polled := .inr (.inl hs)
    have hready : JobView.WellFormed { v with
        status := some .externalWaiting, wait := some { w with state := .resumeReady } } :=
      hv.polledAgain hpoll (.inr (.inl rfl)) (by simp [hv.waitRun w hw])
    rwa [← hs] at hready
  | resume w hs hw _ =>
    exact hv.polledAgain (.inr (.inl hs)) (.inl rfl) (by simp [hv.waitRun w hw])
  | enterCI hp =>
    by_cases hl : v.status = some .launched
    · simp only [hl, if_true]
      exact hv.offLine (by simp) (by simp)
    · -- The job stays polled; its task is new or was already waiting for CI.
      have hpoll := hv.polled hp
      simp only [hl, if_false]
      refine ⟨?_, hv.legacy, hv.outboxed, ?_, fun _ => ⟨hpoll.1, hpoll.2.1, ?_⟩, hv.waitRun,
        by simp⟩
      · rcases hp with h | h | ⟨h, _⟩ <;> simp [h]
      · rcases hp with h | h | ⟨h, _⟩ <;> simp [JobView.queued, h]
      · intro t ht
        cases hv' : v.task with
        | none => simpa [hv'] using ht.symm
        | some t' => simpa [hv', hpoll.2.2 t' hv'] using ht.symm
  | ci _ ho => cases ho <;> exact hv.offLine (by simp) (by simp)
  | bindRepair h =>
    -- A polled or queued job has no task in repair.
    refine ⟨fun hs => ?_, hv.legacy, hv.outboxed, fun hq => ?_, fun hp => ?_, hv.waitRun, by simp⟩
    · have := hv.absent hs
      rcases h with h | h <;> simp [this] at h
    · have := (hv.queued hq).2.2.1
      rcases h with h | h <;> simp [this] at h
    · have := (hv.polled hp).2.2
      rcases h with h | h <;> simpa using this _ h
  | escalate _ => exact hv.offLine (by simp) (by simp)
  | escalated he | escalationBlocked he =>
    exact hv.offLine (by simp) (by simpa [he] using hv.escalation)
  | reportDelivered status _ _ hs =>
    refine hv.offLine ?_ hv.escalation
    simp only [List.mem_cons, List.not_mem_nil, or_false] at hs ⊢
    tauto
  | reportFailed status _ hs =>
    refine hv.offLine ?_ hv.escalation
    rcases hs with rfl | rfl <;> simp

/-! ## External waits -/

/-- In a waiting job, the wait of its run is one that a wake can make ready. -/
def JobView.StaysWakeable (v : JobView) : Prop :=
  v.status = some .externalWaiting →
    ∃ w, v.wait = some w ∧ w.runID = v.runID ∧ w.state ≠ .resumed

theorem WaitStep.state_ne_resumed {runID : GoString} {w : WaitView}
    (h : WaitStep True runID generation old w) : w.state ≠ .resumed := by
  cases h with
  | first => simp
  | replay _ _ hfresh => exact fun hs => hfresh hs trivial
  | next _ _ => simp

/-- When no resumed generation is reported again, every step keeps a waiting job wakeable. -/
theorem LifecycleStep.staysWakeable (hv : v.StaysWakeable) (h : LifecycleStep True front v v') :
    v'.StaysWakeable := by
  cases h with
  | wait generation w hp hw =>
    intro _
    exact ⟨w, rfl, hw.runID_eq, hw.state_ne_resumed⟩
  | wake w hs hw hne =>
    intro _
    obtain ⟨w', hw', hrun, _⟩ := hv hs
    rw [hw, Option.some.injEq] at hw'
    subst hw'
    exact ⟨_, rfl, hrun, by simp⟩
  | enterCI hp =>
    intro hs
    by_cases hl : v.status = some .launched
    · simp [hl] at hs
    · exact hv (by simpa [hl] using hs)
  | bindRepair _ => exact hv
  | poll _ _ hs' | reportFailed _ _ hs' =>
    intro hs
    rcases hs' with rfl | rfl <;> simp at hs
  | ci _ ho => cases ho <;> exact fun hs => by simp at hs
  | reportDelivered status _ _ hs' =>
    intro hs
    simp only [Option.some.injEq] at hs
    simp [hs] at hs'
  | launch | retryLaunch | queueResult | resume | escalate | escalated | escalationBlocked =>
    exact fun hs => by simp at hs

/-! ## Stages -/

/-- How far the job has come in the launch line. -/
def JobView.stage (v : JobView) : Stage :=
  if v.status = none then .absent
  else if v.queued then .waiting
  else if v.polled then .inFlight
  else .done

namespace JobView

theorem stage_eq_absent : v.stage = .absent ↔ v.status = none := by
  unfold stage
  split
  · next h => simp [h]
  · next h => split <;> [skip; split] <;> simp [h]

theorem stage_of_queued (h : v.queued) : v.stage = .waiting := by
  have hs : v.status ≠ none := by rcases h with h | h <;> simp [h]
  simp [stage, hs, h]

theorem stage_of_polled (h : v.polled) : v.stage = .inFlight := by
  have hs : v.status ≠ none := by rcases h with h | h | ⟨h, _⟩ <;> simp [h]
  have hq : ¬ v.queued := by rcases h with h | h | ⟨h, _⟩ <;> simp [queued, h]
  simp [stage, hs, hq, h]

theorem stage_of_offLine {status : JobStatus} (h : v.status = some status)
    (hq : ¬ v.queued) (hp : ¬ v.polled) : v.stage = .done := by
  simp [stage, h, hq, hp]

theorem queued_of_stage (h : v.stage = .waiting) : v.queued := by
  unfold stage at h
  split at h
  · cases h
  · split at h
    · assumption
    · split at h <;> cases h

theorem polled_of_stage (h : v.stage = .inFlight) : v.polled := by
  unfold stage at h
  split at h
  · cases h
  · split at h
    · cases h
    · split at h
      · assumption
      · cases h

theorem stage_active : v.stage.active ↔ v.queued ∨ v.polled :=
  ⟨fun h => h.elim (fun h => .inl (queued_of_stage h)) fun h => .inr (polled_of_stage h),
    fun h => h.elim (fun h => .inl (stage_of_queued h)) fun h => .inr (stage_of_polled h)⟩

end JobView

theorem Stage.index_le_done (p : Stage) : p.index ≤ Stage.done.index := by
  cases p <;> decide

/-- No step takes a job back. -/
theorem LifecycleStep.stage_le (hv : v.WellFormed) (h : LifecycleStep fresh front v v') :
    v.stage.index ≤ v'.stage.index := by
  -- A step out of the line goes forward, and so does one that keeps the job polled.
  have off : ∀ {u : JobView} {status : JobStatus}, u.status = some status →
      ¬ u.queued → ¬ u.polled → v.stage.index ≤ u.stage.index := by
    intro u status hs hq hp
    rw [JobView.stage_of_offLine hs hq hp]
    exact Stage.index_le_done _
  have again : ∀ {u : JobView}, v.polled → u.polled → v.stage.index ≤ u.stage.index := by
    intro u hp hp'
    exact Nat.le_of_eq (by rw [JobView.stage_of_polled hp, JobView.stage_of_polled hp'])
  cases h with
  | launch r hq _ _ =>
    rw [JobView.stage_of_queued hq, JobView.stage_of_polled (.inl rfl)]
    decide
  | retryLaunch hq =>
    exact Nat.le_of_eq
      (by rw [JobView.stage_of_queued hq, JobView.stage_of_queued (.inr rfl)])
  | poll status hp hs _ =>
    refine again hp ?_
    rcases hs with rfl | rfl
    · exact .inl rfl
    · exact .inr (.inr ⟨rfl, (hv.polled hp).2.1⟩)
  | queueResult _ =>
    exact off rfl (by simp [JobView.queued]) (by simp [JobView.polled])
  | wait generation w hp _ => exact again hp (.inr (.inl rfl))
  | wake w hs _ _ => exact again (.inr (.inl hs)) (.inr (.inl hs))
  | resume w hs _ _ => exact again (.inr (.inl hs)) (.inl rfl)
  | enterCI hp =>
    by_cases hl : v.status = some .launched
    · exact off (if_pos hl) (by simp [JobView.queued, hl]) (by simp [JobView.polled, hl])
    · exact again hp (by simpa [JobView.polled, hl] using hp)
  | ci _ ho =>
    cases ho <;> exact off rfl (by simp [JobView.queued]) (by simp [JobView.polled])
  | bindRepair _ => exact Nat.le_refl _
  | escalate _ | escalated _ | escalationBlocked _ =>
    exact off rfl (by simp [JobView.queued]) (by simp [JobView.polled])
  | reportDelivered status _ _ hs =>
    simp only [List.mem_cons, List.not_mem_nil, or_false] at hs
    rcases hs with rfl | rfl | rfl | rfl | rfl <;>
      exact off rfl (by simp [JobView.queued]) (by simp [JobView.polled])
  | reportFailed status _ hs =>
    rcases hs with rfl | rfl <;>
      exact off rfl (by simp [JobView.queued]) (by simp [JobView.polled])

theorem LifecycleSteps.stage_le (hv : v.WellFormed) (h : LifecycleSteps fresh front v v') :
    v.stage.index ≤ v'.stage.index := by
  induction h with
  | refl => exact Nat.le_refl _
  | tail hsteps hstep ih =>
    have hu := LifecycleSteps.preserve (fun _ _ hw hs => hs.wellFormed hw) hsteps hv
    exact Nat.le_trans ih (hstep.stage_le hu)

/-- Only a launch puts a queued job in flight. -/
theorem LifecycleStep.front_of_polled (h : LifecycleStep fresh front v v') (hq : v.queued)
    (hp : v'.polled) : front := by
  have notPolled : ¬ v.polled := by
    rcases hq with h | h <;> simp [JobView.polled, h]
  have notWaiting : v.status ≠ some .externalWaiting := by
    rcases hq with h | h <;> simp [h]
  cases h with
  | launch _ _ _ hfront => exact hfront
  | poll _ h _ _ | wait _ _ h _ | enterCI h => exact absurd h notPolled
  | wake _ h _ _ | resume _ h _ _ => exact absurd h notWaiting
  | ci _ ho => cases ho <;> simp [JobView.polled] at hp
  | bindRepair _ => exact absurd hp notPolled
  | reportDelivered status _ _ hs =>
    simp only [List.mem_cons, List.not_mem_nil, or_false] at hs
    rcases hs with rfl | rfl | rfl | rfl | rfl <;> simp [JobView.polled] at hp
  | reportFailed status _ hs => rcases hs with rfl | rfl <;> simp [JobView.polled] at hp
  | retryLaunch | queueResult | escalate | escalated | escalationBlocked =>
    simp [JobView.polled] at hp

theorem LifecycleSteps.front_of_polled (hv : v.WellFormed) (h : LifecycleSteps fresh front v v')
    (hq : v.queued) (hp : v'.polled) : front := by
  induction h with
  | refl => rcases hq with h | h <;> simp [JobView.polled, h] at hp
  | @tail u u' hsteps hstep ih =>
    have hu := LifecycleSteps.preserve (fun _ _ hw hs => hs.wellFormed hw) hsteps hv
    have hle := LifecycleSteps.stage_le hv hsteps
    have hle' := hstep.stage_le hu
    rw [JobView.stage_of_queued hq] at hle
    rw [JobView.stage_of_polled hp] at hle'
    -- Between waiting and in flight there is nothing else.
    cases hs : u.stage with
    | absent => simp [hs, Stage.index] at hle
    | waiting => exact hstep.front_of_polled (JobView.queued_of_stage hs) hp
    | inFlight => exact ih (JobView.polled_of_stage hs)
    | done => simp [hs, Stage.index] at hle'

/-- The creation time of a job does not change. -/
theorem LifecycleSteps.createdAt_eq (h : LifecycleSteps fresh front v v') :
    v'.createdAt = v.createdAt := by
  induction h with
  | refl => rfl
  | tail _ hstep ih =>
    rw [← ih]
    cases hstep <;> rfl

/-- Nothing happens to a job that does not exist. -/
theorem LifecycleSteps.eq_of_absent (h : LifecycleSteps fresh front {} v) : v = {} := by
  induction h with
  | refl => rfl
  | tail _ hstep ih =>
    subst ih
    cases hstep with
    | launch _ h _ _ | retryLaunch h => simp [JobView.queued] at h
    | poll _ h _ _ | wait _ _ h _ | enterCI h => simp [JobView.polled] at h
    | queueResult h => simp [JobView.acceptsResult, JobView.queued] at h
    | wake _ h _ _ | resume _ h _ _ | escalated h | escalationBlocked h => cases h
    | ci h _ | escalate h => exact absurd rfl h
    | bindRepair h => simp at h
    | reportDelivered _ h _ _ | reportFailed _ h _ => simp [JobView.reporting] at h

end SignalPlane.Dispatcher
