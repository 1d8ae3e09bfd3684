/-
SignalPlane.Dispatcher.CIAccount — the account of one job's CI repair.

The CI side of a job is spread over the job row, its task, its attempts and
its escalation. A `CIAccount` is what they say about one job id, with the
attempts in the order in which they were made. `CIStep` lists the ways an
account can change, each with what the code knows at that point.

Two invariants are proved by cases on the step. `Accounted` is about charges:
the attempts are numbered from one, the task counts the charged ones, and only
the last attempt can be open, exactly while the task is in repair. `InStep` is
about the job: once its task has left the wait, the task alone decides the
job's status and the state of the escalation.
-/
import SignalPlane.Dispatcher.Model

namespace SignalPlane.Dispatcher

variable {t : CITaskState} {v v' : CIAccount} {maxAttempts : Int} {a : AttemptEntry}

/-! ## Accounts -/

/-- An attempt, as the accounting sees it. -/
structure AttemptEntry where
  number : Int
  state : AttemptState
  charged : Bool
  deriving DecidableEq, Repr

namespace AttemptEntry

/-- The attempt can still be launched or followed. -/
def isOpen (a : AttemptEntry) : Bool := a.state = .ready || a.state = .running

/-- The attempt after a failure, which may charge it. -/
def failed (a : AttemptEntry) (charges : Bool) : AttemptEntry :=
  { a with state := .failed, charged := a.charged || charges }

/-- A closed attempt that was charged. -/
def spent (a : AttemptEntry) : Prop := a.isOpen = false ∧ a.charged = true

end AttemptEntry

/-- What the tables say about the CI side of one job id. -/
@[ext] structure CIAccount where
  status : Option JobStatus := none
  task : Option CITaskState := none
  repairAttempts : Int := 0
  attempts : List AttemptEntry := []
  escalation : Option EscalationState := none
  deriving DecidableEq, Repr

/-- The statuses in which the worker moves a job outside its CI task. -/
def JobStatus.isUncommitted (s : JobStatus) : Bool :=
  s.isQueued || s = .launched || s = .externalWaiting || s = .reportPending || s = .reportRetry

/-! ## Steps -/

/-- What an observation makes of a job whose CI is green or still pending. -/
inductive Observed : JobStatus → CITaskState → Prop where
  | green : Observed .completed .completed
  | pending : Observed .ciWaiting .waitingCI

/-- The task is in repair. -/
def CITaskState.inRepair (t : CITaskState) : Bool := t = .repairReady || t = .repairRunning

/-- The account with its escalation queued. -/
def CIAccount.escalated (v : CIAccount) : CIAccount :=
  { v with
    status := some .ciEscalation
    task := some .escalationPending
    escalation := some (v.escalation.getD .pending) }

/-- One change of an account under a budget of `maxAttempts`. -/
inductive CIStep (maxAttempts : Int) : CIAccount → CIAccount → Prop where
  /-- The job is worked on outside its CI task. -/
  | work {v : CIAccount} {status : JobStatus} (next : JobStatus) (h : v.status = some status)
      (hu : status.isUncommitted = true) : CIStep maxAttempts v { v with status := some next }
  /-- A delivery creates the job. -/
  | arrive {v : CIAccount} (h : v.status = none) :
      CIStep maxAttempts v { v with status := some .pendingLaunch }
  /-- The result is ready for review; only a launched job changes its status. -/
  | enter {v : CIAccount} {status : JobStatus} (h : v.status = some status)
      (hu : status.isUncommitted = true) :
      CIStep maxAttempts v { v with
        status := some (if status = .launched then .ciWaiting else status)
        task := some (v.task.getD .waitingCI) }
  /-- CI is green or still pending. -/
  | observe {v : CIAccount} {status : JobStatus} {state : CITaskState}
      (hw : v.task = some .waitingCI) (ho : Observed status state) :
      CIStep maxAttempts v { v with status := some status, task := some state }
  /-- CI found a code failure, and the budget allows a repair. -/
  | repair {v : CIAccount} (hw : v.task = some .waitingCI) (hr : v.repairAttempts < maxAttempts) :
      CIStep maxAttempts v { v with
        status := some .ciRepair
        task := some .repairReady
        attempts := v.attempts ++ [⟨v.repairAttempts + 1, .ready, false⟩] }
  /-- CI found something that a repair cannot help. -/
  | escalate {v : CIAccount} (hw : v.task = some .waitingCI) : CIStep maxAttempts v v.escalated
  /-- A repair run was bound to the open attempt. -/
  | bind {v : CIAccount} {t : CITaskState} {closed : List AttemptEntry} {a : AttemptEntry}
      (ht : v.task = some t) (hrepair : t.inRepair = true) (ha : v.attempts = closed ++ [a])
      (hopen : a.isOpen = true) :
      CIStep maxAttempts v { v with
        task := some .repairRunning
        attempts := closed ++ [{ a with state := .running }] }
  /-- The running attempt is charged. -/
  | charge {v : CIAccount} {closed : List AttemptEntry} {a : AttemptEntry}
      (ht : v.task = some .repairRunning) (ha : v.attempts = closed ++ [a])
      (hrunning : a.state = .running) (hc : a.charged = false) :
      CIStep maxAttempts v { v with
        repairAttempts := v.repairAttempts + 1
        attempts := closed ++ [{ a with charged := true }] }
  /-- The charged attempt delivered a candidate. -/
  | deliver {v : CIAccount} {closed : List AttemptEntry} {a : AttemptEntry}
      (ht : v.task = some .repairRunning) (ha : v.attempts = closed ++ [a])
      (hc : a.charged = true) :
      CIStep maxAttempts v { v with
        status := some .ciWaiting
        task := some .waitingCI
        attempts := closed ++ [{ a with state := .candidateDelivered }] }
  /-- The open attempt failed for good. -/
  | giveUp {v : CIAccount} {t : CITaskState} {closed : List AttemptEntry} {a : AttemptEntry}
      (charges : Bool) (ht : v.task = some t) (hrepair : t.inRepair = true)
      (ha : v.attempts = closed ++ [a]) (hc : charges = true → a.charged = false) :
      CIStep maxAttempts v { v.escalated with
        repairAttempts := if charges then v.repairAttempts + 1 else v.repairAttempts
        attempts := closed ++ [a.failed charges] }
  /-- The open attempt failed, and the budget allows another one. -/
  | again {v : CIAccount} {t : CITaskState} {closed : List AttemptEntry} {a : AttemptEntry}
      (ht : v.task = some t) (hrepair : t.inRepair = true) (ha : v.attempts = closed ++ [a])
      (hn : a.number < maxAttempts) :
      CIStep maxAttempts v { v with
        status := some .ciRepair
        task := some .repairReady
        repairAttempts := if a.charged then v.repairAttempts else v.repairAttempts + 1
        attempts := closed ++ [a.failed true] ++ [⟨a.number + 1, .ready, false⟩] }
  /-- The escalation was delivered. -/
  | delivered {v : CIAccount} (h : v.escalation = some .pending) :
      CIStep maxAttempts v { v with
        status := some .failed
        task := v.task.map (fun t => if t = .escalationPending then .escalated else t)
        escalation := some .delivered }
  /-- The escalation cannot be delivered. -/
  | blocked {v : CIAccount} (h : v.escalation = some .pending) :
      CIStep maxAttempts v { v with
        status := some .reportBlocked
        task := v.task.map (fun t => if t = .escalationPending then .escalationBlocked else t)
        escalation := some .blocked }

/-! ## Charges -/

/-- The attempts are numbered from one on. -/
def Numbered (attempts : List AttemptEntry) : Prop :=
  attempts.map AttemptEntry.number = (List.range attempts.length).map (fun i : Nat => (i : Int) + 1)

theorem numbered_append {attempts : List AttemptEntry} :
    Numbered (attempts ++ [a]) ↔ Numbered attempts ∧ a.number = attempts.length + 1 := by
  have hlength : (attempts.map AttemptEntry.number).length =
      ((List.range attempts.length).map (fun i : Nat => (i : Int) + 1)).length := by simp
  simp only [Numbered, List.map_append, List.map_cons, List.map_nil, List.length_append,
    List.length_cons, List.length_nil, zero_add, List.range_succ]
  constructor
  · intro h
    obtain ⟨hinit, hlast⟩ := List.append_inj h hlength
    exact ⟨hinit, by simpa using hlast⟩
  · rintro ⟨hinit, hlast⟩
    rw [hinit, hlast]

/-- The last attempt may change, its number apart. -/
theorem Numbered.replace {closed : List AttemptEntry} {b : AttemptEntry}
    (h : Numbered (closed ++ [a])) (hb : b.number = a.number) : Numbered (closed ++ [b]) := by
  obtain ⟨hclosed, hnumber⟩ := numbered_append.mp h
  exact numbered_append.mpr ⟨hclosed, hb.trans hnumber⟩

/-- Which attempts are open in which state of the task. -/
def Phase : Option CITaskState → List AttemptEntry → Prop
  | none, attempts => attempts = []
  | some .waitingCI, attempts => ∀ a ∈ attempts, a.spent
  | some .repairReady, attempts =>
    ∃ closed a, attempts = closed ++ [a] ∧ (∀ b ∈ closed, b.spent) ∧ a.state = .ready
  | some .repairRunning, attempts =>
    ∃ closed a, attempts = closed ++ [a] ∧ (∀ b ∈ closed, b.spent) ∧ a.state = .running
  | some .completed, attempts | some .escalationPending, attempts
  | some .escalationBlocked, attempts | some .escalated, attempts =>
    ∀ a ∈ attempts, a.isOpen = false

/-- The charges of an account are in order. -/
structure Accounted (maxAttempts : Int) (v : CIAccount) : Prop where
  numbered : Numbered v.attempts
  bounded : (v.attempts.length : Int) ≤ maxAttempts
  charged : v.repairAttempts = v.attempts.countP AttemptEntry.charged
  phase : Phase v.task v.attempts
  /-- A task belongs to a job. -/
  owned : v.task ≠ none → v.status ≠ none

theorem accounted_empty (h : 0 ≤ maxAttempts) : Accounted maxAttempts {} :=
  ⟨rfl, h, rfl, rfl, by simp⟩

/-- A task in repair has one open attempt, its last one. -/
theorem Phase.open_last {attempts : List AttemptEntry} (h : Phase (some t) attempts)
    (ht : t.inRepair = true) :
    ∃ closed a, attempts = closed ++ [a] ∧ (∀ b ∈ closed, b.spent) ∧ a.isOpen = true := by
  cases t <;> simp only [CITaskState.inRepair, decide_true, Bool.or_true, Bool.true_or,
    reduceCtorEq, decide_false, Bool.or_self, Bool.false_eq_true] at ht
  all_goals
    obtain ⟨closed, a, ha, hspent, hstate⟩ := h
    exact ⟨closed, a, ha, hspent, by simp [AttemptEntry.isOpen, hstate]⟩

/-- Every other task has none. -/
theorem Phase.closed {attempts : List AttemptEntry} (h : Phase (some t) attempts)
    (ht : t.inRepair = false) : ∀ a ∈ attempts, a.isOpen = false := by
  cases t with
  | waitingCI => exact fun a ha => (h a ha).1
  | repairReady | repairRunning => simp [CITaskState.inRepair] at ht
  | completed | escalationPending | escalationBlocked | escalated => exact h

/-- The attempts before the last one of a task in repair are spent. -/
theorem Accounted.spent {closed : List AttemptEntry} (h : Accounted maxAttempts v)
    (ht : v.task = some t) (hrepair : t.inRepair = true) (ha : v.attempts = closed ++ [a]) :
    ∀ b ∈ closed, b.spent := by
  obtain ⟨closed', a', ha', hspent, -⟩ :=
    (ht ▸ h.phase : Phase (some t) v.attempts).open_last hrepair
  obtain ⟨rfl, -⟩ := List.append_inj' (ha.symm.trans ha') rfl
  exact hspent

theorem countP_spent {attempts : List AttemptEntry} (h : ∀ a ∈ attempts, a.spent) :
    attempts.countP AttemptEntry.charged = attempts.length :=
  List.countP_eq_length.mpr fun a ha => (h a ha).2

/-- Every step keeps the charges in order. -/
theorem CIStep.accounted (hv : Accounted maxAttempts v) (h : CIStep maxAttempts v v') :
    Accounted maxAttempts v' := by
  obtain ⟨hnumbered, hbounded, hcharged, hphase, howned⟩ := hv
  cases h with
  | work | arrive => exact ⟨hnumbered, hbounded, hcharged, hphase, by simp⟩
  | enter _ _ =>
    refine ⟨hnumbered, hbounded, hcharged, ?_, by simp⟩
    cases ht : v.task with
    | none =>
      rw [ht] at hphase
      simp [Phase, show v.attempts = [] from hphase]
    | some t => rwa [ht] at hphase
  | observe hw ho =>
    rw [hw] at hphase
    refine ⟨hnumbered, hbounded, hcharged, ?_, by simp⟩
    cases ho with
    | green => exact fun a ha => (hphase a ha).1
    | pending => exact hphase
  | repair hw hr =>
    rw [hw] at hphase
    have hlength : v.repairAttempts = v.attempts.length := by rw [hcharged, countP_spent hphase]
    refine ⟨numbered_append.mpr ⟨hnumbered, by simp [hlength]⟩, ?_, ?_, ?_, by simp⟩
    · simp only [List.length_append, List.length_cons, List.length_nil]
      omega
    · simp [hcharged]
    · exact ⟨_, _, rfl, hphase, rfl⟩
  | escalate hw =>
    rw [hw] at hphase
    exact ⟨hnumbered, hbounded, hcharged, fun a ha => (hphase a ha).1,
      by simp [CIAccount.escalated]⟩
  | bind ht hrepair ha hopen =>
    have hspent := Accounted.spent ⟨hnumbered, hbounded, hcharged, hphase, howned⟩ ht hrepair ha
    rw [ha] at hnumbered hbounded hcharged
    refine ⟨hnumbered.replace rfl, by simpa using hbounded,
      by simpa [List.countP_append] using hcharged, ⟨_, _, rfl, hspent, rfl⟩, fun _ => ?_⟩
    exact howned (by simp [ht])
  | charge ht ha hrunning hc =>
    have hspent := Accounted.spent ⟨hnumbered, hbounded, hcharged, hphase, howned⟩ ht rfl ha
    rw [ha] at hnumbered hbounded hcharged
    refine ⟨hnumbered.replace rfl, by simpa using hbounded, ?_, ?_, howned⟩
    · simp only [List.countP_append, List.countP_singleton, hc] at hcharged ⊢
      simp [hcharged]
    · rw [ht]
      exact ⟨_, _, rfl, hspent, hrunning⟩
  | deliver ht ha hc =>
    have hspent := Accounted.spent ⟨hnumbered, hbounded, hcharged, hphase, howned⟩ ht rfl ha
    rw [ha] at hnumbered hbounded hcharged
    refine ⟨hnumbered.replace rfl, by simpa using hbounded,
      by simpa [List.countP_append] using hcharged, fun b hb => ?_, by simp⟩
    rcases List.mem_append.mp hb with hb | hb
    · exact hspent b hb
    · obtain rfl := List.mem_singleton.mp hb
      exact ⟨rfl, hc⟩
  | giveUp charges ht hrepair ha hc =>
    have hspent := Accounted.spent ⟨hnumbered, hbounded, hcharged, hphase, howned⟩ ht hrepair ha
    rw [ha] at hnumbered hbounded hcharged
    refine ⟨hnumbered.replace rfl, by simpa using hbounded, ?_,
      fun b hb => ?_, by simp [CIAccount.escalated]⟩
    · simp only [List.countP_append, List.countP_singleton, AttemptEntry.failed] at hcharged ⊢
      cases charges with
      | false => simpa using hcharged
      | true => simp [hcharged, hc rfl]
    · rcases List.mem_append.mp hb with hb | hb
      · exact (hspent b hb).1
      · obtain rfl := List.mem_singleton.mp hb
        rfl
  | @again t closed a ht hrepair ha hn =>
    have hspent := Accounted.spent ⟨hnumbered, hbounded, hcharged, hphase, howned⟩ ht hrepair ha
    rw [ha] at hnumbered hcharged
    obtain ⟨hclosed, hnumber⟩ := numbered_append.mp hnumbered
    refine ⟨numbered_append.mpr ⟨numbered_append.mpr ⟨hclosed, hnumber⟩, ?_⟩, ?_, ?_,
      ⟨_, _, rfl, fun b hb => ?_, rfl⟩, by simp⟩
    · simp [hnumber]
    · simp only [List.length_append, List.length_cons, List.length_nil]
      omega
    · simp only [List.countP_append, List.countP_singleton, AttemptEntry.failed, Bool.or_true]
        at hcharged ⊢
      cases hc : a.charged <;> simp [hcharged, hc]
    · rcases List.mem_append.mp hb with hb | hb
      · exact hspent b hb
      · obtain rfl := List.mem_singleton.mp hb
        exact ⟨rfl, by simp [AttemptEntry.failed]⟩
  | delivered | blocked =>
    refine ⟨hnumbered, hbounded, hcharged, ?_, by simp⟩
    cases ht : v.task with
    | none => rwa [ht] at hphase
    | some t => rw [ht] at hphase; cases t <;> exact hphase

/-! ## The job -/

/-- The job status that belongs to a task. -/
def CITaskState.jobStatus : CITaskState → JobStatus
  | .waitingCI => .ciWaiting
  | .repairReady | .repairRunning => .ciRepair
  | .completed => .completed
  | .escalationPending => .ciEscalation
  | .escalationBlocked => .reportBlocked
  | .escalated => .failed

/-- The escalation that belongs to a task. -/
def CITaskState.escalation : CITaskState → Option EscalationState
  | .waitingCI | .repairReady | .repairRunning | .completed => none
  | .escalationPending => some .pending
  | .escalationBlocked => some .blocked
  | .escalated => some .delivered

/-- No work outside the CI task moves a job in the status of its task. -/
theorem isUncommitted_jobStatus (t : CITaskState) : t.jobStatus.isUncommitted = false := by
  cases t <;> rfl

/-- A task that left the wait decides the job's status, and every task its escalation. -/
structure InStep (v : CIAccount) : Prop where
  status : ∀ t, v.task = some t → t ≠ .waitingCI → v.status = some t.jobStatus
  escalation : v.escalation = v.task.bind CITaskState.escalation

theorem inStep_empty : InStep {} := ⟨by simp, rfl⟩

/-- A job that other work moves has no task, or one that waits. -/
theorem InStep.task_of_uncommitted {status : JobStatus} (hv : InStep v) (h : v.status = some status)
    (hu : status.isUncommitted = true) : v.task = none ∨ v.task = some .waitingCI := by
  cases ht : v.task with
  | none => exact .inl rfl
  | some t =>
    by_contra hne
    have hstatus := hv.status t ht fun he => hne (.inr (he ▸ rfl))
    obtain rfl := Option.mem_unique h hstatus
    simp [isUncommitted_jobStatus] at hu

/-- A pending escalation belongs to a task that waits for it. -/
theorem InStep.task_of_pending (hv : InStep v) (h : v.escalation = some .pending) :
    v.task = some .escalationPending := by
  have hescalation := hv.escalation
  rw [h] at hescalation
  cases ht : v.task with
  | none => simp [ht] at hescalation
  | some t => cases t <;> simp [ht, CITaskState.escalation] at hescalation ⊢

/-- An account whose job has the status of its task. -/
theorem InStep.of_task (ht : v.task = some t) (hstatus : v.status = some t.jobStatus)
    (he : v.escalation = t.escalation) : InStep v := by
  refine ⟨fun t' ht' _ => ?_, by rw [ht, he]; rfl⟩
  obtain rfl := Option.mem_unique ht ht'
  exact hstatus

/-- A task that waits or is in repair has no escalation, and gets a pending one. -/
theorem InStep.escalated (hv : InStep v) (ht : v.task = some t) (hnone : t.escalation = none) :
    v.escalated.escalation = some .pending := by
  have he := hv.escalation
  rw [ht, Option.bind_some, hnone] at he
  simp [CIAccount.escalated, he]

theorem CITaskState.jobStatus_of_inRepair (h : t.inRepair = true) : t.jobStatus = .ciRepair := by
  cases t <;> first | rfl | simp [CITaskState.inRepair] at h

theorem CITaskState.escalation_of_inRepair (h : t.inRepair = true) : t.escalation = none := by
  cases t <;> first | rfl | simp [CITaskState.inRepair] at h

/-- Every step keeps job and task in step. -/
theorem CIStep.inStep (hv : InStep v) (h : CIStep maxAttempts v v') : InStep v' := by
  cases h with
  | work next hs hu =>
    refine ⟨fun t ht hne => ?_, hv.escalation⟩
    rcases hv.task_of_uncommitted hs hu with h | h
    · cases ht.symm.trans h
    · exact absurd (Option.mem_unique ht h) hne
  | arrive hs =>
    refine ⟨fun t ht hne => ?_, hv.escalation⟩
    cases hs.symm.trans (hv.status t ht hne)
  | enter hs hu =>
    have htask : v.task.getD .waitingCI = .waitingCI := by
      rcases hv.task_of_uncommitted hs hu with h | h <;> simp [h]
    have hnone : v.escalation = none := by
      rw [hv.escalation]
      rcases hv.task_of_uncommitted hs hu with h | h <;> simp [h, CITaskState.escalation]
    refine ⟨fun t ht hne => ?_, by simp [htask, hnone, CITaskState.escalation]⟩
    rw [htask] at ht
    exact absurd (Option.some.inj ht).symm hne
  | observe hw ho =>
    have he : v.escalation = none := by rw [hv.escalation, hw]; rfl
    cases ho with
    | green | pending => exact .of_task rfl rfl he
  | repair hw _ => exact .of_task rfl rfl (by rw [hv.escalation, hw]; rfl)
  | escalate hw => exact .of_task rfl rfl (hv.escalated hw rfl)
  | bind ht hrepair _ _ =>
    have hstatus := hv.status _ ht (by rintro rfl; simp [CITaskState.inRepair] at hrepair)
    refine .of_task rfl (hstatus.trans (by rw [CITaskState.jobStatus_of_inRepair hrepair]; rfl)) ?_
    rw [hv.escalation, ht]
    exact CITaskState.escalation_of_inRepair hrepair
  | charge ht _ _ _ => exact ⟨hv.status, hv.escalation⟩
  | deliver ht _ _ => exact .of_task rfl rfl (by rw [hv.escalation, ht]; rfl)
  | giveUp _ ht hrepair _ _ =>
    exact .of_task rfl rfl (hv.escalated ht (CITaskState.escalation_of_inRepair hrepair))
  | again ht hrepair _ _ =>
    refine .of_task rfl rfl ?_
    rw [hv.escalation, ht]
    exact CITaskState.escalation_of_inRepair hrepair
  | delivered hp =>
    have ht := hv.task_of_pending hp
    exact .of_task (t := .escalated) (by simp [ht]) rfl rfl
  | blocked hp =>
    have ht := hv.task_of_pending hp
    exact .of_task (t := .escalationBlocked) (by simp [ht]) rfl rfl

/-- The job has the status of its task. -/
def Determined (v : CIAccount) : Prop := ∃ t, v.task = some t ∧ v.status = some t.jobStatus

/-- Once a job has the status of its task, every step keeps it so. -/
theorem CIStep.determined (hv : InStep v) (hd : Determined v) (h : CIStep maxAttempts v v') :
    Determined v' := by
  obtain ⟨t, ht, hs⟩ := hd
  -- Other work does not reach the job.
  have hcommitted : ∀ {status}, v.status = some status → status.isUncommitted = true → False := by
    intro status hstatus hu
    obtain rfl := Option.mem_unique hs hstatus
    simp [isUncommitted_jobStatus] at hu
  cases h with
  | work _ hstatus hu | enter hstatus hu => exact (hcommitted hstatus hu).elim
  | arrive hstatus => cases hs.symm.trans hstatus
  | observe hw ho => cases ho <;> exact ⟨_, rfl, rfl⟩
  | repair | escalate | deliver | giveUp | again => exact ⟨_, rfl, rfl⟩
  | bind ht' hrepair ha hopen =>
    obtain rfl := Option.mem_unique ht ht'
    exact ⟨_, rfl, hs.trans (by rw [CITaskState.jobStatus_of_inRepair hrepair]; rfl)⟩
  | charge _ _ _ _ => exact ⟨t, ht, hs⟩
  | delivered hp => exact ⟨.escalated, by simp [hv.task_of_pending hp], rfl⟩
  | blocked hp => exact ⟨.escalationBlocked, by simp [hv.task_of_pending hp], rfl⟩

/-- The task states that are never left. -/
def CITaskState.isFinal (t : CITaskState) : Bool :=
  t = .completed || t = .escalated || t = .escalationBlocked

theorem CITaskState.inRepair_of_isFinal (h : t.isFinal = true) : t.inRepair = false := by
  cases t <;> first | rfl | simp [CITaskState.isFinal] at h

/-- A final task stays as it is. -/
theorem CIStep.final (hv : InStep v) (ht : v.task = some t) (hfinal : t.isFinal = true)
    (h : CIStep maxAttempts v v') : v'.task = some t := by
  cases h with
  | work | arrive | charge => exact ht
  | enter _ _ => simp [ht]
  | observe hw | repair hw | escalate hw =>
    obtain rfl := Option.mem_unique ht hw; cases hfinal
  | bind ht' hrepair | giveUp _ ht' hrepair | again ht' hrepair =>
    obtain rfl := Option.mem_unique ht ht'
    simp [CITaskState.inRepair_of_isFinal hfinal] at hrepair
  | deliver ht' _ _ => obtain rfl := Option.mem_unique ht ht'; cases hfinal
  | delivered hp | blocked hp =>
    obtain rfl := Option.mem_unique ht (hv.task_of_pending hp)
    cases hfinal

end SignalPlane.Dispatcher
