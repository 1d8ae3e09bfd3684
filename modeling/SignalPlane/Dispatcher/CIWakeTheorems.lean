/-
SignalPlane.Dispatcher.CIWakeTheorems — CI events that race the worker.

Events are stored once: a redelivery of the same event does nothing. A step
that drops the wake of an event therefore drops it for good, and only the
deadline of the task brings the worker back.

Two races are settled here.

* An event for the head a repair has just pushed, against the transaction that
  records the delivery (`ciEvent_delivery_iff`). After the delivery the event
  queues the reconciliation of the new head. Before it the task is still
  `repair_running`, the event queues nothing, and the delivery queues nothing
  either. The delivery of an attempt that is not charged fails in both orders.
* An event for a head, against the observation of that head that is under way
  (`ciWake_kept_iff`). The event marks the row dirty. A retry and a pending
  observation queue the row again; a stale pull head completes it.
-/
import SignalPlane.Dispatcher.CIEvent
import SignalPlane.Dispatcher.Refinement
import SignalPlane.Dispatcher.TickTheorems

namespace SignalPlane.Dispatcher

open Clock

variable {observation : CIObservation} {maxAttempts : Int} {s : Store} {r : ReconciliationRow}
  {rs : Table ReconciliationRow.key} {p : ReconciliationRow → Bool}
  {f : ReconciliationRow → ReconciliationRow} {reason : GoString} {failure : GoError}

/-! ## An event and the delivery of a repair -/

/-- The task waits for CI at `head`, and the reconciliation of `head` is queued for `due` at the
latest. -/
def AwaitsCI (jobID : Int) (head : GoString) (due : Int) (s : Store) : Prop :=
  (∃ t, s.ciTasks.find? jobID = some t ∧ t.state = .waitingCI ∧ t.currentHeadSHA = head) ∧
    ∃ r, s.reconciliations.find? (jobID, head) = some r ∧ r.state = .queued ∧
      r.dueAt ≤ unixMilli due

/-- The event is recorded, then the delivery. -/
def eventThenDelivery (lib : GoLib) (policy : CIRepairPolicy) (signal : Signal)
    (attemptKey : GoString) (delivery : CIRepairDelivery) (eventAt deliveredAt : Int) (s : Store) :
    Except GoError Store := do
  let (_, s) ← recordCIEvent lib signal eventAt s
  completeCIRepairDelivery policy attemptKey delivery deliveredAt s

/-- The delivery is recorded, then the event. -/
def deliveryThenEvent (lib : GoLib) (policy : CIRepairPolicy) (signal : Signal)
    (attemptKey : GoString) (delivery : CIRepairDelivery) (eventAt deliveredAt : Int) (s : Store) :
    Except GoError Store := do
  let s ← completeCIRepairDelivery policy attemptKey delivery deliveredAt s
  let (_, s) ← recordCIEvent lib signal eventAt s
  return s

/-- Task `t` is under repair by attempt `a`, which waits on no outside service. -/
structure Repairing (t : CITaskRow) (a : AttemptRow) (s : Store) : Prop where
  task : s.ciTasks.find? t.jobID = some t
  repairing : t.state = .repairRunning
  attempt : s.attempts.find? a.attemptKey = some a
  job : a.jobID = t.jobID
  running : a.state = .running
  resumed : a.externalWaitGeneration ≤ a.resumedExternalWaitGeneration

/-- A delivery `CompleteCIRepairDelivery` accepts. -/
structure CIRepairDelivery.Valid (d : CIRepairDelivery) : Prop where
  shas : ∀ sha ∈ [d.expectedOldHeadSHA, d.candidateHeadSHA, d.validatedTreeSHA, d.deliveredHeadSHA,
    d.deliveredTreeSHA], isGithubSHA sha = true
  tree : d.validatedTreeSHA = d.deliveredTreeSHA

section Commute

variable {lib : GoLib} {policy : CIRepairPolicy} {signal : Signal} {t : CITaskRow} {a : AttemptRow}
  {d : CIRepairDelivery} {eventAt deliveredAt now : Int} {s' : Store} {b : Bool}

/-- A delivery moves the task to the new head and queues no reconciliation. -/
theorem completeCIRepairDelivery_repairing (policy : CIRepairPolicy) (now : Int)
    (hr : Repairing t a s) (hcharged : a.charged = true) (hd : d.Valid) :
    ∃ s', completeCIRepairDelivery policy a.attemptKey d now s = .ok s' ∧
      s'.reconciliations = s.reconciliations ∧ s'.ciEvents = s.ciEvents ∧
      ∃ t', s'.ciTasks.find? t.jobID = some t' ∧ t'.jobID = t.jobID ∧ t'.state = .waitingCI ∧
        t'.currentHeadSHA = d.deliveredHeadSHA ∧ t'.repository = t.repository ∧
        t'.pullNumber = t.pullNumber := by
  have hne : a.state ≠ .candidateDelivered := by simp [hr.running]
  simp only [completeCIRepairDelivery, require, if_pos hd.shas, if_pos hd.tree, hr.attempt,
    if_pos hcharged, if_neg hne, if_pos hr.running, bind, Except.bind]
  refine ⟨_, rfl, rfl, rfl, { t with
    state := .waitingCI
    currentHeadSHA := d.deliveredHeadSHA
    lastCIState := []
    deadlineAt := unixMilli (now + policy.reconciliationWake)
    updatedAt := unixMilli now }, ?_, rfl, rfl, rfl, rfl, rfl⟩
  simp [Store.scheduleJob, Store.updateJob, Store.updateTask, Store.updateAttempt, hr.job, hr.task]

/-- A delivery that is accepted is valid, and its attempt is charged. -/
theorem completeCIRepairDelivery_refused (policy : CIRepairPolicy) (now : Int)
    (hr : Repairing t a s) (h : ¬ (a.charged = true ∧ d.Valid)) :
    ∃ e, completeCIRepairDelivery policy a.attemptKey d now s = .error e := by
  cases hrun : completeCIRepairDelivery policy a.attemptKey d now s with
  | error e => exact ⟨e, rfl⟩
  | ok s' =>
    simp only [completeCIRepairDelivery, require_bind_eq_ok, hr.attempt] at hrun
    exact absurd ⟨hrun.2.2.1, hrun.1, hrun.2.1⟩ h

/-- An event leaves a repair under way. -/
theorem Repairing.event (hr : Repairing t a s) (h : recordCIEvent lib signal now s = .ok (b, s')) :
    Repairing t a s' := by
  obtain ⟨g, hg, hrows⟩ := recordCIEvent_attempts h
  have hkey : ∀ a, (g a).attemptKey = a.attemptKey := fun a => by
    obtain ⟨_, _, h⟩ := hg.times a
    rw [h]
  have hattempts : s'.attempts = s.attempts.update (fun _ => true) g hkey :=
    Table.ext (by simp [hrows, Table.update])
  have hattempt : s'.attempts.find? a.attemptKey = some a := by
    rw [hattempts, Table.find?_update, hr.attempt]
    simp [hg.waiting a hr.resumed]
  obtain ⟨_, _, _, rfl⟩ := recordCIEvent_frame h
  exact ⟨hr.task, hr.repairing, hattempt, hr.job, hr.running, hr.resumed⟩

/-- Event first: the reconciliation is queued exactly when it was before. -/
theorem eventThenDelivery_iff {due : Int} (hr : Repairing t a s) (hcharged : a.charged = true)
    (hd : d.Valid) (hf : FreshEvent lib signal t.pullNumber s) :
    (∃ s', eventThenDelivery lib policy signal a.attemptKey d eventAt deliveredAt s = .ok s' ∧
        AwaitsCI t.jobID d.deliveredHeadSHA due s') ↔
      ∃ r, s.reconciliations.find? (t.jobID, d.deliveredHeadSHA) = some r ∧ r.state = .queued ∧
        r.dueAt ≤ unixMilli due := by
  obtain ⟨⟨b, s1⟩, hevent⟩ : ∃ r, recordCIEvent lib signal eventAt s = .ok r :=
    ⟨_, recordCIEvent_fresh hf⟩
  obtain ⟨s2, hdelivered, hrs, -, t', ht', -, hwaiting, hhead, -, -⟩ :=
    completeCIRepairDelivery_repairing policy deliveredAt (hr.event hevent) hcharged hd
  have hrun :
      eventThenDelivery lib policy signal a.attemptKey d eventAt deliveredAt s = .ok s2 := by
    simp only [eventThenDelivery, hevent, bind, Except.bind]
    exact hdelivered
  have hrow : s2.reconciliations.find? (t.jobID, d.deliveredHeadSHA) =
      s.reconciliations.find? (t.jobID, d.deliveredHeadSHA) := by
    rw [hrs, recordCIEvent_repairing hr.task hr.repairing hevent]
  rw [hrun]
  constructor
  · rintro ⟨s', hs', -, r, hrow', hqueued⟩
    cases hs'
    exact ⟨r, hrow ▸ hrow', hqueued⟩
  · rintro ⟨r, hr', hqueued⟩
    exact ⟨s2, rfl, ⟨t', ht', hwaiting, hhead⟩, r, hrow.trans hr', hqueued⟩

/-- Delivery first: the reconciliation is queued unless it is running. -/
theorem deliveryThenEvent_awaits {due : Int} (hr : Repairing t a s) (hcharged : a.charged = true)
    (hd : d.Valid) (hf : FreshEvent lib signal t.pullNumber s) (hpull : 1 ≤ t.pullNumber)
    (hrepository : signal.nameSpace = t.repository)
    (hhead : signal.sourceRevision = d.deliveredHeadSHA)
    (hrow : ∀ r, s.reconciliations.find? (t.jobID, d.deliveredHeadSHA) = some r →
      r.state ≠ .running) (hdue : eventAt ≤ due) :
    ∃ s', deliveryThenEvent lib policy signal a.attemptKey d eventAt deliveredAt s = .ok s' ∧
      AwaitsCI t.jobID d.deliveredHeadSHA due s' := by
  obtain ⟨s1, hdelivered, hrs, hevents, t', ht', hjob, hwaiting, hhead', hrepository', hpull'⟩ :=
    completeCIRepairDelivery_repairing policy deliveredAt hr hcharged hd
  have hf1 : FreshEvent lib signal t.pullNumber s1 := { hf with fresh := hevents ▸ hf.fresh }
  obtain ⟨⟨b, s2⟩, hevent⟩ : ∃ r, recordCIEvent lib signal eventAt s1 = .ok r :=
    ⟨_, recordCIEvent_fresh hf1⟩
  have hconcerned : t'.concernedBy signal t.pullNumber = true := by
    have hpos : 0 < t.pullNumber := by omega
    simp [CITaskRow.concernedBy, hrepository, hrepository', hwaiting, hpull', hpos]
  have hwoken := recordCIEvent_requeues hf1 (hjob ▸ ht') hconcerned (by simp [hwaiting]) hevent
  rw [hjob, hhead, hrs] at hwoken
  refine ⟨s2, ?_, ⟨t', ?_, hwaiting, hhead'⟩, _, hwoken, ?_⟩
  · simp only [deliveryThenEvent, hdelivered, hevent, bind, Except.bind]
    rfl
  · obtain ⟨_, _, _, rfl⟩ := recordCIEvent_frame hevent
    exact ht'
  · have hmilli : unixMilli eventAt ≤ unixMilli due := unixMilli_mono hdue
    cases hstored : s.reconciliations.find? (t.jobID, d.deliveredHeadSHA) with
    | none => exact ⟨rfl, hmilli⟩
    | some r => exact ⟨by simp [ReconciliationRow.requeued, hrow r hstored], hmilli⟩

/-- Without a charged attempt and a valid delivery both orders fail. -/
theorem eventDelivery_refused (hr : Repairing t a s) (h : ¬ (a.charged = true ∧ d.Valid)) :
    (∃ e, eventThenDelivery lib policy signal a.attemptKey d eventAt deliveredAt s = .error e) ∧
      ∃ e, deliveryThenEvent lib policy signal a.attemptKey d eventAt deliveredAt s = .error e := by
  constructor
  · unfold eventThenDelivery
    cases hevent : recordCIEvent lib signal eventAt s with
    | error e => exact ⟨e, rfl⟩
    | ok r => exact completeCIRepairDelivery_refused policy deliveredAt (hr.event hevent) h
  · obtain ⟨e, he⟩ := completeCIRepairDelivery_refused policy deliveredAt hr h
    exact ⟨e, by rw [deliveryThenEvent, he]; rfl⟩

/-- In both orders the task ends waiting for the delivered head with its reconciliation queued in
time exactly when the attempt is charged, the delivery is valid, and that reconciliation was queued
in time before. -/
theorem ciEvent_delivery_iff (hr : Repairing t a s)
    (hf : FreshEvent lib signal t.pullNumber s) (hpull : 1 ≤ t.pullNumber)
    (hrepository : signal.nameSpace = t.repository)
    (hhead : signal.sourceRevision = d.deliveredHeadSHA) :
    ((∃ s', eventThenDelivery lib policy signal a.attemptKey d eventAt deliveredAt s = .ok s' ∧
        AwaitsCI t.jobID d.deliveredHeadSHA (max eventAt deliveredAt) s') ∧
      ∃ s', deliveryThenEvent lib policy signal a.attemptKey d eventAt deliveredAt s = .ok s' ∧
        AwaitsCI t.jobID d.deliveredHeadSHA (max eventAt deliveredAt) s') ↔
      a.charged = true ∧ d.Valid ∧
        ∃ r, s.reconciliations.find? (t.jobID, d.deliveredHeadSHA) = some r ∧ r.state = .queued ∧
          r.dueAt ≤ unixMilli (max eventAt deliveredAt) := by
  by_cases h : a.charged = true ∧ d.Valid
  · obtain ⟨hcharged, hd⟩ := h
    rw [eventThenDelivery_iff hr hcharged hd hf, and_iff_right hcharged, and_iff_right hd]
    refine and_iff_left_of_imp ?_
    rintro ⟨r, hrow, hqueued, -⟩
    refine deliveryThenEvent_awaits hr hcharged hd hf hpull hrepository hhead (fun r' hrow' => ?_)
      (Int.le_max_left ..)
    cases hrow.symm.trans hrow'
    simp [hqueued]
  · refine iff_of_false ?_ fun h' => h ⟨h'.1, h'.2.1⟩
    rintro ⟨⟨s', hs', -⟩, -⟩
    obtain ⟨e, he⟩ := (eventDelivery_refused hr h).1
    cases he.symm.trans hs'

end Commute

namespace Sample

/-- The library of the sample, which also reads the number of its pull request. -/
def pullLib : GoLib := { lib with sscanInt := fun s => if s = lit "7" then some 7 else none }

def pullEnv : Env := { env with lib := pullLib }

/-- CI found a failure in the code. -/
def codeFailure (task : CIRepairTask) (head : GoString) : Except GoError CIObservation :=
  .ok { repository := task.repository
        pullNumber := task.pullNumber
        headSHA := head
        state := lit "code_failure" }

/-- A worker pass in which CI is red. -/
def redPass (now : Int) : Input := .runOne 0 now (answers completed (.ok ready) codeFailure)

/-- The pull request of the sample was pushed to. -/
def pushed (deliveryID head : GoString) : Signal :=
  { source := lit "github"
    sourceEvent := lit "pull_request"
    sourceAction := lit "synchronize"
    sourceDeliveryID := deliveryID
    nameSpace := lit "octo/repo"
    objectKind := lit "pull_request"
    objectID := lit "7"
    sourceRevision := head
    receivedAt := 0
    verified := true
    payload := deliveryID }

/-- The store after an event. -/
def afterEvent (signal : Signal) (now : Int) (s : Store) : Store :=
  match recordCIEvent pullLib signal now s with
  | .ok (_, s') => s'
  | .error _ => s

/-- The attempt that repairs the first head. -/
def repairKey : GoString := ciAttemptKey 1 (lit "agent") (sha 97) 1

/-- CI is red, the repair is launched, and its attempt is charged; the delivery is the next
transaction of the pass. -/
def chargedFrom (s : Store) : Store :=
  let s := run pullEnv [redPass (4 * second), redPass (5 * second)] s
  match chargeCIRepairAttempt repairKey (8 * second) s with
  | .ok s' => s'
  | .error _ => s

/-- The store with one task that waits for CI. -/
def pullStore : Store := run pullEnv (launchedRun ++ [readyPass (3 * second)]) .empty

/-- The repair pushed a new head. -/
def delivered : CIRepairDelivery := ⟨sha 97, sha 99, sha 100, sha 99, sha 100⟩

/-- The task and the attempt of the sample are as `Repairing` asks. -/
def isRepairing (s : Store) : Bool :=
  match s.ciTasks.find? 1, s.attempts.find? repairKey with
  | some t, some a =>
    t.jobID = 1 && t.state = .repairRunning && t.pullNumber = 7 &&
      t.repository = lit "octo/repo" && a.jobID = 1 && a.state = .running && a.charged &&
      a.externalWaitGeneration ≤ a.resumedExternalWaitGeneration
  | _, _ => false

theorem repairing_of_isRepairing (h : isRepairing s = true) :
    ∃ t a, Repairing t a s ∧ a.charged = true ∧ t.jobID = 1 ∧ t.pullNumber = 7 ∧
      t.repository = lit "octo/repo" ∧ a.attemptKey = repairKey := by
  unfold isRepairing at h
  split at h
  · next t a ht ha =>
    simp only [Bool.and_eq_true, decide_eq_true_eq] at h
    obtain ⟨⟨⟨⟨⟨⟨⟨hjob, hstate⟩, hpull⟩, hrepository⟩, hjob'⟩, hrunning⟩, hcharged⟩, hresumed⟩ := h
    have hkey : a.attemptKey = repairKey := Table.key_of_find? ha
    exact ⟨t, a, ⟨hjob ▸ ht, hstate, hkey ▸ ha, hjob'.trans hjob.symm, hrunning, hresumed⟩,
      hcharged, hjob, hpull, hrepository, hkey⟩
  · cases h

theorem pushed_fresh {deliveryID : GoString} (hne : deliveryID ≠ [])
    (h : ∀ e ∈ s.ciEvents.rows, e.deliveryID ≠ deliveryID ∧
      e.semanticIdentity ≠ (ciEventRow pullLib (pushed deliveryID (sha 99)) 7 0).semanticIdentity) :
    FreshEvent pullLib (pushed deliveryID (sha 99)) 7 s := by
  have hrepository : lit "octo/repo" ≠ [] := by decide +kernel
  have hhead : isGithubSHA (sha 99) = true := by decide +kernel
  have hkind : isCIWakeEvent (lit "pull_request") = true := by decide +kernel
  refine ⟨rfl, hne, hrepository, hhead, hkind, ?_, h⟩
  simp [ciEventPull, pushed, pullLib, Option.filter]

theorem delivered_valid : delivered.Valid := ⟨by decide +kernel, rfl⟩

end Sample

open Sample in
/-- The reconciliation of the pushed head was queued while the task waited: both orders leave it
queued. -/
theorem ciEvent_delivery_queued :
    let s := chargedFrom
      (afterEvent (pushed (lit "first") (sha 99)) (3 * second) pullStore)
    let signal := pushed (lit "second") (sha 99)
    (∃ s', eventThenDelivery pullLib policy.1 signal repairKey
        delivered (9 * second) (9 * second) s = .ok s' ∧
        AwaitsCI 1 (sha 99) (9 * second) s') ∧
      ∃ s', deliveryThenEvent pullLib policy.1 signal repairKey
        delivered (9 * second) (9 * second) s = .ok s' ∧
        AwaitsCI 1 (sha 99) (9 * second) s' := by
  intro s signal
  obtain ⟨t, a, hr, hcharged, hjob, hpull, hrepository, hkey⟩ :=
    repairing_of_isRepairing (s := s) (by decide +kernel)
  have hf : FreshEvent pullLib signal 7 s :=
    pushed_fresh (by decide +kernel) (by decide +kernel)
  have hrow : ((s.reconciliations.find? (1, sha 99)).any fun r =>
      r.state = .queued && r.dueAt ≤ unixMilli (9 * second)) = true := by decide +kernel
  obtain ⟨r, hfound, hqueued⟩ := (Option.any_eq_true _ _).mp hrow
  rw [Bool.and_eq_true, decide_eq_true_eq, decide_eq_true_eq] at hqueued
  have hiff := @ciEvent_delivery_iff s pullLib policy.1 signal t a delivered
    (9 * second) (9 * second) hr (hpull ▸ hf) (by omega) hrepository.symm rfl
  rw [hjob, hkey, Int.max_self] at hiff
  exact hiff.mpr ⟨hcharged, delivered_valid, r, hfound, hqueued⟩

open Sample in
/-- The event comes first: nothing is queued for the head the repair pushed. -/
theorem ciEvent_delivery_lost :
    let s := chargedFrom pullStore
    let signal := pushed (lit "first") (sha 99)
    (∃ t a, Repairing t a s ∧ a.charged = true ∧ t.jobID = 1 ∧ t.pullNumber = 7 ∧
        signal.nameSpace = t.repository ∧ a.attemptKey = repairKey) ∧
      delivered.Valid ∧ FreshEvent pullLib signal 7 s ∧
      signal.sourceRevision = delivered.deliveredHeadSHA ∧
      ∃ s', eventThenDelivery pullLib policy.1 signal repairKey
          delivered (9 * second) (9 * second) s = .ok s' ∧
        s'.reconciliations.find? (1, sha 99) = none ∧
        ¬ AwaitsCI 1 (sha 99) (9 * second) s' := by
  intro s signal
  obtain ⟨t, a, hr, hcharged, hjob, hpull, hrepository, hkey⟩ :=
    repairing_of_isRepairing (s := s) (by decide +kernel)
  have hrun : ((eventThenDelivery pullLib policy.1 signal repairKey
      delivered (9 * second) (9 * second) s).toOption.any fun s' =>
        (s'.reconciliations.find? (1, sha 99)).isNone) = true := by decide +kernel
  obtain ⟨s', hs', hnone⟩ := (Option.any_eq_true _ _).mp hrun
  have hok : eventThenDelivery pullLib policy.1 signal repairKey
      delivered (9 * second) (9 * second) s = .ok s' := by
    revert hs'
    cases eventThenDelivery pullLib policy.1 signal repairKey
      delivered (9 * second) (9 * second) s <;> simp [Except.toOption]
  have hnone' := Option.isNone_iff_eq_none.mp hnone
  refine ⟨⟨t, a, hr, hcharged, hjob, hpull, hrepository.symm, hkey⟩, delivered_valid,
    pushed_fresh (by decide +kernel) (by decide +kernel), rfl, s', hok, hnone', ?_⟩
  rintro ⟨-, r, hr', -⟩
  cases hnone'.symm.trans hr'

/-! ## An event and the observation under way -/

/-- How an observation ends: it is applied, or it failed. -/
inductive ObservationEnd where
  | observed (observation : CIObservation) (maxAttempts : Int)
  | failed (failure : GoError) (retry : Bool)

namespace ObservationEnd

/-- The call that ends the observation. -/
def run (lib : GoLib) (policy : CIRepairPolicy) (work : CIReconciliation) (now : Int) :
    ObservationEnd → Store → Except GoError Store
  | .observed observation maxAttempts =>
    applyCIObservation lib policy work observation maxAttempts now
  | .failed failure retry => failCIReconciliation policy work failure retry now

/-- The store after the call; an error rolls its transaction back. -/
def after (lib : GoLib) (policy : CIRepairPolicy) (work : CIReconciliation) (now : Int)
    (e : ObservationEnd) (s : Store) : Store :=
  match e.run lib policy work now s with
  | .ok s' => s'
  | .error _ => s

/-- What the call checks of its arguments and of the task `t`. -/
def Accepted (lib : GoLib) (policy : CIRepairPolicy) (work : CIReconciliation) (now : Int)
    (t : CITaskRow) (s : Store) : ObservationEnd → Prop
  | .observed observation maxAttempts =>
    (1 ≤ maxAttempts ∧ maxAttempts ≤ 2) ∧ observation.repository = work.task.repository ∧
      observation.pullNumber = work.task.pullNumber ∧ isGithubSHA observation.headSHA = true ∧
      observation.state ∈ ciStates ∧
      ((lib.marshalObservation observation).filter (fun e => e.length ≤ 64 * 1024)).isSome = true ∧
      (observation.state = lit "code_failure" → t.repairAttempts < maxAttempts →
        let attempt := newAttempt policy work.task.jobID t.agentModel observation.headSHA
          (t.repairAttempts + 1) now
        s.attempts.find? attempt.attemptKey = none → checkAttemptConstraints s attempt = .ok ())
  | .failed failure retry =>
    retry = true ∨ isStalePullHead failure = true ∨ 12 ≤ work.task.currentHeadSHA.length

/-- The pull head moved on, and the failure is final. -/
def Stale : ObservationEnd → Prop
  | .observed .. => False
  | .failed failure retry => retry = false ∧ isStalePullHead failure = true

end ObservationEnd

/-- The reconciliation of the work is under way, and its task waits for CI. -/
structure Underway (work : CIReconciliation) (t : CITaskRow) (s : Store) : Prop where
  key : work.operationKey = ciReconcileKey work.task.jobID work.headSHA
  row : ∃ r, s.reconciliations.find? (work.task.jobID, work.headSHA) = some r ∧
    r.state = .running
  task : s.ciTasks.find? work.task.jobID = some t
  waiting : t.state = .waitingCI

/-- The reconciliation under way is marked dirty. -/
structure Marked (work : CIReconciliation) (t : CITaskRow) (s : Store) : Prop
    extends Underway work t s where
  dirty : ∀ r, s.reconciliations.find? (work.task.jobID, work.headSHA) = some r → r.dirty = true

/-- The row of the work is queued. -/
def Queued (work : CIReconciliation) (s : Store) : Prop :=
  ∃ r, s.reconciliations.find? (work.task.jobID, work.headSHA) = some r ∧ r.state = .queued

/-- The task of the work waits for CI. -/
def Waiting (work : CIReconciliation) (s : Store) : Prop :=
  ∃ t, s.ciTasks.find? work.task.jobID = some t ∧ t.state = .waitingCI

section Observation

variable {lib : GoLib} {policy : CIRepairPolicy} {work : CIReconciliation} {t : CITaskRow}
  {now : Int} {s' : Store}

theorem Marked.operationKey_of_row (hm : Marked work t s)
    (hr : s.reconciliations.find? (work.task.jobID, work.headSHA) = some r) :
    r.operationKey = work.operationKey := by
  have hkey : r.key = (work.task.jobID, work.headSHA) := Table.key_of_find? hr
  obtain ⟨hj, hh⟩ : r.jobID = work.task.jobID ∧ r.headSHA = work.headSHA := Prod.mk.inj hkey
  rw [hm.key, ReconciliationRow.operationKey, hj, hh]

/-- An update by the operation key of the work, seen at its row. -/
theorem Marked.find?_update (hm : Marked work t s)
    (hr : s.reconciliations.find? (work.task.jobID, work.headSHA) = some r) (hp : p r = true)
    (hrows : rs.rows = s.reconciliations.rows.map fun r =>
      if decide (r.operationKey = work.operationKey) && p r then f r else r)
    (hf : ∀ r, (f r).key = r.key) : rs.find? (work.task.jobID, work.headSHA) = some (f r) := by
  have ht : rs = s.reconciliations.update
      (fun r => decide (r.operationKey = work.operationKey) && p r) f hf := Table.ext hrows
  simp [ht, hr, hm.operationKey_of_row hr, hp]

theorem Marked.eq_of_update (hm : Marked work t s) {r' : ReconciliationRow}
    (hr : s.reconciliations.find? (work.task.jobID, work.headSHA) = some r) (hp : p r = true)
    (hr' : rs.find? (work.task.jobID, work.headSHA) = some r')
    (hrows : rs.rows = s.reconciliations.rows.map fun r =>
      if decide (r.operationKey = work.operationKey) && p r then f r else r)
    (hf : ∀ r, (f r).key = r.key) : r' = f r :=
  Option.mem_unique hr' (hm.find?_update hr hp hrows hf)

theorem Marked.hits (hm : Marked work t s) :
    s.hitsReconciliation work.operationKey (fun r => decide (r.state = .running)) = true := by
  obtain ⟨r, hr, hrunning⟩ := hm.row
  exact List.any_eq_true.mpr
    ⟨r, Table.mem_of_find? hr, by simp [hm.operationKey_of_row hr, hrunning]⟩

/-- An escalated task no longer waits. -/
theorem not_waiting_of_escalation {attempts : Int}
    (h : queueCIEscalation work.task.jobID observation attempts maxAttempts reason now s = .ok s') :
    ¬ Waiting work s' := by
  obtain ⟨⟨t, ht⟩, body, rfl⟩ := queueCIEscalation_ok h
  rintro ⟨t', ht', hwaiting⟩
  simp only [Store.setJobStatus, Store.updateJob, Store.setTaskState, Store.updateTask,
    Table.find?_updateKey_self, ht, Option.map_some, if_true, Option.some.injEq] at ht'
  subst ht'
  cases hwaiting

/-- An escalation needs a task and a head of at least twelve bytes. -/
theorem queueCIEscalation_isOk {k attempts : Int} (ht : (s.ciTasks.find? k).isSome = true) :
    (∃ s', queueCIEscalation k observation attempts maxAttempts reason now s = .ok s') ↔
      12 ≤ observation.headSHA.length := by
  simp only [queueCIEscalation, escalationBody, bind_eq_ok, require_eq_ok, ht, pure_eq_ok]
  constructor
  · rintro ⟨s', body, ⟨head, hhead, -⟩, -⟩
    by_contra hlength
    simp [firstTwelve, Nat.lt_of_not_le hlength] at hhead
  · intro hlength
    have hhead : firstTwelve observation.headSHA = .ok (observation.headSHA.take 12) := by
      simp [firstTwelve, hlength]
    exact ⟨_, _, ⟨_, hhead, rfl⟩, (), trivial, rfl⟩

/-! ### A failed observation -/

/-- A failure is refused only when it escalates and the head is cut short. -/
theorem failCIReconciliation_isOk {retry : Bool} (hm : Marked work t s) :
    (∃ s', failCIReconciliation policy work failure retry now s = .ok s') ↔
      retry = true ∨ isStalePullHead failure = true ∨ 12 ≤ work.task.currentHeadSHA.length := by
  have hkey : work.operationKey ≠ [] := by
    rw [hm.key]
    simp [ciReconcileKey, lit]
  simp only [failCIReconciliation, require_bind_eq_ok, hkey, ne_eq, not_false_eq_true, true_and]
  cases retry with
  | true => simp [expectOne_bind_eq_ok, hm.hits, pure, Except.pure]
  | false =>
    by_cases hstale : isStalePullHead failure = true
    · simp [expectOne_bind_eq_ok, hm.hits, hstale, pure, Except.pure]
    · simp only [Bool.false_eq_true, if_false, expectOne_bind_eq_ok, hm.hits, true_and, hstale,
        false_or]
      exact queueCIEscalation_isOk (by simp [Store.updateReconciliation, hm.task])

/-- A retry queues the row, a stale pull head completes it, and any other failure escalates. -/
theorem failCIReconciliation_wake {retry : Bool} (hm : Marked work t s)
    (h : failCIReconciliation policy work failure retry now s = .ok s') :
    (Waiting work s' → Queued work s') ↔ ¬ (retry = false ∧ isStalePullHead failure = true) := by
  obtain ⟨r, hr, hrunning⟩ := hm.row
  have hp : decide (r.state = .running) = true := by simp [hrunning]
  simp only [failCIReconciliation, require_bind_eq_ok] at h
  obtain ⟨-, h⟩ := h
  cases retry with
  | true =>
    simp only [if_true, expectOne_bind_eq_ok, pure_eq_ok] at h
    obtain ⟨-, rfl⟩ := h
    exact iff_of_true (fun _ => ⟨_, hm.find?_update hr hp rfl fun _ => rfl, rfl⟩) (by simp)
  | false =>
    simp only [Bool.false_eq_true, if_false, expectOne_bind_eq_ok] at h
    obtain ⟨-, h⟩ := h
    split at h
    · next hstale =>
      cases h
      refine iff_of_false (fun himp => ?_) fun hns => hns ⟨rfl, hstale⟩
      -- The task still waits, and its row is completed.
      obtain ⟨r', hr', hqueued⟩ := himp ⟨{ t with
        deadlineAt := unixMilli (now + policy.reconciliationWake)
        updatedAt := unixMilli now },
        by simp [Store.updateJob, Store.updateTask, Store.updateReconciliation, hm.task,
          hm.waiting], hm.waiting⟩
      rw [hm.eq_of_update hr hp hr' rfl fun _ => rfl] at hqueued
      cases hqueued
    · next hstale =>
      refine iff_of_true (fun hwaiting => ?_) fun hns => hstale hns.2
      exact absurd hwaiting (not_waiting_of_escalation h)

/-! ### An applied observation -/

/-- Recording the observation keeps the attempts and the task, and queues the row again when CI is
still pending. -/
theorem recordObservation_marked (lib : GoLib) (observation : CIObservation) (encoded : GoString)
    (now : Int) (hm : Marked work t s) :
    (s.recordObservation lib work observation encoded t now).attempts = s.attempts ∧
      ((s.recordObservation lib work observation encoded t now).ciTasks.find?
        work.task.jobID).isSome = true ∧
      (observation.state = lit "pending" →
        Queued work (s.recordObservation lib work observation encoded t now)) := by
  obtain ⟨r, hr, -⟩ := hm.row
  have hdirty := hm.dirty r hr
  unfold Store.recordObservation
  dsimp only
  refine ⟨?_, ?_, fun hpending => ?_⟩
  · split <;> rfl
  · split <;> simp [Store.updateTask, Store.updateReconciliation, hm.task]
  · split
    all_goals
      refine ⟨_, hm.find?_update hr (p := fun _ => true) rfl rfl fun _ => rfl, ?_⟩
      simp [hdirty, hpending]

/-- The attempt a code failure opens. -/
theorem checkAttemptConstraints_congr {s' : Store} {a : AttemptRow} (h : s'.attempts = s.attempts) :
    checkAttemptConstraints s' a = checkAttemptConstraints s a := by
  simp only [checkAttemptConstraints, h]

/-- For the task of the work, `settleObservation` fails only on the constraints of a new attempt. -/
theorem settleObservation_isOk (ht : (s.ciTasks.find? work.task.jobID).isSome = true)
    (hhead : isGithubSHA observation.headSHA = true) :
    (∃ s', settleObservation policy work.task.jobID observation t maxAttempts now s = .ok s') ↔
      (observation.state = lit "code_failure" → t.repairAttempts < maxAttempts →
        let attempt := newAttempt policy work.task.jobID t.agentModel observation.headSHA
          (t.repairAttempts + 1) now
        s.attempts.find? attempt.attemptKey = none →
          checkAttemptConstraints s attempt = .ok ()) := by
  have hlength : 12 ≤ observation.headSHA.length := by
    simp only [isGithubSHA, Bool.and_eq_true, decide_eq_true_eq] at hhead
    omega
  have hne : lit "success" ≠ lit "code_failure" ∧
      lit "infrastructure_failure" ≠ lit "code_failure" := by decide
  unfold settleObservation
  by_cases hsuccess : observation.state = lit "success"
  · simp [hsuccess, hne.1, pure, Except.pure]
  rw [if_neg hsuccess]
  by_cases hinfra : observation.state = lit "infrastructure_failure"
  · rw [if_pos hinfra, queueCIEscalation_isOk ht]
    exact iff_of_true hlength fun hcode => absurd (hinfra.symm.trans hcode) hne.2
  rw [if_neg hinfra]
  by_cases hcode : observation.state = lit "code_failure"
  · by_cases hbudget : maxAttempts ≤ t.repairAttempts
    · rw [if_pos ⟨hcode, hbudget⟩, queueCIEscalation_isOk ht]
      exact iff_of_true hlength fun _ hlt => absurd hlt (by omega)
    · have hlt : t.repairAttempts < maxAttempts := by omega
      rw [if_neg fun h => hbudget h.2, if_neg (not_not.mpr hcode)]
      simp only [bind_eq_ok, pure_eq_ok, hcode, hlt, forall_const]
      split
      · next hnone =>
        simp only [Option.isNone_iff_eq_none.mp hnone, forall_const]
        constructor
        · rintro ⟨_, u, hu, -⟩
          exact hu
        · exact fun hu => ⟨_, (), hu, rfl⟩
      · next hsome =>
        refine iff_of_true ⟨_, (), rfl, rfl⟩ fun hnone => absurd ?_ hsome
        exact Option.isNone_iff_eq_none.mpr hnone
  · rw [if_neg fun h => hcode h.1, if_pos hcode]
    exact iff_of_true ⟨_, rfl⟩ fun h => absurd h hcode

/-- A settled observation leaves the reconciliations alone, and the task waits only if CI is
pending. -/
theorem settleObservation_wake (ht : (s.ciTasks.find? work.task.jobID).isSome = true)
    (hstate : observation.state ∈ ciStates)
    (h : settleObservation policy work.task.jobID observation t maxAttempts now s = .ok s') :
    s'.reconciliations = s.reconciliations ∧
      (Waiting work s' → observation.state = lit "pending") := by
  obtain ⟨t0, ht0⟩ := Option.isSome_iff_exists.mp ht
  have escalated : ∀ {attempts reason}, queueCIEscalation work.task.jobID observation attempts
      maxAttempts reason now s = .ok s' → s'.reconciliations = s.reconciliations ∧
        (Waiting work s' → observation.state = lit "pending") := fun h => by
    refine ⟨?_, fun hw => absurd hw (not_waiting_of_escalation h)⟩
    obtain ⟨-, body, rfl⟩ := queueCIEscalation_ok h
    rfl
  unfold settleObservation at h
  split at h
  · cases h
    refine ⟨rfl, ?_⟩
    rintro ⟨t', ht', hw⟩
    simp only [Store.setJobStatus, Store.updateJob, Store.updateTask, Table.find?_updateKey_self,
      ht0, Option.map_some, if_true, Option.some.injEq] at ht'
    subst ht'
    cases hw
  split at h
  · exact escalated h
  split at h
  · exact escalated h
  next hsuccess hinfra _ =>
  split at h
  · next hcode =>
    cases h
    refine ⟨rfl, fun _ => ?_⟩
    simpa [ciStates, hsuccess, hinfra, hcode] using hstate
  · simp only [bind_eq_ok, pure_eq_ok] at h
    obtain ⟨-, -, rfl⟩ := h
    refine ⟨rfl, ?_⟩
    rintro ⟨t', ht', hw⟩
    simp only [Store.scheduleJob, Store.updateJob, Store.setTaskState, Store.updateTask,
      Table.find?_updateKey_self, ht0, Option.map_some, if_true, Option.some.injEq] at ht'
    subst ht'
    cases hw

/-- An observation of a waiting task is settled when its arguments are in order. -/
theorem applyCIObservation_eq_ok (hm : Marked work t s) :
    applyCIObservation lib policy work observation maxAttempts now s = .ok s' ↔
      (1 ≤ maxAttempts ∧ maxAttempts ≤ 2) ∧
      (observation.repository = work.task.repository ∧
        observation.pullNumber = work.task.pullNumber ∧ isGithubSHA observation.headSHA = true) ∧
      observation.state ∈ ciStates ∧
      ∃ encoded, (lib.marshalObservation observation).filter (fun e => e.length ≤ 64 * 1024) =
          some encoded ∧
        settleObservation policy work.task.jobID observation t maxAttempts now
          (s.recordObservation lib work observation encoded t now) = .ok s' := by
  have hbudget : ¬ (maxAttempts < 1 ∨ maxAttempts > 2) ↔ 1 ≤ maxAttempts ∧ maxAttempts ≤ 2 := by
    omega
  have hopen : ¬ (t.state = .completed ∨ t.state = .escalated ∨ t.state = .escalationPending ∨
      t.state = .escalationBlocked) := by simp [hm.waiting]
  simp only [applyCIObservation, require_bind_eq_ok, hbudget]
  refine and_congr_right fun _ => and_congr_right fun _ => and_congr_right fun _ => ?_
  split
  · next hnone => simp [hnone]
  · next encoded hencoded => simp [hencoded, hm.task, hopen]

theorem applyCIObservation_isOk (hm : Marked work t s) :
    (∃ s', applyCIObservation lib policy work observation maxAttempts now s = .ok s') ↔
      (ObservationEnd.observed observation maxAttempts).Accepted lib policy work now t s := by
  simp only [applyCIObservation_eq_ok hm, ObservationEnd.Accepted]
  constructor
  · rintro ⟨s', hbudget, ⟨hrepository, hpull, hhead⟩, hstate, encoded, hencoded, h⟩
    obtain ⟨hattempts, ht, -⟩ := recordObservation_marked lib observation encoded now hm
    have hsettled := (settleObservation_isOk ht hhead).mp ⟨s', h⟩
    simp only [hattempts, checkAttemptConstraints_congr hattempts] at hsettled
    exact ⟨hbudget, hrepository, hpull, hhead, hstate, by simp [hencoded], hsettled⟩
  · rintro ⟨hbudget, hrepository, hpull, hhead, hstate, hencoded, hconstraints⟩
    obtain ⟨encoded, hencoded⟩ := Option.isSome_iff_exists.mp hencoded
    obtain ⟨hattempts, ht, -⟩ := recordObservation_marked lib observation encoded now hm
    rw [← hattempts, ← checkAttemptConstraints_congr hattempts] at hconstraints
    obtain ⟨s', h⟩ := (settleObservation_isOk ht hhead).mpr hconstraints
    exact ⟨s', hbudget, ⟨hrepository, hpull, hhead⟩, hstate, encoded, hencoded, h⟩

/-- An applied observation that leaves the task waiting has queued the dirty row again. -/
theorem applyCIObservation_wake (hm : Marked work t s)
    (h : applyCIObservation lib policy work observation maxAttempts now s = .ok s')
    (hw : Waiting work s') : Queued work s' := by
  obtain ⟨-, -, hstate, encoded, -, h⟩ := (applyCIObservation_eq_ok hm).mp h
  obtain ⟨-, ht, hqueued⟩ := recordObservation_marked lib observation encoded now hm
  obtain ⟨hrs, hpending⟩ := settleObservation_wake ht hstate h
  obtain ⟨r, hr, hq⟩ := hqueued (hpending hw)
  exact ⟨r, hrs ▸ hr, hq⟩

/-! ### Between the claim and the call -/

theorem ObservationEnd.accepted_iff (e : ObservationEnd) (hm : Marked work t s) :
    (∃ s', e.run lib policy work now s = .ok s') ↔ e.Accepted lib policy work now t s := by
  cases e with
  | observed observation maxAttempts => exact applyCIObservation_isOk hm
  | failed failure retry => exact failCIReconciliation_isOk hm

/-- The wake of a dirty row survives the call that ends its observation exactly when the call is
accepted and the failure it reports, if any, is not a final stale pull head. -/
theorem ObservationEnd.wake_iff (e : ObservationEnd) (hm : Marked work t s) :
    (Waiting work (e.after lib policy work now s) → Queued work (e.after lib policy work now s)) ↔
      e.Accepted lib policy work now t s ∧ ¬ e.Stale := by
  rw [← e.accepted_iff hm]
  unfold ObservationEnd.after
  cases hrun : e.run lib policy work now s with
  | error err =>
    -- Nothing changed: the task waits and its row is still running.
    refine iff_of_false (fun himp => ?_) (by simp)
    obtain ⟨r, hr, hrunning⟩ := hm.row
    obtain ⟨r', hr', hqueued⟩ := himp ⟨t, hm.task, hm.waiting⟩
    cases hr.symm.trans hr'
    rw [hrunning] at hqueued
    cases hqueued
  | ok s' =>
    have hok : ∃ s'', (Except.ok s' : Except GoError Store) = .ok s'' := ⟨s', rfl⟩
    rw [and_iff_right hok]
    cases e with
    | observed observation maxAttempts =>
      exact iff_of_true (applyCIObservation_wake hm hrun) fun h => h
    | failed failure retry => exact failCIReconciliation_wake hm hrun

theorem claimCIReconciliation_underway {tie : Nat}
    (h : claimCIReconciliation tie now s = .ok (some work, s')) : ∃ t, Underway work t s' := by
  obtain ⟨-, hkey, -, t, ht, -, hwaiting, -⟩ := claimCIReconciliation_due h
  refine ⟨t, hkey, ?_, ht, hwaiting⟩
  unfold claimCIReconciliation at h
  dsimp only at h
  split at h
  · cases h
  next r t' hpick =>
  cases h
  obtain ⟨hmem, ht', -⟩ := mem_claimableReconciliations.mp (mem_of_pick hpick)
  have hjob : t'.jobID = r.jobID := Table.key_of_find? ht'
  have hr : (s.wakeDeadlines now).reconciliations.find? (t'.toTask.jobID, r.headSHA) = some r := by
    rw [CITaskRow.toTask, hjob]
    exact Table.find?_key hmem
  exact Table.exists_of_update hr (p := fun r' => decide (r'.operationKey = r.operationKey) && true)
    (by simp) rfl (fun _ => rfl) rfl

/-- A delivery keeps a running row running, and a dirty one dirty. -/
theorem DeliveryTransaction.running (h : DeliveryTransaction lib s s') {k : Int × GoString}
    (hr : s.reconciliations.find? k = some r) (hrunning : r.state = .running) :
    ∃ r', s'.reconciliations.find? k = some r' ∧ r'.state = .running ∧
      (r.dirty = true → r'.dirty = true) := by
  rcases h.row hr with hr' | ⟨now, hr'⟩
  · exact ⟨r, hr', hrunning, id⟩
  · exact ⟨_, hr', by simp [ReconciliationRow.requeued, hrunning],
      fun _ => by simp [ReconciliationRow.requeued, hrunning]⟩

/-- Any number of transactions of deliveries. -/
abbrev Deliveries (lib : GoLib) : Store → Store → Prop :=
  Relation.ReflTransGen (DeliveryTransaction lib)

theorem DeliveryTransaction.underway (h : DeliveryTransaction lib s s') (hu : Underway work t s) :
    Underway work t s' := by
  obtain ⟨r, hr, hrunning⟩ := hu.row
  obtain ⟨r', hr', hrunning', -⟩ := h.running hr hrunning
  exact ⟨hu.key, ⟨r', hr', hrunning'⟩, h.ciTasks ▸ hu.task, hu.waiting⟩

theorem Underway.deliveries (hu : Underway work t s) (h : Deliveries lib s s') :
    Underway work t s' := by
  induction h with
  | refl => exact hu
  | tail _ hstep ih => exact hstep.underway ih

theorem Marked.deliveries (hm : Marked work t s) (h : Deliveries lib s s') : Marked work t s' := by
  induction h with
  | refl => exact hm
  | tail _ hstep ih =>
    refine ⟨hstep.underway ih.toUnderway, fun r' hr' => ?_⟩
    obtain ⟨r, hr, hrunning⟩ := ih.row
    obtain ⟨r'', hr'', -, hdirty⟩ := hstep.running hr hrunning
    cases hr''.symm.trans hr'
    exact hdirty (ih.dirty r hr)

/-- A new event of the head marks the reconciliation under way. -/
theorem Underway.event {signal : Signal} {pullNumber : Int} {b : Bool} (hu : Underway work t s)
    (hf : FreshEvent lib signal pullNumber s) (hc : t.concernedBy signal pullNumber = true)
    (hhead : signal.sourceRevision = work.headSHA)
    (h : recordCIEvent lib signal now s = .ok (b, s')) : Marked work t s' := by
  obtain ⟨r, hr, hrunning⟩ := hu.row
  have hjob : t.jobID = work.task.jobID := Table.key_of_find? hu.task
  have hrow := recordCIEvent_requeues hf (hjob ▸ hu.task) hc (by simp [hu.waiting]) h
  rw [hjob, hhead, hr] at hrow
  refine ⟨(DeliveryTransaction.event h).underway hu, fun r' hr' => ?_⟩
  cases hrow.symm.trans hr'
  simp [ReconciliationRow.requeued, hrunning]

/-- A new event of `(job, head)` that is recorded while that head is observed: if the task still
waits for CI after the call that ends the observation, the row is queued, provided the call is
accepted and does not report a final stale pull head. For every other call it is not. -/
theorem ciWake_kept_iff {tie : Nat} {claimedAt eventAt : Int} {signal : Signal} {pullNumber : Int}
    {b : Bool} {s₁ s₂ s₃ s₄ : Store} {t : CITaskRow}
    (hclaim : claimCIReconciliation tie claimedAt s = .ok (some work, s₁))
    (hbefore : Deliveries lib s₁ s₂) (hf : FreshEvent lib signal pullNumber s₂)
    (ht : s₂.ciTasks.find? work.task.jobID = some t)
    (hc : t.concernedBy signal pullNumber = true) (hhead : signal.sourceRevision = work.headSHA)
    (hevent : recordCIEvent lib signal eventAt s₂ = .ok (b, s₃)) (hafter : Deliveries lib s₃ s₄)
    (e : ObservationEnd) :
    (Waiting work (e.after lib policy work now s₄) →
        Queued work (e.after lib policy work now s₄)) ↔
      e.Accepted lib policy work now t s₄ ∧ ¬ e.Stale := by
  obtain ⟨t', hu⟩ := claimCIReconciliation_underway hclaim
  have hu₂ := hu.deliveries hbefore
  obtain rfl : t' = t := Option.mem_unique hu₂.task ht
  exact e.wake_iff ((hu₂.event hf hc hhead hevent).deliveries hafter)

end Observation

namespace Sample

/-- A check of the first head finished. -/
def checked : Signal :=
  { source := lit "github"
    sourceEvent := lit "check_run"
    sourceAction := lit "completed"
    sourceDeliveryID := lit "check"
    nameSpace := lit "octo/repo"
    objectKind := lit "commit"
    objectID := []
    sourceRevision := sha 97
    receivedAt := 0
    verified := true
    payload := [] }

/-- The pull head moved on: the broker refuses the requested head. -/
def staleHead : GoError :=
  BrokerError.toError { status := 409, code := lit "stale_pull_head", message := lit "stale" }

theorem checked_fresh (h : s.ciEvents.rows = []) : FreshEvent lib checked 0 s :=
  ⟨by decide +kernel, by decide +kernel, by decide +kernel, by decide +kernel, by decide +kernel,
    by decide +kernel, by simp [h]⟩

/-- The claim of the observation at 4 s and the event at 5 s. -/
theorem observed_meanwhile :
    ∃ work s1 t b s2, claimCIReconciliation 0 (4 * second) ciWaitStore = .ok (some work, s1) ∧
      FreshEvent lib checked 0 s1 ∧ s1.ciTasks.find? work.task.jobID = some t ∧
      t.concernedBy checked 0 = true ∧ checked.sourceRevision = work.headSHA ∧
      recordCIEvent lib checked (5 * second) s1 = .ok (b, s2) := by
  have hclaim : ((claimCIReconciliation 0 (4 * second) ciWaitStore).toOption.any fun r =>
      r.1.any fun work =>
        r.2.ciEvents.rows.isEmpty && decide (checked.sourceRevision = work.headSHA) &&
        (r.2.ciTasks.find? work.task.jobID).any fun t => t.concernedBy checked 0) = true := by
    decide +kernel
  obtain ⟨⟨claimed, s1⟩, hok, h⟩ := (Option.any_eq_true _ _).mp hclaim
  obtain ⟨work, rfl, h⟩ := (Option.any_eq_true _ _).mp h
  rw [Bool.and_eq_true, Bool.and_eq_true, decide_eq_true_eq] at h
  obtain ⟨⟨hempty, hhead⟩, htask⟩ := h
  obtain ⟨t, ht, hc⟩ := (Option.any_eq_true _ _).mp htask
  have hfresh : FreshEvent lib checked 0 s1 := checked_fresh (List.isEmpty_iff.mp hempty)
  refine ⟨work, s1, t, _, _, ?_, hfresh, ht, hc, hhead, recordCIEvent_fresh hfresh⟩
  revert hok
  cases claimCIReconciliation 0 (4 * second) ciWaitStore <;> simp [Except.toOption]

end Sample

open Sample in
/-- A retryable failure leaves the wake in place. -/
theorem ciWake_kept_retry :
    ∃ work s₁ s₂ b, claimCIReconciliation 0 (4 * second) ciWaitStore = .ok (some work, s₁) ∧
      recordCIEvent lib checked (5 * second) s₁ = .ok (b, s₂) ∧
      let e := ObservationEnd.failed unavailable true
      (Waiting work (e.after lib policy.1 work (6 * second) s₂) →
        Queued work (e.after lib policy.1 work (6 * second) s₂)) := by
  obtain ⟨work, s₁, t, b, s₂, hclaim, hfresh, ht, hc, hhead, hevent⟩ := observed_meanwhile
  refine ⟨work, s₁, s₂, b, hclaim, hevent, ?_⟩
  exact (ciWake_kept_iff hclaim .refl hfresh ht hc hhead hevent .refl _).mpr
    ⟨.inl rfl, fun h => by cases h.1⟩

open Sample in
/-- A stale pull head completes the row although an event came in: the task waits and nothing is
queued. -/
theorem ciWake_lost_stale :
    ∃ work s₁ s₂ b, Reachable env ciWaitStore ∧
      claimCIReconciliation 0 (4 * second) ciWaitStore = .ok (some work, s₁) ∧
      FreshEvent lib checked 0 s₁ ∧
      checked.sourceRevision = work.headSHA ∧
      recordCIEvent lib checked (5 * second) s₁ = .ok (b, s₂) ∧
      isRetryable staleHead = false ∧
      ∃ s₃, failCIReconciliation policy.1 work staleHead false (6 * second) s₂ =
          .ok s₃ ∧ Waiting work s₃ ∧ ¬ Queued work s₃ := by
  obtain ⟨work, s₁, t, b, s₂, hclaim, hfresh, ht, hc, hhead, hevent⟩ := observed_meanwhile
  obtain ⟨t', hu⟩ := claimCIReconciliation_underway hclaim
  obtain rfl : t' = t := Option.mem_unique hu.task ht
  have hm := hu.event hfresh hc hhead hevent
  have hstale : isStalePullHead staleHead = true := by decide +kernel
  obtain ⟨s₃, hfail⟩ := (failCIReconciliation_isOk hm).mpr (.inr (.inl hstale))
  have hlost := (not_congr (failCIReconciliation_wake hm hfail)).mpr fun h => h ⟨rfl, hstale⟩
  obtain ⟨hwaiting, hnot⟩ := Classical.not_imp.mp hlost
  exact ⟨work, s₁, s₂, b, ciWaitStore_reachable, hclaim, hfresh, hhead, hevent,
    by decide +kernel, s₃, hfail, hwaiting, hnot⟩

end SignalPlane.Dispatcher
