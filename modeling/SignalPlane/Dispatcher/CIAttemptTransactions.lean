/-
SignalPlane.Dispatcher.CIAttemptTransactions — the transactions of a repair
attempt and of an escalation, as moves of accounts.

An attempt that a claim handed out is the last one of its job as long as it is
open (`InHand`), so whatever is written under its key changes the last entry
of the account and nothing else.
-/
import SignalPlane.Dispatcher.CITransactions

namespace SignalPlane.Dispatcher

open Clock

variable {due j : Int} {state : AttemptState} {p : AttemptRow → Bool} {f : AttemptRow → AttemptRow}
  {g : CITaskRow → CITaskRow} {q : CITaskRow → Bool} {a : AttemptRow} {closed : List AttemptRow}
  {t : CITaskRow} {o : EscalationRow}

/-! ## Attempts -/

section Attempts

variable {maxAttempts now : Int} {policy : CIRepairPolicy} {attempt : CIRepairAttempt}
  {s s' : Store}

/-- The attempt in hand: the last one of its job, whose task is in repair. -/
structure InHand (attempt : CIRepairAttempt) (s : Store) (a : AttemptRow) (closed : List AttemptRow)
    (t : CITaskRow) : Prop where
  find : s.attempts.find? attempt.attemptKey = some a
  key : a.attemptKey = attempt.attemptKey
  job : a.jobID = attempt.jobID
  number : a.attemptNumber = attempt.attemptNumber
  last : s.attemptsOf attempt.jobID = closed ++ [a]
  task : s.ciTasks.find? attempt.jobID = some t
  repair : t.state.inRepair = true
  running : a.state = .running → t.state = .repairRunning

theorem Attending.inHand (h : Attending attempt state s) (hopen : state = .ready ∨ state = .running)
    (hv : Accounted maxAttempts (s.account attempt.jobID)) :
    ∃ a closed t, InHand attempt s a closed t ∧ a.state = state := by
  obtain ⟨a, hfind, hjob, hnumber, hstate⟩ := h
  have hisOpen : a.entry.isOpen = true := by
    rcases hopen with rfl | rfl <;> simp [AttemptEntry.isOpen, AttemptRow.entry, hstate]
  obtain ⟨closed, t, hlast, ht, hrepair, hrunning⟩ :=
    attempt_last (hjob ▸ hv : Accounted maxAttempts (s.account a.jobID)) hfind hisOpen
  exact ⟨a, closed, t, ⟨hfind, Table.key_of_find? hfind, hjob, hnumber, hjob ▸ hlast, hjob ▸ ht,
    hrepair, hrunning⟩, hstate⟩

namespace InHand

variable (h : InHand attempt s a closed t)

include h

theorem attempts : (s.account attempt.jobID).attempts =
    closed.map AttemptRow.entry ++ [a.entry] := by
  simp [Store.account, h.last]

theorem account_task : (s.account attempt.jobID).task = some t.state :=
  Dispatcher.account_task h.task

/-- An update of the attempt changes the last entry of its job, -/
theorem updateAttempt {hf : ∀ a, (f a).attemptKey = a.attemptKey} (hp : p a = true)
    (hjob : ∀ a, (f a).jobID = a.jobID) :
    (s.updateAttempt attempt.attemptKey p f hf).account attempt.jobID =
      { s.account attempt.jobID with
        attempts := closed.map AttemptRow.entry ++ [(f a).entry] } := by
  have hlast := h.last
  rw [← h.job] at hlast
  rw [← h.key, ← h.job]
  exact Store.account_updateAttempt_last hlast hp hjob

/-- and nothing else. -/
theorem updateAttempt_ne {hf : ∀ a, (f a).attemptKey = a.attemptKey}
    (hjob : ∀ a, (f a).jobID = a.jobID) {i : Int} (hi : i ≠ attempt.jobID) :
    (s.updateAttempt attempt.attemptKey p f hf).account i = s.account i :=
  Store.account_updateAttempt_ne h.find hjob (h.job ▸ hi)

/-- The update of the task that follows an update of the attempt. -/
theorem updateBoth {hf : ∀ a, (f a).attemptKey = a.attemptKey} {hg : ∀ t, (g t).jobID = t.jobID}
    (hp : p a = true) (hq : q t = true) (hjob : ∀ a, (f a).jobID = a.jobID) :
    ((s.updateAttempt attempt.attemptKey p f hf).updateTask attempt.jobID q g hg).account
        attempt.jobID =
      { s.account attempt.jobID with
        task := some (g t).state
        repairAttempts := (g t).repairAttempts
        attempts := closed.map AttemptRow.entry ++ [(f a).entry] } := by
  have htask : (s.updateAttempt attempt.attemptKey p f hf).ciTasks.find? attempt.jobID = some t :=
    h.task
  rw [Store.account_updateTask htask hq, h.updateAttempt hp hjob]

theorem updateBoth_ne {hf : ∀ a, (f a).attemptKey = a.attemptKey} {hg : ∀ t, (g t).jobID = t.jobID}
    (hjob : ∀ a, (f a).jobID = a.jobID) {i : Int} (hi : i ≠ attempt.jobID) :
    ((s.updateAttempt attempt.attemptKey p f hf).updateTask attempt.jobID q g hg).account i =
      s.account i :=
  (Store.account_updateTask_ne hi).trans (h.updateAttempt_ne hjob hi)

end InHand

theorem bindCIRepairRun_moves {runID : GoString} (ha : Attending attempt state s)
    (hopen : state = .ready ∨ state = .running)
    (hv : Accounted maxAttempts (s.account attempt.jobID))
    (h : bindCIRepairRun attempt runID now s = .ok s') : Moves maxAttempts attempt.jobID s s' := by
  obtain ⟨a, closed, t, hhand, rfl⟩ := ha.inHand hopen hv
  simp only [bindCIRepairRun, require_bind_eq_ok, hhand.find, pure_eq_ok] at h
  obtain ⟨-, -, rfl⟩ := h
  have hstate : (decide (a.state = .ready) || decide (a.state = .running)) = true := by
    rcases hopen with h | h <;> simp [h]
  refine ⟨fun i hi => hhand.updateBoth_ne ?_ hi, .inr ?_,
    Store.keyed_rewrite rfl fun _ => ⟨rfl, rfl, rfl⟩⟩
  · exact fun _ => rfl
  · rw [hhand.updateBoth, ← account_repairAttempts hhand.task]
    · exact .bind hhand.account_task hhand.repair hhand.attempts hstate
    · exact hstate
    · exact hhand.repair
    · exact fun _ => rfl

theorem chargeCIRepairAttempt_moves (ha : Attending attempt .running s)
    (hv : Accounted maxAttempts (s.account attempt.jobID))
    (h : chargeCIRepairAttempt attempt.attemptKey now s = .ok s') :
    Moves maxAttempts attempt.jobID s s' := by
  obtain ⟨a, closed, t, hhand, hstate⟩ := ha.inHand (.inr rfl) hv
  simp only [chargeCIRepairAttempt, hhand.find, require_bind_eq_ok] at h
  obtain ⟨-, h⟩ := h
  split at h
  · cases h
    exact .of_tables rfl rfl rfl rfl
  next hc =>
  simp only [expectOne_bind_eq_ok, pure_eq_ok, hhand.job] at h
  obtain ⟨hhits, rfl⟩ := h
  have hlt : decide (t.repairAttempts < a.attemptNumber) = true := by
    simpa [Table.hits, hhand.task] using hhits
  have hcharged : a.charged = false := by simpa using hc
  refine ⟨fun i hi => hhand.updateBoth_ne ?_ hi, .inr ?_,
    Store.keyed_rewrite rfl fun _ => ⟨rfl, rfl, rfl⟩⟩
  · exact fun _ => rfl
  · rw [hhand.updateBoth]
    · have hstep : CIStep maxAttempts (s.account attempt.jobID) _ :=
        .charge (hhand.running hstate ▸ hhand.account_task) hhand.attempts hstate hcharged
      rw [account_repairAttempts hhand.task] at hstep
      have htask := hhand.account_task
      rwa [htask] at hstep
    · simp [hcharged]
    · exact hlt
    · exact fun _ => rfl

/-- A charged attempt stays in hand. -/
theorem chargeCIRepairAttempt_attends (ha : Attending attempt state s)
    (h : chargeCIRepairAttempt attempt.attemptKey now s = .ok s') : Attending attempt state s' := by
  unfold chargeCIRepairAttempt at h
  split at h
  · cases h
  simp only [require_bind_eq_ok] at h
  obtain ⟨-, h⟩ := h
  split at h
  · cases h
    exact ha
  simp only [expectOne_bind_eq_ok, pure_eq_ok] at h
  obtain ⟨-, rfl⟩ := h
  have hkept : Attending attempt state (s.updateAttempt attempt.attemptKey
      (fun a => decide (a.charged = false))
      (fun a => { a with charged := true, updatedAt := unixMilli now }) (fun _ => rfl)) :=
    ha.updateAttempt fun _ => ⟨rfl, rfl, rfl⟩
  exact hkept

/-- The attempt and its task rewritten, with neither in another state. -/
theorem InHand.rewrite (f : AttemptRow → AttemptRow) (hf : ∀ a, (f a).attemptKey = a.attemptKey)
    (g : CITaskRow → CITaskRow) (hg : ∀ t, (g t).jobID = t.jobID) (h : InHand attempt s a closed t)
    (hsame : ∀ a, (f a).jobID = a.jobID ∧ (f a).attemptNumber = a.attemptNumber ∧
      (f a).state = a.state) (hstate : ∀ t, (g t).state = t.state) :
    InHand attempt ((s.updateAttempt attempt.attemptKey (fun _ => true) f hf).updateTask
      attempt.jobID (fun _ => true) g hg) (f a) closed (g t) := by
  obtain ⟨hjob, hnumber, hst⟩ := hsame a
  refine ⟨?_, (hf a).trans h.key, hjob.trans h.job, hnumber.trans h.number, ?_, ?_, ?_, ?_⟩
  · have hfind := h.find
    simp only [Store.updateTask, Store.updateAttempt, Table.find?_updateKey_self, hfind,
      Option.map_some, if_true]
  · have hlast := h.last
    rw [← h.job] at hlast
    rw [← h.key, ← h.job]
    show (s.updateAttempt a.attemptKey (fun _ => true) f hf).attemptsOf a.jobID = closed ++ [f a]
    exact Store.attemptsOf_updateAttempt_last hlast rfl fun a => (hsame a).1
  · simp only [Store.updateTask, Store.updateAttempt, Table.find?_updateKey_self, h.task,
      Option.map_some, if_true]
  · rw [hstate]
    exact h.repair
  · rw [hst, hstate]
    exact h.running

/-- The account after an attempt failed, before what follows is decided. -/
theorem InHand.failAttempt (h : InHand attempt s a closed t) (charges : Bool)
    (failureClass detail : GoString) (now : Int) :
    let s1 := s.failAttempt attempt.attemptKey t charges
      (if charges then t.repairAttempts + 1 else t.repairAttempts) failureClass detail now
    s1.account attempt.jobID =
        { s.account attempt.jobID with
          repairAttempts := if charges then (s.account attempt.jobID).repairAttempts + 1
            else (s.account attempt.jobID).repairAttempts
          attempts := closed.map AttemptRow.entry ++ [a.entry.failed charges] } ∧
      (∀ i, i ≠ attempt.jobID → s1.account i = s.account i) ∧ (s.Keyed → s1.Keyed) ∧
      s1.jobs = s.jobs ∧ ∃ t1, s1.ciTasks.find? attempt.jobID = some t1 := by
  have htask : t.jobID = attempt.jobID := Table.key_of_find? h.task
  have hcount := account_repairAttempts h.task
  cases charges with
  | false =>
    refine ⟨(h.updateAttempt ?_ ?_).trans ?_, fun i hi => h.updateAttempt_ne ?_ hi,
      Store.keyed_rewrite rfl fun _ => ⟨rfl, rfl, rfl⟩, rfl, t, h.task⟩
    · rfl
    · exact fun _ => rfl
    · simp [AttemptRow.entry, AttemptEntry.failed]
    · exact fun _ => rfl
  | true =>
    simp only [Store.failAttempt, if_true, htask]
    -- The attempt is charged first, and is still in hand.
    have hcharged := h.rewrite (fun a => { a with charged := true }) (fun _ => rfl)
      (fun t' => { t' with
        repairAttempts := t.repairAttempts + 1
        updatedAt := unixMilli now }) (fun _ => rfl) (fun _ => ⟨rfl, rfl, rfl⟩) fun _ => rfl
    refine ⟨(hcharged.updateAttempt ?_ ?_).trans ?_, fun i hi =>
      (hcharged.updateAttempt_ne ?_ hi).trans (h.updateBoth_ne ?_ hi), fun hk =>
      Store.keyed_rewrite rfl (fun _ => ⟨rfl, rfl, rfl⟩)
        (Store.keyed_rewrite rfl (fun _ => ⟨rfl, rfl, rfl⟩) hk), rfl, _, hcharged.task⟩
    · rfl
    · exact fun _ => rfl
    · rw [h.updateBoth]
      · simp [AttemptRow.entry, AttemptEntry.failed, hcount, h.account_task]
      · rfl
      · rfl
      · exact fun _ => rfl
    · exact fun _ => rfl
    · exact fun _ => rfl

/-- A failed attempt escalates, or is followed by the next one. -/
theorem finishCIRepairFailure_moves {lib : GoLib} {failureClass detail : GoString}
    {modelStarted : Bool} (ha : Attending attempt state s)
    (hopen : state = .ready ∨ state = .running)
    (hv : Accounted maxAttempts (s.account attempt.jobID))
    (h : finishCIRepairFailure lib policy attempt failureClass modelStarted detail maxAttempts now s
      = .ok s') : Moves maxAttempts attempt.jobID s s' := by
  obtain ⟨a, closed, t, hhand, rfl⟩ := ha.inHand hopen hv
  obtain ⟨r, hr⟩ := hv.job_row hhand.task
  have htask : t.jobID = attempt.jobID := Table.key_of_find? hhand.task
  have hfailed : a.state ≠ .failed := by rcases hopen with h | h <;> simp [h]
  simp only [finishCIRepairFailure, hhand.find, hhand.job, hhand.task, if_neg hfailed,
    require_bind_eq_ok] at h
  obtain ⟨-, -, -, -, h⟩ := h
  obtain ⟨haccount, hothers, hkeyed, hjobs, t1, ht1⟩ :=
    hhand.failAttempt (modelStarted && !a.charged) failureClass detail now
  have hgiveUp : CIStep maxAttempts (s.account attempt.jobID) _ :=
    .giveUp (modelStarted && !a.charged) hhand.account_task hhand.repair hhand.attempts
      (by simp [AttemptRow.entry])
  generalize s.failAttempt _ _ _ _ _ _ _ = s1 at *
  generalize (if (modelStarted && !a.charged) = true then t.repairAttempts + 1
    else t.repairAttempts) = count at h
  have hr1 : s1.jobs.find? attempt.jobID = some r := hjobs ▸ hr
  have hescalate : ∀ {observation attempts reason s'},
      queueCIEscalation attempt.jobID observation attempts maxAttempts reason now s1 = .ok s' →
      Moves maxAttempts attempt.jobID s s' := by
    intro observation attempts reason s' h
    obtain ⟨hself, hne, hattempts⟩ := queueCIEscalation_account h ht1 hr1
    refine ⟨fun i hi => (hne i hi).trans (hothers i hi), .inr ?_, fun hk => ?_⟩
    · rw [hself, haccount]
      exact hgiveUp
    · have := hkeyed hk
      rwa [Store.Keyed, hattempts]
  simp only [continueAfterFailure, htask] at h
  split at h
  · split at h <;> exact hescalate h
  next hnext =>
  -- Only a charged attempt below the budget is followed by another one.
  have hstarted : modelStarted = true := by
    by_contra hne
    simp [hne] at hnext
  have hn : a.entry.number < maxAttempts := by
    simp only [Bool.or_eq_true, decide_eq_true_eq, not_or, not_le] at hnext
    exact lt_of_eq_of_lt hhand.number hnext.2
  rw [require_bind_eq_ok] at h
  obtain ⟨hnew, h⟩ := h
  simp only [bind_eq_ok, pure_eq_ok] at h
  obtain ⟨-, -, rfl⟩ := h
  let next := newAttempt policy attempt.jobID t.agentModel t.currentHeadSHA
    (attempt.attemptNumber + 1) now
  have hself : ({ s1 with attempts := s1.attempts.insert next } : Store).account attempt.jobID =
      { s1.account attempt.jobID with
        attempts := (s1.account attempt.jobID).attempts ++
          [⟨a.attemptNumber + 1, .ready, false⟩] } := by
    rw [hhand.number]
    exact Store.account_insertAttempt (Option.isNone_iff_eq_none.mp hnew)
  refine Moves.of_moveTask_after (t := t1) (r := r) ?_ ?_ ?_ ?_ ?_
  · exact fun i hi => (Store.account_insertAttempt_ne hi).trans (hothers i hi)
  · exact fun hk => Store.keyed_insertAttempt (hkeyed hk) ⟨_, _, rfl⟩
  · exact ht1
  · exact hr1
  · have hstep : CIStep maxAttempts (s.account attempt.jobID) _ :=
      .again hhand.account_task hhand.repair hhand.attempts hn
    have hcount := account_repairAttempts ht1
    rw [haccount] at hcount hself
    rw [show Store.account _ attempt.jobID = _ from hself, ← hcount]
    cases hc : a.charged <;> simpa [hc, hstarted, AttemptRow.entry, AttemptEntry.failed] using hstep

theorem completeCIRepairDelivery_moves {delivery : CIRepairDelivery}
    (ha : Attending attempt .running s) (hv : Accounted maxAttempts (s.account attempt.jobID))
    (h : completeCIRepairDelivery policy attempt.attemptKey delivery now s = .ok s') :
    Moves maxAttempts attempt.jobID s s' := by
  obtain ⟨a, closed, t, hhand, hstate⟩ := ha.inHand (.inr rfl) hv
  obtain ⟨r, hr⟩ := hv.job_row hhand.task
  have hdelivered : a.state ≠ .candidateDelivered := by simp [hstate]
  simp only [completeCIRepairDelivery, hhand.find, hhand.job, if_neg hdelivered, require_bind_eq_ok,
    pure_eq_ok] at h
  obtain ⟨-, -, hcharged, -, rfl⟩ := h
  refine Moves.of_moveTask_after (t := t) (r := r) ?_ ?_ ?_ ?_ ?_
  · refine fun i hi => hhand.updateAttempt_ne ?_ hi
    exact fun _ => rfl
  · exact Store.keyed_rewrite rfl fun _ => ⟨rfl, rfl, rfl⟩
  · exact hhand.task
  · exact hr
  · rw [hhand.updateAttempt]
    · have hstep : CIStep maxAttempts (s.account attempt.jobID) _ :=
        .deliver (hhand.running hstate ▸ hhand.account_task) hhand.attempts hcharged
      rw [← account_repairAttempts hhand.task]
      exact hstep
    · rfl
    · exact fun _ => rfl

end Attempts

/-! ## Escalations -/

section Escalations

variable {maxAttempts now : Int} {report : CIEscalationReport} {s s' : Store}

theorem Store.account_updateEscalation {p : EscalationRow → Bool}
    {f : EscalationRow → EscalationRow} {hf : ∀ o, (f o).jobID = o.jobID}
    (ho : s.escalations.find? j = some o) (hp : p o = true) :
    ({ s with escalations := s.escalations.updateKey j p f hf } : Store).account j =
      { s.account j with escalation := some (f o).state } := by
  simp only [Store.account, Table.find?_updateKey_self, ho, Option.map_some, hp, if_true]
  rfl

theorem Store.account_updateEscalation_ne {i : Int} {p : EscalationRow → Bool}
    {f : EscalationRow → EscalationRow} {hf : ∀ o, (f o).jobID = o.jobID} (hi : i ≠ j) :
    ({ s with escalations := s.escalations.updateKey j p f hf } : Store).account i =
      s.account i := by
  simp [Store.account, hi, Store.attemptsOf]

/-- The task of an escalation follows it, if it still waits for it. -/
theorem Store.account_endTask {state : CITaskState} {hg : ∀ t, (g t).jobID = t.jobID}
    (h : ∀ t, (g t).state = state ∧ (g t).repairAttempts = t.repairAttempts) :
    (s.updateTask j (fun t => t.state = .escalationPending) g hg).account j =
      { s.account j with
        task := (s.account j).task.map (fun t => if t = .escalationPending then state else t) }
  := by
  simp only [Store.account, Store.updateTask, Table.find?_updateKey_self]
  cases s.ciTasks.find? j with
  | none => rfl
  | some t =>
    simp only [Option.map_some, decide_eq_true_eq]
    split
    · simp only [(h t).1, (h t).2]
      rfl
    · rfl

/-- What both ends of an escalation write: the escalation, its task and its job. -/
theorem Moves.of_endEscalation {state : CITaskState} {r : JobRow} {p : EscalationRow → Bool}
    {f : EscalationRow → EscalationRow} {hf : ∀ o, (f o).jobID = o.jobID}
    {hg : ∀ t, (g t).jobID = t.jobID} {k : JobRow → JobRow} {hk : ∀ r, (k r).id = r.id}
    (ho : s.escalations.find? j = some o) (hp : p o = true) (hr : s.jobs.find? j = some r)
    (h : ∀ t, (g t).state = state ∧ (g t).repairAttempts = t.repairAttempts)
    (hstep : CIStep maxAttempts (s.account j)
      { s.account j with
        status := some (k r).status
        task := (s.account j).task.map (fun t => if t = .escalationPending then state else t)
        escalation := some (f o).state }) : Moves maxAttempts j s
      ((({ s with escalations := s.escalations.updateKey j p f hf } : Store).updateTask j
        (fun t => t.state = .escalationPending) g hg).updateJob j (fun _ => true) k hk) := by
  refine ⟨fun i hi => ?_, .inr ?_, id⟩
  · rw [Store.account_updateJob_ne hi, Store.account_updateTask_ne hi,
      Store.account_updateEscalation_ne hi]
  · rw [Store.account_updateJob, Store.account_endTask h, Store.account_updateEscalation ho hp]
    · exact hstep
    · exact hr
    · rfl

/-- An escalation is claimed for a stored job. -/
theorem claimCIEscalation_job (h : claimCIEscalation now s = .ok (some report, s')) :
    (s'.jobs.find? report.job.id).isSome = true := by
  unfold claimCIEscalation at h
  dsimp only at h
  split at h
  · cases h
  · split at h
    · cases h
    · next j hj =>
      cases h
      have hrow : s.jobs.find? j.id = some j := (Table.key_of_find? hj : j.id = _) ▸ hj
      exact Option.isSome_iff_exists.mpr ⟨j, hrow⟩

/-- An escalation that can be ended is stored, and still pending. -/
theorem pending_of_hits (h : (s.escalations.hits j fun o => o.isPendingFor report) = true) :
    ∃ o, s.escalations.find? j = some o ∧ o.isPendingFor report = true ∧
      (s.account j).escalation = some .pending := by
  obtain ⟨o, ho, hp⟩ := (Option.any_eq_true _ _).mp h
  refine ⟨o, ho, hp, ?_⟩
  simp only [EscalationRow.isPendingFor, Bool.and_eq_true, decide_eq_true_eq] at hp
  simp [Store.account, ho, hp.2]

theorem markCIEscalationDelivered_moves {lib : GoLib} {result : CommentResult}
    (hj : (s.jobs.find? report.job.id).isSome = true)
    (h : markCIEscalationDelivered lib report result now s = .ok s') :
    Moves maxAttempts report.job.id s s' := by
  obtain ⟨r, hr⟩ := Option.isSome_iff_exists.mp hj
  simp only [markCIEscalationDelivered, require_bind_eq_ok, expectOne_bind_eq_ok, pure_eq_ok] at h
  obtain ⟨-, hhits, rfl⟩ := h
  obtain ⟨o, ho, hp, hpending⟩ := pending_of_hits hhits
  refine Moves.of_endEscalation (o := o) (r := r) ho hp hr (fun _ => ⟨rfl, rfl⟩) ?_
  exact .delivered hpending

theorem markCIEscalationFailure_moves {retry : Bool} {message : GoString}
    (hj : (s.jobs.find? report.job.id).isSome = true)
    (h : markCIEscalationFailure report retry message now s = .ok s') :
    Moves maxAttempts report.job.id s s' := by
  obtain ⟨r, hr⟩ := Option.isSome_iff_exists.mp hj
  simp only [markCIEscalationFailure, expectOne_bind_eq_ok] at h
  obtain ⟨hhits, h⟩ := h
  obtain ⟨o, ho, hp, hpending⟩ := pending_of_hits hhits
  split at h
  · cases h
    -- The escalation stays pending, with another due time.
    refine ⟨fun i hi => Store.account_updateEscalation_ne hi, .inl ?_, id⟩
    rw [Store.account_updateEscalation ho hp]
    exact CIAccount.ext rfl rfl rfl rfl hpending.symm
  · cases h
    refine Moves.of_endEscalation (o := o) (r := r) ho hp hr (fun _ => ⟨rfl, rfl⟩) ?_
    exact .blocked hpending

end Escalations

end SignalPlane.Dispatcher
