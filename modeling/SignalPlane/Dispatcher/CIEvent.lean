/-
SignalPlane.Dispatcher.CIEvent — what a CI event writes.

`RecordCIEvent` stores a new event and wakes every task it concerns. A task
that waits for CI has the reconciliation of the event's head queued, or marked
dirty while it runs. A task whose repair runs has nothing queued for the head:
the event can only bring forward the status poll of an attempt that waits on
an outside service. `FreshEvent` says which events get that far, and the
lemmas say what becomes of one reconciliation row.

`DeliveryTransaction` lists the transactions of a delivery. They are what can
happen to the store while the worker is between two of its own.
-/
import SignalPlane.Dispatcher.Process

namespace SignalPlane.Dispatcher

open Clock

variable {k : Int × GoString} {t : CITaskRow} {head : GoString} {r : ReconciliationRow}

/-! ## New events -/

/-- `RecordCIEvent` accepts the event, which names `pullNumber`, and has not seen it before. -/
structure FreshEvent (lib : GoLib) (signal : Signal) (pullNumber : Int) (s : Store) : Prop where
  source : signal.source = lit "github"
  delivery : signal.sourceDeliveryID ≠ []
  repository : signal.nameSpace ≠ []
  head : isGithubSHA signal.sourceRevision = true
  kind : isCIWakeEvent signal.sourceEvent = true
  pull : ciEventPull lib signal = .ok pullNumber
  fresh : ∀ e ∈ s.ciEvents.rows, e.deliveryID ≠ signal.sourceDeliveryID ∧
    e.semanticIdentity ≠ (ciEventRow lib signal pullNumber 0).semanticIdentity

/-- The store with the event, before any task is woken. -/
def Store.withEvent (s : Store) (lib : GoLib) (signal : Signal) (pullNumber now : Int) : Store :=
  { s with ciEvents := s.ciEvents.insert (ciEventRow lib signal pullNumber now) }

/-- The tasks an event concerns. -/
def Store.concerned (s : Store) (signal : Signal) (pullNumber : Int) : List CITaskRow :=
  s.ciTasks.rows.filter (fun t => t.concernedBy signal pullNumber)

section Event

variable {lib : GoLib} {signal : Signal} {pullNumber now : Int} {s s' : Store}

theorem recordCIEvent_fresh (h : FreshEvent lib signal pullNumber s) :
    recordCIEvent lib signal now s = .ok ((s.concerned signal pullNumber).foldl
      (wakeTask signal now) (false, s.withEvent lib signal pullNumber now)) := by
  have haccepted : ¬ (signal.source ≠ lit "github" ∨ signal.sourceDeliveryID = [] ∨
      signal.nameSpace = [] ∨ isGithubSHA signal.sourceRevision = false) := by
    simp [h.source, h.delivery, h.repository, h.head]
  have hnew : s.ciEvents.rows.any (fun e =>
      e.deliveryID = (ciEventRow lib signal pullNumber now).deliveryID ||
        e.semanticIdentity = (ciEventRow lib signal pullNumber now).semanticIdentity) = false := by
    rw [List.any_eq_false]
    intro e he
    obtain ⟨hd, hi⟩ := h.fresh e he
    have hd' : e.deliveryID ≠ (ciEventRow lib signal pullNumber now).deliveryID := hd
    have hi' : e.semanticIdentity ≠ (ciEventRow lib signal pullNumber now).semanticIdentity := hi
    simp [hd', hi']
  simp only [recordCIEvent, require, if_pos haccepted, h.kind, h.pull, bind, Except.bind,
    Bool.true_eq_false, if_false, hnew, Bool.false_eq_true]
  rfl

/-- `RecordCIEvent` changes nothing, or the event is new. -/
theorem recordCIEvent_cases {b : Bool} (h : recordCIEvent lib signal now s = .ok (b, s')) :
    s' = s ∨ ∃ pullNumber, FreshEvent lib signal pullNumber s ∧
      s' = ((s.concerned signal pullNumber).foldl (wakeTask signal now)
        (false, s.withEvent lib signal pullNumber now)).2 := by
  have hok := h
  simp only [recordCIEvent, require_bind_eq_ok] at h
  obtain ⟨haccepted, h⟩ := h
  split at h
  · cases h
    exact .inl rfl
  next hkind =>
  simp only [bind_eq_ok] at h
  obtain ⟨pullNumber, hpull, h⟩ := h
  split at h
  · cases h
    exact .inl rfl
  next hnew =>
  simp only [not_or, Bool.not_eq_false, ne_eq, not_not] at haccepted
  obtain ⟨hsource, hdelivery, hrepository, hhead⟩ := haccepted
  have hfresh : FreshEvent lib signal pullNumber s := by
    refine ⟨hsource, hdelivery, hrepository, hhead, by simpa using hkind, hpull, fun e he => ?_⟩
    rw [Bool.not_eq_true, List.any_eq_false] at hnew
    have hne := hnew e he
    rw [Bool.or_eq_true, not_or, decide_eq_true_eq, decide_eq_true_eq] at hne
    exact hne
  refine .inr ⟨pullNumber, hfresh, ?_⟩
  rw [recordCIEvent_fresh hfresh] at hok
  exact (congrArg Prod.snd (Except.ok.inj hok)).symm

end Event

/-! ## One row -/

section Row

variable {signal : Signal} {now : Int}

/-- The row after a wake: a running one is marked dirty. -/
def ReconciliationRow.requeued (r : ReconciliationRow) (now : Int) : ReconciliationRow :=
  { r with
    state := if r.state = .running then .running else .queued
    dirty := if r.state = .running then true else r.dirty
    dueAt := unixMilli now
    updatedAt := unixMilli now }

theorem find?_requeue_self (j : Int) (head : GoString) (rs : Table ReconciliationRow.key) :
    (requeueReconciliation j head now rs).find? (j, head) =
      some (((rs.find? (j, head)).map (fun r => r.requeued now)).getD
        (queuedReconciliation j head now)) := by
  unfold requeueReconciliation
  split
  · next hsome =>
    obtain ⟨r, hr⟩ := Option.isSome_iff_exists.mp hsome
    simp [hr, ReconciliationRow.requeued]
  · next hnone =>
    have hr : rs.find? (j, head) = none := by simpa using hnone
    have hkey : (queuedReconciliation j head now).key = (j, head) := rfl
    rw [Table.find?_insert, hkey, if_pos rfl, hr]
    rfl

theorem find?_requeue_ne {j : Int} (hk : k ≠ (j, head)) (rs : Table ReconciliationRow.key) :
    (requeueReconciliation j head now rs).find? k = rs.find? k := by
  unfold requeueReconciliation
  split
  · exact Table.find?_updateKey_ne _ _ _ _ hk
  · exact Table.find?_insert_ne _ hk

/-- Waking tasks writes attempts and reconciliations only. -/
theorem wakeTasks_frame (signal : Signal) (now : Int) (ts : List CITaskRow) (acc : Bool × Store) :
    ∃ attempts rs, (ts.foldl (wakeTask signal now) acc).2 =
      { acc.2 with attempts := attempts, reconciliations := rs } := by
  induction ts generalizing acc with
  | nil => exact ⟨_, _, rfl⟩
  | cons t ts ih =>
    obtain ⟨attempts, rs, h⟩ := ih (wakeTask signal now acc t)
    rw [List.foldl_cons, h]
    unfold wakeTask
    split
    split <;> exact ⟨_, _, rfl⟩

/-- `g` changes when attempts are due, and only of attempts that wait on an outside service. -/
structure Reschedules (g : AttemptRow → AttemptRow) : Prop where
  times : ∀ a, ∃ dueAt updatedAt, g a = { a with dueAt := dueAt, updatedAt := updatedAt }
  waiting : ∀ a, a.externalWaitGeneration ≤ a.resumedExternalWaitGeneration → g a = a

theorem Reschedules.id : Reschedules id := ⟨fun a => ⟨a.dueAt, a.updatedAt, rfl⟩, fun _ _ => rfl⟩

theorem Reschedules.comp {f g : AttemptRow → AttemptRow} (hf : Reschedules f)
    (hg : Reschedules g) : Reschedules (f ∘ g) where
  times a := by
    obtain ⟨d, u, h⟩ := hg.times a
    obtain ⟨d', u', h'⟩ := hf.times (g a)
    exact ⟨d', u', by rw [Function.comp_apply, h', h]⟩
  waiting a h := by rw [Function.comp_apply, hg.waiting a h, hf.waiting a h]

theorem wakeTasks_attempts (signal : Signal) (now : Int) (ts : List CITaskRow)
    (acc : Bool × Store) :
    ∃ g : AttemptRow → AttemptRow, Reschedules g ∧
      (ts.foldl (wakeTask signal now) acc).2.attempts.rows = acc.2.attempts.rows.map g := by
  induction ts generalizing acc with
  | nil => exact ⟨id, .id, (List.map_id _).symm⟩
  | cons t ts ih =>
    obtain ⟨f, hf, h⟩ := ih (wakeTask signal now acc t)
    obtain ⟨g, hg, h'⟩ : ∃ g : AttemptRow → AttemptRow, Reschedules g ∧
        (wakeTask signal now acc t).2.attempts.rows = acc.2.attempts.rows.map g := by
      unfold wakeTask
      split
      split
      · refine ⟨fun a => if a.awaitsResume t.jobID then
          { a with dueAt := min a.dueAt (unixMilli now), updatedAt := unixMilli now } else a,
          ⟨fun a => ?_, fun a ha => if_neg ?_⟩, rfl⟩
        · split <;> exact ⟨_, _, rfl⟩
        · simp only [AttemptRow.awaitsResume, Bool.and_eq_true, decide_eq_true_eq, not_and]
          omega
      · exact ⟨id, .id, (List.map_id _).symm⟩
    exact ⟨f ∘ g, hf.comp hg, by rw [List.foldl_cons, h, h', List.map_map]⟩

/-- A row that belongs to none of the waiting tasks is not touched. -/
theorem find?_wakeTasks_other (ts : List CITaskRow) (acc : Bool × Store)
    (h : ∀ t ∈ ts, t.state ≠ .repairRunning → k ≠ (t.jobID, signal.sourceRevision)) :
    (ts.foldl (wakeTask signal now) acc).2.reconciliations.find? k =
      acc.2.reconciliations.find? k := by
  induction ts generalizing acc with
  | nil => rfl
  | cons t ts ih =>
    rw [List.foldl_cons, ih _ fun t' ht' => h t' (List.mem_cons_of_mem _ ht')]
    unfold wakeTask
    split
    split
    · rfl
    · next hstate => exact find?_requeue_ne (h t List.mem_cons_self hstate) _

/-- The row of a waiting task and the event's head is requeued once. -/
theorem find?_wakeTasks_self (ts : List CITaskRow) (acc : Bool × Store)
    (hnodup : (ts.map CITaskRow.jobID).Nodup) (ht : t ∈ ts) (hstate : t.state ≠ .repairRunning) :
    (ts.foldl (wakeTask signal now) acc).2.reconciliations.find? (t.jobID, signal.sourceRevision) =
      (requeueReconciliation t.jobID signal.sourceRevision now acc.2.reconciliations).find?
        (t.jobID, signal.sourceRevision) := by
  induction ts generalizing acc with
  | nil => cases ht
  | cons t' ts ih =>
    rw [List.map_cons, List.nodup_cons] at hnodup
    rw [List.foldl_cons]
    rcases List.mem_cons.mp ht with rfl | ht'
    · -- The other tasks are of other jobs.
      rw [find?_wakeTasks_other]
      · unfold wakeTask
        split
        rw [if_neg hstate]
      · intro u hu _ hk
        exact hnodup.1 ((Prod.mk.inj hk).1 ▸ List.mem_map_of_mem hu)
    · rw [ih _ hnodup.2 ht', find?_requeue_self, find?_requeue_self]
      have hne : t.jobID ≠ t'.jobID := fun he => hnodup.1 (he ▸ List.mem_map_of_mem ht')
      have hrow : (wakeTask signal now acc t').2.reconciliations.find?
          (t.jobID, signal.sourceRevision) =
            acc.2.reconciliations.find? (t.jobID, signal.sourceRevision) := by
        unfold wakeTask
        split
        split
        · rfl
        · exact find?_requeue_ne (fun hk => hne (Prod.mk.inj hk).1) _
      rw [hrow]

end Row

section Store

variable {lib : GoLib} {signal : Signal} {pullNumber now : Int} {s s' : Store} {b : Bool}

/-- An event writes events, attempts and reconciliations only. -/
theorem recordCIEvent_frame (h : recordCIEvent lib signal now s = .ok (b, s')) :
    ∃ events attempts rs, s' = { s with
      ciEvents := events, attempts := attempts, reconciliations := rs } := by
  rcases recordCIEvent_cases h with rfl | ⟨pullNumber, -, rfl⟩
  · exact ⟨_, _, _, rfl⟩
  · obtain ⟨attempts, rs, h⟩ := wakeTasks_frame signal now (s.concerned signal pullNumber)
      (false, s.withEvent lib signal pullNumber now)
    rw [h]
    exact ⟨_, _, _, rfl⟩

/-- A new event requeues the reconciliation of its head for a waiting task it concerns. -/
theorem recordCIEvent_requeues (hf : FreshEvent lib signal pullNumber s)
    (ht : s.ciTasks.find? t.jobID = some t) (hc : t.concernedBy signal pullNumber = true)
    (hstate : t.state ≠ .repairRunning) (h : recordCIEvent lib signal now s = .ok (b, s')) :
    s'.reconciliations.find? (t.jobID, signal.sourceRevision) =
      some (((s.reconciliations.find? (t.jobID, signal.sourceRevision)).map
        (fun r => r.requeued now)).getD
          (queuedReconciliation t.jobID signal.sourceRevision now)) := by
  rw [recordCIEvent_fresh hf] at h
  obtain rfl : _ = s' := congrArg Prod.snd (Except.ok.inj h)
  rw [find?_wakeTasks_self _ _ ?_ ?_ hstate, find?_requeue_self]
  · rfl
  · exact s.ciTasks.nodup.sublist ((List.filter_sublist).map _)
  · exact List.mem_filter.mpr ⟨Table.mem_of_find? ht, hc⟩

/-- An event queues nothing for a task whose repair runs. -/
theorem recordCIEvent_repairing (ht : s.ciTasks.find? t.jobID = some t)
    (hstate : t.state = .repairRunning) (h : recordCIEvent lib signal now s = .ok (b, s')) :
    s'.reconciliations.find? (t.jobID, head) = s.reconciliations.find? (t.jobID, head) := by
  rcases recordCIEvent_cases h with rfl | ⟨pullNumber, -, rfl⟩
  · rfl
  · refine find?_wakeTasks_other _ _ fun t' ht' hother hk => hother ?_
    have hmem := (List.mem_filter.mp ht').1
    have hrow := Table.find?_key hmem
    rw [← (Prod.mk.inj hk).1] at hrow
    cases ht.symm.trans hrow
    exact hstate

/-- An event reschedules attempts that wait on an outside service and writes no other. -/
theorem recordCIEvent_attempts (h : recordCIEvent lib signal now s = .ok (b, s')) :
    ∃ g : AttemptRow → AttemptRow, Reschedules g ∧
      s'.attempts.rows = s.attempts.rows.map g := by
  rcases recordCIEvent_cases h with rfl | ⟨pullNumber, -, rfl⟩
  · exact ⟨id, .id, (List.map_id _).symm⟩
  · exact wakeTasks_attempts signal now _ _

/-- A row is left alone or requeued. -/
theorem recordCIEvent_row (hr : s.reconciliations.find? k = some r)
    (h : recordCIEvent lib signal now s = .ok (b, s')) :
    s'.reconciliations.find? k = some r ∨ s'.reconciliations.find? k = some (r.requeued now) := by
  rcases recordCIEvent_cases h with rfl | ⟨pullNumber, hf, rfl⟩
  · exact .inl hr
  by_cases hex : ∃ t ∈ s.concerned signal pullNumber, t.state ≠ .repairRunning ∧
      k = (t.jobID, signal.sourceRevision)
  · obtain ⟨t, ht, hstate, rfl⟩ := hex
    obtain ⟨hmem, hc⟩ := List.mem_filter.mp ht
    refine .inr ?_
    rw [recordCIEvent_requeues hf (Table.find?_key hmem) hc hstate (recordCIEvent_fresh hf), hr]
    rfl
  · refine .inl ?_
    rw [find?_wakeTasks_other _ _ fun t ht hstate hk => hex ⟨t, ht, hstate, hk⟩]
    exact hr

end Store

/-! ## Transactions of a delivery -/

/-- One transaction of a delivery: the CI event, the external wake or the delivery itself. -/
inductive DeliveryTransaction (lib : GoLib) (s s' : Store) : Prop where
  | event {signal : Signal} {now : Int} {b : Bool}
      (h : recordCIEvent lib signal now s = .ok (b, s'))
  | wake {signal : Signal} {now : Int} {b : Bool}
      (h : recordRepositoryRunExternalWake lib signal now s = .ok (b, s'))
  | record {recoveryID deliveryID outcome : GoString} {streamSequence : Nat}
      {candidate : Option Candidate} {now : Int}
      (h : record recoveryID deliveryID outcome streamSequence candidate now s = .ok s')

/-- Deliveries leave the CI tasks alone. -/
theorem DeliveryTransaction.ciTasks {lib : GoLib} {s s' : Store}
    (h : DeliveryTransaction lib s s') : s'.ciTasks = s.ciTasks := by
  cases h with
  | event h =>
    obtain ⟨_, _, _, rfl⟩ := recordCIEvent_frame h
    rfl
  | wake h =>
    obtain ⟨_, _, rfl⟩ := recordRepositoryRunExternalWake_frame h
    rfl
  | record h =>
    obtain ⟨_, _, _, _, rfl⟩ := record_frame h
    rfl

/-- Deliveries requeue reconciliations and write them in no other way. -/
theorem DeliveryTransaction.row {lib : GoLib} {s s' : Store} (h : DeliveryTransaction lib s s')
    (hr : s.reconciliations.find? k = some r) : s'.reconciliations.find? k = some r ∨
      ∃ now, s'.reconciliations.find? k = some (r.requeued now) := by
  cases h with
  | event h => exact (recordCIEvent_row hr h).imp_right fun hk => ⟨_, hk⟩
  | wake h =>
    obtain ⟨_, _, rfl⟩ := recordRepositoryRunExternalWake_frame h
    exact .inl hr
  | record h =>
    obtain ⟨_, _, _, _, rfl⟩ := record_frame h
    exact .inl hr

end SignalPlane.Dispatcher
