/-
SignalPlane.Dispatcher.Spares — transactions that leave reports and
escalations alone.

A report lives in `terminal_results` and `notification_outbox`, an escalation
in `repository_ci_escalation_outbox`. Apart from the operations that queue and
deliver them, every transaction of a pass `Spares` both: the two report tables
stay as they are, an escalation row is kept or inserted as a pending one, and
every job row goes on (`JobRow.Continues`). A delivery also brings new jobs.
-/
import SignalPlane.Dispatcher.CIJobTransactions
import SignalPlane.Dispatcher.Settled

namespace SignalPlane.Dispatcher

open Clock

variable {id due : Int} {status : JobStatus} {signal : Signal} {lib : GoLib} {tie : Nat}
  {p : JobRow → Bool} {f : JobRow → JobRow}

/-! ## Transactions that spare reports and escalations -/

/-- An escalation row is kept, or a first one is queued. -/
def EscalationQueued (j : Int) (o o' : Option EscalationRow) : Prop :=
  o' = o ∨ o = none ∧ ∃ body now, o' = some (newEscalation j body now)

/-- The reports stay as they are, and of the escalations nothing changes but that a first one may
be queued. -/
structure Spares (s s' : Store) : Prop where
  terminalResults : s'.terminalResults = s.terminalResults
  outbox : s'.outbox = s.outbox
  jobs : ∀ j, Option.Rel JobRow.Continues (s.jobs.find? j) (s'.jobs.find? j)
  escalations : ∀ j, EscalationQueued j (s.escalations.find? j) (s'.escalations.find? j)

namespace Spares

variable {s s' s'' : Store}

theorem continues_refl : ∀ o : Option JobRow, Option.Rel JobRow.Continues o o
  | none => .none
  | some r => .some (.refl r)

theorem continues_trans : ∀ {a b c : Option JobRow}, Option.Rel JobRow.Continues a b →
    Option.Rel JobRow.Continues b c → Option.Rel JobRow.Continues a c
  | _, _, _, .none, .none => .none
  | _, _, _, .some h, .some h' => .some (h.trans h')

theorem trans (h : Spares s s') (h' : Spares s' s'') : Spares s s'' where
  terminalResults := h'.terminalResults.trans h.terminalResults
  outbox := h'.outbox.trans h.outbox
  jobs j := continues_trans (h.jobs j) (h'.jobs j)
  escalations j := by
    rcases h'.escalations j with h1 | ⟨hnone, body, now, h1⟩
    · rw [h1]
      exact h.escalations j
    · rcases h.escalations j with h2 | ⟨_, body', now', h2⟩
      · exact .inr ⟨h2 ▸ hnone, body, now, h1⟩
      · rw [h2] at hnone
        cases hnone

/-- Nothing but other tables is written. -/
theorem of_rest (ht : s'.terminalResults = s.terminalResults) (ho : s'.outbox = s.outbox)
    (hj : s'.jobs = s.jobs) (he : s'.escalations = s.escalations) : Spares s s' where
  terminalResults := ht
  outbox := ho
  jobs j := by rw [hj]; exact continues_refl _
  escalations j := .inl (by rw [he])

theorem refl (s : Store) : Spares s s := .of_rest rfl rfl rfl rfl

/-- An update of job rows that go on. -/
theorem of_jobs (ht : s'.terminalResults = s.terminalResults) (ho : s'.outbox = s.outbox)
    (he : s'.escalations = s.escalations)
    (hrows : s'.jobs.rows = s.jobs.rows.map fun r => if p r then f r else r)
    (hf : ∀ r, (f r).id = r.id) (h : ∀ r, p r = true → r.Continues (f r)) : Spares s s' where
  terminalResults := ht
  outbox := ho
  jobs j := by
    have hj : s'.jobs = s.jobs.update p f hf := Table.ext hrows
    rw [hj, Table.find?_update]
    cases s.jobs.find? j with
    | none => exact .none
    | some r =>
      refine .some ?_
      dsimp only
      split
      · next hp => exact h r hp
      · exact .refl r
  escalations j := .inl (by rw [he])

/-- An update of job rows to a status that is neither of a report nor of a launch. -/
theorem of_status (ht : s'.terminalResults = s.terminalResults) (ho : s'.outbox = s.outbox)
    (he : s'.escalations = s.escalations)
    (hrows : s'.jobs.rows = s.jobs.rows.map fun r => if p r then f r else r)
    (h : ∀ r, (f r).id = r.id ∧ (f r).semanticKey = r.semanticKey ∧
      (f r).brokerRunID = r.brokerRunID ∧ (f r).status = status ∧
      (0 ≤ r.preOutboxAttempts → 0 ≤ (f r).preOutboxAttempts)) (hqueued : status.isQueued = false)
    (hblocked : status ≠ .reportBlocked) : Spares s s' := by
  refine .of_jobs ht ho he hrows (fun r => (h r).1) fun r _ => ?_
  obtain ⟨hid, hkey, hrun, hstatus, hcounted⟩ := h r
  exact .of_status hid hkey hrun (hstatus ▸ hqueued) (hstatus ▸ hblocked) hcounted

end Spares

section Operations

variable {env : Env} {now : Int} {s s' : Store}

/-! ### Launch and status -/

theorem claimDue_spares {work : Option Work} (h : claimDue now s = .ok (work, s')) :
    Spares s s' := by
  obtain ⟨-, rfl⟩ | ⟨r, -, -, ⟨-, -, rfl⟩ | ⟨-, -, rfl⟩⟩ := claimDue_cases h
  · exact .refl _
  · exact .refl _
  · refine .of_jobs rfl rfl rfl rfl (fun _ => rfl) fun r hr => ?_
    have hqueued : r.status.isQueued = true := (Bool.and_eq_true_iff.mp hr).2
    refine .of_same rfl rfl rfl rfl (fun h => h) fun hb => ?_
    rw [hb] at hqueued
    cases hqueued

theorem JobWrites.spares {j due : Int} (h : JobWrites j due s s') : Spares s s' := by
  cases h with
  | refl => exact .refl _
  | @row p f hf _ _ hrow =>
    exact .of_jobs rfl rfl rfl rfl hf fun r hr =>
      (hrow r (Bool.and_eq_true_iff.mp hr).2).toContinues

/-! ### CI -/

theorem beginCIWait_spares {job : Job} {pullNumber deadline : Int}
    {branch headSHA agentModel encoded : GoString}
    (h : beginCIWait lib job pullNumber branch headSHA agentModel deadline now encoded s = .ok s') :
    Spares s s' := by
  simp only [beginCIWait, require_bind_eq_ok, pure_eq_ok] at h
  obtain ⟨-, -, -, rfl⟩ := h
  exact .of_status rfl rfl rfl rfl (fun _ => ⟨rfl, rfl, rfl, rfl, fun h => h⟩) rfl (by decide)

theorem setJobStatus_spares (hqueued : status.isQueued = false)
    (hblocked : status ≠ .reportBlocked) : Spares s (s.setJobStatus id status now) :=
  .of_status rfl rfl rfl rfl (fun _ => ⟨rfl, rfl, rfl, rfl, fun h => h⟩) hqueued hblocked

/-- The first escalation of a job is queued, any other one is dropped. -/
theorem insertEscalation_spares {j : Int} {body : GoString} :
    Spares s { s with escalations := s.escalations.insert (newEscalation j body now) } := by
  refine ⟨rfl, rfl, fun _ => Spares.continues_refl _, fun i => ?_⟩
  by_cases hi : i = j
  · subst hi
    cases hrow : s.escalations.find? i with
    | none =>
      refine .inr ⟨rfl, body, now, ?_⟩
      have := Table.find?_insert_self s.escalations (newEscalation i body now)
      rw [show (newEscalation i body now).jobID = i from rfl, hrow] at this
      simpa using this
    | some o =>
      refine .inl ?_
      have := Table.insert_of_find? (r := newEscalation i body now) hrow
      simp only [this, hrow]
  · exact .inl (Table.find?_insert_ne _ hi)

theorem CIWrites.spares {late : Prop} (h : CIWrites now late s s') : Spares s s' := by
  induction h with
  | refl => exact .refl _
  | @job _ _ _ _ hf _ hrow ih =>
    refine ih.trans (.of_jobs rfl rfl rfl rfl hf fun r hr => ?_)
    obtain ⟨hkey, hrun, hcounted, hstatus⟩ := hrow r (Bool.and_eq_true_iff.mp hr).2
    refine .of_status (hf r) hkey hrun ?_ ?_ fun h => hcounted ▸ h
    all_goals
      revert hstatus
      generalize JobRow.status _ = status
      cases status <;> simp [JobStatus.isQueued]
  | escalation _ ih => exact ih.trans insertEscalation_spares
  | newAttempt _ ih => exact ih.trans (.of_rest rfl rfl rfl rfl)
  | attempt _ _ ih | task _ _ ih | reconciliation _ _ ih =>
    exact ih.trans (.of_rest rfl rfl rfl rfl)

theorem claimCIReconciliation_spares {work : Option CIReconciliation}
    (h : claimCIReconciliation tie now s = .ok (work, s')) : Spares s s' := by
  unfold claimCIReconciliation at h
  dsimp only at h
  split at h <;> cases h <;> exact .of_rest rfl rfl rfl rfl

theorem Follows.spares (h : Follows due s s') : Spares s s' := by
  induction h with
  | refl => exact .refl _
  | update _ _ ih => exact ih.trans (.of_rest rfl rfl rfl rfl)

/-! ### Deliveries -/

/-- A new job, still to be launched, under an id and a key of its own. -/
structure Arrives (s s' : Store) (row : JobRow) : Prop where
  terminalResults : s'.terminalResults = s.terminalResults
  outbox : s'.outbox = s.outbox
  escalations : s'.escalations = s.escalations
  jobs : s'.jobs = s.jobs.insert row
  id : row.id = nextID (s.jobs.rows.map JobRow.id)
  key : ∀ r ∈ s.jobs.rows, r.semanticKey ≠ row.semanticKey
  status : row.status = .pendingLaunch
  counted : row.preOutboxAttempts = 0

theorem recordCIEvent_spares {b : Bool} (h : recordCIEvent lib signal now s = .ok (b, s')) :
    Spares s s' := by
  obtain ⟨_, _, _, rfl⟩ := recordCIEvent_frame h
  exact .of_rest rfl rfl rfl rfl

theorem recordRepositoryRunExternalWake_spares {b : Bool}
    (h : recordRepositoryRunExternalWake lib signal now s = .ok (b, s')) : Spares s s' := by
  unfold recordRepositoryRunExternalWake at h
  split at h
  · cases h
    exact .refl _
  dsimp only at h
  split at h
  · cases h
    refine .of_jobs rfl rfl rfl rfl (fun _ => rfl) fun r hr => ?_
    refine .of_same rfl rfl rfl rfl (fun h => h) fun hb => ?_
    simp [JobRow.awaitsIssue, hb] at hr
  · cases h
    exact .refl _

theorem insertJob_arrives {c : Candidate} (h : s'.jobs = (s.insertJob c now).jobs)
    (ht : s'.terminalResults = s.terminalResults) (ho : s'.outbox = s.outbox)
    (he : s'.escalations = s.escalations) : Spares s s' ∨ ∃ row, Arrives s s' row := by
  unfold Store.insertJob at h
  split at h
  · exact .inl (.of_rest ht ho h he)
  · next hnew =>
    refine .inr ⟨_, ht, ho, he, h, rfl, fun r hr hk => hnew ?_, rfl, rfl⟩
    exact List.any_eq_true.mpr ⟨r, hr, decide_eq_true hk⟩

/-- A delivery spares reports and escalations, and may bring a new job. -/
theorem DeliveryTransaction.spares (h : DeliveryTransaction lib s s') :
    Spares s s' ∨ ∃ row, Arrives s s' row := by
  cases h with
  | event h => exact .inl (recordCIEvent_spares h)
  | wake h => exact .inl (recordRepositoryRunExternalWake_spares h)
  | record h =>
    have hjobs := record_jobs h
    obtain ⟨_, _, _, _, rfl⟩ := record_frame h
    rcases hjobs with hjobs | ⟨c, hjobs⟩
    · exact .inl (.of_rest rfl rfl hjobs rfl)
    · exact insertJob_arrives hjobs rfl rfl rfl

/-! ### Escalations -/

theorem markCIEscalationDelivered_jobs {report : CIEscalationReport} {result : CommentResult}
    (h : markCIEscalationDelivered lib report result now s = .ok s') :
    s'.terminalResults = s.terminalResults ∧ s'.outbox = s.outbox ∧
      ∀ j, Option.Rel JobRow.Continues (s.jobs.find? j) (s'.jobs.find? j) := by
  simp only [markCIEscalationDelivered, require_bind_eq_ok, expectOne_bind_eq_ok, pure_eq_ok] at h
  obtain ⟨-, -, rfl⟩ := h
  exact ⟨rfl, rfl, (setJobStatus_spares (s := s) rfl (by decide)).jobs⟩

end Operations

end SignalPlane.Dispatcher
