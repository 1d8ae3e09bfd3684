/-
SignalPlane.Dispatcher.EscalationTheorems — the one escalation of a CI
lifecycle.

A failing lifecycle leaves the repair loop through a row of
`repository_ci_escalation_outbox`, which four different failures can queue and
a later pass delivers, retries or gives up. `EscalationsKept` is what every
transaction does to these rows: none is removed, key and body stay, and a row
that was delivered or blocked is not written again.

The question of a delivery is put outside any transaction. `asked_escalation`
says that the row is pending at that moment and that the question carries its
key and body: deliveries of signals, which may come in between, do not touch
escalations. The correspondence with the task is `InStep`, from the accounts.
-/
import SignalPlane.Dispatcher.BlockedTheorems
import SignalPlane.Dispatcher.CIAccountTheorems

namespace SignalPlane.Dispatcher

open Clock
open Workflow

variable {lib : GoLib} {report : CIEscalationReport} {j : Int} {tie : Nat}

/-! ## What happens to a row -/

/-- Key and body stay, and a row that is no longer pending is not written again. -/
structure EscalationRow.Continues (o o' : EscalationRow) : Prop where
  operationKey : o'.operationKey = o.operationKey
  body : o'.body = o.body
  ended : o.state ≠ .pending → o' = o

theorem EscalationRow.Continues.refl (o : EscalationRow) : o.Continues o :=
  ⟨rfl, rfl, fun _ => rfl⟩

theorem EscalationRow.Continues.trans {o o' o'' : EscalationRow} (h : o.Continues o')
    (h' : o'.Continues o'') : o.Continues o'' where
  operationKey := h'.operationKey.trans h.operationKey
  body := h'.body.trans h.body
  ended hended := by
    obtain rfl := h.ended hended
    exact h'.ended hended

/-- Every escalation row is still there and continues. -/
def EscalationsKept (s s' : Store) : Prop :=
  ∀ j o, s.escalations.find? j = some o →
    ∃ o', s'.escalations.find? j = some o' ∧ o.Continues o'

namespace EscalationsKept

variable {s s' s'' : Store}

theorem of_eq (h : s'.escalations = s.escalations) : EscalationsKept s s' :=
  fun _ o ho => ⟨o, h ▸ ho, .refl o⟩

theorem refl (s : Store) : EscalationsKept s s := of_eq rfl

theorem trans (h : EscalationsKept s s') (h' : EscalationsKept s' s'') : EscalationsKept s s'' := by
  intro j o ho
  obtain ⟨o', ho', hc⟩ := h j o ho
  obtain ⟨o'', ho'', hc'⟩ := h' j o' ho'
  exact ⟨o'', ho'', hc.trans hc'⟩

/-- Only pending rows are written, and not their key or body. -/
theorem of_update {p : EscalationRow → Bool} {f : EscalationRow → EscalationRow}
    (hrows : s'.escalations.rows = s.escalations.rows.map fun o => if p o then f o else o)
    (hpending : ∀ o, p o = true → o.state = .pending)
    (hkept : ∀ o, (f o).jobID = o.jobID ∧ (f o).operationKey = o.operationKey ∧
      (f o).body = o.body) : EscalationsKept s s' := by
  intro j o ho
  obtain ⟨hmem, hid⟩ := Table.find?_iff_mem.mp ho
  have hmem' : (if p o then f o else o) ∈ s'.escalations.rows := by
    rw [hrows]
    exact List.mem_map_of_mem (f := fun o => if p o then f o else o) hmem
  refine ⟨_, Table.find?_iff_mem.mpr ⟨hmem', ?_⟩, ?_⟩
  · split
    · exact (hkept o).1.trans hid
    · exact hid
  · split
    · next hp => exact ⟨(hkept o).2.1, (hkept o).2.2, fun hended => absurd (hpending o hp) hended⟩
    · exact .refl o

end EscalationsKept

section Transactions

variable {s s' : Store} {now : Int}

/-- The failures that escalate queue a row only where there is none. -/
theorem Spares.escalationsKept (h : Spares s s') : EscalationsKept s s' := by
  intro j o ho
  rcases h.escalations j with heq | ⟨hnone, -⟩
  · exact ⟨o, heq.trans ho, .refl o⟩
  · cases ho.symm.trans hnone

theorem DeliveryTransaction.escalationsKept (h : DeliveryTransaction lib s s') :
    EscalationsKept s s' := .of_eq h.escalations

theorem ReportWrites.escalationsKept {r : Report} (h : ReportWrites now r s s') :
    EscalationsKept s s' := by
  cases h
  exact .of_eq rfl

theorem EscalationRow.pending_of_hit {o : EscalationRow}
    (h : (decide (o.jobID = j) && o.isPendingFor report) = true) : o.state = .pending := by
  simp only [EscalationRow.isPendingFor, Bool.and_eq_true, decide_eq_true_eq] at h
  exact h.2.2

theorem markCIEscalationDelivered_escalationsKept {result : CommentResult}
    (h : markCIEscalationDelivered lib report result now s = .ok s') : EscalationsKept s s' := by
  simp only [markCIEscalationDelivered, require_bind_eq_ok, expectOne_bind_eq_ok, pure_eq_ok] at h
  obtain ⟨-, -, rfl⟩ := h
  exact .of_update rfl (fun _ => EscalationRow.pending_of_hit) fun _ => ⟨rfl, rfl, rfl⟩

theorem markCIEscalationFailure_escalationsKept {retry : Bool} {message : GoString}
    (h : markCIEscalationFailure report retry message now s = .ok s') : EscalationsKept s s' := by
  simp only [markCIEscalationFailure, expectOne_bind_eq_ok] at h
  obtain ⟨-, h⟩ := h
  split at h <;>
  · cases h
    exact .of_update rfl (fun _ => EscalationRow.pending_of_hit) fun _ => ⟨rfl, rfl, rfl⟩

/-- Every transaction of a pass keeps the escalations. -/
theorem PassStep.escalationsKept {env : Env} {answers : (q : Request) → q.Answer → Prop}
    {claimed : CIEscalationReport → Prop} (h : PassStep env now answers claimed s s') :
    EscalationsKept s s' := by
  cases h with
  | spares h _ => exact h.escalationsKept
  | queues _ _ _ h =>
    obtain ⟨-, body, -, hstore⟩ := queueTerminalResult_ok.mp h
    obtain ⟨-, rfl⟩ := storeTerminalResult_ok hstore
    exact .of_eq rfl
  | delivers _ h => exact (markReportDelivered_writes h).escalationsKept
  | fails _ _ _ h => exact (markReportFailure_writes h).escalationsKept
  | escalates _ h => exact markCIEscalationDelivered_escalationsKept h
  | givesUp _ _ _ h => exact markCIEscalationFailure_escalationsKept h

end Transactions

/-- A comment for an escalation is asked for while its row is pending, under its key. -/
theorem asked_escalation {env : Env} {now : Int} {s s' : Store} {q : Request}
    (h : Asked (DeliveryTransaction env.lib) (runOne env tie now) s q s')
    (hq : q.unit = .escalation j) : ∃ o job, s'.escalations.find? j = some o ∧ o.state = .pending ∧
      q.call = .comment job o.body o.operationKey := by
  have hpasses : PassSteps env now (fun _ _ => True) (fun _ => True) (runOne env tie now) s :=
    runOne_passes
  exact hpasses.asked trivial (fun _ _ => trivial) h j hq

/-! ## Every run -/

theorem WorkerRun.escalationsKept {env : Env} {s s' : Store} (h : WorkerRun env False s s') :
    EscalationsKept s s' := by
  induction h with
  | refl => exact .refl s
  | @pass s₁ _ tie now _ hpass ih =>
    have hpasses : PassSteps env now (fun _ _ => True) (fun _ => True) (runOne env tie now) s₁ :=
      runOne_passes
    obtain ⟨-, hsteps⟩ := hpasses.interleaved trivial (fun _ _ => trivial) hpass
    refine stable (fun _ _ hstep hkept => ?_) ih hsteps
    rcases hstep with h | h
    · exact hkept.trans h.escalationsKept
    · exact hkept.trans h.escalationsKept
  | delivery _ h ih => exact ih.trans h.escalationsKept
  | reopen _ h => exact h.elim

/-- The task of job `j` is in state `t` exactly while its escalation is in state `e`. -/
def Store.EscalationIff (s : Store) (j : Int) (t : CITaskState) (e : EscalationState) : Prop :=
  (∃ task, s.ciTasks.find? j = some task ∧ task.state = t) ↔
    ∃ o, s.escalations.find? j = some o ∧ o.state = e

theorem escalationIff_of_inStep {s : Store} {t : CITaskState} {e : EscalationState}
    (h : InStep (s.account j)) (ht : ∀ t', CITaskState.escalation t' = some e ↔ t' = t) :
    s.EscalationIff j t e := by
  have hesc := h.escalation
  simp only [Store.account] at hesc
  constructor
  · rintro ⟨task, htask, hstate⟩
    rw [htask, Option.map_some, Option.bind_some, (ht task.state).mpr hstate] at hesc
    obtain ⟨o, ho, hoe⟩ := Option.map_eq_some_iff.mp hesc
    exact ⟨o, ho, hoe⟩
  · rintro ⟨o, ho, rfl⟩
    rw [ho, Option.map_some] at hesc
    obtain ⟨t', ht', hesc⟩ := Option.bind_eq_some_iff.mp hesc.symm
    obtain ⟨task, htask, rfl⟩ := Option.map_eq_some_iff.mp ht'
    exact ⟨task, htask, (ht task.state).mp hesc⟩

/-- In every run a lifecycle has one escalation: a job has at most one row, whose key and body
stay and which is not written any more once it is delivered or blocked; a comment is asked for
only while the row is pending, and under its key; and the row's state is that of the task. -/
theorem one_escalation_per_lifecycle (env : Env) (s : Store) (hs : WorkerRun env False .empty s) :
    (∀ o ∈ s.escalations.rows, ∀ o' ∈ s.escalations.rows, o.jobID = o'.jobID → o = o') ∧
    (∀ s', WorkerRun env False s s' → ∀ j o, s.escalations.find? j = some o →
      ∃ o', s'.escalations.find? j = some o' ∧ o'.operationKey = o.operationKey ∧
        o'.body = o.body ∧ (o.state = .delivered ∨ o.state = .blocked → o' = o)) ∧
    (∀ tie now q s' j, Asked (DeliveryTransaction env.lib) (runOne env tie now) s q s' →
      q.unit = .escalation j →
      ∃ o job, s'.escalations.find? j = some o ∧ o.state = .pending ∧
        q.call = .comment job o.body o.operationKey) ∧
    ∀ j, s.EscalationIff j .escalationPending .pending ∧
      s.EscalationIff j .escalationBlocked .blocked ∧ s.EscalationIff j .escalated .delivered := by
  refine ⟨fun o ho o' ho' hid => ?_, fun s' h j o ho => ?_, fun tie now q s' j => asked_escalation,
    fun j => ?_⟩
  · exact Option.mem_unique (Table.find?_key ho)
      (hid ▸ Table.find?_key ho' : s.escalations.find? o.jobID = some o')
  · obtain ⟨o', ho', hc⟩ := h.escalationsKept j o ho
    refine ⟨o', ho', hc.operationKey, hc.body, fun hended => hc.ended ?_⟩
    rcases hended with h | h <;> simp [h]
  · have hstep := (hs.inStep.accounts j).2
    refine ⟨escalationIff_of_inStep hstep fun t => ?_, escalationIff_of_inStep hstep fun t => ?_,
      escalationIff_of_inStep hstep fun t => ?_⟩
    all_goals cases t <;> simp [CITaskState.escalation]

namespace Sample

/-- CI could not be observed: the escalation is queued. -/
def escalatingStore : Store :=
  run env (launchedRun ++ [unobservedPass (3 * second), unobservedPass (4 * second)]) .empty

/-- Its comment is refused. -/
def givenUpStore : Store := run env [unobservedPass (5 * second)] escalatingStore

theorem escalatingStore_workerRun : WorkerRun env False .empty escalatingStore :=
  WorkerRun.refl.run _

end Sample

open Sample in
/-- A pending escalation has its task wait for it; given up, it is the same row, and blocked. -/
theorem pending_escalation_given_up :
    ∃ task o o', escalatingStore.ciTasks.find? 1 = some task ∧
      task.state = .escalationPending ∧ escalatingStore.escalations.find? 1 = some o ∧
      o.state = .pending ∧ givenUpStore.escalations.find? 1 = some o' ∧
      o'.operationKey = o.operationKey ∧ o'.body = o.body ∧ o'.state = .blocked := by
  obtain ⟨-, hkept, -, hstates⟩ :=
    one_escalation_per_lifecycle env _ escalatingStore_workerRun
  have hpending :
      escalatingStore.escalations.hits 1 (fun o => o.state = .pending) = true := by
    decide +kernel
  have hblocked : givenUpStore.escalations.hits 1 (fun o => o.state = .blocked) = true := by
    decide +kernel
  obtain ⟨o, ho, hstate⟩ := Table.hits_iff.mp hpending
  obtain ⟨task, htask, htaskState⟩ := (hstates 1).1.mpr ⟨o, ho, of_decide_eq_true hstate⟩
  obtain ⟨o', ho', hkey, hbody, -⟩ := hkept givenUpStore (WorkerRun.refl.run _) 1 o ho
  obtain ⟨o'', ho'', hstate'⟩ := Table.hits_iff.mp hblocked
  cases ho'.symm.trans ho''
  exact ⟨task, o, o', htask, htaskState, ho, of_decide_eq_true hstate, ho', hkey, hbody,
    of_decide_eq_true hstate'⟩

end SignalPlane.Dispatcher
