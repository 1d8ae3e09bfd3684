/-
SignalPlane.Dispatcher.Report — the report of one job.

What the store knows about a job's report is in three rows: the job, its
terminal result and its outbox row. A `ReportRecord` is these three, and
`ReportRecord.Step` lists everything that can happen to them: other work on
the job, its arrival, a queued result, a delivered or failed comment, an
operator's requeue, and a CI escalation that blocks the job. `ReportRules`
says how far the last few go; a result about every run sets no limit.

`Store.report` reads the record of a job. The second half is one lemma for
each store operation that writes reports: seen through `Store.report` it is a
walk of these steps for every job (`ReportMoves`). An outbox row is addressed
by its own id, so the lemmas need that ids are not shared and that a claimed
report belongs to the job it names.
-/
import SignalPlane.Dispatcher.Spares

namespace SignalPlane.Dispatcher

open Clock
open Relation (ReflTransGen)

variable {o : OutboxRow} {t : Option TerminalResultRow} {r : JobRow}

/-! ## Rows that move -/

/-- No comment is known for the report. -/
def OutboxRow.Unsent (o : OutboxRow) : Prop :=
  o.commentID = none ∧ o.commentURL = [] ∧ o.deliveredAt = none

/-- The same report in status `status`. -/
structure OutboxRow.Moves (o o' : OutboxRow) (status : OutboxStatus) : Prop where
  id : o'.id = o.id
  jobID : o'.jobID = o.jobID
  version : o'.terminalResultVersion = o.terminalResultVersion
  body : o'.body = o.body
  key : o'.idempotencyKey = o.idempotencyKey
  status : o'.status = status

/-- The same job in status `status`. -/
structure JobRow.Moves (r r' : JobRow) (status : JobStatus) : Prop where
  id : r'.id = r.id
  semanticKey : r'.semanticKey = r.semanticKey
  run : r'.brokerRunID = r.brokerRunID
  status : r'.status = status
  counted : 0 ≤ r.preOutboxAttempts → 0 ≤ r'.preOutboxAttempts

theorem OutboxRow.isOpen_iff : o.isOpen = true ↔ o.status = .pending ∨ o.status = .retry := by
  simp [OutboxRow.isOpen]

theorem OutboxRow.isOpen_ne (h : o.isOpen = true) : o.status ≠ .delivered := by
  rcases isOpen_iff.mp h with h | h <;> rw [h] <;> decide

/-- The status of a delivered report is none of the others. -/
theorem deliveredStatus_ne (outcome : GoString) :
    deliveredStatus outcome ≠ .reportPending ∧ deliveredStatus outcome ≠ .reportRetry ∧
      deliveredStatus outcome ≠ .reportBlocked := by
  have hmem := deliveredStatus_mem outcome
  generalize deliveredStatus outcome = status at hmem
  simp only [List.mem_cons, List.not_mem_nil, or_false] at hmem
  rcases hmem with rfl | rfl | rfl | rfl | rfl <;> decide

/-! ## The record of a report -/

/-- The rows of one job that are about its report. -/
structure ReportRecord where
  row : Option JobRow
  terminal : Option TerminalResultRow
  outbox : Option OutboxRow

/-- The rows of job `j`. -/
def Store.report (s : Store) (j : Int) : ReportRecord :=
  ⟨s.jobs.find? j, s.terminalResults.find? j, s.outbox.find? j⟩

/-- How far the steps go. -/
structure ReportRules where
  /-- Other work on jobs goes on beside the reports. -/
  elsewhere : Prop
  /-- New jobs arrive. -/
  arrivals : Prop
  /-- A result that may be queued for a job, as the two rows it is written to. -/
  files : JobRow → TerminalResultRow → OutboxRow → Prop
  /-- A CI escalation may block a job. -/
  blocks : Prop
  /-- A report may be blocked with this error. -/
  error : GoString → Prop

/-- What can happen to the record of a report. -/
inductive ReportRecord.Step (rules : ReportRules) : ReportRecord → ReportRecord → Prop where
  | works {r r' : JobRow} {t : Option TerminalResultRow} {o : Option OutboxRow}
      (he : rules.elsewhere) (h : r.Continues r') : Step rules ⟨some r, t, o⟩ ⟨some r', t, o⟩
  | arrives {r : JobRow} {t : Option TerminalResultRow} {o : Option OutboxRow}
      (ha : rules.arrivals) (hstatus : r.status = .pendingLaunch)
      (hcounted : r.preOutboxAttempts = 0) :
      Step rules ⟨none, t, o⟩ ⟨some r, t, o⟩
  /-- A result is queued; rows that are there already stay. -/
  | queues {r r' : JobRow} {t₀ : Option TerminalResultRow} {o₀ : Option OutboxRow}
      {t : TerminalResultRow} {o : OutboxRow} (hr : r.acceptsResult = true)
      (hr' : r.Moves r' .reportPending) (hstatus : o.status = .pending) (hunsent : o.Unsent)
      (hversion : o.terminalResultVersion = t.version) (hfiles : rules.files r t o) :
      Step rules ⟨some r, t₀, o₀⟩ ⟨some r', some (t₀.getD t), some (o₀.getD o)⟩
  | delivers {r r' : JobRow} {t : TerminalResultRow} {o o' : OutboxRow}
      (hr : r.isReporting = true) (ho : o.isOpen = true)
      (hr' : r.Moves r' (deliveredStatus t.outcome)) (ho' : o.Moves o' .delivered) :
      Step rules ⟨some r, some t, some o⟩ ⟨some r', some t, some o'⟩
  | retries {r r' : JobRow} {t : Option TerminalResultRow} {o o' : OutboxRow}
      (hr : r.isReporting = true) (ho : o.isOpen = true) (hr' : r.Moves r' .reportRetry)
      (ho' : o.Moves o' .retry) (hunsent : o.Unsent → o'.Unsent) :
      Step rules ⟨some r, t, some o⟩ ⟨some r', t, some o'⟩
  | fails {r r' : JobRow} {t : Option TerminalResultRow} {o o' : OutboxRow}
      (hr : r.isReporting = true) (ho : o.isOpen = true) (hr' : r.Moves r' .reportBlocked)
      (ho' : o.Moves o' .blocked) (hunsent : o.Unsent → o'.Unsent)
      (hsame : r'.lastError = o'.lastError) (herror : rules.error o'.lastError) :
      Step rules ⟨some r, t, some o⟩ ⟨some r', t, some o'⟩
  | requeues {r r' : JobRow} {t : Option TerminalResultRow} {o o' : OutboxRow}
      (hr : r.status = .reportBlocked) (ho : o.status = .blocked) (hr' : r.Moves r' .reportRetry)
      (ho' : o.Moves o' .retry) (hunsent : o.Unsent → o'.Unsent) :
      Step rules ⟨some r, t, some o⟩ ⟨some r', t, some o'⟩
  /-- A CI escalation cannot be delivered. -/
  | blocks {r r' : JobRow} {t : Option TerminalResultRow} {o : Option OutboxRow}
      (h : rules.blocks) (hr' : r.Moves r' .reportBlocked) :
      Step rules ⟨some r, t, o⟩ ⟨some r', t, o⟩

namespace ReportRecord

variable {rules : ReportRules} {v v' : ReportRecord}

/-- What a step keeps, a walk keeps. -/
theorem Step.preserve {I : ReportRecord → Prop} (hI : ∀ v v', I v → Step rules v v' → I v')
    (h : ReflTransGen (Step rules) v v') (hv : I v) : I v' := by
  induction h with
  | refl => exact hv
  | tail _ hstep ih => exact hI _ _ ih hstep

/-! ### What is written stays -/

/-- The terminal row stays as it is; the outbox row keeps its identity and its text, and does not
leave `delivered`. -/
structure Kept (v v' : ReportRecord) : Prop where
  terminal : ∀ t, v.terminal = some t → v'.terminal = some t
  outbox : ∀ o, v.outbox = some o → ∃ o', v'.outbox = some o' ∧ o.Moves o' o'.status ∧
    (o.status = .delivered → o'.status = .delivered)

theorem Kept.refl (v : ReportRecord) : v.Kept v where
  terminal _ h := h
  outbox o h := ⟨o, h, ⟨rfl, rfl, rfl, rfl, rfl, rfl⟩, fun hd => hd⟩

theorem Kept.trans {v'' : ReportRecord} (h : v.Kept v') (h' : v'.Kept v'') : v.Kept v'' where
  terminal t ht := h'.terminal t (h.terminal t ht)
  outbox o ho := by
    obtain ⟨o1, ho1, hm1, hd1⟩ := h.outbox o ho
    obtain ⟨o2, ho2, hm2, hd2⟩ := h'.outbox o1 ho1
    refine ⟨o2, ho2, ⟨?_, ?_, ?_, ?_, ?_, rfl⟩, fun hd => hd2 (hd1 hd)⟩
    · exact hm2.id.trans hm1.id
    · exact hm2.jobID.trans hm1.jobID
    · exact hm2.version.trans hm1.version
    · exact hm2.body.trans hm1.body
    · exact hm2.key.trans hm1.key

/-- Rows that are not written. -/
theorem Kept.of_same {r r' : Option JobRow} {o : Option OutboxRow} : Kept ⟨r, t, o⟩ ⟨r', t, o⟩ where
  terminal _ h := h
  outbox o h := ⟨o, h, ⟨rfl, rfl, rfl, rfl, rfl, rfl⟩, fun hd => hd⟩

/-- An outbox row that moves from a status other than `delivered`. -/
theorem Kept.of_moves {r r' : Option JobRow} {o' : OutboxRow} {status : OutboxStatus}
    (h : o.Moves o' status) (hne : o.status ≠ .delivered) :
    Kept ⟨r, t, some o⟩ ⟨r', t, some o'⟩ where
  terminal _ h := h
  outbox o1 ho1 := by
    cases ho1
    exact ⟨o', rfl, ⟨h.id, h.jobID, h.version, h.body, h.key, rfl⟩, fun hd => absurd hd hne⟩

theorem Step.kept (h : Step rules v v') : v.Kept v' := by
  cases h with
  | works | arrives | blocks => exact .of_same
  | queues hr hr' hstatus hunsent hversion hfiles =>
    refine ⟨fun t ht => ?_, fun o ho => ?_⟩
    · cases ht
      rfl
    · cases ho
      exact ⟨_, rfl, ⟨rfl, rfl, rfl, rfl, rfl, rfl⟩, fun hd => hd⟩
  | delivers _ ho _ ho' | retries _ ho _ ho' | fails _ ho _ ho' =>
    exact .of_moves ho' (OutboxRow.isOpen_ne ho)
  | requeues _ ho _ ho' _ =>
    refine .of_moves ho' ?_
    rw [ho]
    decide

theorem kept_of_steps (h : ReflTransGen (Step rules) v v') : v.Kept v' :=
  Step.preserve (I := v.Kept) (fun _ _ hk hstep => hk.trans hstep.kept) h (.refl v)

/-- Without arrivals a job keeps its key, and there are no others. -/
theorem Step.semanticKey (ha : ¬ rules.arrivals) (h : Step rules v v') :
    v'.row.map JobRow.semanticKey = v.row.map JobRow.semanticKey := by
  cases h with
  | works _ h => exact congrArg some h.semanticKey
  | arrives h _ _ => exact absurd h ha
  | blocks _ hr' | queues _ hr' | delivers _ _ hr' | retries _ _ hr' | fails _ _ hr'
  | requeues _ _ hr' => exact congrArg some hr'.semanticKey

theorem semanticKey_of_steps (ha : ¬ rules.arrivals) (h : ReflTransGen (Step rules) v v') :
    v'.row.map JobRow.semanticKey = v.row.map JobRow.semanticKey :=
  Step.preserve (I := fun v' => v'.row.map JobRow.semanticKey = v.row.map JobRow.semanticKey)
    (fun _ _ hk hstep => (hstep.semanticKey ha).trans hk) h rfl

/-- Failures before a report are counted from zero. -/
def Counted (v : ReportRecord) : Prop := ∀ r, v.row = some r → 0 ≤ r.preOutboxAttempts

theorem Counted.of_row {r' : JobRow} {t' : Option TerminalResultRow} {o o' : Option OutboxRow}
    (hv : Counted ⟨some r, t, o⟩) (h : 0 ≤ r.preOutboxAttempts → 0 ≤ r'.preOutboxAttempts) :
    Counted ⟨some r', t', o'⟩ := by
  intro r1 hr1
  cases hr1
  exact h (hv r rfl)

theorem Step.counted (h : Step rules v v') (hv : v.Counted) : v'.Counted := by
  cases h with
  | works _ h => exact hv.of_row h.counted
  | arrives _ _ hcounted =>
    intro r1 hr1
    cases hr1
    exact hcounted.ge
  | blocks _ hr' | queues _ hr' | delivers _ _ hr' | retries _ _ hr' | fails _ _ hr'
  | requeues _ _ hr' => exact hv.of_row hr'.counted

/-! ### What holds of every record -/

/-- The facts about a report that no step breaks, whatever the rules. -/
structure Sound (v : ReportRecord) : Prop where
  /-- The two rows are written together. -/
  both : v.outbox = none ↔ v.terminal = none
  /-- A report is about a job. -/
  row : v.row = none → v.outbox = none
  version : ∀ t o, v.terminal = some t → v.outbox = some o → o.terminalResultVersion = t.version
  /-- Only a delivered report has a comment. -/
  unsent : ∀ o, v.outbox = some o → o.status ≠ .delivered → o.Unsent
  /-- A job with a report is no longer in the launch line. -/
  launched : ∀ r o, v.row = some r → v.outbox = some o → r.status.isQueued = false

theorem sound_none (r : Option JobRow) : Sound ⟨r, none, none⟩ where
  both := iff_of_true rfl rfl
  row _ := rfl
  version _ _ ht := by cases ht
  unsent _ ho := by cases ho
  launched _ _ _ ho := by cases ho

/-- Work that leaves the report alone keeps a job that has one out of the launch line. -/
theorem Sound.of_row {r' : JobRow} {o : Option OutboxRow} (hv : Sound ⟨some r, t, o⟩)
    (h : r'.status.isQueued = true → r.status.isQueued = true) : Sound ⟨some r', t, o⟩ where
  both := hv.both
  row hr := by cases hr
  version := hv.version
  unsent := hv.unsent
  launched r1 o1 hr1 ho1 := by
    cases hr1
    by_contra hq
    have := hv.launched r o1 rfl ho1
    rw [h (by simpa using hq)] at this
    cases this

/-- The outbox row moves and the job with it. -/
theorem Sound.of_moves {r' : JobRow} {o' : OutboxRow} {status : JobStatus} {outbox : OutboxStatus}
    (hv : Sound ⟨some r, t, some o⟩) (hr : r.Moves r' status) (hq : status.isQueued = false)
    (ho : o.Moves o' outbox) (hunsent : o'.status ≠ .delivered → o'.Unsent) :
    Sound ⟨some r', t, some o'⟩ where
  both := iff_of_false (Option.some_ne_none o') fun ht => Option.some_ne_none o (hv.both.mpr ht)
  row h := by cases h
  version t1 o1 ht ho1 := by
    cases ho1
    rw [ho.version]
    exact hv.version t1 o ht rfl
  unsent o1 ho1 := by
    cases ho1
    exact hunsent
  launched r1 o1 hr1 _ := by
    cases hr1
    rw [hr.status]
    exact hq

theorem deliveredStatus_launched (outcome : GoString) :
    (deliveredStatus outcome).isQueued = false := by
  have hmem := deliveredStatus_mem outcome
  generalize deliveredStatus outcome = status at hmem
  simp only [List.mem_cons, List.not_mem_nil, or_false] at hmem
  rcases hmem with rfl | rfl | rfl | rfl | rfl <;> rfl

theorem Step.sound (h : Step rules v v') (hv : v.Sound) : v'.Sound := by
  cases h with
  | works _ h => exact hv.of_row h.queued
  | arrives _ _ _ =>
    obtain rfl := hv.row rfl
    obtain rfl := hv.both.mp rfl
    exact sound_none _
  | blocks _ hr' =>
    refine hv.of_row fun hq => ?_
    rw [hr'.status] at hq
    cases hq
  | @queues r r' t0 o0 t o hr hr' hstatus hunsent hversion hfiles =>
    refine ⟨iff_of_false (Option.some_ne_none _) (Option.some_ne_none _), fun h => ?_,
      fun t1 o1 ht ho => ?_, fun o1 ho => ?_, ?_⟩
    · cases h
    · cases ht
      cases ho
      -- Both rows are new, or both are old.
      cases o0 with
      | none =>
        obtain rfl := hv.both.mp rfl
        exact hversion
      | some o1 =>
        cases t0 with
        | none => cases hv.both.mpr rfl
        | some t1 => exact hv.version t1 o1 rfl rfl
    · cases ho
      cases o0 with
      | none => exact fun _ => hunsent
      | some o1 => exact hv.unsent o1 rfl
    · intro r1 o1 hr1 _
      cases hr1
      rw [hr'.status]
      rfl
  | delivers hr ho hr' ho' =>
    exact hv.of_moves hr' (deliveredStatus_launched _) ho' fun hne => absurd ho'.status hne
  | retries _ ho hr' ho' hunsent | fails _ ho hr' ho' hunsent =>
    exact hv.of_moves hr' rfl ho' fun _ => hunsent (hv.unsent _ rfl (OutboxRow.isOpen_ne ho))
  | requeues hr ho hr' ho' hunsent =>
    refine hv.of_moves hr' rfl ho' fun _ => hunsent (hv.unsent _ rfl ?_)
    rw [ho]
    decide

end ReportRecord

/-! ## Stores -/

/-- No two outbox rows share an id. -/
def Store.OutboxIDs (s : Store) : Prop :=
  ∀ j k o o', s.outbox.find? j = some o → s.outbox.find? k = some o' → o.id = o'.id → j = k

/-- From `s` to `s'` every job's report makes steps that the rules allow. -/
structure ReportMoves (rules : ReportRules) (s s' : Store) : Prop where
  records : ∀ j, ReflTransGen (ReportRecord.Step rules) (s.report j) (s'.report j)
  ids : s.OutboxIDs → s'.OutboxIDs

namespace ReportMoves

variable {rules : ReportRules} {s s' s'' : Store}

theorem refl (s : Store) : ReportMoves rules s s := ⟨fun _ => .refl, fun h => h⟩

theorem trans (h : ReportMoves rules s s') (h' : ReportMoves rules s' s'') :
    ReportMoves rules s s'' :=
  ⟨fun j => (h.records j).trans (h'.records j), fun hs => h'.ids (h.ids hs)⟩

/-- One job's rows make a step, the others are not touched. -/
theorem of_step {j : Int} (h : (s.report j).Step rules (s'.report j))
    (hother : ∀ k, k ≠ j → s'.report k = s.report k) (hids : s.OutboxIDs → s'.OutboxIDs) :
    ReportMoves rules s s' := by
  refine ⟨fun k => ?_, hids⟩
  by_cases hk : k = j
  · exact hk ▸ .single h
  · rw [hother k hk]

end ReportMoves

section Operations

variable {rules : ReportRules} {now : Int} {s s' : Store}

/-! ### Work elsewhere -/

theorem outboxIDs_of_eq (h : s'.outbox = s.outbox) (hs : s.OutboxIDs) : s'.OutboxIDs := by
  unfold Store.OutboxIDs
  rw [h]
  exact hs

/-- The reports stay as they are and the jobs go on. -/
theorem ReportMoves.of_continues (he : rules.elsewhere)
    (ht : s'.terminalResults = s.terminalResults) (ho : s'.outbox = s.outbox)
    (hjobs : ∀ j, Option.Rel JobRow.Continues (s.jobs.find? j) (s'.jobs.find? j)) :
    ReportMoves rules s s' where
  records j := by
    simp only [Store.report, ht, ho]
    have hj := hjobs j
    generalize s.jobs.find? j = a, s'.jobs.find? j = b at hj
    cases hj with
    | none => exact .refl
    | some hr => exact .single (.works he hr)
  ids := outboxIDs_of_eq ho

theorem Spares.reportMoves (he : rules.elsewhere) (h : Spares s s') : ReportMoves rules s s' :=
  .of_continues he h.terminalResults h.outbox h.jobs

theorem Arrives.reportMoves {row : JobRow} (ha : rules.arrivals) (h : Arrives s s' row) :
    ReportMoves rules s s' where
  records j := by
    simp only [Store.report, h.terminalResults, h.outbox, h.jobs, Table.find?_insert]
    split
    · next hj =>
      subst hj
      cases hrow : s.jobs.find? row.id with
      | none => exact .single (.arrives ha h.status h.counted)
      | some r => exact .refl
    · exact .refl
  ids := outboxIDs_of_eq h.outbox

theorem DeliveryTransaction.reportMoves {lib : GoLib} (he : rules.elsewhere)
    (ha : rules.arrivals) (h : DeliveryTransaction lib s s') : ReportMoves rules s s' := by
  rcases h.spares with h | ⟨row, h⟩
  · exact h.reportMoves he
  · exact h.reportMoves ha

/-! ### Escalations -/

theorem markCIEscalationDelivered_reportMoves {lib : GoLib} {report : CIEscalationReport}
    {result : CommentResult} (he : rules.elsewhere)
    (h : markCIEscalationDelivered lib report result now s = .ok s') : ReportMoves rules s s' := by
  obtain ⟨ht, ho, hjobs⟩ := markCIEscalationDelivered_jobs h
  exact .of_continues he ht ho hjobs

/-- The failed comment is not tried again. -/
def CIEscalationReport.givesUp (report : CIEscalationReport) (retry : Bool) : Bool :=
  !(retry && report.attempts + 1 < reportRetryMaxAttempts)

theorem markCIEscalationFailure_reportMoves {report : CIEscalationReport} {retry : Bool}
    {message : GoString} (hblocks : report.givesUp retry = true → rules.blocks)
    (h : markCIEscalationFailure report retry message now s = .ok s') : ReportMoves rules s s' := by
  simp only [markCIEscalationFailure, expectOne_bind_eq_ok] at h
  obtain ⟨-, h⟩ := h
  split at h
  · cases h
    exact ⟨fun _ => .refl, fun hs => hs⟩
  · next hagain =>
    cases h
    refine ⟨fun j => ?_, fun hs => hs⟩
    have hb : rules.blocks := by
      refine hblocks ?_
      rw [CIEscalationReport.givesUp, Bool.eq_false_iff.mpr hagain]
      rfl
    dsimp only [Store.report, Store.updateJob, Store.updateTask]
    rw [Table.find?_updateKey]
    split
    · next hj =>
      subst hj
      cases s.jobs.find? report.job.id with
      | none => exact .refl
      | some r => exact .single (.blocks hb ⟨rfl, rfl, rfl, rfl, fun h => h⟩)
    · exact .refl

/-! ### Queueing -/

theorem outboxIDs_insert (hs : s.OutboxIDs) (ho : o.id = nextID (s.outbox.rows.map OutboxRow.id))
    {outbox : Table OutboxRow.jobID} (houtbox : outbox = s.outbox.insert o) :
    ∀ j k a b, outbox.find? j = some a → outbox.find? k = some b → a.id = b.id → j = k := by
  subst houtbox
  -- A row that was there before has a smaller id than the new one.
  have old : ∀ j a, (s.outbox.insert o).find? j = some a →
      s.outbox.find? j = some a ∧ a.id < o.id ∨ j = o.jobID ∧ a = o := by
    intro j a ha
    rw [Table.find?_insert] at ha
    have lt : ∀ j a, s.outbox.find? j = some a → a.id < o.id := fun j a h =>
      ho ▸ lt_nextID (List.mem_map_of_mem (Table.mem_of_find? h))
    split at ha
    · next hj =>
      subst hj
      cases hfound : s.outbox.find? o.jobID with
      | none =>
        rw [hfound] at ha
        cases ha
        exact .inr ⟨rfl, rfl⟩
      | some a' =>
        rw [hfound] at ha
        cases ha
        exact .inl ⟨rfl, lt _ _ hfound⟩
    · exact .inl ⟨ha, lt _ _ ha⟩
  intro j k a b ha hb hab
  rcases old j a ha with ⟨ha', hlt⟩ | ⟨rfl, rfl⟩ <;> rcases old k b hb with ⟨hb', hlt'⟩ | ⟨rfl, rfl⟩
  · exact hs j k a b ha' hb' hab
  · omega
  · omega
  · rfl

/-- A queued result, with what it files for the job's row. -/
theorem storeTerminalResult_reportMoves {job : Job} {r : TerminalResult} {body key : GoString}
    (h : storeTerminalResult job r body key now s = .ok s')
    (hfiles : ∀ row, s.jobs.find? job.id = some row → row.acceptsResult = true →
      rules.files row (r.toRow job.id now) (s.newOutboxRow job.id r.version body key now)) :
    ReportMoves rules s s' := by
  obtain ⟨hhits, rfl⟩ := storeTerminalResult_ok h
  obtain ⟨row, hrow, haccepts⟩ := Table.hits_iff.mp hhits
  refine .of_step (j := job.id) ?_ (fun k hk => ?_) fun hs => outboxIDs_insert hs rfl rfl
  · have hterminal : (s.terminalResults.insert (r.toRow job.id now)).find? job.id =
        some ((s.terminalResults.find? job.id).getD (r.toRow job.id now)) :=
      Table.find?_insert_self _ (r.toRow job.id now)
    have houtbox :
        (s.outbox.insert (s.newOutboxRow job.id r.version body key now)).find? job.id =
          some ((s.outbox.find? job.id).getD (s.newOutboxRow job.id r.version body key now)) :=
      Table.find?_insert_self _ (s.newOutboxRow job.id r.version body key now)
    dsimp only [Store.report]
    rw [hterminal, houtbox, Table.find?_updateKey_self, hrow, Option.map_some, if_pos haccepts]
    exact .queues haccepts ⟨rfl, rfl, rfl, rfl, fun _ => le_rfl⟩ rfl ⟨rfl, rfl, rfl⟩ rfl
      (hfiles row hrow haccepts)
  · simp only [Store.report]
    rw [Table.find?_insert_ne _ (show k ≠ (r.toRow job.id now).jobID from hk),
      Table.find?_insert_ne _
        (show k ≠ (s.newOutboxRow job.id r.version body key now).jobID from hk),
      Table.find?_updateKey_ne _ _ _ _ hk]

/-! ### Comments -/

/-- The report was claimed from the outbox row of the job it names. -/
def Report.Of (report : Report) (s : Store) : Prop :=
  ∃ o, s.outbox.find? report.jobID = some o ∧ o.id = report.id

/-- A claimed report is that of the outbox row it was claimed from. -/
theorem claimReportDue_of {report : Report}
    (h : claimReportDue now s = .ok (some report, s')) : s' = s ∧ report.Of s := by
  unfold claimReportDue at h
  dsimp only at h
  split at h
  · cases h
  next o hpick =>
  split at h
  · cases h
  next j hj =>
  cases h
  exact ⟨rfl, o, Table.find?_key (List.mem_of_mem_filter (mem_of_pick hpick)), rfl⟩

/-- A claimed report stays that of its job. -/
theorem Report.Of.moves {report : Report} (h : report.Of s)
    (hs : ReportMoves rules s s') : report.Of s' := by
  obtain ⟨o, ho, hid⟩ := h
  obtain ⟨o', ho', hmoves, -⟩ := (ReportRecord.kept_of_steps (hs.records report.jobID)).outbox o ho
  exact ⟨o', ho', hmoves.id.trans hid⟩

/-- An update by outbox id touches the row of one job. -/
theorem outbox_update {id j : Int} {q : OutboxRow → Bool} (f : OutboxRow → OutboxRow)
    (hf : ∀ o, (f o).jobID = o.jobID) (hs : s.OutboxIDs) (ho : s.outbox.find? j = some o)
    (hid : o.id = id) (hcount : s.outbox.rows.countP (fun o => o.id = id && q o) = 1) : q o = true ∧
      (s.outbox.update (fun o => o.id = id && q o) f hf).find? j = some (f o) ∧
      ∀ k, k ≠ j →
        (s.outbox.update (fun o => o.id = id && q o) f hf).find? k = s.outbox.find? k := by
  have hq : q o = true := by
    have hpos : 0 < s.outbox.rows.countP (fun o => o.id = id && q o) := by omega
    obtain ⟨o1, hmem, hp⟩ := List.countP_pos_iff.mp hpos
    simp only [Bool.and_eq_true, decide_eq_true_eq] at hp
    have ho1 := Table.find?_key hmem
    rw [← hs _ _ _ _ ho ho1 (hid.trans hp.1.symm), ho] at ho1
    cases ho1
    exact hp.2
  refine ⟨hq, ?_, fun k hk => ?_⟩
  · rw [Table.find?_update, ho]
    simp [hid, hq]
  · rw [Table.find?_update]
    cases hfound : s.outbox.find? k with
    | none => rfl
    | some o1 =>
      have hne : o1.id ≠ id := fun he => hk (hs _ _ _ _ hfound ho (he.trans hid.symm))
      simp [hne]

theorem outboxIDs_update {p : OutboxRow → Bool} {f : OutboxRow → OutboxRow}
    {outbox : Table OutboxRow.jobID} (hs : s.OutboxIDs)
    (hrows : outbox.rows = s.outbox.rows.map fun o => if p o then f o else o)
    (hf : ∀ o, (f o).jobID = o.jobID) (hid : ∀ o, (f o).id = o.id) :
    ∀ j k a b, outbox.find? j = some a → outbox.find? k = some b → a.id = b.id → j = k := by
  obtain rfl : outbox = s.outbox.update p f hf := Table.ext hrows
  have old : ∀ j a, (s.outbox.update p f hf).find? j = some a →
      ∃ a', s.outbox.find? j = some a' ∧ a'.id = a.id := by
    intro j a ha
    rw [Table.find?_update] at ha
    obtain ⟨a', ha', rfl⟩ := Option.map_eq_some_iff.mp ha
    refine ⟨a', ha', ?_⟩
    split
    · exact (hid a').symm
    · rfl
  intro j k a b ha hb hab
  obtain ⟨a', ha', hida⟩ := old j a ha
  obtain ⟨b', hb', hidb⟩ := old k b hb
  exact hs j k a' b' ha' hb' (hida.trans (hab.trans hidb.symm))

theorem markReportDelivered_reportMoves {report : Report} {id : Int} {url : GoString}
    (hs : s.OutboxIDs) (hof : report.Of s) (h : markReportDelivered report id url now s = .ok s') :
    ReportMoves rules s s' := by
  obtain ⟨o, ho, hid⟩ := hof
  simp only [markReportDelivered, require_bind_eq_ok] at h
  obtain ⟨hcount, h⟩ := h
  split at h
  · cases h
  next terminal hterminal =>
  simp only [require_bind_eq_ok, pure_eq_ok] at h
  obtain ⟨hhits, rfl⟩ := h
  obtain ⟨row, hrow, hreporting⟩ := Table.hits_iff.mp hhits
  obtain ⟨hopen, hself, hother⟩ := outbox_update (fun o => { o with
    status := .delivered
    attempts := o.attempts + 1
    commentID := some id
    commentURL := url
    deliveredAt := some (unixMilli now)
    lastError := []
    updatedAt := unixMilli now }) (fun _ => rfl) hs ho hid hcount
  refine .of_step (j := report.jobID) ?_ (fun k hk => ?_)
    fun hs => outboxIDs_update hs rfl (fun _ => rfl) fun _ => rfl
  · dsimp only [Store.report]
    rw [hself, ho, hterminal, Table.find?_updateKey_self, hrow, Option.map_some,
      if_pos hreporting]
    exact .delivers hreporting hopen ⟨rfl, rfl, rfl, rfl, fun h => h⟩
      ⟨rfl, rfl, rfl, rfl, rfl, rfl⟩
  · dsimp only [Store.report]
    rw [hother k hk, Table.find?_updateKey_ne _ _ _ _ hk]

theorem markReportFailure_reportMoves {report : Report} {retry : Bool} {safe : GoString}
    (hs : s.OutboxIDs) (hof : report.Of s) (hsafe : retry = false → rules.error safe)
    (h : markReportFailure report retry safe now s = .ok s') : ReportMoves rules s s' := by
  obtain ⟨o, ho, hid⟩ := hof
  simp only [markReportFailure, require_bind_eq_ok, pure_eq_ok] at h
  obtain ⟨hcount, hhits, rfl⟩ := h
  obtain ⟨row, hrow, hreporting⟩ := Table.hits_iff.mp hhits
  obtain ⟨hopen, hself, hother⟩ := outbox_update (fun o => { o with
    status := if retry then .retry else .blocked
    attempts := o.attempts + 1
    dueAt := unixMilli (if retry then now + reportRetryDelay (report.attempts + 1) else now)
    lastError := safe
    updatedAt := unixMilli now }) (fun _ => rfl) hs ho hid hcount
  refine .of_step (j := report.jobID) ?_ (fun k hk => ?_)
    fun hs => outboxIDs_update hs rfl (fun _ => rfl) fun _ => rfl
  · dsimp only [Store.report]
    rw [hself, ho, Table.find?_updateKey_self, hrow, Option.map_some, if_pos hreporting]
    cases retry with
    | true =>
      exact .retries hreporting hopen ⟨rfl, rfl, rfl, rfl, fun h => h⟩
        ⟨rfl, rfl, rfl, rfl, rfl, rfl⟩ fun h => h
    | false =>
      exact .fails hreporting hopen ⟨rfl, rfl, rfl, rfl, fun h => h⟩
        ⟨rfl, rfl, rfl, rfl, rfl, rfl⟩ (fun h => h) rfl (hsafe rfl)
  · dsimp only [Store.report]
    rw [hother k hk, Table.find?_updateKey_ne _ _ _ _ hk]

/-! ### The operator -/

/-- When a blocked report is requeued, and what is written. -/
theorem reconcileBlockedReport_ok {jobID : Int} {brokerRunID idempotencyKey : GoString} :
    reconcileBlockedReport jobID brokerRunID idempotencyKey now s = .ok s' ↔
      1 ≤ jobID ∧ brokerRunID ≠ [] ∧ idempotencyKey ≠ [] ∧ ∃ r t o,
        s.report jobID = ⟨some r, some t, some o⟩ ∧
        r.brokerRunID = brokerRunID ∧ t.runID = brokerRunID ∧ o.idempotencyKey = idempotencyKey ∧
        o.terminalResultVersion = t.version ∧ r.status = .reportBlocked ∧ o.status = .blocked ∧
        o.Unsent ∧ r.lastError ≠ [] ∧ o.lastError ≠ [] ∧ r.lastError = o.lastError ∧
        s.outbox.rows.countP (fun row => row.id = o.id && row.status = .blocked &&
          row.commentID = none && row.commentURL = [] && row.deliveredAt = none) = 1 ∧
        { s with
          outbox := s.outbox.update (fun row => row.id = o.id && row.status = .blocked &&
              row.commentID = none && row.commentURL = [] && row.deliveredAt = none)
            (fun row => { row with
              status := .retry
              dueAt := unixMilli now
              updatedAt := unixMilli now }) (fun _ => rfl)
          jobs := s.jobs.updateKey jobID (fun r => r.status = .reportBlocked)
            (fun r => { r with
              status := .reportRetry
              dueAt := unixMilli now
              updatedAt := unixMilli now }) (fun _ => rfl) } = s' := by
  simp only [reconcileBlockedReport, require_bind_eq_ok, not_or, not_lt, Store.report,
    ReportRecord.mk.injEq]
  constructor
  · rintro ⟨⟨hid, hrun, hkey⟩, h⟩
    refine ⟨hid, hrun, hkey, ?_⟩
    split at h
    · next r t o hr ht ho =>
      simp only [require_bind_eq_ok, pure_eq_ok] at h
      obtain ⟨⟨hrr, htr⟩, hk, hv, ⟨hrs, hos⟩, hunsent, ⟨hre, hoe, hsame⟩, hcount, rfl⟩ := h
      exact ⟨r, t, o, ⟨hr, ht, ho⟩, hrr, htr, hk, hv, hrs, hos, hunsent, hre, hoe, hsame, hcount,
        rfl⟩
    · cases h
  · rintro ⟨hid, hrun, hkey, r, t, o, ⟨hr, ht, ho⟩, hrr, htr, hk, hv, hrs, hos, hunsent, hre, hoe,
      hsame, hcount, rfl⟩
    refine ⟨⟨hid, hrun, hkey⟩, ?_⟩
    rw [hr, ht, ho]
    simp only [require_bind_eq_ok, pure, Except.pure]
    exact ⟨⟨hrr, htr⟩, hk, hv, ⟨hrs, hos⟩, hunsent, ⟨hre, hoe, hsame⟩, hcount, trivial⟩

theorem reconcileBlockedReport_reportMoves {jobID : Int} {brokerRunID idempotencyKey : GoString}
    (hs : s.OutboxIDs)
    (h : reconcileBlockedReport jobID brokerRunID idempotencyKey now s = .ok s') :
    ReportMoves rules s s' := by
  obtain ⟨-, -, -, r, t, o, hrecord, -, -, -, -, hr, ho, -, -, -, -, hcount, rfl⟩ :=
    reconcileBlockedReport_ok.mp h
  simp only [Store.report, ReportRecord.mk.injEq] at hrecord
  obtain ⟨hrow, hterminal, houtbox⟩ := hrecord
  simp only [Bool.and_assoc] at hcount ⊢
  obtain ⟨-, hself, hother⟩ := outbox_update (fun row => { row with
    status := .retry
    dueAt := unixMilli now
    updatedAt := unixMilli now }) (fun _ => rfl) hs houtbox rfl hcount
  refine .of_step (j := jobID) ?_ (fun k hk => ?_)
    fun hs => outboxIDs_update hs rfl (fun _ => rfl) fun _ => rfl
  · dsimp only [Store.report]
    rw [hself, houtbox, Table.find?_updateKey_self, hrow, Option.map_some,
      if_pos (decide_eq_true hr)]
    exact .requeues hr ho ⟨rfl, rfl, rfl, rfl, fun h => h⟩ ⟨rfl, rfl, rfl, rfl, rfl, rfl⟩
      fun h => h
  · dsimp only [Store.report]
    rw [hother k hk, Table.find?_updateKey_ne _ _ _ _ hk]

end Operations

end SignalPlane.Dispatcher
