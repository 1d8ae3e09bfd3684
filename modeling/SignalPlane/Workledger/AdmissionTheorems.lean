/-
SignalPlane.Workledger.AdmissionTheorems — one record for every delivery.

A `Request` is one call of `AdmitWithAgent` or `AdmitRelease`; `Admit` is the
former with the zero binding. Both look for the delivery first: when it is
recorded, the call writes nothing and answers with what is recorded, and when
not, it adds one event to one item. `DeliveryRecorded` asks the same question
in a query of its own.

The answer rests on two facts about reachable ledgers. A delivery is recorded
at most once (`Reachable.delivered`), so "the recorded row" is one row, and the
item of an event is there (`Store.Linked`).

A repeated `AdmitRelease` is compared with the operation that is stored for
the item. An item that was admitted without one has none, and then the call is
refused: the delivery alone does not make it a duplicate.
-/
import SignalPlane.Workledger.Refinement

namespace SignalPlane.Workledger

open Clock
open Dispatcher (GoError bind_eq_ok require_eq_ok)

/-! ## Requests -/

/-- What an admission carries besides its event. -/
inductive Submission where
  | agent (binding : AgentBinding)
  | release (operation : ReleaseOperation)

def Submission.binding : Submission → AgentBinding
  | .agent binding => binding
  | .release _ => {}

def Submission.operation : Submission → Option ReleaseOperation
  | .agent _ => none
  | .release operation => some operation

/-- One call of an admission, with what it gets from outside. -/
structure Request where
  snapshotID : GoString
  event : Event
  submission : Submission
  tie : Nat
  workToken : Token
  eventToken : Token
  now : Int

namespace Request

def exec (lib : LedgerLib) (q : Request) (s : Store) :
    Except GoError (AdmissionResult × Store) :=
  match q.submission with
  | .agent binding =>
    admitWithAgent lib q.snapshotID q.event binding q.tie q.workToken q.eventToken q.now s
  | .release operation =>
    admitRelease lib q.snapshotID q.event operation q.tie q.workToken q.eventToken q.now s

def op (q : Request) : Op :=
  match q.submission with
  | .agent binding =>
    .admitWithAgent q.snapshotID q.event binding q.tie q.workToken q.eventToken q.now
  | .release operation =>
    .admitRelease q.snapshotID q.event operation q.tie q.workToken q.eventToken q.now

/-- The request passes the checks of its binding, route, fields and expiry, and of its
operation. -/
structure Passes (lib : LedgerLib) (q : Request) (s : Store) : Prop where
  operation : ∀ o ∈ q.submission.operation, o.validate lib = .ok ()
  checks : ∃ definition,
    checkAdmission lib q.snapshotID q.event q.submission.binding q.now s = .ok definition

section Exec

variable {lib : LedgerLib} {q : Request} {s s' : Store} {result : AdmissionResult}

theorem exec_op : q.op.exec lib s = (q.exec lib s).map Prod.snd := by
  unfold op exec
  cases q.submission <;> rfl

theorem step_of_error {err : GoError} (h : q.exec lib s = .error err) : q.op.step lib s = s := by
  have herr : q.op.exec lib s = .error err := by
    rw [exec_op, h]
    rfl
  exact Op.step_of_error herr

/-- Both calls are `admit` once the operation is valid. -/
theorem exec_eq (h : ∀ o ∈ q.submission.operation, o.validate lib = .ok ()) :
    q.exec lib s = admitEvent lib q.snapshotID q.event q.submission.operation q.submission.binding
      q.tie q.workToken q.eventToken q.now s := by
  unfold exec
  cases hq : q.submission with
  | agent binding => rfl
  | release operation =>
    rw [hq] at h
    simp only [admitRelease, h operation rfl]
    rfl

theorem admitEvent_of_exec (h : q.exec lib s = .ok (result, s')) :
    admitEvent lib q.snapshotID q.event q.submission.operation q.submission.binding
      q.tie q.workToken q.eventToken q.now s = .ok (result, s') := by
  unfold exec at h
  cases hq : q.submission with
  | agent binding =>
    rw [hq] at h
    exact h
  | release operation =>
    rw [hq] at h
    obtain ⟨-, -, h⟩ := bind_eq_ok.mp h
    exact h

end Exec

end Request

/-! ## Recorded deliveries -/

/-- The row records the delivery of the event. -/
def WorkEventRow.records (row : WorkEventRow) (e : Event) : Prop :=
  row.event.source = e.source ∧ row.event.nameSpace = e.nameSpace ∧
    row.event.sourceDeliveryID = e.sourceDeliveryID

instance (row : WorkEventRow) (e : Event) : Decidable (row.records e) :=
  inferInstanceAs (Decidable (_ ∧ _ ∧ _))

section Deliveries

variable {lib : LedgerLib} {s s' : Store} {e : Event} {row : WorkEventRow}

theorem recordedDelivery_eq_none :
    s.recordedDelivery e = none ↔ ∀ row ∈ s.workEvents.rows, ¬ row.records e := by
  simp [Store.recordedDelivery, WorkEventRow.records, and_assoc]

theorem recordedDelivery_eq_some (h : s.recordedDelivery e = some row) :
    row ∈ s.workEvents.rows ∧ row.records e := by
  refine ⟨List.mem_of_find?_eq_some h, ?_⟩
  have := List.find?_some h
  simpa [WorkEventRow.records, and_assoc] using this

/-- Only an admission writes events, and only one for a delivery that is not recorded. -/
theorem Op.workEvents {op : Op} (h : op.exec lib s = .ok s') :
    s'.workEvents = s.workEvents ∨ ∃ row, s.recordedDelivery row.event = none ∧
      s'.workEvents = s.workEvents.insert row := by
  cases Op.commits h with
  | admitted h | released h =>
    obtain rfl | ⟨_, _, _, _, row, hnone, -, rfl⟩ := admit_frame h
    · exact .inl rfl
    · exact .inr ⟨row, hnone, rfl⟩
  | replaced _ _ _ hretire | retired hretire =>
    obtain ⟨-, rfl⟩ := retireSnapshots_eq_ok.mp hretire
    exact .inl rfl
  | _ => exact .inl rfl

/-- A delivery is recorded at most once. -/
theorem Reachable.delivered (h : Reachable lib s) :
    ∀ r ∈ s.workEvents.rows, ∀ r' ∈ s.workEvents.rows, r.records r'.event → r = r' := by
  refine ReachableBy.invariant (I := fun s => ∀ r ∈ s.workEvents.rows, ∀ r' ∈ s.workEvents.rows,
    r.records r'.event → r = r') (fun _ hr => absurd hr List.not_mem_nil) ?_ h
  intro s op s' hs _ hexec r hr r' hr' hrecords
  rcases Op.workEvents hexec with hsame | ⟨new, hnone, hnew⟩
  · rw [hsame] at hr hr'
    exact hs r hr r' hr' hrecords
  · rw [hnew] at hr hr'
    have hunrecorded := recordedDelivery_eq_none.mp hnone
    rcases Table.mem_insert.mp hr with hold | ⟨-, rfl⟩ <;>
      rcases Table.mem_insert.mp hr' with hold' | ⟨-, rfl⟩
    · exact hs r hold r' hold' hrecords
    · exact absurd hrecords (hunrecorded r hold)
    · obtain ⟨hsource, hspace, hid⟩ := hrecords
      exact absurd ⟨hsource.symm, hspace.symm, hid.symm⟩ (hunrecorded r' hold')
    · rfl

/-- The recorded delivery is the row that records it. -/
theorem Reachable.recordedDelivery (h : Reachable lib s) (hrow : row ∈ s.workEvents.rows)
    (hrecords : row.records e) : s.recordedDelivery e = some row := by
  cases hfound : s.recordedDelivery e with
  | none => exact absurd hrecords (recordedDelivery_eq_none.mp hfound row hrow)
  | some row' =>
    obtain ⟨hrow', hsource, hspace, hid⟩ := recordedDelivery_eq_some hfound
    obtain ⟨hsource', hspace', hid'⟩ := hrecords
    rw [h.delivered row hrow row' hrow' ⟨hsource'.trans hsource.symm, hspace'.trans hspace.symm,
      hid'.trans hid.symm⟩]

end Deliveries

/-! ## Exactly once -/

/-- The operation that is stored for an item. -/
def Store.operationOf (s : Store) (itemID : GoString) : Option ReleaseOperation :=
  (s.releaseOperations.find? itemID).map ReleaseOperationRow.operation

/-- What a request does, by what is recorded of its delivery. -/
structure Request.Once (lib : LedgerLib) (q : Request) (s : Store) : Prop where
  /-- Recorded with its digest: the answer is what is recorded, and nothing is written. A
  release needs the operation it repeats to be the one that is stored. -/
  duplicate : ∀ row ∈ s.workEvents.rows, row.records q.event →
    row.eventDigest = q.event.digest lib → deliveryRecorded lib q.event s = .ok true ∧
      ((∀ o ∈ q.submission.operation, s.operationOf row.workItemID = some o) →
        ∃ item, s.workItems.find? row.workItemID = some item ∧
          q.exec lib s = .ok (⟨item.scan, row.id, true⟩, s))
  /-- Recorded with its digest, but another operation or none is stored than the one a release
  brings: the release is refused. -/
  mismatch : ∀ row ∈ s.workEvents.rows, row.records q.event →
    row.eventDigest = q.event.digest lib → ∀ o ∈ q.submission.operation,
      s.operationOf row.workItemID ≠ some o →
        q.exec lib s = .error (Dispatcher.newError
          "duplicate delivery conflicts with durable release operation") ∧ q.op.step lib s = s
  /-- Recorded with another digest: the request is refused. -/
  conflict : ∀ row ∈ s.workEvents.rows, row.records q.event →
    row.eventDigest ≠ q.event.digest lib → (∃ err, deliveryRecorded lib q.event s = .error err) ∧
      (∃ err, q.exec lib s = .error err) ∧ q.op.step lib s = s
  /-- Not recorded: one event is added, to one item. -/
  fresh : (∀ row ∈ s.workEvents.rows, ¬ row.records q.event) →
    deliveryRecorded lib q.event s = .ok false ∧
      ((∀ row ∈ s.workEvents.rows, ¬ (row.event.transportStream = q.event.transportStream ∧
          row.event.transportSequence = q.event.transportSequence)) →
        (∀ o ∈ q.submission.operation, ∀ item,
          s.matchedItem q.snapshotID q.event q.tie = some item →
          ∀ stored ∈ s.operationOf item.id, stored = o) →
        ∃ result s', q.exec lib s = .ok (result, s') ∧ result.duplicate = false ∧
          s'.workEvents.rows = s.workEvents.rows ++
            [⟨result.eventID, result.workItem.id, q.event, q.event.digest lib, unixMilli q.now⟩] ∧
          ∃ item, s'.workItems.find? result.workItem.id = some item)

section Once

variable {lib : LedgerLib} {q : Request} {s : Store}

/-- A recorded delivery is answered from its row. -/
theorem Request.recorded_exec {row : WorkEventRow} (hq : q.Passes lib s)
    (hrecorded : s.recordedDelivery q.event = some row) :
    q.exec lib s =
      (duplicateAdmission lib q.event q.submission.operation row s).map (·, s) := by
  obtain ⟨definition, hchecks⟩ := hq.checks
  rw [exec_eq hq.operation, admitEvent, hchecks]
  simp only [hrecorded, bind, Except.bind]
  cases duplicateAdmission lib q.event q.submission.operation row s <;> rfl

theorem Request.duplicate_exec {row : WorkEventRow} {item : WorkItemRow} (hq : q.Passes lib s)
    (hrecorded : s.recordedDelivery q.event = some row)
    (hdigest : row.eventDigest = q.event.digest lib)
    (hoperation : ∀ o ∈ q.submission.operation, s.operationOf row.workItemID = some o)
    (hitem : s.workItems.find? row.workItemID = some item) :
    q.exec lib s = .ok (⟨item.scan, row.id, true⟩, s) := by
  have hdup : duplicateAdmission lib q.event q.submission.operation row s =
      .ok ⟨item.scan, row.id, true⟩ := by
    simp only [duplicateAdmission, bind_eq_ok, require_eq_ok, selectRow_eq_ok, pure, Except.pure]
    exact ⟨(), hdigest, (), hoperation, item, hitem, rfl⟩
  rw [recorded_exec hq hrecorded, hdup]
  rfl

theorem Request.mismatch_exec {row : WorkEventRow} {o : ReleaseOperation} (hq : q.Passes lib s)
    (hrecorded : s.recordedDelivery q.event = some row)
    (hdigest : row.eventDigest = q.event.digest lib) (ho : o ∈ q.submission.operation)
    (hoperation : s.operationOf row.workItemID ≠ some o) :
    q.exec lib s = .error (Dispatcher.newError
      "duplicate delivery conflicts with durable release operation") := by
  have hother : ¬ ∀ o ∈ q.submission.operation,
      (s.releaseOperations.find? row.workItemID).map ReleaseOperationRow.operation = some o :=
    fun h => hoperation (h o ho)
  rw [recorded_exec hq hrecorded, duplicateAdmission, Dispatcher.require, if_pos hdigest,
    Dispatcher.require, if_neg hother]
  rfl

theorem Request.conflict_exec {row : WorkEventRow} (hq : q.Passes lib s)
    (hrecorded : s.recordedDelivery q.event = some row)
    (hdigest : row.eventDigest ≠ q.event.digest lib) : ∃ err, q.exec lib s = .error err := by
  rw [recorded_exec hq hrecorded, duplicateAdmission, Dispatcher.require, if_neg hdigest]
  exact ⟨_, rfl⟩

/-- The item a new delivery goes to is there, and the release it carries can be attached. -/
theorem Request.admitItem_total (hs : s.Linked) (definition : RouteDefinition)
    (hfresh : s.workItems.find? (newID "work" q.workToken) = none)
    (hagrees : ∀ o ∈ q.submission.operation, ∀ item,
      s.matchedItem q.snapshotID q.event q.tie = some item →
        ∀ stored ∈ s.operationOf item.id, stored = o) :
    ∃ item s1, admitItem q.snapshotID definition q.event
        q.submission.binding.admissionBinding q.tie q.workToken q.now s = .ok (item, s1) ∧
      s1.workEvents = s.workEvents ∧
      ∀ o ∈ q.submission.operation, (s1.operationOf item.id).getD o = o := by
  cases hmatched : s.matchedItem q.snapshotID q.event q.tie with
  | some row =>
    refine ⟨row.scan, s, admitItem_eq_ok.mpr (.inl ⟨row, hmatched, rfl, rfl⟩), rfl, fun o ho => ?_⟩
    cases hstored : s.operationOf row.scan.id with
    | none => rfl
    | some stored => exact hagrees o ho row hmatched stored hstored
  | none =>
    have hitem : admitItem q.snapshotID definition q.event q.submission.binding.admissionBinding
        q.tie q.workToken q.now s = _ := admitItem_eq_ok.mpr (.inr ⟨hmatched, hfresh, rfl, rfl⟩)
    obtain ⟨items, attempts, leases, hframe⟩ := admitItem_frame hitem
    refine ⟨_, _, hitem, by rw [hframe], fun o _ => ?_⟩
    -- Nothing is stored for an item that is not there yet.
    have hnone : s.releaseOperations.find? (newID "work" q.workToken) = none := by
      by_contra hsome
      obtain ⟨row, hrow⟩ := Option.ne_none_iff_exists'.mp hsome
      have hitem := hs.operations row (Table.mem_of_find? hrow)
      rw [Table.key_of_find? hrow] at hitem
      exact hitem hfresh
    rw [Store.operationOf, hframe]
    exact congrArg (fun found => (found.map ReleaseOperationRow.operation).getD o) hnone

theorem Request.fresh_exec (hs : s.Linked) (hq : q.Passes lib s)
    (hsequence : q.event.transportSequence.toNat < 2 ^ 63)
    (hfresh : s.workItems.find? (newID "work" q.workToken) = none)
    (hevent : s.workEvents.find? (newID "event" q.eventToken) = none)
    (hrecorded : ∀ row ∈ s.workEvents.rows, ¬ row.records q.event)
    (htransport : ∀ row ∈ s.workEvents.rows,
      ¬ (row.event.transportStream = q.event.transportStream ∧
        row.event.transportSequence = q.event.transportSequence))
    (hagrees : ∀ o ∈ q.submission.operation, ∀ item,
      s.matchedItem q.snapshotID q.event q.tie = some item →
        ∀ stored ∈ s.operationOf item.id, stored = o) :
    ∃ result s', q.exec lib s = .ok (result, s') ∧ result.duplicate = false ∧
      s'.workEvents.rows = s.workEvents.rows ++
        [⟨result.eventID, result.workItem.id, q.event, q.event.digest lib, unixMilli q.now⟩] ∧
      ∃ item, s'.workItems.find? result.workItem.id = some item := by
  obtain ⟨definition, hchecks⟩ := hq.checks
  obtain ⟨snapshot, hid, -, hadmissible⟩ := checkAdmission_eq_ok.mp hchecks
  obtain ⟨item, s1, hitem, hevents, hoperation⟩ :=
    admitItem_total hs snapshot.definition hfresh hagrees
  have hfound := (admitItem_linked hs hitem).2
  obtain ⟨s2, hattach, hevents2, hitems2⟩ : ∃ s2,
      attachOperation item.id q.submission.operation s1 = .ok s2 ∧
        s2.workEvents = s1.workEvents ∧ s2.workItems = s1.workItems := by
    cases ho : q.submission.operation with
    | none => exact ⟨s1, attachOperation_eq_ok.mpr (.inl ⟨rfl, rfl⟩), rfl, rfl⟩
    | some o =>
      exact ⟨_, attachOperation_eq_ok.mpr (.inr ⟨o, rfl, rfl, hoperation o ho⟩), rfl, rfl⟩
  have hrows := hevents2.trans hevents
  let row : WorkEventRow :=
    ⟨newID "event" q.eventToken, item.id, q.event, q.event.digest lib, unixMilli q.now⟩
  have hinsert : s2.insertEvent row = .ok (s2.withEvent row) := by
    refine insertEvent_eq_ok.mpr ⟨hsequence, ?_, ?_, ?_, rfl⟩ <;> rw [hrows]
    exacts [hevent, hrecorded, htransport]
  refine ⟨⟨item, newID "event" q.eventToken, false⟩, s2.withEvent row, ?_, rfl, ?_, ?_⟩
  · rw [exec_eq hq.operation]
    exact admit_eq_ok.mpr ⟨snapshot, hid, hadmissible, .inr ⟨recordedDelivery_eq_none.mpr hrecorded,
      item, s1, s2, hitem, hattach, hinsert, rfl⟩⟩
  · rw [Store.withEvent, hrows]
    exact Table.rows_insert hevent
  · have hthere : (s2.withEvent row).workItems = s1.workItems := hitems2
    rw [hthere]
    exact Option.ne_none_iff_exists'.mp hfound

/-- Every request that passes its checks does one of these things, and `DeliveryRecorded` tells
which. -/
theorem admission_once_per_delivery (h : Reachable lib s) (hq : q.Passes lib s)
    (hsequence : q.event.transportSequence.toNat < 2 ^ 63)
    (hfresh : s.workItems.find? (newID "work" q.workToken) = none)
    (hevent : s.workEvents.find? (newID "event" q.eventToken) = none) : q.Once lib s where
  duplicate := by
    intro row hrow hrecords hdigest
    have hrecorded := h.recordedDelivery hrow hrecords
    refine ⟨?_, fun hoperation => ?_⟩
    · simp only [deliveryRecorded, hrecorded, bind_eq_ok, require_eq_ok]
      exact ⟨(), hdigest, rfl⟩
    · obtain ⟨item, hitem⟩ := Option.ne_none_iff_exists'.mp (h.sound.linked.events row hrow)
      exact ⟨item, hitem, Request.duplicate_exec hq hrecorded hdigest hoperation hitem⟩
  mismatch := by
    intro row hrow hrecords hdigest o ho hoperation
    have herr := Request.mismatch_exec hq (h.recordedDelivery hrow hrecords) hdigest ho hoperation
    exact ⟨herr, Request.step_of_error herr⟩
  conflict := by
    intro row hrow hrecords hdigest
    have hrecorded := h.recordedDelivery hrow hrecords
    obtain ⟨err, herr⟩ := Request.conflict_exec hq hrecorded hdigest
    have hasked : deliveryRecorded lib q.event s = .error
        (Dispatcher.newError "source delivery id conflicts with different event content") := by
      simp only [deliveryRecorded, hrecorded, Dispatcher.require, if_neg hdigest]
      rfl
    exact ⟨⟨_, hasked⟩, ⟨err, herr⟩, Request.step_of_error herr⟩
  fresh := by
    intro hnone
    refine ⟨?_, Request.fresh_exec h.sound.linked hq hsequence hfresh hevent hnone⟩
    simp only [deliveryRecorded, recordedDelivery_eq_none.mpr hnone]

end Once

namespace Sample

def commit : GoString := List.replicate 40 97

/-- A release operation that passes its checks. -/
def operation : ReleaseOperation where
  repository := lit "grubbyhacker/resume-builder"
  repositoryID := 1
  installationID := 146625575
  releaseID := 1
  tag := lit "v2026.01.02-aaaaaaa"
  publishedAt := lit "2026-01-02T00:00:00Z"
  targetCommitish := commit
  commitSHA := commit
  assetID := 1
  assetName := lit "resume_20260102.structured.md"
  assetSize := 1
  assetContentType := lit "text/markdown"
  providerDigest := lit "sha256:" ++ List.replicate 64 97
  computedDigest := lit "sha256:" ++ List.replicate 64 97

/-- Delivery `n`, with tokens `m`. -/
def request (n m : UInt8) (submission : Submission) : Request where
  snapshotID := newID "route" (token 0)
  event := event n (lit "octo/repo") (lit "1") (lit "a")
  submission := submission
  tie := 0
  workToken := token m
  eventToken := token m
  now := 0

/-- The ledger with delivery `1` recorded by a plain admission. -/
def delivered : Store := after [activate, (request 1 1 (.agent {})).op]

theorem exists_ok {α : Type} {x : Except GoError α} (h : x.toOption.isSome = true) :
    ∃ a, x = .ok a := by
  cases x with
  | ok a => exact ⟨a, rfl⟩
  | error err => cases h

theorem operation_valid : operation.validate lib = .ok () := by
  obtain ⟨⟨⟩, hvalid⟩ := exists_ok (x := operation.validate lib) (by decide +kernel)
  exact hvalid

end Sample

open Sample in
/-- The same delivery once more, and another delivery for the same item. -/
theorem admission_once_delivered :
    (∃ row ∈ delivered.workEvents.rows, row.records (request 1 2 (.agent {})).event) ∧
    (request 1 2 (.agent {})).Once lib delivered ∧
    (∀ row ∈ delivered.workEvents.rows, ¬ row.records (request 3 2 (.release operation)).event) ∧
    (request 3 2 (.release operation)).Once lib delivered := by
  have hreachable : Reachable lib delivered := reachable_after _
  refine ⟨by decide +kernel, ?_, by decide +kernel, ?_⟩
  · refine admission_once_per_delivery hreachable ⟨fun o ho => (by cases ho), ?_⟩ (by decide)
      (by decide +kernel) (by decide +kernel)
    exact exists_ok (by decide +kernel)
  · refine admission_once_per_delivery hreachable ⟨?_, exists_ok (by decide +kernel)⟩
      (by decide) (by decide +kernel) (by decide +kernel)
    rintro o ⟨⟩
    exact operation_valid

open Sample in
/-- A delivery that was admitted without an operation, delivered again as a release: it is
recorded with its digest and no operation is stored for its item, and yet the call fails and is
not answered as a duplicate. -/
theorem release_redelivery_refused :
    (request 1 2 (.release Sample.operation)).Passes lib delivered ∧
    (∃ row ∈ delivered.workEvents.rows,
      row.records (request 1 2 (.release Sample.operation)).event ∧
      row.eventDigest = (request 1 2 (.release Sample.operation)).event.digest lib ∧
      delivered.operationOf row.workItemID = none) ∧
    (request 1 2 (.release Sample.operation)).exec lib delivered =
      .error (Dispatcher.newError
        "duplicate delivery conflicts with durable release operation") := by
  have hrow : ∃ row ∈ delivered.workEvents.rows,
      row.records (request 1 2 (.release Sample.operation)).event ∧
      row.eventDigest = (request 1 2 (.release Sample.operation)).event.digest lib ∧
      delivered.operationOf row.workItemID = none := by decide +kernel
  have hpasses : (request 1 2 (.release Sample.operation)).Passes lib delivered :=
    ⟨fun o ho => (by cases ho; exact operation_valid), exists_ok (by decide +kernel)⟩
  refine ⟨hpasses, hrow, ?_⟩
  obtain ⟨row, hmem, hrecords, hdigest, hnone⟩ := hrow
  exact Request.mismatch_exec hpasses
    ((reachable_after _).recordedDelivery hmem hrecords) hdigest rfl (by simp [hnone])

end SignalPlane.Workledger
