/-
SignalPlane.Workledger.Transactions — the operations of the store, seen by one
piece of work.

`Store.work s id` collects what the tables hold of item `id`. One lemma per
statement says what it does to that (`work_updateItems`, `work_insertLease`,
…), and one lemma per operation says what a committed call has checked and
written (`claim_eq_ok`, `complete_eq_ok`, …). `Refinement` puts the two
together: a committed call takes every piece of work at most one `Work.Step`.
`Op.Commits` lists the stores a committed call can leave, for what concerns
other tables.
-/
import SignalPlane.Workledger.Work
import SignalPlane.Workledger.Run

namespace SignalPlane.Workledger

open Clock
open Dispatcher (GoError require bind_eq_ok require_eq_ok require_bind_eq_ok pure_eq_ok)

variable {lib : LedgerLib} {token eventToken workToken : Token} {itemID id snapshotID : GoString}
  {operation : Option ReleaseOperation} {executor : ExecutorDescriptor} {s s' : Store} {now : Int}
  {definition : RouteDefinition} {row : WorkItemRow} {w : Work} {e : Event} {binding : AgentBinding}
  {tie : Nat} {a : ExecutorAttemptRow} {result : AdmissionResult}
  {claimed : WorkItem × ExecutorAttempt} {snapshot : RouteSnapshot}

/-! ## What the tables hold of an item -/

/-- The leases that name an item. -/
def Store.leasesOf (s : Store) (itemID : GoString) : List LeaseRow :=
  s.leases.rows.filter fun l => decide (l.workItemID = itemID)

/-- The terms of a snapshot. -/
def Store.termsOf (s : Store) (snapshotID : GoString) : Option Terms :=
  (s.routeSnapshots.find? snapshotID).map RouteSnapshotRow.terms

/-- An item with its terms, attempts and leases. -/
def Store.work (s : Store) (id : GoString) : Option Work :=
  (s.workItems.find? id).map fun item =>
    ⟨item, s.termsOf item.routeSnapshotID, s.attemptsOf id, s.leasesOf id⟩

theorem Store.work_eq_some : s.work id = some w ↔ s.workItems.find? id = some w.item ∧
      w.terms = s.termsOf w.item.routeSnapshotID ∧ w.attempts = s.attemptsOf id ∧
      w.leases = s.leasesOf id := by
  simp only [work, Option.map_eq_some_iff]
  constructor
  · rintro ⟨item, hitem, rfl⟩
    exact ⟨hitem, rfl, rfl, rfl⟩
  · rintro ⟨hitem, hterms, hattempts, hleases⟩
    refine ⟨w.item, hitem, ?_⟩
    rw [← hterms, ← hattempts, ← hleases]

theorem Store.work_eq_none : s.work id = none ↔ s.workItems.find? id = none := by
  simp [work]

theorem Store.id_of_work (h : s.work id = some w) : w.item.id = id :=
  Table.key_of_find? (work_eq_some.mp h).1

/-- An item has its work. -/
theorem Store.exists_work {r : WorkItemRow} (h : r ∈ s.workItems.rows) :
    ∃ w, s.work r.id = some w ∧ w.item = r :=
  ⟨⟨r, s.termsOf r.routeSnapshotID, s.attemptsOf r.id, s.leasesOf r.id⟩,
    work_eq_some.mpr ⟨Table.find?_key h, rfl, rfl, rfl⟩, rfl⟩

theorem Store.mem_attemptsOf :
    a ∈ s.attemptsOf id ↔ a ∈ s.executorAttempts.rows ∧ a.workItemID = id := by
  simp [attemptsOf]

theorem Store.mem_leasesOf {l : LeaseRow} :
    l ∈ s.leasesOf id ↔ l ∈ s.leases.rows ∧ l.workItemID = id := by
  simp [leasesOf]

/-! ## Statements -/

section Statements

variable (s id)

theorem Store.work_updateItems (p : WorkItemRow → Bool) (f : WorkItemRow → WorkItemRow)
    (hf : ∀ r, (f r).id = r.id) (hidentity : ∀ r, (f r).identity = r.identity) :
    (s.updateItems p f hf).work id = (s.work id).map (Work.withItem (rewrite p f)) := by
  have hterms : ∀ r, (rewrite p f r).routeSnapshotID = r.routeSnapshotID :=
    fun r => congrArg ItemIdentity.routeSnapshotID (rewrite_keeps hidentity r)
  simp only [work, updateItems, Table.find?_update, Option.map_map]
  refine congrArg (fun g => Option.map g (s.workItems.find? id)) (funext fun r => ?_)
  simp only [Function.comp_apply]
  rw [show (if p r = true then f r else r) = rewrite p f r from rfl, hterms r]
  rfl

theorem Store.attemptsOf_updateAttempts (p : ExecutorAttemptRow → Bool)
    (f : ExecutorAttemptRow → ExecutorAttemptRow) (hf : ∀ a, (f a).id = a.id)
    (hidentity : ∀ a, (f a).identity = a.identity) :
    (s.updateAttempts p f hf).attemptsOf id = (s.attemptsOf id).map (rewrite p f) := by
  have hsame : ∀ a, (rewrite p f a).workItemID = a.workItemID :=
    fun a => congrArg AttemptIdentity.workItemID (rewrite_keeps hidentity a)
  simp only [attemptsOf, updateAttempts, Table.update]
  rw [show (fun a => if p a = true then f a else a) = rewrite p f from rfl, List.filter_map]
  refine congrArg (List.map _) (List.filter_congr fun a _ => ?_)
  simp only [Function.comp_apply, hsame]

theorem Store.work_updateAttempts (p : ExecutorAttemptRow → Bool)
    (f : ExecutorAttemptRow → ExecutorAttemptRow) (hf : ∀ a, (f a).id = a.id)
    (hidentity : ∀ a, (f a).identity = a.identity) :
    (s.updateAttempts p f hf).work id =
      (s.work id).map fun w => { w with attempts := w.attempts.map (rewrite p f) } := by
  simp only [work, s.attemptsOf_updateAttempts id p f hf hidentity, Option.map_map]
  rfl

theorem Store.work_deleteLeases (p : LeaseRow → Bool) :
    (s.deleteLeases p).work id =
      (s.work id).map fun w => { w with leases := w.leases.filter fun l => !p l } := by
  have hleases : (s.deleteLeases p).leasesOf id = (s.leasesOf id).filter fun l => !p l := by
    simp only [leasesOf, deleteLeases, Table.delete, List.filter_filter]
    exact List.filter_congr fun l _ => Bool.and_comm ..
  simp only [work, hleases, Option.map_map]
  rfl

theorem Store.work_insertAttempt {row : ExecutorAttemptRow}
    (hfresh : s.executorAttempts.find? row.id = none) :
    (s.withAttempt row).work id =
      (s.work id).map fun w =>
        { w with attempts := w.attempts ++ if row.workItemID = id then [row] else [] } := by
  have hrows : (s.withAttempt row).attemptsOf id
      = s.attemptsOf id ++ if row.workItemID = id then [row] else [] := by
    simp only [attemptsOf, withAttempt, Table.rows_insert hfresh, List.filter_append,
      List.filter_singleton]
    by_cases h : row.workItemID = id <;> simp [h]
  simp only [work, hrows, Option.map_map]
  rfl

theorem Store.work_insertLease {row : LeaseRow}
    (hfresh : s.leases.find? row.serializationKey = none) :
    (s.withLease row).work id =
      (s.work id).map fun w =>
        { w with leases := w.leases ++ if row.workItemID = id then [row] else [] } := by
  have hrows : (s.withLease row).leasesOf id
      = s.leasesOf id ++ if row.workItemID = id then [row] else [] := by
    simp only [leasesOf, withLease, Table.rows_insert hfresh, List.filter_append,
      List.filter_singleton]
    by_cases h : row.workItemID = id <;> simp [h]
  simp only [work, hrows, Option.map_map]
  rfl

theorem Store.work_insertItem (hfresh : s.workItems.find? row.id = none) :
    (s.withItem row).work id =
      if id = row.id then
        some ⟨row, s.termsOf row.routeSnapshotID, s.attemptsOf row.id, s.leasesOf row.id⟩
      else s.work id := by
  by_cases h : id = row.id
  · subst h
    rw [if_pos rfl]
    simp only [work, withItem, Table.find?_insert, if_pos, hfresh, Option.getD_none,
      Option.map_some]
    rfl
  · rw [if_neg h]
    simp only [work, withItem, Table.find?_insert_ne _ h]
    rfl

end Statements

/-- The subquery on an item, seen by the item's own rows. -/
theorem Store.isItem_of_work (h : s.work id = some w) (p : WorkItemRow → Bool) :
    s.isItem p id = p w.item := by
  simp only [isItem, Table.hits, (work_eq_some.mp h).1, Option.any_some]

/-- An attempt found by its id is among the attempts of its item. -/
theorem Store.mem_attempts (ha : a ∈ s.executorAttempts.rows) (h : s.work a.workItemID = some w) :
    a ∈ w.attempts := by
  rw [(work_eq_some.mp h).2.2.1]
  exact mem_attemptsOf.mpr ⟨ha, rfl⟩

/-- An attempt with an id belongs to no other item. -/
theorem Store.id_ne_of_mem {b : ExecutorAttemptRow} (h : s.work id = some w)
    (ha : a ∈ s.executorAttempts.rows) (hne : a.workItemID ≠ id) (hb : b ∈ w.attempts) :
    b.id ≠ a.id := by
  rw [(work_eq_some.mp h).2.2.1] at hb
  obtain ⟨hb, hitem⟩ := mem_attemptsOf.mp hb
  intro heq
  have : some b = some a := by
    rw [← Table.find?_key hb, ← Table.find?_key ha, heq]
  cases this
  exact hne hitem

/-! ## What a committed call has checked and written -/

/-- `selectRow` finds its row. -/
@[simp] theorem selectRow_eq_ok {α : Type} {o : Option α} {a : α} :
    selectRow o = .ok a ↔ o = some a := by
  cases o <;> simp [selectRow]

theorem map_snd_eq_ok {α β : Type} {x : Except GoError (α × β)} {b : β} :
    x.map Prod.snd = .ok b ↔ ∃ a, x = .ok (a, b) := by
  cases x <;> simp [Except.map, Prod.ext_iff]

theorem insertItem_eq_ok :
    s.insertItem row = .ok s' ↔ s.workItems.find? row.id = none ∧ s' = s.withItem row := by
  simp only [Store.insertItem, require_bind_eq_ok, pure_eq_ok, eq_comm (a := s')]

theorem insertAttempt_eq_ok {row : ExecutorAttemptRow} :
    s.insertAttempt row = .ok s' ↔ s.executorAttempts.find? row.id = none ∧
      (∀ a ∈ s.executorAttempts.rows, a.idempotencyKey ≠ row.idempotencyKey) ∧
      (∀ a ∈ s.executorAttempts.rows,
        ¬ (a.workItemID = row.workItemID ∧ a.attemptNumber = row.attemptNumber)) ∧
      s' = s.withAttempt row := by
  simp only [Store.insertAttempt, require_bind_eq_ok, pure_eq_ok, eq_comm (a := s')]

theorem insertLease_eq_ok {row : LeaseRow} :
    s.insertLease row = .ok s' ↔ s.leases.find? row.serializationKey = none ∧
      (∀ l ∈ s.leases.rows, l.workItemID ≠ row.workItemID) ∧
      (∀ l ∈ s.leases.rows, l.attemptID ≠ row.attemptID) ∧ s' = s.withLease row := by
  simp only [Store.insertLease, require_bind_eq_ok, pure_eq_ok, eq_comm (a := s')]

theorem insertEvent_eq_ok {row : WorkEventRow} :
    s.insertEvent row = .ok s' ↔ row.event.transportSequence.toNat < 2 ^ 63 ∧
      s.workEvents.find? row.id = none ∧
      (∀ r ∈ s.workEvents.rows, ¬ (r.event.source = row.event.source ∧
        r.event.nameSpace = row.event.nameSpace ∧
        r.event.sourceDeliveryID = row.event.sourceDeliveryID)) ∧
      (∀ r ∈ s.workEvents.rows, ¬ (r.event.transportStream = row.event.transportStream ∧
        r.event.transportSequence = row.event.transportSequence)) ∧
      s' = s.withEvent row := by
  simp only [Store.insertEvent, require_bind_eq_ok, pure_eq_ok, eq_comm (a := s')]

theorem loadDefinition_eq_ok : s.loadDefinition lib id = .ok definition ↔
      ∃ row, s.routeSnapshots.find? id = some row ∧ row.definition.validate lib = .ok () ∧
        definition = row.definition := by
  simp only [Store.loadDefinition, bind_eq_ok, selectRow_eq_ok, pure_eq_ok]
  constructor
  · rintro ⟨row, hrow, ⟨⟩, hvalid, rfl⟩
    exact ⟨row, hrow, hvalid, rfl⟩
  · rintro ⟨row, hrow, hvalid, rfl⟩
    exact ⟨row, hrow, (), hvalid, rfl⟩

/-- What an admission has passed before it looks for the delivery. -/
structure Admissible (lib : LedgerLib) (s : Store) (snapshot : RouteSnapshotRow) (e : Event)
    (binding : AgentBinding) (now : Int) : Prop where
  selection : binding.rejectAdmissionSelection = .ok ()
  binding : binding.admissionBinding.validate = .ok ()
  found : s.routeSnapshots.find? snapshot.id = some snapshot
  valid : snapshot.definition.validate lib = .ok ()
  active : snapshot.retiredAt = none
  admits : snapshot.definition.admission.matches e = true
  fields : e.sourceDeliveryID ≠ [] ∧ e.transportStream ≠ [] ∧ e.transportSequence ≠ 0 ∧
    e.nameSpace ≠ [] ∧ e.objectID ≠ [] ∧ e.sourceRevision ≠ [] ∧ e.payloadDigest ≠ [] ∧
    e.evidenceRef ≠ []
  hops : 0 ≤ e.hopCount
  unexpired : ∀ t ∈ e.expiresAt, now < t

theorem checkAdmission_eq_ok : checkAdmission lib snapshotID e binding now s = .ok definition ↔
      ∃ snapshot, snapshot.id = snapshotID ∧ definition = snapshot.definition ∧
        Admissible lib s snapshot e binding now := by
  simp only [checkAdmission, bind_eq_ok, selectRow_eq_ok, loadDefinition_eq_ok, require_eq_ok,
    pure_eq_ok]
  constructor
  · rintro ⟨⟨⟩, hselection, ⟨⟩, hbinding, snapshot, hfound, d, ⟨row, hrow, hvalid, rfl⟩,
      ⟨⟩, ⟨hactive, hadmits⟩, ⟨⟩, hfields, ⟨⟩, ⟨hhops, hexpires⟩, rfl⟩
    rw [hfound] at hrow
    cases hrow
    have hid := Table.key_of_find? hfound
    exact ⟨snapshot, hid, rfl, hselection, hbinding, hid ▸ hfound, hvalid, hactive, hadmits,
      hfields, hhops, hexpires⟩
  · rintro ⟨snapshot, rfl, rfl, h⟩
    exact ⟨(), h.selection, (), h.binding, snapshot, h.found, _,
      ⟨snapshot, h.found, h.valid, rfl⟩, (), ⟨h.active, h.admits⟩, (), h.fields, (),
      ⟨h.hops, h.unexpired⟩, rfl⟩

/-- The store with new work in it. -/
def Store.withNewWork (s : Store) (definition : RouteDefinition) (row : WorkItemRow) (now : Int) :
    Store :=
  if definition.concurrency.supersede then (s.withItem row).supersedeOthers row now
  else s.withItem row

/-- New work writes items, attempts and leases only. -/
theorem Store.withNewWork_frame (s : Store) (definition : RouteDefinition) (row : WorkItemRow)
    (now : Int) : ∃ items attempts leases, s.withNewWork definition row now =
      { s with workItems := items, executorAttempts := attempts, leases := leases } := by
  unfold withNewWork
  split
  · exact ⟨_, _, _, rfl⟩
  · exact ⟨_, _, _, rfl⟩

/-- The items of the store with new work in it. -/
theorem Store.find?_withNewWork (hfresh : s.workItems.find? row.id = none) (id : GoString) :
    (s.withNewWork definition row now).workItems.find? id =
      if id = row.id then some row
      else (s.workItems.find? id).map (rewrite
        (fun r => definition.concurrency.supersede && row.replacedBy r)
        (WorkItemRow.supersede row.id now)) := by
  have hadded : (s.withItem row).workItems.find? id =
      if id = row.id then some row else s.workItems.find? id := by
    rw [Store.withItem, Table.find?_insert, hfresh, Option.getD_none]
  unfold withNewWork
  cases definition.concurrency.supersede with
  | false =>
    rw [if_neg (by simp), hadded]
    refine if_congr Iff.rfl rfl ?_
    cases s.workItems.find? id with
    | none => rfl
    | some r => rw [Option.map_some, rewrite_of_not rfl]
  | true =>
    simp only [if_true, Bool.true_and, supersedeOthers, updateItems, deleteLeases, updateAttempts,
      Table.find?_update, hadded]
    split
    · -- The new item does not supersede itself.
      rw [Option.map_some, if_neg (by simp [WorkItemRow.replacedBy])]
    · rfl

theorem admitItem_eq_ok {item : WorkItem} :
    admitItem snapshotID definition e binding tie token now s = .ok (item, s') ↔
      (∃ row, s.matchedItem snapshotID e tie = some row ∧ item = row.scan ∧ s' = s) ∨
      (s.matchedItem snapshotID e tie = none ∧
        s.workItems.find? (newID "work" token) = none ∧
        item = { (newItem snapshotID definition e binding token now).scan with
          createdAt := now, updatedAt := now, nextAttemptAt := none } ∧
        s' = s.withNewWork definition (newItem snapshotID definition e binding token now) now) := by
  unfold admitItem
  cases hm : s.matchedItem snapshotID e tie with
  | some row => simp [eq_comm]
  | none =>
    simp only [admitNew, bind_eq_ok, insertItem_eq_ok, pure_eq_ok, Prod.mk.injEq, Store.withNewWork,
      reduceCtorEq, false_and, exists_false, true_and, false_or]
    constructor
    · rintro ⟨s1, ⟨s0, ⟨hfresh, rfl⟩, rfl⟩, rfl, rfl⟩
      exact ⟨hfresh, rfl, rfl⟩
    · rintro ⟨hfresh, rfl, rfl⟩
      exact ⟨_, ⟨_, ⟨hfresh, rfl⟩, rfl⟩, rfl, rfl⟩

theorem attachOperation_eq_ok : attachOperation itemID operation s = .ok s' ↔
      (operation = none ∧ s' = s) ∨
      (∃ o, operation = some o ∧ s' = s.withOperation ⟨itemID, o⟩ ∧
        ((s.releaseOperations.find? itemID).map ReleaseOperationRow.operation).getD o = o) := by
  cases operation with
  | none => simp [attachOperation, eq_comm]
  | some o =>
    have hstored : (s.withOperation ⟨itemID, o⟩).releaseOperations.find? itemID =
        some ((s.releaseOperations.find? itemID).getD ⟨itemID, o⟩) :=
      Table.find?_insert_self s.releaseOperations ⟨itemID, o⟩
    simp only [attachOperation, require_bind_eq_ok, pure_eq_ok, hstored, reduceCtorEq, false_and,
      Option.some.injEq, exists_eq_left', false_or]
    rw [and_comm, eq_comm (a := s')]
    refine and_congr_right fun _ => ?_
    cases s.releaseOperations.find? itemID <;> simp

theorem admit_eq_ok : admitEvent lib snapshotID e operation binding tie workToken eventToken now s =
        .ok (result, s') ↔
      ∃ snapshot, snapshot.id = snapshotID ∧ Admissible lib s snapshot e binding now ∧
        ((∃ row, s.recordedDelivery e = some row ∧ s' = s ∧
            duplicateAdmission lib e operation row s = .ok result) ∨
          (s.recordedDelivery e = none ∧ ∃ item s1 s2,
            admitItem snapshotID snapshot.definition e binding.admissionBinding tie workToken now s
              = .ok (item, s1) ∧
            attachOperation item.id operation s1 = .ok s2 ∧
            s2.insertEvent ⟨newID "event" eventToken, item.id, e, e.digest lib, unixMilli now⟩
              = .ok s' ∧
            result = ⟨item, newID "event" eventToken, false⟩)) := by
  simp only [admitEvent, bind_eq_ok, checkAdmission_eq_ok]
  constructor
  · rintro ⟨definition, ⟨snapshot, hid, rfl, hadmissible⟩, h⟩
    refine ⟨snapshot, hid, hadmissible, ?_⟩
    cases hr : s.recordedDelivery e with
    | some row =>
      simp only [hr, bind_eq_ok, pure_eq_ok, Prod.mk.injEq] at h
      obtain ⟨_, hdup, rfl, rfl⟩ := h
      exact .inl ⟨row, rfl, rfl, hdup⟩
    | none =>
      simp only [hr, bind_eq_ok, pure_eq_ok, Prod.mk.injEq, Prod.exists] at h
      obtain ⟨item, s1, hitem, s2, hoperation, _, hevent, rfl, rfl⟩ := h
      exact .inr ⟨rfl, item, s1, s2, hitem, hoperation, hevent, rfl⟩
  · rintro ⟨snapshot, hid, hadmissible, h⟩
    refine ⟨_, ⟨snapshot, hid, rfl, hadmissible⟩, ?_⟩
    rcases h with ⟨row, hr, rfl, hdup⟩ | ⟨hr, item, s1, s2, hitem, hoperation, hevent, rfl⟩
    · simp only [hr, bind_eq_ok, pure, Except.pure]
      exact ⟨_, hdup, rfl⟩
    · simp only [hr, bind_eq_ok, pure_eq_ok, Prod.mk.injEq, Prod.exists]
      exact ⟨item, s1, hitem, s2, hoperation, _, hevent, rfl, rfl⟩

theorem admitItem_frame {item : WorkItem}
    (h : admitItem snapshotID definition e binding tie workToken now s = .ok (item, s')) :
    ∃ items attempts leases,
      s' = { s with workItems := items, executorAttempts := attempts, leases := leases } := by
  rcases admitItem_eq_ok.mp h with ⟨row, -, -, rfl⟩ | ⟨-, -, -, rfl⟩
  · exact ⟨_, _, _, rfl⟩
  · exact s.withNewWork_frame _ _ _

/-- A delivery that is recorded changes nothing. Any other is recorded, and leaves routes, dead
letters and results alone. -/
theorem admit_frame
    (h : admitEvent lib snapshotID e operation binding tie workToken eventToken now s =
      .ok (result, s')) :
    s' = s ∨ ∃ items attempts leases operations row, s.recordedDelivery row.event = none ∧
      (operations = s.releaseOperations ∨ ∃ o, operation = some o.operation ∧
        operations = s.releaseOperations.insert o) ∧
      s' = { s with
        workItems := items
        workEvents := s.workEvents.insert row
        executorAttempts := attempts
        leases := leases
        releaseOperations := operations } := by
  obtain ⟨snapshot, -, -, ⟨-, -, rfl, -⟩ | ⟨hnone, item, s1, s2, hitem, hattach, hevent, -⟩⟩ :=
    admit_eq_ok.mp h
  · exact .inl rfl
  right
  obtain ⟨items, attempts, leases, rfl⟩ := admitItem_frame hitem
  obtain ⟨-, -, -, -, rfl⟩ := insertEvent_eq_ok.mp hevent
  refine ⟨items, attempts, leases, s2.releaseOperations,
    ⟨newID "event" eventToken, item.id, e, e.digest lib, unixMilli now⟩, hnone, ?_⟩
  rcases attachOperation_eq_ok.mp hattach with ⟨-, rfl⟩ | ⟨o, ho, rfl, -⟩
  · exact ⟨.inl rfl, rfl⟩
  · exact ⟨.inr ⟨⟨item.id, o⟩, ho, rfl⟩, rfl⟩

/-- An admission leaves the items alone, because the delivery is recorded or an item matches, or
it adds new work. -/
theorem admit_items
    (h : admitEvent lib snapshotID e operation binding tie workToken eventToken now s =
      .ok (result, s')) : (s'.workItems = s.workItems ∧
      (s.recordedDelivery e ≠ none ∨ s.matchedItem snapshotID e tie ≠ none)) ∨
    ∃ snapshot, snapshot.id = snapshotID ∧ Admissible lib s snapshot e binding now ∧
      s.recordedDelivery e = none ∧ s.matchedItem snapshotID e tie = none ∧
      s.workItems.find? (newID "work" workToken) = none ∧
      s'.workItems = (s.withNewWork snapshot.definition (newItem snapshotID snapshot.definition e
        binding.admissionBinding workToken now) now).workItems := by
  obtain ⟨snapshot, hid, hadmissible, ⟨row, hrecorded, rfl, -⟩ |
    ⟨hrecorded, item, s1, s2, hitem, hattach, hevent, -⟩⟩ := admit_eq_ok.mp h
  · exact .inl ⟨rfl, .inl (by simp [hrecorded])⟩
  · have hitems : s'.workItems = s1.workItems := by
      obtain ⟨-, -, -, -, rfl⟩ := insertEvent_eq_ok.mp hevent
      rcases attachOperation_eq_ok.mp hattach with ⟨-, rfl⟩ | ⟨o, -, rfl, -⟩
      · rfl
      · rfl
    rw [hitems]
    rcases admitItem_eq_ok.mp hitem with ⟨row, hmatched, -, rfl⟩ | ⟨hmatched, hfresh, -, rfl⟩
    · exact .inl ⟨rfl, .inr (by simp [hmatched])⟩
    · exact .inr ⟨snapshot, hid, hadmissible, hrecorded, hmatched, hfresh, rfl⟩

/-- The store after an interrupted attempt is taken up again. -/
def Store.reclaimed (s : Store) (row : WorkItemRow) (attemptID : GoString) (now : Int) : Store :=
  ((s.updateAttempts (fun a => decide (a.id = attemptID) && decide (a.state = .recoverable))
    (ExecutorAttemptRow.restart now) (ExecutorAttemptRow.id_restart now)).withLease
      ⟨row.serializationKey, row.id, attemptID, unixMilli now⟩).updateItems
    (fun r => decide (r.id = row.id) && decide (r.state = .waiting))
    (WorkItemRow.activate now) (WorkItemRow.id_activate now)

/-- The lease a claim takes is free. -/
structure Store.LeaseFree (s : Store) (row : WorkItemRow) (attemptID : GoString) : Prop where
  key : s.leases.find? row.serializationKey = none
  item : ∀ l ∈ s.leases.rows, l.workItemID ≠ row.id
  attempt : ∀ l ∈ s.leases.rows, l.attemptID ≠ attemptID

theorem reclaim_eq_ok {attempt : ExecutorAttemptRow} :
    reclaim row attempt now s = .ok (claimed, s') ↔ s.LeaseFree row attempt.id ∧
      claimed = (row.claimedItem now, { attempt.scan with state := .running }) ∧
      s' = s.reclaimed row attempt.id now := by
  simp only [reclaim, bind_eq_ok, insertLease_eq_ok, pure_eq_ok, Prod.mk.injEq]
  constructor
  · rintro ⟨_, ⟨hkey, hitem, hattempt, rfl⟩, rfl, rfl⟩
    exact ⟨⟨hkey, hitem, hattempt⟩, rfl, rfl⟩
  · rintro ⟨hfree, rfl, rfl⟩
    exact ⟨_, ⟨hfree.key, hfree.item, hfree.attempt, rfl⟩, rfl, rfl⟩

/-- The attempt a claim starts. -/
def Store.nextAttempt (s : Store) (row : WorkItemRow) (snapshot : RouteSnapshotRow)
    (token : Token) (now : Int) : ExecutorAttemptRow :=
  newAttempt row snapshot ((s.attemptsOf row.id).length + 1) (s.releaseOperations.find? row.id)
    token now

/-- The store after the next attempt is started. -/
def Store.started (s : Store) (row : WorkItemRow) (attempt : ExecutorAttemptRow) (now : Int) :
    Store :=
  ((s.withAttempt attempt).withLease
    ⟨row.serializationKey, row.id, attempt.id, unixMilli now⟩).updateItems
    (fun r => decide (r.id = row.id) && r.state.isReady) (WorkItemRow.activate now)
    (WorkItemRow.id_activate now)

/-- The new attempt breaks no uniqueness constraint. -/
structure Store.AttemptFree (s : Store) (attempt : ExecutorAttemptRow) : Prop where
  id : s.executorAttempts.find? attempt.id = none
  key : ∀ a ∈ s.executorAttempts.rows, a.idempotencyKey ≠ attempt.idempotencyKey
  number : ∀ a ∈ s.executorAttempts.rows,
    ¬ (a.workItemID = attempt.workItemID ∧ a.attemptNumber = attempt.attemptNumber)

theorem startAttempt_eq_ok : startAttempt row token now s = .ok (claimed, s') ↔ ∃ snapshot,
      s.routeSnapshots.find? row.routeSnapshotID = some snapshot ∧
      s.AttemptFree (s.nextAttempt row snapshot token now) ∧
      s.LeaseFree row (s.nextAttempt row snapshot token now).id ∧
      claimed = (row.claimedItem now,
        { (s.nextAttempt row snapshot token now).scan with createdAt := now }) ∧
      s' = s.started row (s.nextAttempt row snapshot token now) now := by
  simp only [startAttempt, bind_eq_ok, selectRow_eq_ok, insertAttempt_eq_ok, insertLease_eq_ok,
    pure_eq_ok, Prod.mk.injEq]
  constructor
  · rintro ⟨snapshot, hsnapshot, _, ⟨hid, hkey, hnumber, rfl⟩, _, ⟨hfree, hitem, hattempt, rfl⟩,
      rfl, rfl⟩
    exact ⟨snapshot, hsnapshot, ⟨hid, hkey, hnumber⟩, ⟨hfree, hitem, hattempt⟩, rfl, rfl⟩
  · rintro ⟨snapshot, hsnapshot, hattempt, hlease, rfl, rfl⟩
    exact ⟨snapshot, hsnapshot, _, ⟨hattempt.id, hattempt.key, hattempt.number, rfl⟩, _,
      ⟨hlease.key, hlease.item, hlease.attempt, rfl⟩, rfl, rfl⟩

/-- A claim takes up the recoverable attempt of an item, or starts the next. -/
theorem claimItem_cases (h : claimItem row token now s = .ok (claimed, s')) :
    (∃ attempt, s.recoverableAttempt row.id = some attempt ∧
      reclaim row attempt now s = .ok (claimed, s')) ∨
    (s.recoverableAttempt row.id = none ∧ startAttempt row token now s = .ok (claimed, s')) := by
  unfold claimItem at h
  split at h
  · next attempt hattempt => exact .inl ⟨attempt, hattempt, h⟩
  · next hattempt => exact .inr ⟨hattempt, h⟩

/-- A claim expires waits, and then claims the item that is due, if there is one. -/
theorem claim_eq_ok {claimed : Option (WorkItem × ExecutorAttempt)} :
    claim tie token now s = .ok (claimed, s') ↔
      ((s.expireWaits now).nextDue tie now = none ∧ claimed = none ∧ s' = s.expireWaits now) ∨
      (∃ row c, (s.expireWaits now).nextDue tie now = some row ∧ claimed = some c ∧
        claimItem row token now (s.expireWaits now) = .ok (c, s')) := by
  unfold claim
  cases hdue : (s.expireWaits now).nextDue tie now with
  | none => simp [pure, Except.pure, hdue, eq_comm]
  | some row =>
    simp only [hdue, bind_eq_ok, pure_eq_ok, Prod.mk.injEq, reduceCtorEq, false_and,
      Option.some.injEq, exists_and_left, exists_eq_left', false_or]
    constructor
    · rintro ⟨⟨c, s1⟩, hclaim, rfl, rfl⟩
      exact ⟨c, rfl, hclaim⟩
    · rintro ⟨c, rfl, hclaim⟩
      exact ⟨(c, s'), hclaim, rfl, rfl⟩

/-- The store after a completion of active work. -/
def Store.settled (s : Store) (itemID attemptID : GoString) (settlement : Settlement)
    (result : ExecutorResult) (now : Int) : Store :=
  ((s.updateAttempts (fun a => decide (a.id = attemptID))
    (ExecutorAttemptRow.settle settlement result now)
    (ExecutorAttemptRow.id_settle settlement result now)).updateItems
      (fun r => decide (r.id = itemID) && decide (r.state = .active))
      (WorkItemRow.settle settlement result now)
      (WorkItemRow.id_settle settlement result now)).deleteLeases
    (fun l => decide (l.attemptID = attemptID))

/-- The store after a late completion of superseded work. -/
def Store.closed (s : Store) (attemptID : GoString) (now : Int) : Store :=
  (s.updateAttempts (fun a => decide (a.id = attemptID)) (ExecutorAttemptRow.supersede now)
    (ExecutorAttemptRow.id_supersede now)).deleteLeases (fun l => decide (l.attemptID = attemptID))

theorem complete_eq_ok {attemptID : GoString} {result : ExecutorResult} :
    complete lib attemptID result now s = .ok s' ↔ ∃ attempt item,
      s.executorAttempts.find? attemptID = some attempt ∧ attempt.state = .running ∧
      s.workItems.find? attempt.workItemID = some item ∧
      ((item.state = .superseded ∧ s' = s.closed attemptID now) ∨
        (item.state = .active ∧ ∃ definition settlement,
          s.loadDefinition lib item.routeSnapshotID = .ok definition ∧
          settle lib definition.retry attempt.attemptNumber result now = .ok settlement ∧
          s' = s.settled item.id attemptID settlement result now)) := by
  simp only [complete, bind_eq_ok, selectRow_eq_ok, require_eq_ok]
  constructor
  · rintro ⟨attempt, hattempt, ⟨⟩, hrunning, item, hitem, h⟩
    refine ⟨attempt, item, hattempt, hrunning, hitem, ?_⟩
    by_cases hsuperseded : item.state = .superseded
    · rw [if_pos hsuperseded] at h
      cases h
      exact .inl ⟨hsuperseded, rfl⟩
    · rw [if_neg hsuperseded] at h
      simp only [bind_eq_ok, require_eq_ok, pure_eq_ok] at h
      obtain ⟨⟨⟩, hactive, definition, hdefinition, settlement, hsettle, rfl⟩ := h
      exact .inr ⟨hactive, definition, settlement, hdefinition, hsettle, rfl⟩
  · rintro ⟨attempt, item, hattempt, hrunning, hitem, h⟩
    refine ⟨attempt, hattempt, (), hrunning, item, hitem, ?_⟩
    rcases h with ⟨hsuperseded, rfl⟩ | ⟨hactive, definition, settlement, hdefinition, hsettle, rfl⟩
    · rw [if_pos hsuperseded]
      rfl
    · rw [if_neg (by simp [hactive])]
      simp only [bind_eq_ok, require_eq_ok, pure_eq_ok]
      exact ⟨(), hactive, definition, hdefinition, settlement, hsettle, rfl⟩

theorem wakeWaiting_eq_ok :
    wakeWaiting itemID now s = .ok s' ↔ s.workItems.hits itemID WorkItemRow.dormant = true ∧
      s' = s.updateItems (fun r => decide (r.id = itemID) && r.dormant) (WorkItemRow.wake now)
        (WorkItemRow.id_wake now) := by
  simp only [wakeWaiting, require_bind_eq_ok, pure_eq_ok, eq_comm (a := s')]

theorem resolveRelease_eq_ok {generation : Int} {digest brokerRunID : GoString} :
    resolveRelease itemID generation digest brokerRunID now s = .ok s' ↔ ∃ prior,
      s.workItems.find? itemID = some prior ∧
      Work.Resolves prior generation digest brokerRunID ∧
      s' = s.updateItems (fun r => decide (r.id = itemID))
        (WorkItemRow.resolve generation digest brokerRunID now)
        (WorkItemRow.id_resolve generation digest brokerRunID now) := by
  simp only [resolveRelease, bind_eq_ok, require_eq_ok, selectRow_eq_ok, pure, Except.pure]
  constructor
  · rintro ⟨⟨⟩, hpositive, ⟨⟩, hformat, ⟨⟩, hrun, prior, hprior, h⟩
    refine ⟨prior, hprior, ?_⟩
    by_cases hgeneration : prior.resolvedReleaseGeneration = generation
    · rw [if_pos hgeneration] at h
      simp only [bind_eq_ok, require_eq_ok, Except.ok.injEq] at h
      obtain ⟨⟨⟩, hdigest, ⟨⟩, hsame, rfl⟩ := h
      exact ⟨⟨hpositive, hformat, hrun, hgeneration.le, fun _ => ⟨hdigest, hsame⟩⟩, rfl⟩
    · rw [if_neg hgeneration] at h
      simp only [bind_eq_ok, require_eq_ok, Except.ok.injEq] at h
      obtain ⟨⟨⟩, hforward, rfl⟩ := h
      exact ⟨⟨hpositive, hformat, hrun, hforward, fun he => absurd he hgeneration⟩, rfl⟩
  · rintro ⟨prior, hprior, h, rfl⟩
    refine ⟨(), h.positive, (), h.format, (), h.run, prior, hprior, ?_⟩
    by_cases hgeneration : prior.resolvedReleaseGeneration = generation
    · rw [if_pos hgeneration]
      simp only [bind_eq_ok, require_eq_ok]
      exact ⟨(), (h.same hgeneration).1, (), (h.same hgeneration).2, trivial⟩
    · rw [if_neg hgeneration]
      simp only [bind_eq_ok, require_eq_ok]
      exact ⟨(), h.forward, trivial⟩

theorem recordAuthoritativePRCorrelation_eq_ok {repository : GoString} {number : Int} :
    recordAuthoritativePRCorrelation itemID repository number now s = .ok s' ↔ ∃ prior,
      s.workItems.find? itemID = some prior ∧ Work.Correlates prior repository number ∧
      s' = s.updateItems (fun r => decide (r.id = itemID))
        (WorkItemRow.correlate repository number now)
        (WorkItemRow.id_correlate repository number now) := by
  simp only [recordAuthoritativePRCorrelation, bind_eq_ok, require_eq_ok, selectRow_eq_ok,
    pure_eq_ok]
  constructor
  · rintro ⟨⟨⟩, hformat, ⟨⟩, hpositive, prior, hprior, ⟨⟩, hsame, rfl⟩
    exact ⟨prior, hprior, ⟨hformat, hpositive, hsame⟩, rfl⟩
  · rintro ⟨prior, hprior, h, rfl⟩
    exact ⟨(), h.format, (), h.positive, prior, hprior, (), h.same, rfl⟩

theorem retireSnapshots_eq_ok {p : RouteSnapshotRow → Bool} : s.retireSnapshots p now = .ok s' ↔
      (∀ r ∈ s.routeSnapshots.rows, p r = true ∧ r.retiredAt = none →
        r.activatedAt ≤ unixMilli now) ∧
      s' = s.updateSnapshots (fun r => p r && decide (r.retiredAt = none))
        (RouteSnapshotRow.retire now) (RouteSnapshotRow.id_retire now) := by
  simp only [Store.retireSnapshots, require_bind_eq_ok, pure_eq_ok, eq_comm (a := s')]

theorem retireRoute_eq_ok : retireRoute snapshotID now s = .ok s' ↔
      s.routeSnapshots.hits snapshotID (fun r => decide (r.retiredAt = none)) = true ∧
      s.retireSnapshots (fun r => decide (r.id = snapshotID)) now = .ok s' := by
  simp only [retireRoute, bind_eq_ok, require_eq_ok, pure_eq_ok]
  constructor
  · rintro ⟨_, hretire, ⟨⟩, hhits, rfl⟩
    exact ⟨hhits, hretire⟩
  · rintro ⟨hhits, hretire⟩
    exact ⟨_, hretire, (), hhits, rfl⟩

theorem replaceSnapshot_eq_ok {row : RouteSnapshotRow} : replaceSnapshot row now s = .ok s' ↔ ∃ s1,
      s.retireSnapshots (fun r => decide (r.routeID = row.routeID)) now = .ok s1 ∧
      s1.routeSnapshots.find? row.id = none ∧ s' = s1.withSnapshot row := by
  simp only [replaceSnapshot, bind_eq_ok, require_eq_ok, pure_eq_ok]
  constructor
  · rintro ⟨s1, hretire, ⟨⟩, hfresh, rfl⟩
    exact ⟨s1, hretire, hfresh, rfl⟩
  · rintro ⟨s1, hretire, hfresh, rfl⟩
    exact ⟨s1, hretire, (), hfresh, rfl⟩

theorem mapError_eq_ok {α : Type} {x : Except GoError α} {f : GoError → GoError} {a : α} :
    x.mapError f = .ok a ↔ x = .ok a := by
  cases x <;> simp [Except.mapError]

/-- The digest of an activation that passes its checks. -/
def LedgerLib.activation (lib : LedgerLib) (definition : RouteDefinition)
    (executor : ExecutorDescriptor) : GoString :=
  GoString.hexEncode (lib.sha256 (lib.marshalActivation definition executor))

theorem activationDigest_eq_ok {digest : GoString} :
    activationDigest lib definition executor = .ok digest ↔
      definition.validate lib = .ok () ∧ executor.validate lib = .ok () ∧
        digest = lib.activation definition executor := by
  simp only [activationDigest, bind_eq_ok, pure_eq_ok]
  constructor
  · rintro ⟨⟨⟩, hdefinition, ⟨⟩, hexecutor, rfl⟩
    exact ⟨hdefinition, hexecutor, rfl⟩
  · rintro ⟨hdefinition, hexecutor, rfl⟩
    exact ⟨(), hdefinition, (), hexecutor, rfl⟩

theorem saveRoute_eq_ok : saveRoute lib definition executor token now s = .ok (snapshot, s') ↔
      definition.validate lib = .ok () ∧ definition.executorID = executor.id ∧
      executor.validate lib = .ok () ∧
      ((∃ existing, s.activeUnder definition.id (lib.activation definition executor) =
            some existing ∧ snapshot = existing.scan definition ∧ s' = s) ∨
        (s.activeUnder definition.id (lib.activation definition executor) = none ∧
          snapshot = { (newSnapshot definition executor (lib.activation definition executor) token
            now).scan definition with activatedAt := now } ∧
          replaceSnapshot (newSnapshot definition executor (lib.activation definition executor)
            token now) now s = .ok s')) := by
  simp only [saveRoute, bind_eq_ok, require_eq_ok, activationDigest_eq_ok]
  constructor
  · rintro ⟨⟨⟩, hdefinition, ⟨⟩, hid, ⟨⟩, hexecutor, _, ⟨-, -, rfl⟩, h⟩
    refine ⟨hdefinition, hid, hexecutor, ?_⟩
    cases hactive : s.activeUnder definition.id (lib.activation definition executor) with
    | some existing =>
      simp only [hactive, pure_eq_ok, Prod.mk.injEq] at h
      exact .inl ⟨existing, rfl, h.1.symm, h.2.symm⟩
    | none =>
      simp only [hactive, bind_eq_ok, mapError_eq_ok, pure_eq_ok, Prod.mk.injEq] at h
      obtain ⟨_, hreplace, rfl, rfl⟩ := h
      exact .inr ⟨rfl, rfl, hreplace⟩
  · rintro ⟨hdefinition, hid, hexecutor, h⟩
    refine ⟨(), hdefinition, (), hid, (), hexecutor, _, ⟨hdefinition, hexecutor, rfl⟩, ?_⟩
    rcases h with ⟨existing, hactive, rfl, rfl⟩ | ⟨hactive, rfl, hreplace⟩
    · simp only [hactive]
      rfl
    · simp only [hactive, bind_eq_ok, mapError_eq_ok, pure_eq_ok, Prod.mk.injEq]
      exact ⟨s', hreplace, trivial, rfl⟩

theorem activateRoute_eq_ok {registry : Option Registry} :
    activateRoute lib definition registry token now s = .ok (snapshot, s') ↔
      ∃ executors executor, registry = some executors ∧
        executors.resolve lib definition.executorID = .ok executor ∧
        saveRoute lib definition executor token now s = .ok (snapshot, s') := by
  cases registry with
  | none => simp [activateRoute]
  | some executors => simp [activateRoute, bind_eq_ok]

/-! ## What a committed call writes -/

/-- The store after a committed call, by what the call found. -/
inductive Op.Commits (lib : LedgerLib) (s : Store) : Op → Store → Prop where
  | kept (definition : RouteDefinition) (registry : Option Registry) (token : Token) (now : Int) :
      Commits lib s (.activateRoute definition registry token now) s
  | replaced {definition : RouteDefinition} {registry : Option Registry} {token : Token} {now : Int}
      (executor : ExecutorDescriptor) (s₁ : Store) (hvalid : definition.validate lib = .ok ())
      (hretire : s.retireSnapshots (fun r => decide (r.routeID = definition.id)) now = .ok s₁)
      (hfresh : s₁.routeSnapshots.find? (newID "route" token) = none) :
      Commits lib s (.activateRoute definition registry token now) (s₁.withSnapshot
        (newSnapshot definition executor (lib.activation definition executor) token now))
  | retired {snapshotID : GoString} {now : Int} {s' : Store}
      (h : s.retireSnapshots (fun r => decide (r.id = snapshotID)) now = .ok s') :
      Commits lib s (.retireRoute snapshotID now) s'
  | admitted {snapshotID : GoString} {e : Event} {binding : AgentBinding} {tie : Nat}
      {workToken eventToken : Token} {now : Int} {result : AdmissionResult} {s' : Store}
      (h : admitEvent lib snapshotID e none binding tie workToken eventToken now s =
        .ok (result, s')) :
      Commits lib s (.admitWithAgent snapshotID e binding tie workToken eventToken now) s'
  | released {snapshotID : GoString} {e : Event} {operation : ReleaseOperation} {tie : Nat}
      {workToken eventToken : Token} {now : Int} {result : AdmissionResult} {s' : Store}
      (h : admitEvent lib snapshotID e (some operation) {} tie workToken eventToken now s =
        .ok (result, s')) :
      Commits lib s (.admitRelease snapshotID e operation tie workToken eventToken now) s'
  | ingressFailed (e : Event) (classification : GoString) (attempts now : Int)
      (failures : Table IngressFailureRow.key) :
      Commits lib s (.recordIngressFailure e classification attempts now)
        { s with ingressFailures := failures }
  | contentRecorded (digest external result : GoString) (now : Int)
      (results : Table ContentResultRow.computedDigest) :
      Commits lib s (.recordContentResult digest external result now)
        { s with contentResults := results }
  | swept (tie : Nat) (token : Token) (now : Int) :
      Commits lib s (.claim tie token now) (s.expireWaits now)
  | reclaimed {tie : Nat} {now : Int} {row : WorkItemRow} (token : Token) (attemptID : GoString)
      (hdue : (s.expireWaits now).nextDue tie now = some row) :
      Commits lib s (.claim tie token now) ((s.expireWaits now).reclaimed row attemptID now)
  | started {tie : Nat} {now : Int} {row : WorkItemRow} (token : Token)
      (snapshot : RouteSnapshotRow) (hdue : (s.expireWaits now).nextDue tie now = some row) :
      Commits lib s (.claim tie token now) ((s.expireWaits now).started row
        ((s.expireWaits now).nextAttempt row snapshot token now) now)
  | closed (attemptID : GoString) (result : ExecutorResult) (now : Int) :
      Commits lib s (.complete attemptID result now) (s.closed attemptID now)
  | settled (itemID attemptID : GoString) (settlement : Settlement) (result : ExecutorResult)
      (now : Int) :
      Commits lib s (.complete attemptID result now)
        (s.settled itemID attemptID settlement result now)
  | woken (itemID : GoString) (now : Int) :
      Commits lib s (.wakeWaiting itemID now) (s.updateItems
        (fun r => decide (r.id = itemID) && r.dormant) (WorkItemRow.wake now)
        (WorkItemRow.id_wake now))
  | recovered (now : Int) :
      Commits lib s (.recoverInterrupted now) (Workledger.recoverInterrupted now s).2
  | resolved (itemID : GoString) (generation : Int) (digest brokerRunID : GoString) (now : Int) :
      Commits lib s (.resolveRelease itemID generation digest brokerRunID now) (s.updateItems
        (fun r => decide (r.id = itemID)) (WorkItemRow.resolve generation digest brokerRunID now)
        (WorkItemRow.id_resolve generation digest brokerRunID now))
  | correlated (itemID repository : GoString) (number now : Int) :
      Commits lib s (.recordAuthoritativePRCorrelation itemID repository number now)
        (s.updateItems (fun r => decide (r.id = itemID))
          (WorkItemRow.correlate repository number now)
          (WorkItemRow.id_correlate repository number now))

theorem Op.commits {op : Op} (h : op.exec lib s = .ok s') : op.Commits lib s s' := by
  cases op with
  | activateRoute definition registry token now =>
    obtain ⟨snapshot, h⟩ := map_snd_eq_ok.mp h
    obtain ⟨executors, executor, -, -, hsave⟩ := activateRoute_eq_ok.mp h
    obtain ⟨hvalid, -, -, ⟨existing, -, -, rfl⟩ | ⟨-, -, hreplace⟩⟩ := saveRoute_eq_ok.mp hsave
    · exact .kept definition registry token now
    · obtain ⟨s1, hretire, hfresh, rfl⟩ := replaceSnapshot_eq_ok.mp hreplace
      exact .replaced executor s1 hvalid hretire hfresh
  | retireRoute snapshotID now => exact .retired (retireRoute_eq_ok.mp h).2
  | admitWithAgent snapshotID e binding tie workToken eventToken now =>
    obtain ⟨result, h⟩ := map_snd_eq_ok.mp h
    exact .admitted h
  | admitRelease snapshotID e operation tie workToken eventToken now =>
    obtain ⟨result, h⟩ := map_snd_eq_ok.mp h
    obtain ⟨-, -, h⟩ := bind_eq_ok.mp h
    exact .released h
  | recordIngressFailure e classification attempts now =>
    obtain ⟨-, h⟩ := require_bind_eq_ok.mp h
    cases h
    exact .ingressFailed e classification attempts now _
  | recordContentResult digest external result now =>
    obtain ⟨row, -, h⟩ := bind_eq_ok.mp h
    obtain ⟨-, h⟩ := require_bind_eq_ok.mp h
    cases h
    exact .contentRecorded digest external result now _
  | claim tie token now =>
    obtain ⟨claimed, h⟩ := map_snd_eq_ok.mp h
    rcases claim_eq_ok.mp h with ⟨-, -, rfl⟩ | ⟨row, c, hdue, -, hclaim⟩
    · exact .swept tie token now
    · rcases claimItem_cases hclaim with ⟨attempt, -, hc⟩ | ⟨-, hc⟩
      · obtain ⟨-, -, rfl⟩ := reclaim_eq_ok.mp hc
        exact .reclaimed token attempt.id hdue
      · obtain ⟨snapshot, -, -, -, -, rfl⟩ := startAttempt_eq_ok.mp hc
        exact .started token snapshot hdue
  | complete attemptID result now =>
    obtain ⟨attempt, item, -, -, -, ⟨-, rfl⟩ | ⟨-, definition, settlement, -, -, rfl⟩⟩ :=
      complete_eq_ok.mp h
    · exact .closed attemptID result now
    · exact .settled item.id attemptID settlement result now
  | wakeWaiting itemID now =>
    obtain ⟨-, rfl⟩ := wakeWaiting_eq_ok.mp h
    exact .woken itemID now
  | recoverInterrupted now =>
    cases h
    exact .recovered now
  | resolveRelease itemID generation digest brokerRunID now =>
    obtain ⟨prior, -, -, rfl⟩ := resolveRelease_eq_ok.mp h
    exact .resolved itemID generation digest brokerRunID now
  | recordAuthoritativePRCorrelation itemID repository number now =>
    obtain ⟨prior, -, -, rfl⟩ := recordAuthoritativePRCorrelation_eq_ok.mp h
    exact .correlated itemID repository number now

end SignalPlane.Workledger
