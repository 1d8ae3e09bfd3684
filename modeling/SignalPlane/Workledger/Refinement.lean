/-
SignalPlane.Workledger.Refinement — every operation takes each piece of work
through at most one step.

`Evolves` relates what the store holds of an item before and after a committed
call: nothing changes, new work appears as admitted, or the work takes one
`Work.Step`. `Op.evolves` proves it for every operation, on a store whose
items have their snapshots. With `Work.Step.valid` this gives `Sound`, the
invariant of the ledger: every piece of work is valid, and every attempt,
lease, event and release operation belongs to an item. `Reachable.sound` is
the statement the later modules start from.
-/
import SignalPlane.Workledger.Transactions

namespace SignalPlane.Workledger

open Clock
open Dispatcher (GoError)

variable {token : Token} {attemptID itemID id snapshotID : GoString} {op : Op} {now : Int}
  {row : WorkItemRow} {attempt : ExecutorAttemptRow} {tie : Nat} {s : Store}
  {result : ExecutorResult} {w : Work} {claimed : WorkItem × ExecutorAttempt} {e : Event}
  {binding : AgentBinding} {p : WorkItemRow → Bool} {f : WorkItemRow → WorkItemRow}
  {definition : RouteDefinition} {settlement : Settlement}

/-! ## Statements that concern one item -/

/-- An update of other items. -/
theorem Store.work_updateItems_ne {hf : ∀ r, (f r).id = r.id}
    (hidentity : ∀ r, (f r).identity = r.identity) (h : ∀ r, r.id = id → p r = false) :
    (s.updateItems p f hf).work id = s.work id := by
  rw [s.work_updateItems id p f hf hidentity]
  cases hw : s.work id with
  | none => rfl
  | some w =>
    rw [Option.map_some, Work.withItem, rewrite_of_not (h w.item (Store.id_of_work hw))]

/-- An update of other attempts. -/
theorem Store.work_updateAttempts_ne {p : ExecutorAttemptRow → Bool}
    {f : ExecutorAttemptRow → ExecutorAttemptRow} {hf : ∀ a, (f a).id = a.id}
    (hidentity : ∀ a, (f a).identity = a.identity)
    (h : ∀ w, s.work id = some w → ∀ a ∈ w.attempts, p a = false) :
    (s.updateAttempts p f hf).work id = s.work id := by
  rw [s.work_updateAttempts id p f hf hidentity]
  cases hw : s.work id with
  | none => rfl
  | some w => rw [Option.map_some, map_rewrite_eq_self (h w hw)]

theorem Store.work_deleteLeases_ne {p : LeaseRow → Bool}
    (h : ∀ w, s.work id = some w → ∀ l ∈ w.leases, p l = false) :
    (s.deleteLeases p).work id = s.work id := by
  rw [s.work_deleteLeases id p]
  cases hw : s.work id with
  | none => rfl
  | some w =>
    rw [Option.map_some, List.filter_eq_self.mpr fun l hl => by simp [h w hw l hl]]

/-! ## What each operation does to a piece of work -/

theorem Store.work_expireWaits (s : Store) (now : Int) (id : GoString) :
    (s.expireWaits now).work id = (s.work id).map
      (Work.withItem (rewrite (WorkItemRow.waitExpired now) (WorkItemRow.expire now))) :=
  s.work_updateItems id _ _ _ fun r => r.identity_expire now

theorem Store.work_reclaimed (hfree : s.LeaseFree row attemptID) (hw : s.work row.id = some w)
    (hrow : w.item = row) :
    (s.reclaimed row attemptID now).work row.id = some (w.reclaim attemptID now) := by
  subst hrow
  unfold reclaimed
  rw [Store.work_updateItems _ _ _ _ _ fun r => r.identity_activate now,
    Store.work_insertLease _ _ hfree.key,
    Store.work_updateAttempts _ _ _ _ _ fun a => a.identity_restart now, hw, Option.map_some,
    Option.map_some, Option.map_some, if_pos rfl]
  simp only [Work.reclaim, Work.withItem, Work.lease, Option.some.injEq, Work.mk.injEq, and_self,
    and_true]
  exact rewrite_congr (by simp)

/-- Taking up an attempt concerns no other item. -/
theorem Store.work_reclaimed_ne (hfree : s.LeaseFree row attempt.id)
    (hattempt : attempt ∈ s.executorAttempts.rows) (hitem : attempt.workItemID = row.id)
    (hne : id ≠ row.id) : (s.reclaimed row attempt.id now).work id = s.work id := by
  unfold reclaimed
  rw [work_updateItems_ne (fun r => r.identity_activate now) fun r hr => by simp [hr, hne],
    Store.work_insertLease _ _ hfree.key, if_neg (Ne.symm hne),
    work_updateAttempts_ne (fun a => a.identity_restart now)]
  · cases s.work id <;> simp
  · intro w hw a ha
    have hid := id_ne_of_mem hw hattempt (by rw [hitem]; exact Ne.symm hne) ha
    simp [hid]

theorem Store.work_started (hattempt : s.AttemptFree attempt) (hfree : s.LeaseFree row attempt.id)
    (hitem : attempt.workItemID = row.id) (hready : row.state.isReady = true)
    (hw : s.work row.id = some w) (hrow : w.item = row) :
    (s.started row attempt now).work row.id = some (w.start attempt now) := by
  subst hrow
  unfold started
  rw [Store.work_updateItems _ _ _ _ _ fun r => r.identity_activate now,
    Store.work_insertLease _ _ hfree.key, Store.work_insertAttempt _ _ hattempt.id, hw,
    Option.map_some, Option.map_some, Option.map_some, if_pos rfl, if_pos hitem]
  simp only [Work.start, Work.withItem, Work.lease, Option.some.injEq, Work.mk.injEq, and_self,
    and_true]
  exact rewrite_of (by simp [hready])

theorem Store.work_started_ne (hattempt : s.AttemptFree attempt)
    (hfree : s.LeaseFree row attempt.id) (hitem : attempt.workItemID = row.id) (hne : id ≠ row.id) :
    (s.started row attempt now).work id = s.work id := by
  unfold started
  rw [work_updateItems_ne (fun r => r.identity_activate now) fun r hr => by simp [hr, hne],
    Store.work_insertLease _ _ hfree.key, if_neg (Ne.symm hne),
    Store.work_insertAttempt _ _ hattempt.id, if_neg (by rw [hitem]; exact Ne.symm hne)]
  cases s.work id <;> simp

theorem Store.work_settled (hw : s.work id = some w) (hactive : w.item.state = .active) :
    (s.settled id attemptID settlement result now).work id =
      some (w.settle attemptID settlement result now) := by
  unfold settled
  rw [Store.work_deleteLeases,
    Store.work_updateItems _ _ _ _ _ fun r => r.identity_settle now settlement result,
    Store.work_updateAttempts _ _ _ _ _ fun a => a.identity_settle now settlement result, hw,
    Option.map_some, Option.map_some, Option.map_some]
  simp only [Work.settle, Work.withItem, Option.some.injEq, Work.mk.injEq, and_self, and_true]
  exact rewrite_of (by simp [hactive, Store.id_of_work hw])

/-- Neither the attempt nor its lease is another item's. -/
structure Store.Apart (s : Store) (attempt : ExecutorAttemptRow) : Prop where
  found : attempt ∈ s.executorAttempts.rows
  leases : ∀ l ∈ s.leases.rows, l.attemptID = attempt.id → l.workItemID = attempt.workItemID

theorem Store.Apart.attempts (h : s.Apart attempt) (hne : id ≠ attempt.workItemID) (w : Work)
    (hw : s.work id = some w) : ∀ a ∈ w.attempts, decide (a.id = attempt.id) = false :=
  fun _ ha => decide_eq_false (id_ne_of_mem hw h.found (Ne.symm hne) ha)

theorem Store.Apart.lease (h : s.Apart attempt) (hne : id ≠ attempt.workItemID) (w : Work)
    (hw : s.work id = some w) : ∀ l ∈ w.leases, decide (l.attemptID = attempt.id) = false := by
  intro l hl
  rw [(work_eq_some.mp hw).2.2.2] at hl
  obtain ⟨hl, hitem⟩ := mem_leasesOf.mp hl
  exact decide_eq_false fun heq => hne (hitem ▸ h.leases l hl heq)

theorem Store.work_settled_ne (happart : s.Apart attempt) (hitem : attempt.workItemID = itemID)
    (hne : id ≠ itemID) :
    (s.settled itemID attempt.id settlement result now).work id = s.work id := by
  subst hitem
  -- The lease is looked for last, when the other two statements are known to spare the item.
  have hupdates : ((s.updateAttempts (fun a => decide (a.id = attempt.id))
      (ExecutorAttemptRow.settle settlement result now)
      (ExecutorAttemptRow.id_settle settlement result now)).updateItems
        (fun r => decide (r.id = attempt.workItemID) && decide (r.state = .active))
        (WorkItemRow.settle settlement result now)
        (WorkItemRow.id_settle settlement result now)).work id = s.work id := by
    rw [work_updateItems_ne (fun r => r.identity_settle now settlement result) fun r hr => by
      simp [hr, hne]]
    exact work_updateAttempts_ne (fun a => a.identity_settle now settlement result)
      (happart.attempts hne)
  unfold settled
  rw [work_deleteLeases_ne, hupdates]
  intro w hw
  rw [hupdates] at hw
  exact happart.lease hne w hw

theorem Store.work_closed (hw : s.work id = some w) :
    (s.closed attemptID now).work id = some (w.close attemptID now) := by
  unfold closed
  rw [Store.work_deleteLeases,
    Store.work_updateAttempts _ _ _ _ _ fun a => a.identity_supersede now, hw, Option.map_some,
    Option.map_some]
  rfl

theorem Store.work_closed_ne (happart : s.Apart attempt) (hne : id ≠ attempt.workItemID) :
    (s.closed attempt.id now).work id = s.work id := by
  have hattempts : (s.updateAttempts (fun a => decide (a.id = attempt.id))
      (ExecutorAttemptRow.supersede now)
      (ExecutorAttemptRow.id_supersede now)).work id = s.work id :=
    work_updateAttempts_ne (fun a => a.identity_supersede now) (happart.attempts hne)
  unfold closed
  rw [work_deleteLeases_ne, hattempts]
  intro w hw
  rw [hattempts] at hw
  exact happart.lease hne w hw

/-- A rewrite of attempts whose condition asks for the item, on the attempts of that item. -/
theorem Store.map_rewrite_isItem (hw : s.work id = some w) (q : ExecutorAttemptRow → Bool)
    (p : WorkItemRow → Bool) (f : ExecutorAttemptRow → ExecutorAttemptRow)
    {l : List ExecutorAttemptRow} (hl : ∀ a ∈ l, a.workItemID = id) :
    l.map (rewrite (fun a => q a && s.isItem p a.workItemID) f) =
      l.map (rewrite (fun a => q a && p w.item) f) := by
  refine List.map_congr_left fun a ha => rewrite_congr ?_
  simp only [hl a ha, isItem_of_work hw]

theorem Store.workItemID_of_mem (hw : s.work id = some w) :
    ∀ a ∈ w.attempts, a.workItemID = id := by
  intro a ha
  rw [(work_eq_some.mp hw).2.2.1] at ha
  exact (mem_attemptsOf.mp ha).2

theorem Store.work_recoverInterrupted (s : Store) (now : Int) (id : GoString) :
    (recoverInterrupted now s).2.work id = (s.work id).map (Work.recover now) := by
  simp only [recoverInterrupted]
  rw [Store.work_deleteLeases,
    Store.work_updateItems _ _ _ _ _ fun r => r.identity_requeue now,
    Store.work_updateAttempts _ _ _ _ _ ExecutorAttemptRow.identity_interrupt,
    Store.work_updateAttempts _ _ _ _ _ fun a => a.identity_supersede now]
  cases hw : s.work id with
  | none => rfl
  | some w =>
    have hmem := workItemID_of_mem hw
    simp only [Option.map_some, Work.recover, Work.withItem, Option.some.injEq, Work.mk.injEq,
      Bool.not_true, List.filter_false, and_true, true_and]
    rw [map_rewrite_isItem hw ExecutorAttemptRow.unsettled (fun r => decide (r.state = .superseded))
        (ExecutorAttemptRow.supersede now) hmem,
      map_rewrite_isItem hw (fun a => decide (a.state = .running))
        (fun r => decide (r.state = .active)) ExecutorAttemptRow.interrupt]
    intro a ha
    obtain ⟨b, hb, rfl⟩ := List.mem_map.mp ha
    have hsame := rewrite_keeps (p := fun a => a.unsettled && decide (w.item.state = .superseded))
      (fun a => a.identity_supersede now) b
    exact (congrArg AttemptIdentity.workItemID hsame).trans (hmem b hb)

theorem Store.work_supersedeOthers (s : Store) (item : WorkItemRow) (now : Int) (id : GoString) :
    (s.supersedeOthers item now).work id = (s.work id).map fun w =>
      if item.replacedBy w.item then w.supersede item.id now else w := by
  simp only [supersedeOthers]
  rw [Store.work_updateItems _ _ _ _ _ fun r => r.identity_supersede now item.id,
    Store.work_deleteLeases, Store.work_updateAttempts _ _ _ _ _ fun a => a.identity_supersede now]
  cases hw : s.work id with
  | none => rfl
  | some w =>
    have hleases : ∀ l ∈ w.leases, l.workItemID = id := by
      intro l hl
      rw [(work_eq_some.mp hw).2.2.2] at hl
      exact (mem_leasesOf.mp hl).2
    simp only [Option.map_some, Work.withItem, Option.some.injEq]
    rw [map_rewrite_isItem hw ExecutorAttemptRow.unsettled item.replacedBy
      (ExecutorAttemptRow.supersede now) (workItemID_of_mem hw)]
    rw [List.filter_congr (q := fun _ => !item.replacedBy w.item) fun l hl => by
      rw [hleases l hl, isItem_of_work hw]]
    cases hreplaced : item.replacedBy w.item with
    | true =>
      rw [if_pos rfl, rewrite_of hreplaced]
      simp [Work.supersede]
    | false =>
      rw [if_neg (by simp), rewrite_of_not hreplaced, map_rewrite_eq_self fun _ _ => by simp]
      simp

/-! ## The invariant -/

/-- Whatever belongs to an item belongs to one that is there. -/
structure Store.Linked (s : Store) : Prop where
  attempts : ∀ a ∈ s.executorAttempts.rows, s.workItems.find? a.workItemID ≠ none
  leases : ∀ l ∈ s.leases.rows, s.workItems.find? l.workItemID ≠ none
  events : ∀ e ∈ s.workEvents.rows, s.workItems.find? e.workItemID ≠ none
  operations : ∀ o ∈ s.releaseOperations.rows, s.workItems.find? o.workItemID ≠ none

/-- Every piece of work is valid, and nothing belongs to an item that is not there. -/
structure Store.Sound (lib : LedgerLib) (s : Store) : Prop where
  works : ∀ {id w}, s.work id = some w → w.Valid lib
  linked : s.Linked

section Sound

variable {lib : LedgerLib}

theorem Store.work_isSome (h : s.workItems.find? id ≠ none) : ∃ w, s.work id = some w :=
  Option.ne_none_iff_exists'.mp fun hnone => h (work_eq_none.mp hnone)

theorem Store.work_of_find? (h : s.workItems.find? id = some row) :
    ∃ w, s.work id = some w ∧ w.item = row := by
  obtain ⟨hmem, rfl⟩ := Table.find?_iff_mem.mp h
  exact exists_work hmem

/-- A lease is the one lease of an active item, for the attempt of it that is running. -/
theorem Store.Sound.lease (hs : s.Sound lib) {l : LeaseRow} (hl : l ∈ s.leases.rows) :
    ∃ w last, s.work l.workItemID = some w ∧ w.item.state = .active ∧ w.leases = [l] ∧
      last ∈ w.attempts ∧ last.state = .running ∧ l.attemptID = last.id ∧
      l.serializationKey = w.item.serializationKey := by
  obtain ⟨w, hw⟩ := work_isSome (hs.linked.leases l hl)
  have hmem : l ∈ w.leases := by
    rw [(work_eq_some.mp hw).2.2.2]
    exact mem_leasesOf.mpr ⟨hl, rfl⟩
  have hshape := (hs.works hw).shape
  have hactive : w.item.state = .active := by
    by_contra hne
    rw [(hshape.idle hne).1] at hmem
    cases hmem
  obtain ⟨earlier, last, now, hattempts, -, hrunning, hleases⟩ := hshape.leased hactive
  rw [hleases] at hmem
  have heq := List.mem_singleton.mp hmem
  exact ⟨w, last, hw, hactive, by rw [hleases, heq], by simp [hattempts], hrunning,
    by rw [heq]; rfl, by rw [heq]; rfl⟩

theorem Store.Sound.apart (hs : s.Sound lib) (hattempt : attempt ∈ s.executorAttempts.rows) :
    s.Apart attempt where
  found := hattempt
  leases := by
    intro l hl hid
    obtain ⟨w, last, hw, -, -, hlast, -, hlid, -⟩ := hs.lease hl
    by_contra hne
    exact id_ne_of_mem hw hattempt (Ne.symm hne) hlast (by rw [← hlid, hid])

/-- Nothing belongs to an item that is not there. -/
theorem Store.Linked.none_of_fresh (hs : s.Linked) (h : s.workItems.find? id = none) :
    s.attemptsOf id = [] ∧ s.leasesOf id = [] := by
  constructor
  · refine List.filter_eq_nil_iff.mpr fun a ha hid => hs.attempts a ha ?_
    rw [of_decide_eq_true hid, h]
  · refine List.filter_eq_nil_iff.mpr fun l hl hid => hs.leases l hl ?_
    rw [of_decide_eq_true hid, h]

end Sound

/-! ## One call, one step -/

/-- What a committed call makes of a piece of work: a step of a kind, or none. -/
inductive Evolves (lib : LedgerLib) : Option Work.Kind → Option Work → Option Work → Prop where
  | same (o : Option Work) : Evolves lib none o o
  | admitted (snapshot : RouteSnapshotRow) (e : Event) (binding : AgentBinding) (token : Token)
      (now : Int) (hvalid : snapshot.definition.validate lib = .ok ())
      (hbinding : binding.admissionBinding.validate = .ok ()) :
      Evolves lib none none (some (Work.admitted
        (newItem snapshot.id snapshot.definition e binding.admissionBinding token now)
        snapshot.terms))
  | step {k : Work.Kind} {w w' : Work} (h : Work.Step lib k w w') :
      Evolves lib (some k) (some w) (some w')

theorem Evolves.valid {lib : LedgerLib} {k : Option Work.Kind} {w w' : Option Work}
    (h : Evolves lib k w w') (hw : ∀ v, w = some v → v.Valid lib) :
    ∀ v, w' = some v → v.Valid lib := by
  intro v hv
  cases h with
  | same => exact hw v hv
  | admitted snapshot e binding token now hvalid hbinding =>
    cases hv
    exact Work.valid_admitted rfl ⟨rfl, rfl, rfl⟩ rfl hvalid
  | step h =>
    cases hv
    exact h.valid (hw _ rfl)

/-- The steps of an item that a call may cause. A completion is always a step of the item its
attempt belongs to, and a resolution or a correlation a step of the item it names. -/
def Op.May (s : Store) (id : GoString) : Op → Option Work.Kind → Prop
  | .admitWithAgent .., k => k = none ∨ k = some .supersede
  | .admitRelease .., k => k = none ∨ k = some .supersede
  | .claim _ _ now, k => k = none ∨ k = some (.expire now) ∨ k = some .claim
  | .complete attemptID result now, k =>
    k = if (s.executorAttempts.find? attemptID).any (fun a => decide (a.workItemID = id)) then
      some (.report result now) else none
  | .wakeWaiting .., k => k = none ∨ k = some .wake
  | .recoverInterrupted _, k => k = none ∨ k = some .recover
  | .resolveRelease itemID generation digest brokerRunID _, k =>
    k = if id = itemID then some (.resolve generation digest brokerRunID) else none
  | .recordAuthoritativePRCorrelation itemID repository number _, k =>
    k = if id = itemID then some (.correlate repository number) else none
  | _, k => k = none

/-- Only a claim lets a wait expire, at its own time. -/
theorem Op.May.expire (h : op.May s id (some (.expire now))) :
    ∃ tie token, op = .claim tie token now := by
  cases op with
  | claim tie token time =>
    simp only [Op.May, reduceCtorEq, Option.some.injEq, Work.Kind.expire.injEq, false_or,
      or_false] at h
    exact ⟨tie, token, by rw [h]⟩
  | _ =>
    simp only [Op.May] at h
    first
      | (split at h <;> cases h)
      | simp at h

/-- Only a completion of an attempt of the item reports an outcome. -/
theorem Op.May.report (h : op.May s id (some (.report result now))) : ∃ attemptID a,
      op = .complete attemptID result now ∧ s.executorAttempts.find? attemptID = some a ∧
        a.workItemID = id := by
  cases op with
  | complete attemptID result' now' =>
    simp only [Op.May] at h
    split at h
    · next hany =>
      cases h
      obtain ⟨a, ha, hid⟩ := (Option.any_eq_true _ _).mp hany
      exact ⟨attemptID, a, rfl, ha, of_decide_eq_true hid⟩
    · cases h
  | _ =>
    simp only [Op.May] at h
    first
      | (split at h <;> cases h)
      | simp at h

section Evolves

variable {lib : LedgerLib} {s' : Store}

/-- An update of one item, as a step of it. -/
theorem evolves_updateItem (lib : LedgerLib) {k : Work.Kind} {hf : ∀ r, (f r).id = r.id}
    (hidentity : ∀ r, (f r).identity = r.identity) (hrow : s.workItems.find? itemID = some row)
    (hp : p row = true) (hother : ∀ r, r.id ≠ itemID → p r = false)
    (hstep : ∀ w : Work, w.item = row → Work.Step lib k w (w.withItem f)) :
    Evolves lib (if id = itemID then some k else none) (s.work id)
      ((s.updateItems p f hf).work id) := by
  by_cases hid : id = itemID
  · subst hid
    rw [if_pos rfl]
    obtain ⟨w, hw, rfl⟩ := Store.work_of_find? hrow
    rw [s.work_updateItems id _ f hf hidentity, hw, Option.map_some, Work.withItem, rewrite_of hp]
    exact .step (hstep w rfl)
  · rw [if_neg hid, Store.work_updateItems_ne hidentity fun r hr => hother r (hr ▸ hid)]
    exact .same _

theorem wakeWaiting_evolves (h : wakeWaiting itemID now s = .ok s') :
    Evolves lib (if id = itemID then some .wake else none) (s.work id) (s'.work id) := by
  obtain ⟨hhits, rfl⟩ := wakeWaiting_eq_ok.mp h
  obtain ⟨row, hrow, hdormant⟩ := Table.hits_iff.mp hhits
  refine evolves_updateItem lib (fun r => r.identity_wake now) hrow ?_ ?_
    fun w hw => .wake now (hw ▸ hdormant)
  · simp [Table.key_of_find? hrow, hdormant]
  · intro r hr
    simp [hr]

theorem resolveRelease_evolves {generation : Int} {digest brokerRunID : GoString}
    (h : resolveRelease itemID generation digest brokerRunID now s = .ok s') :
    Evolves lib (if id = itemID then some (.resolve generation digest brokerRunID) else none)
      (s.work id) (s'.work id) := by
  obtain ⟨prior, hprior, hresolves, rfl⟩ := resolveRelease_eq_ok.mp h
  exact evolves_updateItem lib (fun r => r.identity_resolve now generation digest brokerRunID)
    hprior (decide_eq_true (Table.key_of_find? hprior)) (fun r hr => decide_eq_false hr)
    fun w hw => .resolve generation digest brokerRunID now (hw ▸ hresolves)

theorem recordAuthoritativePRCorrelation_evolves {repository : GoString} {number : Int}
    (h : recordAuthoritativePRCorrelation itemID repository number now s = .ok s') :
    Evolves lib (if id = itemID then some (.correlate repository number) else none)
      (s.work id) (s'.work id) := by
  obtain ⟨prior, hprior, hcorrelates, rfl⟩ := recordAuthoritativePRCorrelation_eq_ok.mp h
  exact evolves_updateItem lib (fun r => r.identity_correlate now repository number) hprior
    (decide_eq_true (Table.key_of_find? hprior)) (fun r hr => decide_eq_false hr)
    fun w hw => .correlate repository number now (hw ▸ hcorrelates)

theorem recoverInterrupted_evolves (lib : LedgerLib) (s : Store) (now : Int) (id : GoString) :
    ∃ k, (k = none ∨ k = some .recover) ∧
      Evolves lib k (s.work id) ((recoverInterrupted now s).2.work id) := by
  rw [Store.work_recoverInterrupted]
  cases s.work id with
  | none => exact ⟨none, .inl rfl, .same none⟩
  | some w => exact ⟨_, .inr rfl, .step (.recover now)⟩

theorem expireWaits_evolves (lib : LedgerLib) (s : Store) (now : Int) (id : GoString) :
    ∃ k, (k = none ∨ k = some (.expire now)) ∧
      Evolves lib k (s.work id) ((s.expireWaits now).work id) := by
  rw [Store.work_expireWaits]
  cases s.work id with
  | none => exact ⟨none, .inl rfl, .same none⟩
  | some w =>
    rw [Option.map_some, Work.withItem]
    cases hexpired : w.item.waitExpired now with
    | true =>
      rw [rewrite_of hexpired]
      exact ⟨_, .inr rfl, .step (.expire now hexpired)⟩
    | false =>
      rw [rewrite_of_not hexpired]
      exact ⟨none, .inl rfl, .same (some w)⟩

/-- The work of the item a claim selects has not expired: it is ready to be claimed. -/
theorem work_of_nextDue (h : (s.expireWaits now).nextDue tie now = some row) :
    row.state.isReady = true ∧ ∃ w, w.item = row ∧ s.work row.id = some w ∧
      (s.expireWaits now).work row.id = some w := by
  have hmem := List.mem_filter.mp (mem_of_pick h)
  have hready : row.state.isReady = true := by
    simp only [Store.claimable, Bool.and_eq_true] at hmem
    exact hmem.2.1.1
  obtain ⟨w, hw, hitem⟩ := Store.exists_work hmem.1
  refine ⟨hready, w, hitem, ?_, hw⟩
  rw [Store.work_expireWaits, Option.map_eq_some_iff] at hw
  obtain ⟨v, hv, rfl⟩ := hw
  cases hexpired : v.item.waitExpired now with
  | true =>
    rw [← hitem, Work.withItem, rewrite_of hexpired] at hready
    cases hready
  | false =>
    rw [hv, Work.withItem, rewrite_of_not hexpired]

theorem recoverableAttempt_eq_some (h : s.recoverableAttempt itemID = some attempt) :
    attempt ∈ s.executorAttempts.rows ∧ attempt.workItemID = itemID ∧
      attempt.state = .recoverable := by
  have hmem := List.mem_filter.mp (mem_of_pick h)
  simpa using hmem

theorem recoverableAttempt_eq_none (h : s.recoverableAttempt itemID = none) :
    ∀ a ∈ s.attemptsOf itemID, a.state ≠ .recoverable := by
  intro a ha hstate
  obtain ⟨ha, hitem⟩ := Store.mem_attemptsOf.mp ha
  refine pick_ne_none ?_ ?_ (List.ne_nil_of_mem (List.mem_filter.mpr ⟨ha, ?_⟩)) h
  · intro a b
    simp only [decide_eq_true_eq]
    omega
  · intro a b c
    simp only [decide_eq_true_eq]
    omega
  · simp [hitem, hstate]

/-- A claim of an item concerns no other work. -/
theorem claimItem_frame (h : claimItem row token now s = .ok (claimed, s')) (hne : id ≠ row.id) :
    s'.work id = s.work id := by
  rcases claimItem_cases h with ⟨attempt, hattempt, hreclaim⟩ | ⟨-, hstart⟩
  · obtain ⟨hfree, -, rfl⟩ := reclaim_eq_ok.mp hreclaim
    obtain ⟨hmem, hid, -⟩ := recoverableAttempt_eq_some hattempt
    exact Store.work_reclaimed_ne hfree hmem hid hne
  · obtain ⟨snapshot, -, hattempt, hfree, -, rfl⟩ := startAttempt_eq_ok.mp hstart
    exact Store.work_started_ne hattempt hfree rfl hne

/-- What a claim of an item makes of its work, and the attempt it returns: the recoverable
attempt, or the next one when there is none. -/
theorem claimItem_work (hready : row.state.isReady = true) (hw : s.work row.id = some w)
    (hitem : w.item = row) (h : claimItem row token now s = .ok (claimed, s')) :
    (∃ attempt ∈ w.attempts, attempt.state = .recoverable ∧
      claimed.2 = { attempt.scan with state := .running } ∧
      s'.work row.id = some (w.reclaim attempt.id now)) ∨
    ((∀ a ∈ w.attempts, a.state ≠ .recoverable) ∧
      (∀ a ∈ w.attempts, a.id ≠ newID "attempt" token) ∧
      ∃ snapshot operation, w.terms = some snapshot.terms ∧
        claimed.2 = { (newAttempt w.item snapshot (w.attempts.length + 1) operation token
          now).scan with createdAt := now } ∧
        s'.work row.id = some (w.start
          (newAttempt w.item snapshot (w.attempts.length + 1) operation token now) now)) := by
  have hattempts := (Store.work_eq_some.mp hw).2.2.1
  rcases claimItem_cases h with ⟨attempt, hattempt, hreclaim⟩ | ⟨hnone, hstart⟩
  · obtain ⟨hfree, rfl, rfl⟩ := reclaim_eq_ok.mp hreclaim
    obtain ⟨hmem, hid, hstate⟩ := recoverableAttempt_eq_some hattempt
    refine .inl ⟨attempt, ?_, hstate, rfl, Store.work_reclaimed hfree hw hitem⟩
    rw [hattempts]
    exact Store.mem_attemptsOf.mpr ⟨hmem, hid⟩
  · obtain ⟨snapshot, hsnapshot, hattempt, hfree, rfl, rfl⟩ := startAttempt_eq_ok.mp hstart
    have hstarted : (s.started row (s.nextAttempt row snapshot token now) now).work row.id =
        some (w.start (s.nextAttempt row snapshot token now) now) :=
      Store.work_started hattempt hfree rfl hready hw hitem
    have hlength : s.attemptsOf row.id = w.attempts := hattempts.symm
    subst hitem
    rw [Store.nextAttempt, hlength] at hstarted ⊢
    refine .inr ⟨?_, ?_, snapshot, _, ?_, rfl, hstarted⟩
    · rw [hattempts]
      exact recoverableAttempt_eq_none hnone
    · intro a ha heq
      rw [hattempts] at ha
      exact Table.find?_eq_none.mp hattempt.id a (Store.mem_attemptsOf.mp ha).1 heq
    · rw [(Store.work_eq_some.mp hw).2.1, Store.termsOf, hsnapshot, Option.map_some]

/-- A claim of a selected item takes the item's work one step. -/
theorem claimItem_evolves (lib : LedgerLib) (hready : row.state.isReady = true)
    (hw : s.work row.id = some w) (hitem : w.item = row)
    (h : claimItem row token now s = .ok (claimed, s')) :
    ∃ w', s'.work row.id = some w' ∧ Work.Step lib .claim w w' := by
  rcases claimItem_work hready hw hitem h with ⟨attempt, hmem, hstate, -, hw'⟩ |
    ⟨hclosed, hfresh, snapshot, operation, hterms, -, hw'⟩
  · exact ⟨_, hw', .reclaim attempt now (hitem ▸ hready) hmem hstate⟩
  · exact ⟨_, hw', .start snapshot operation token now (hitem ▸ hready) hclosed hfresh hterms⟩

/-- The item a claim returns is the one it selected. -/
theorem claimItem_id (h : claimItem row token now s = .ok (claimed, s')) :
    claimed.1 = row.claimedItem now := by
  rcases claimItem_cases h with ⟨attempt, -, hc⟩ | ⟨-, hc⟩
  · obtain ⟨-, rfl, -⟩ := reclaim_eq_ok.mp hc
    rfl
  · obtain ⟨snapshot, -, -, -, rfl, -⟩ := startAttempt_eq_ok.mp hc
    rfl

/-- A claim that returns an item: its work was ready and has not expired. -/
theorem claim_some {c : WorkItem × ExecutorAttempt} (h : claim tie token now s = .ok (some c, s')) :
    ∃ w, c.1 = w.item.claimedItem now ∧ w.item.state.isReady = true ∧
      s.work w.item.id = some w ∧ (s.expireWaits now).work w.item.id = some w ∧
      claimItem w.item token now (s.expireWaits now) = .ok (c, s') := by
  rcases claim_eq_ok.mp h with ⟨-, hnone, -⟩ | ⟨row, _, hdue, hsome, hclaim⟩
  · cases hnone
  · cases hsome
    obtain ⟨hready, w, rfl, hw, hw'⟩ := work_of_nextDue hdue
    exact ⟨w, claimItem_id hclaim, hready, hw, hw', hclaim⟩

theorem claim_evolves {claimed : Option (WorkItem × ExecutorAttempt)}
    (h : claim tie token now s = .ok (claimed, s')) :
    ∃ k, (k = none ∨ k = some (.expire now) ∨ k = some .claim) ∧
      Evolves lib k (s.work id) (s'.work id) := by
  have hexpire : ∃ k, (k = none ∨ k = some (.expire now) ∨ k = some .claim) ∧
      Evolves lib k (s.work id) ((s.expireWaits now).work id) := by
    obtain ⟨k, hk, hevolves⟩ := expireWaits_evolves lib s now id
    exact ⟨k, hk.imp_right .inl, hevolves⟩
  rcases claim_eq_ok.mp h with ⟨-, -, rfl⟩ | ⟨row, c, hdue, -, hclaim⟩
  · exact hexpire
  · obtain ⟨hready, w, hitem, hw, hw'⟩ := work_of_nextDue hdue
    by_cases hid : id = row.id
    · subst hid
      obtain ⟨w', hstepped, hstep⟩ := claimItem_evolves lib hready hw' hitem hclaim
      rw [hw, hstepped]
      exact ⟨_, .inr (.inr rfl), .step hstep⟩
    · rw [claimItem_frame hclaim hid]
      exact hexpire

/-- The sweep of a claim wins over its selection: work whose wait has expired is failed, and
is not the work that is claimed. -/
theorem claim_expires {claimed : Option (WorkItem × ExecutorAttempt)}
    (h : claim tie token now s = .ok (claimed, s')) (hw : s.work id = some w)
    (hexpired : w.item.waitExpired now = true) :
    s'.work id = some (w.expire now) ∧ ∀ c, claimed = some c → c.1.id ≠ id := by
  have hswept : (s.expireWaits now).work id = some (w.expire now) := by
    rw [Store.work_expireWaits, hw, Option.map_some, Work.withItem, rewrite_of hexpired]
    rfl
  rcases claim_eq_ok.mp h with ⟨-, rfl, rfl⟩ | ⟨row, c, hdue, rfl, hclaim⟩
  · exact ⟨hswept, by simp⟩
  · obtain ⟨hready, v, hitem, -, hv⟩ := work_of_nextDue hdue
    have hid : id ≠ row.id := by
      rintro rfl
      rw [hswept] at hv
      cases hv
      rw [← hitem] at hready
      cases hready
    refine ⟨(claimItem_frame hclaim hid).trans hswept, ?_⟩
    rintro _ ⟨⟩
    rw [claimItem_id hclaim]
    exact Ne.symm hid

theorem complete_evolves (hs : s.Sound lib) (h : complete lib attemptID result now s = .ok s') :
    Evolves lib
      (if (s.executorAttempts.find? attemptID).any (fun a => decide (a.workItemID = id)) then
        some (.report result now) else none) (s.work id) (s'.work id) := by
  obtain ⟨attempt, item, hattempt, hrunning, hitem, h⟩ := complete_eq_ok.mp h
  have hmem := Table.mem_of_find? hattempt
  have hid : attempt.id = attemptID := Table.key_of_find? hattempt
  have hitemID : item.id = attempt.workItemID := Table.key_of_find? hitem
  subst hid
  simp only [hattempt, Option.any_some, decide_eq_true_eq]
  by_cases hown : attempt.workItemID = id
  · subst hown
    rw [if_pos rfl]
    obtain ⟨w, hw, hwitem⟩ := Store.work_of_find? hitem
    have hown : attempt ∈ w.attempts := Store.mem_attempts hmem hw
    rcases h with ⟨hsuperseded, rfl⟩ | ⟨hactive, definition, settlement, hdefinition, hsettle, rfl⟩
    · rw [hw, Store.work_closed hw]
      exact .step (.close attempt result now hown hrunning (hwitem ▸ hsuperseded))
    · rw [hitemID, hw, Store.work_settled hw (hwitem ▸ hactive)]
      obtain ⟨snapshot, hsnapshot, -, rfl⟩ := loadDefinition_eq_ok.mp hdefinition
      refine .step (.settle attempt snapshot.terms settlement result now hown hrunning
        (hwitem ▸ hactive) ?_ hsettle)
      rw [(Store.work_eq_some.mp hw).2.1, Store.termsOf, hwitem, hsnapshot, Option.map_some]
  · rw [if_neg hown]
    have hne : id ≠ attempt.workItemID := Ne.symm hown
    have happart := hs.apart hmem
    rcases h with ⟨-, rfl⟩ | ⟨-, definition, settlement, -, -, rfl⟩
    · rw [Store.work_closed_ne happart hne]
      exact .same _
    · rw [Store.work_settled_ne happart hitemID.symm (hitemID ▸ hne)]
      exact .same _

/-- New work, and the step of the work it supersedes. -/
theorem withNewWork_evolves {snapshot : RouteSnapshotRow} (hs : s.Linked)
    (hsnapshot : s.routeSnapshots.find? snapshot.id = some snapshot)
    (hvalid : snapshot.definition.validate lib = .ok ())
    (hbinding : binding.admissionBinding.validate = .ok ())
    (hfresh : s.workItems.find? (newID "work" token) = none) :
    ∃ k, (k = none ∨ k = some .supersede) ∧
      Evolves lib k (s.work id) ((s.withNewWork snapshot.definition (newItem snapshot.id
        snapshot.definition e binding.admissionBinding token now) now).work id) := by
  generalize hrow : newItem snapshot.id snapshot.definition e binding.admissionBinding token now
    = row
  have hrowID : row.id = newID "work" token := by rw [← hrow]; rfl
  have hrowFresh : s.workItems.find? row.id = none := by rw [hrowID, hfresh]
  have hadded : (s.withItem row).work id =
      if id = row.id then some (Work.admitted row snapshot.terms) else s.work id := by
    obtain ⟨hattempts, hleases⟩ := hs.none_of_fresh hrowFresh
    rw [s.work_insertItem id hrowFresh, hattempts, hleases]
    have hterms : s.termsOf row.routeSnapshotID = some snapshot.terms := by
      rw [← hrow, Store.termsOf]
      exact congrArg (Option.map RouteSnapshotRow.terms) hsnapshot
    rw [hterms]
    rfl
  have hnone : id = row.id → s.work id = none := by
    rintro rfl
    exact Store.work_eq_none.mpr hrowFresh
  have hnew : Evolves lib none none (some (Work.admitted row snapshot.terms)) := by
    rw [← hrow]
    exact .admitted snapshot e binding token now hvalid hbinding
  unfold Store.withNewWork
  split
  · rw [Store.work_supersedeOthers, hadded]
    split
    · next hid =>
      -- The new item does not supersede itself.
      rw [hnone hid, Option.map_some, if_neg (by simp [WorkItemRow.replacedBy, Work.admitted])]
      exact ⟨none, .inl rfl, hnew⟩
    · cases s.work id with
      | none => exact ⟨none, .inl rfl, .same none⟩
      | some w =>
        rw [Option.map_some]
        split
        · next hreplaced =>
          simp only [WorkItemRow.replacedBy, Bool.and_eq_true] at hreplaced
          exact ⟨_, .inr rfl, .step (.supersede row.id now hreplaced.2)⟩
        · exact ⟨none, .inl rfl, .same (some w)⟩
  · rw [hadded]
    split
    · next hid =>
      rw [hnone hid]
      exact ⟨none, .inl rfl, hnew⟩
    · exact ⟨none, .inl rfl, .same _⟩

theorem admit_evolves {operation : Option ReleaseOperation} {workToken eventToken : Token}
    {result : AdmissionResult} (hs : s.Linked)
    (h : admitEvent lib snapshotID e operation binding tie workToken eventToken now s =
      .ok (result, s')) :
    ∃ k, (k = none ∨ k = some .supersede) ∧ Evolves lib k (s.work id) (s'.work id) := by
  obtain ⟨snapshot, rfl, hadmissible, h⟩ := admit_eq_ok.mp h
  rcases h with ⟨row, -, rfl, -⟩ | ⟨-, item, s1, s2, hitem, hattach, hevent, -⟩
  · exact ⟨none, .inl rfl, .same _⟩
  · obtain ⟨-, -, -, -, rfl⟩ := insertEvent_eq_ok.mp hevent
    have hworks : ∀ id, s2.work id = s1.work id := by
      rcases attachOperation_eq_ok.mp hattach with ⟨-, rfl⟩ | ⟨o, -, rfl, -⟩
      · exact fun _ => rfl
      · exact fun _ => rfl
    have hrecorded : ∀ row, (s2.withEvent row).work id = s1.work id := fun _ => hworks id
    rw [hrecorded]
    rcases admitItem_eq_ok.mp hitem with ⟨row, -, -, rfl⟩ | ⟨-, hfresh, -, rfl⟩
    · exact ⟨none, .inl rfl, .same _⟩
    · exact withNewWork_evolves hs hadmissible.found hadmissible.valid hadmissible.binding hfresh

/-- Work keeps its terms when snapshots are retired and added. -/
theorem work_of_terms {t : Table RouteSnapshotRow.id} (hs : s.Sound lib)
    (h : ∀ id terms, s.termsOf id = some terms →
      ({ s with routeSnapshots := t } : Store).termsOf id = some terms) :
    ({ s with routeSnapshots := t } : Store).work id = s.work id := by
  cases hw : s.work id with
  | none =>
    have hitem : s.workItems.find? id = none := Store.work_eq_none.mp hw
    exact Store.work_eq_none.mpr hitem
  | some w =>
    obtain ⟨hitem, hterms, hattempts, hleases⟩ := Store.work_eq_some.mp hw
    obtain ⟨⟨terms, hsome, -⟩, -⟩ := (hs.works hw).recorded
    refine Store.work_eq_some.mpr ⟨hitem, ?_, hattempts, hleases⟩
    rw [h _ terms (by rw [← hterms, hsome]), hsome]

theorem Store.termsOf_updateSnapshots {p : RouteSnapshotRow → Bool} (s : Store)
    (snapshotID : GoString) :
    (s.updateSnapshots p (RouteSnapshotRow.retire now) (RouteSnapshotRow.id_retire now)).termsOf
      snapshotID = s.termsOf snapshotID := by
  simp only [termsOf, updateSnapshots, Table.find?_update, Option.map_map]
  refine congrArg (fun g => Option.map g _) (funext fun r => ?_)
  by_cases hp : p r = true
  · simp only [Function.comp_apply, hp, if_true]
    rfl
  · simp only [Function.comp_apply, hp]
    rfl

theorem retireSnapshots_evolves {p : RouteSnapshotRow → Bool} (hs : s.Sound lib)
    (h : s.retireSnapshots p now = .ok s') : s'.work id = s.work id := by
  obtain ⟨-, rfl⟩ := retireSnapshots_eq_ok.mp h
  refine work_of_terms hs fun snapshotID terms hterms => ?_
  rw [← hterms]
  exact s.termsOf_updateSnapshots snapshotID

theorem activateRoute_evolves {registry : Option Registry} {snapshot : RouteSnapshot}
    (hs : s.Sound lib)
    (h : activateRoute lib definition registry token now s = .ok (snapshot, s')) :
    s'.work id = s.work id := by
  obtain ⟨executors, executor, -, -, hsave⟩ := activateRoute_eq_ok.mp h
  obtain ⟨-, -, -, ⟨existing, -, -, rfl⟩ | ⟨-, -, hreplace⟩⟩ := saveRoute_eq_ok.mp hsave
  · rfl
  · obtain ⟨s1, hretire, hfresh, rfl⟩ := replaceSnapshot_eq_ok.mp hreplace
    obtain ⟨-, rfl⟩ := retireSnapshots_eq_ok.mp hretire
    refine work_of_terms hs fun snapshotID terms hterms => ?_
    rw [← s.termsOf_updateSnapshots snapshotID] at hterms
    rw [← hterms]
    refine congrArg (Option.map RouteSnapshotRow.terms) (Table.find?_insert_ne _ ?_)
    rintro rfl
    rw [Store.termsOf, hfresh] at hterms
    cases hterms

/-- Every committed call takes every piece of work one of the steps it may cause. -/
theorem Op.evolves (hs : s.Sound lib) (h : op.exec lib s = .ok s') (id : GoString) :
    ∃ k, op.May s id k ∧ Evolves lib k (s.work id) (s'.work id) := by
  have hsame : s'.work id = s.work id →
      Evolves lib none (s.work id) (s'.work id) := fun he => he ▸ .same _
  cases op with
  | activateRoute definition registry token now =>
    obtain ⟨snapshot, h⟩ := map_snd_eq_ok.mp h
    exact ⟨none, rfl, hsame (activateRoute_evolves hs h)⟩
  | retireRoute snapshotID now =>
    exact ⟨none, rfl, hsame (retireSnapshots_evolves hs (retireRoute_eq_ok.mp h).2)⟩
  | admitWithAgent snapshotID e binding tie workToken eventToken now =>
    obtain ⟨result, h⟩ := map_snd_eq_ok.mp h
    exact admit_evolves hs.linked h
  | admitRelease snapshotID e operation tie workToken eventToken now =>
    obtain ⟨result, h⟩ := map_snd_eq_ok.mp h
    obtain ⟨-, -, h⟩ := Dispatcher.bind_eq_ok.mp h
    exact admit_evolves hs.linked h
  | recordIngressFailure e classification attempts now =>
    obtain ⟨-, h⟩ := Dispatcher.require_bind_eq_ok.mp h
    cases h
    exact ⟨none, rfl, hsame rfl⟩
  | recordContentResult digest external result now =>
    obtain ⟨row, -, h⟩ := Dispatcher.bind_eq_ok.mp h
    obtain ⟨-, h⟩ := Dispatcher.require_bind_eq_ok.mp h
    cases h
    exact ⟨none, rfl, hsame rfl⟩
  | claim tie token now =>
    obtain ⟨claimed, h⟩ := map_snd_eq_ok.mp h
    exact claim_evolves h
  | complete attemptID result now => exact ⟨_, rfl, complete_evolves hs h⟩
  | wakeWaiting itemID now =>
    refine ⟨_, ?_, wakeWaiting_evolves h⟩
    by_cases hid : id = itemID
    · rw [if_pos hid]
      exact .inr rfl
    · rw [if_neg hid]
      exact .inl rfl
  | recoverInterrupted now =>
    cases h
    exact recoverInterrupted_evolves lib s now id
  | resolveRelease itemID generation digest brokerRunID now =>
    exact ⟨_, rfl, resolveRelease_evolves h⟩
  | recordAuthoritativePRCorrelation itemID repository number now =>
    exact ⟨_, rfl, recordAuthoritativePRCorrelation_evolves h⟩

end Evolves

/-! ## What belongs to an item -/

section Linked

variable {s' : Store}

theorem Store.Linked.updateItems (hs : s.Linked) {hf : ∀ r, (f r).id = r.id} :
    (s.updateItems p f hf).Linked := by
  have hitems : ∀ id, s.workItems.find? id ≠ none →
      (s.updateItems p f hf).workItems.find? id ≠ none := by
    intro id h
    simpa [Store.updateItems] using h
  exact ⟨fun a ha => hitems _ (hs.attempts a ha), fun l hl => hitems _ (hs.leases l hl),
    fun e he => hitems _ (hs.events e he), fun o ho => hitems _ (hs.operations o ho)⟩

theorem Store.Linked.updateAttempts (hs : s.Linked) {p : ExecutorAttemptRow → Bool}
    {f : ExecutorAttemptRow → ExecutorAttemptRow} {hf : ∀ a, (f a).id = a.id}
    (hidentity : ∀ a, (f a).identity = a.identity) : (s.updateAttempts p f hf).Linked := by
  refine ⟨fun a ha => ?_, hs.leases, hs.events, hs.operations⟩
  obtain ⟨b, hb, rfl⟩ := (Table.mem_update s.executorAttempts p f hf a).mp ha
  have hitem : (rewrite p f b).workItemID = b.workItemID :=
    congrArg AttemptIdentity.workItemID (rewrite_keeps hidentity b)
  have := hs.attempts b hb
  rwa [← hitem] at this

theorem Store.Linked.deleteLeases (hs : s.Linked) {p : LeaseRow → Bool} :
    (s.deleteLeases p).Linked :=
  ⟨hs.attempts, fun l hl => hs.leases l (Table.mem_delete.mp hl).1, hs.events, hs.operations⟩

theorem Store.Linked.withItem (hs : s.Linked) (row : WorkItemRow) : (s.withItem row).Linked := by
  have hitems : ∀ id, s.workItems.find? id ≠ none →
      (s.withItem row).workItems.find? id ≠ none := by
    intro id h
    simp only [Store.withItem, Table.find?_insert]
    split
    · simp
    · exact h
  exact ⟨fun a ha => hitems _ (hs.attempts a ha), fun l hl => hitems _ (hs.leases l hl),
    fun e he => hitems _ (hs.events e he), fun o ho => hitems _ (hs.operations o ho)⟩

theorem Store.Linked.withAttempt (hs : s.Linked) {row : ExecutorAttemptRow}
    (h : s.workItems.find? row.workItemID ≠ none) : (s.withAttempt row).Linked :=
  ⟨Table.forall_insert hs.attempts h, hs.leases, hs.events, hs.operations⟩

theorem Store.Linked.withLease (hs : s.Linked) {row : LeaseRow}
    (h : s.workItems.find? row.workItemID ≠ none) : (s.withLease row).Linked :=
  ⟨hs.attempts, Table.forall_insert hs.leases h, hs.events, hs.operations⟩

theorem Store.Linked.withEvent (hs : s.Linked) {row : WorkEventRow}
    (h : s.workItems.find? row.workItemID ≠ none) : (s.withEvent row).Linked :=
  ⟨hs.attempts, hs.leases, Table.forall_insert hs.events h, hs.operations⟩

theorem Store.Linked.withOperation (hs : s.Linked) {row : ReleaseOperationRow}
    (h : s.workItems.find? row.workItemID ≠ none) : (s.withOperation row).Linked :=
  ⟨hs.attempts, hs.leases, hs.events, Table.forall_insert hs.operations h⟩

theorem Store.Linked.expireWaits (hs : s.Linked) (now : Int) : (s.expireWaits now).Linked :=
  hs.updateItems

theorem Store.Linked.withNewWork (hs : s.Linked) (definition : RouteDefinition)
    (row : WorkItemRow) (now : Int) : (s.withNewWork definition row now).Linked := by
  unfold Store.withNewWork
  split
  · refine Store.Linked.updateItems (Store.Linked.deleteLeases ?_)
    exact (hs.withItem row).updateAttempts fun a => a.identity_supersede now
  · exact hs.withItem row

/-- New work is there. -/
theorem Store.find?_withNewWork_self (hfresh : s.workItems.find? row.id = none) :
    (s.withNewWork definition row now).workItems.find? row.id = some row := by
  rw [find?_withNewWork hfresh, if_pos rfl]

/-- The item a claim selects is there. -/
theorem Store.find?_nextDue (h : s.nextDue tie now = some row) :
    s.workItems.find? row.id ≠ none := by
  rw [Table.find?_key (List.mem_filter.mp (mem_of_pick h)).1]
  simp

theorem admitItem_linked {item : WorkItem} (hs : s.Linked)
    (h : admitItem snapshotID definition e binding tie token now s = .ok (item, s')) :
    s'.Linked ∧ s'.workItems.find? item.id ≠ none := by
  rcases admitItem_eq_ok.mp h with ⟨row, hmatched, rfl, rfl⟩ | ⟨-, hfresh, rfl, rfl⟩
  · have hmem := (List.mem_filter.mp (mem_of_pick hmatched)).1
    refine ⟨hs, ?_⟩
    simp only [WorkItemRow.scan]
    rw [Table.find?_key hmem]
    simp
  · have hnew : (s.withNewWork definition (newItem snapshotID definition e binding token now)
        now).workItems.find? (newID "work" token) =
          some (newItem snapshotID definition e binding token now) :=
      Store.find?_withNewWork_self hfresh
    exact ⟨hs.withNewWork _ _ _, fun hnone => by cases hnew.symm.trans hnone⟩

theorem admit_linked {lib : LedgerLib} {operation : Option ReleaseOperation}
    {workToken eventToken : Token} {result : AdmissionResult} (hs : s.Linked)
    (h : admitEvent lib snapshotID e operation binding tie workToken eventToken now s =
      .ok (result, s')) : s'.Linked := by
  obtain ⟨snapshot, rfl, -, ⟨row, -, rfl, -⟩ | ⟨-, item, s1, s2, hitem, hattach, hevent, -⟩⟩ :=
    admit_eq_ok.mp h
  · exact hs
  · obtain ⟨hs1, hfound⟩ := admitItem_linked hs hitem
    obtain ⟨-, -, -, -, rfl⟩ := insertEvent_eq_ok.mp hevent
    rcases attachOperation_eq_ok.mp hattach with ⟨-, rfl⟩ | ⟨o, -, rfl, -⟩
    · exact hs1.withEvent hfound
    · exact (hs1.withOperation hfound).withEvent hfound

theorem Op.linked {lib : LedgerLib} (hs : s.Linked) (h : op.exec lib s = .ok s') : s'.Linked := by
  cases Op.commits h with
  | replaced _ _ _ hretire | retired hretire =>
    obtain ⟨-, rfl⟩ := retireSnapshots_eq_ok.mp hretire
    exact ⟨hs.attempts, hs.leases, hs.events, hs.operations⟩
  | admitted h | released h => exact admit_linked hs h
  | swept tie token now => exact hs.expireWaits now
  | @reclaimed _ now _ _ _ hdue =>
    refine Store.Linked.updateItems (Store.Linked.withLease ?_ (Store.find?_nextDue hdue))
    exact (hs.expireWaits now).updateAttempts fun a => a.identity_restart now
  | @started _ now _ _ _ hdue =>
    have hrow := Store.find?_nextDue hdue
    refine Store.Linked.updateItems (Store.Linked.withLease ?_ hrow)
    exact (hs.expireWaits now).withAttempt hrow
  | closed attemptID result now =>
    exact (hs.updateAttempts fun a => a.identity_supersede now).deleteLeases
  | settled itemID attemptID settlement result now =>
    exact ((hs.updateAttempts fun a =>
      a.identity_settle now settlement result).updateItems).deleteLeases
  | recovered now =>
    exact (((hs.updateAttempts fun a => a.identity_supersede now).updateAttempts
      ExecutorAttemptRow.identity_interrupt).updateItems).deleteLeases
  | woken | resolved | correlated => exact hs.updateItems
  | _ => exact ⟨hs.attempts, hs.leases, hs.events, hs.operations⟩

end Linked

theorem Store.sound_empty (lib : LedgerLib) : Store.empty.Sound lib where
  works := by
    intro id w h
    cases h
  linked := by
    constructor <;> exact fun _ h => absurd h List.not_mem_nil

/-- Every committed call keeps the invariant. -/
theorem Op.sound {lib : LedgerLib} {s' : Store} (hs : s.Sound lib) (h : op.exec lib s = .ok s') :
    s'.Sound lib where
  works := by
    intro id w hw
    obtain ⟨k, -, hevolves⟩ := Op.evolves hs h id
    exact hevolves.valid (fun _ hv => hs.works hv) w hw
  linked := Op.linked hs.linked h

/-- Every reachable ledger is sound. -/
theorem Reachable.sound {lib : LedgerLib} (h : Reachable lib s) : s.Sound lib :=
  ReachableBy.invariant (Store.sound_empty lib) (fun _ _ _ hs _ hexec => Op.sound hs hexec) h

/-! ## Runs -/

/-- Any number of steps. -/
def Work.Steps (lib : LedgerLib) : Work → Work → Prop :=
  Relation.ReflTransGen fun w w' => ∃ k, Work.Step lib k w w'

/-- What every step keeps, any number of steps keeps. -/
theorem Work.Steps.keeps {lib : LedgerLib} {R : Work → Work → Prop} (hrefl : ∀ w, R w w)
    (htrans : ∀ u v w, R u v → R v w → R u w) (hstep : ∀ k w w', Work.Step lib k w w' → R w w')
    {w' : Work} (h : Work.Steps lib w w') : R w w' := by
  induction h with
  | refl => exact hrefl _
  | tail _ hlast ih =>
    obtain ⟨k, hk⟩ := hlast
    exact htrans _ _ _ ih (hstep k _ _ hk)

section Runs

variable {lib : LedgerLib}

/-- A call leaves a piece of work as it is, or takes it one of the steps it may cause. -/
theorem Reachable.step_work (h : Reachable lib s) (op : Op) (hw : s.work id = some w) :
    ∃ w', (op.step lib s).work id = some w' ∧
      (w' = w ∨ ∃ k, op.May s id (some k) ∧ Work.Step lib k w w') := by
  rcases op.step_cases lib s with he | he
  · exact ⟨w, by rw [he, hw], .inl rfl⟩
  · obtain ⟨k, hmay, hevolves⟩ := Op.evolves h.sound he id
    rw [hw] at hevolves
    generalize hv : (op.step lib s).work id = v at hevolves
    cases hevolves with
    | same => exact ⟨w, rfl, .inl rfl⟩
    | @step k _ w' hstep => exact ⟨w', rfl, .inr ⟨k, hmay, hstep⟩⟩

/-- An invariant of works: new work has it, and every step of valid work keeps it. -/
theorem Reachable.works {P : Work → Prop}
    (hadmitted : ∀ (snapshot : RouteSnapshotRow) e binding token now, P (Work.admitted
      (newItem snapshot.id snapshot.definition e binding token now) snapshot.terms))
    (hstep : ∀ k w w', w.Valid lib → Work.Step lib k w w' → P w → P w') (h : Reachable lib s)
    (hw : s.work id = some w) : P w := by
  have hinv : s.Sound lib ∧ ∀ id w, s.work id = some w → P w := by
    refine ReachableBy.invariant (I := fun s => s.Sound lib ∧ ∀ id w, s.work id = some w → P w)
      ⟨Store.sound_empty lib, fun _ _ hw => by cases hw⟩ ?_ h
    rintro s op s' ⟨hs, hP⟩ - hexec
    refine ⟨Op.sound hs hexec, fun id w' hw' => ?_⟩
    obtain ⟨k, -, hevolves⟩ := Op.evolves hs hexec id
    generalize hv : s.work id = v at hevolves
    rw [hw'] at hevolves
    cases hevolves with
    | same => exact hP id w' hv
    | admitted snapshot e binding token now _ _ => exact hadmitted snapshot e _ token now
    | @step k w _ hk => exact hstep k w w' (hs.works hv) hk (hP id w hv)
  exact hinv.2 id w hw

/-- Along a run a piece of work stays, and takes its steps. -/
theorem Reachable.run_work (h : Reachable lib s) (ops : List Op) (hw : s.work id = some w) :
    ∃ w', (Workledger.run lib ops s).work id = some w' ∧ Work.Steps lib w w' := by
  induction ops generalizing s w with
  | nil => exact ⟨w, hw, .refl⟩
  | cons op ops ih =>
    obtain ⟨v, hv, hstep⟩ := h.step_work op hw
    obtain ⟨w', hw', hsteps⟩ := ih (.step op h trivial) hv
    refine ⟨w', hw', ?_⟩
    rcases hstep with rfl | ⟨k, -, hk⟩
    · exact hsteps
    · exact .head ⟨k, hk⟩ hsteps

end Runs

end SignalPlane.Workledger
