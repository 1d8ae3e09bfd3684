/-
SignalPlane.Workledger.ScheduleTheorems — no admitted work is left behind.

An item is scheduled exactly while it is admitted or waiting. When no lease is
held and every scheduled item is due, a claim returns an item, or its sweep
has failed all of them. A claimed item that reports a final outcome is not
scheduled again, so rounds of claim and completion empty the schedule: the set
of ready items loses one in every round (`Round.ready_ssubset`), and there are
at most as many as items (`Store.Schedulable`).
-/
import SignalPlane.Workledger.ClaimTheorems

namespace SignalPlane.Workledger

open Clock

variable {id : GoString} {now : Int} {w : Work} {a : ExecutorAttemptRow} {result : ExecutorResult}
  {c : WorkItem × ExecutorAttempt}

/-! ## Ready items -/

/-- The ids of the items that wait for a claim. -/
def Store.ready (s : Store) : Finset GoString :=
  ((s.workItems.rows.filter fun r => r.state.isReady).map WorkItemRow.id).toFinset

section Ready

variable {lib : LedgerLib} {s s' : Store}

theorem Store.mem_ready : id ∈ s.ready ↔ ∃ w, s.work id = some w ∧ w.item.state.isReady = true := by
  simp only [ready, List.mem_toFinset, List.mem_map, List.mem_filter]
  constructor
  · rintro ⟨r, ⟨hr, hready⟩, rfl⟩
    obtain ⟨w, hw, rfl⟩ := exists_work hr
    exact ⟨w, hw, hready⟩
  · rintro ⟨w, hw, hready⟩
    exact ⟨w.item, ⟨Table.mem_of_find? (work_eq_some.mp hw).1, hready⟩, id_of_work hw⟩

theorem Store.card_ready_le (s : Store) : s.ready.card ≤ s.workItems.rows.length :=
  calc s.ready.card
      ≤ ((s.workItems.rows.filter fun r => r.state.isReady).map WorkItemRow.id).length :=
        List.toFinset_card_le _
    _ ≤ s.workItems.rows.length := by
        rw [List.length_map]
        exact List.length_filter_le ..

/-- Whether every scheduled item is due. -/
def Store.AllDue (s : Store) (now : Int) : Prop :=
  ∀ r ∈ s.workItems.rows, ∀ t ∈ r.nextAttemptAt, t ≤ unixMilli now

instance (s : Store) (now : Int) : Decidable (s.AllDue now) := by
  unfold Store.AllDue
  infer_instance

theorem dueBefore_total (a b : WorkItemRow) : a.dueBefore b = true ∨ b.dueBefore a = true := by
  unfold WorkItemRow.dueBefore
  cases a.nextAttemptAt <;> cases b.nextAttemptAt <;> simp
  omega

theorem dueBefore_trans (a b c : WorkItemRow) (hab : a.dueBefore b = true)
    (hbc : b.dueBefore c = true) : a.dueBefore c = true := by
  unfold WorkItemRow.dueBefore at *
  cases ha : a.nextAttemptAt with
  | none => rfl
  | some x =>
    cases hb : b.nextAttemptAt with
    | none => simp [ha, hb] at hab
    | some y =>
      cases hc : c.nextAttemptAt with
      | none => simp [hb, hc] at hbc
      | some z =>
        simp only [ha, hb, hc, Bool.or_eq_true, Bool.and_eq_true, decide_eq_true_eq] at hab hbc ⊢
        omega

/-- A claim that returns nothing has left nothing that is ready, if nothing is leased and all
is due. -/
theorem ready_eq_empty_of_claim (h : Reachable lib s) {tie : Nat} {token : Token}
    (hleases : s.leases.rows = []) (hdue : s.AllDue now)
    (hclaim : claim tie token now s = .ok (none, s')) : s'.ready = ∅ := by
  rcases claim_eq_ok.mp hclaim with ⟨hnone, -, rfl⟩ | ⟨row, c, -, hsome, -⟩
  · refine Finset.eq_empty_of_forall_notMem fun id hid => ?_
    obtain ⟨w', hw', hready⟩ := Store.mem_ready.mp hid
    have hmem := Table.mem_of_find? (Store.work_eq_some.mp hw').1
    -- A ready item that the sweep has left is due, and its key is free.
    have hclaimable : (s.expireWaits now).claimable now w'.item = true := by
      obtain ⟨w, hw, hsame⟩ : ∃ w, s.work id = some w ∧ w'.item = w.item := by
        have hw := hw'
        rw [Store.work_expireWaits, Option.map_eq_some_iff] at hw
        obtain ⟨w, hw, rfl⟩ := hw
        refine ⟨w, hw, ?_⟩
        cases hexpired : w.item.waitExpired now with
        | true =>
          rw [Work.withItem, rewrite_of hexpired] at hready
          cases hready
        | false => exact rewrite_of_not hexpired
      have hscheduled : w.item.nextAttemptAt.isSome = true := by
        rw [(h.sound.works hw).columns.scheduled, ← hsame]
        exact hready
      obtain ⟨t, ht⟩ := Option.isSome_iff_exists.mp hscheduled
      have hle := hdue w.item (Table.mem_of_find? (Store.work_eq_some.mp hw).1) t ht
      have hfree : (s.expireWaits now).leases.find? w'.item.serializationKey = none := by
        refine Table.find?_eq_none.mpr fun l hl => ?_
        rw [show (s.expireWaits now).leases = s.leases from rfl, hleases] at hl
        cases hl
      rw [hsame] at hready hfree ⊢
      simp only [Store.claimable, hready, hfree, ht, Option.any_some, hle, decide_true,
        Option.isNone_none, Bool.and_self]
    exact pick_ne_none dueBefore_total dueBefore_trans
      (List.ne_nil_of_mem (List.mem_filter.mpr ⟨hmem, hclaimable⟩)) hnone
  · cases hsome

end Ready

/-! ## Completions do not fail -/

section Complete

variable {lib : LedgerLib} {s : Store}

/-- A completion of the attempt of active work commits when its outcome can be settled, and
concerns no other work. -/
theorem complete_of_settle (hs : s.Sound lib) (hw : s.work id = some w) (ha : a ∈ w.attempts)
    (hrunning : a.state = .running) (hactive : w.item.state = .active) {t : Terms}
    (ht : w.terms = some t) {settlement : Settlement}
    (hsettle : settle lib t.definition.retry a.attemptNumber result now = .ok settlement) :
    ∃ s', complete lib a.id result now s = .ok s' ∧
      s'.work id = some (w.settle a.id settlement result now) ∧
      ∀ other, other ≠ id → s'.work other = s.work other := by
  obtain ⟨hitem, hterms, hattempts, -⟩ := Store.work_eq_some.mp hw
  obtain ⟨hrow, hown⟩ := Store.mem_attemptsOf.mp (hattempts ▸ ha)
  have hid := Store.id_of_work hw
  obtain ⟨⟨t', ht', hvalid, -, -⟩, -⟩ := (hs.works hw).recorded
  cases ht'.symm.trans ht
  rw [ht, Store.termsOf, eq_comm, Option.map_eq_some_iff] at hterms
  obtain ⟨q, hq, rfl⟩ := hterms
  refine ⟨s.settled w.item.id a.id settlement result now, ?_, ?_, ?_⟩
  · refine complete_eq_ok.mpr ⟨a, w.item, Table.find?_key hrow, hrunning, by rw [hown, hitem],
      .inr ⟨hactive, q.definition, settlement, ?_, hsettle, rfl⟩⟩
    exact loadDefinition_eq_ok.mpr ⟨q, hq, hvalid, rfl⟩
  · rw [hid]
    exact Store.work_settled hw hactive
  · intro other hne
    rw [hid]
    exact Store.work_settled_ne (hs.apart hrow) hown hne

/-- A final outcome of the attempt of active work commits, and ends the item. -/
theorem complete_final (hs : s.Sound lib) (hw : s.work id = some w) (ha : a ∈ w.attempts)
    (hrunning : a.state = .running) (hactive : w.item.state = .active) (now : Int)
    (hfinal : result.outcome = .completed ∨ result.outcome = .permanentFailure) :
    ∃ s' w', complete lib a.id result now s = .ok s' ∧ s'.work id = some w' ∧
      w'.item.state.isTerminal = true ∧ ∀ other, other ≠ id → s'.work other = s.work other := by
  obtain ⟨⟨t, ht, -, -, -⟩, -⟩ := (hs.works hw).recorded
  obtain ⟨settlement, hsettle, hterminal⟩ : ∃ settlement : Settlement,
      settle lib t.definition.retry a.attemptNumber result now = .ok settlement ∧
        settlement.state.isTerminal = true := by
    unfold settle
    rcases hfinal with hfinal | hfinal <;> rw [hfinal]
    · exact ⟨_, rfl, rfl⟩
    · exact ⟨_, rfl, rfl⟩
  obtain ⟨s', hcomplete, hw', hothers⟩ :=
    complete_of_settle hs hw ha hrunning hactive ht hsettle
  exact ⟨s', _, hcomplete, hw', hterminal, hothers⟩

end Complete

/-! ## Rounds -/

/-- A claim and the outcome its attempt reports, if it returns one. -/
structure Round where
  tie : Nat
  token : Token
  claimAt : Int
  result : ExecutorResult
  completeAt : Int

/-- The store after a round. -/
def Round.exec (lib : LedgerLib) (s : Store) (round : Round) : Store :=
  match claim round.tie round.token round.claimAt s with
  | .ok (some (_, attempt), s') =>
    (Op.complete attempt.id round.result round.completeAt).step lib s'
  | .ok (none, s') => s'
  | .error _ => s

/-- A round that claims when all is due, with a fresh token, and reports a final outcome. -/
structure Round.Final (s : Store) (round : Round) : Prop where
  fresh : s.executorAttempts.find? (newID "attempt" round.token) = none
  due : s.AllDue round.claimAt
  final : round.result.outcome = .completed ∨ round.result.outcome = .permanentFailure

/-- The store after a list of rounds that are all final where they begin. -/
inductive Drains (lib : LedgerLib) : List Round → Store → Store → Prop where
  | nil (s : Store) : Drains lib [] s s
  | cons {round : Round} {rounds : List Round} {s s' : Store} (hfinal : round.Final s)
      (h : Drains lib rounds (round.exec lib s) s') : Drains lib (round :: rounds) s s'

section Rounds

variable {lib : LedgerLib} {s s' : Store}

/-- Without leases nothing is active, and conversely. -/
theorem Store.Sound.leases_eq_nil (hs : s.Sound lib) :
    s.leases.rows = [] ↔ ∀ id w, s.work id = some w → w.item.state ≠ .active := by
  constructor
  · intro hnone id w hw hactive
    obtain ⟨earlier, last, now, -, -, -, hleases⟩ := (hs.works hw).shape.leased hactive
    have hmem : w.lease last.id now ∈ s.leasesOf id := by
      rw [← (work_eq_some.mp hw).2.2.2, hleases]
      exact List.mem_singleton_self _
    have hrow := (mem_leasesOf.mp hmem).1
    rw [hnone] at hrow
    cases hrow
  · intro h
    refine List.eq_nil_iff_forall_not_mem.mpr fun l hl => ?_
    obtain ⟨w, last, hw, hactive, -⟩ := hs.lease hl
    exact h _ w hw hactive

/-- Work after the sweep that was not active is not active, and what is ready was ready. -/
theorem work_expireWaits_cases {w' : Work} (hw' : (s.expireWaits now).work id = some w') :
    s.work id = some w' ∨ (w'.item.state = .failed ∧ s.work id ≠ none) := by
  rw [Store.work_expireWaits, Option.map_eq_some_iff] at hw'
  obtain ⟨w, hw, rfl⟩ := hw'
  cases hexpired : w.item.waitExpired now with
  | true =>
    refine .inr ⟨?_, by simp [hw]⟩
    rw [Work.withItem, rewrite_of hexpired]
    rfl
  | false =>
    rw [Work.withItem, rewrite_of_not hexpired]
    exact .inl hw

/-- A claim leaves its work active, with the attempt it returns running. -/
theorem claimItem_running (h : Reachable lib s) {token : Token}
    (hready : w.item.state.isReady = true) (hw : s.work w.item.id = some w)
    (hw' : (s.expireWaits now).work w.item.id = some w)
    (hitem : claimItem w.item token now (s.expireWaits now) = .ok (c, s')) :
    ∃ v a, s'.work w.item.id = some v ∧ v.item.state = .active ∧ a ∈ v.attempts ∧
      a.state = .running ∧ c.2.id = a.id := by
  rcases claimItem_work hready hw' rfl hitem with ⟨b, hb, hbstate, hc, hv⟩ |
    ⟨-, -, snapshot, operation, -, hc, hv⟩
  · have hwaiting : w.item.state = .waiting :=
      ((h.sound.works hw).shape.recoverable hb hbstate).resolve_right fun hfailed => by
        rw [hfailed] at hready
        cases hready
    refine ⟨_, b.restart now, hv, by rw [Work.reclaim_item hwaiting]; rfl, ?_, rfl,
      by rw [hc]; rfl⟩
    exact List.mem_map.mpr ⟨b, hb, rewrite_of (by simp [hbstate])⟩
  · exact ⟨_, _, hv, rfl, List.mem_append_right _ (List.mem_singleton_self _), rfl,
      by rw [hc]; rfl⟩

/-- A final round that claims an item takes it off the schedule for good, and leaves no
lease. -/
theorem round_claimed (h : Reachable lib s) (hleases : s.leases.rows = []) {round : Round}
    (hfinal : round.Final s)
    (hclaim : claim round.tie round.token round.claimAt s = .ok (some c, s')) :
    (round.exec lib s).ready ⊂ s.ready ∧ Reachable lib (round.exec lib s) ∧
      (round.exec lib s).leases.rows = [] := by
  obtain ⟨w, -, hready, hw, hw', hitem⟩ := claim_some hclaim
  have hs' : Reachable lib s' := by
    have hstep : (Op.claim round.tie round.token round.claimAt).step lib s = s' :=
      Op.step_of_exec (map_snd_eq_ok.mpr ⟨_, hclaim⟩)
    exact hstep ▸ .step _ h trivial
  obtain ⟨v, a, hv, hactive, ha, hrunning, hid⟩ := claimItem_running h hready hw hw' hitem
  obtain ⟨s'', v'', hcomplete, hv'', hterminal, hother⟩ :=
    complete_final hs'.sound hv ha hrunning hactive round.completeAt hfinal.final
  have hexec : round.exec lib s = s'' := by
    have hstep : (Op.complete c.2.id round.result round.completeAt).step lib s' = s'' :=
      Op.step_of_exec (by rw [hid]; exact hcomplete)
    simp only [Round.exec, hclaim]
    exact hstep
  have hreach : Reachable lib s'' := by
    have hstep : (Op.complete a.id round.result round.completeAt).step lib s' = s'' :=
      Op.step_of_exec hcomplete
    exact hstep ▸ .step _ hs' trivial
  rw [hexec]
  -- Every other item is as the sweep left it.
  have hrest : ∀ id u, id ≠ w.item.id → s''.work id = some u →
      s.work id = some u ∨ (u.item.state = .failed ∧ s.work id ≠ none) := by
    intro id u hne hu
    rw [hother id hne, claimItem_frame hitem hne] at hu
    exact work_expireWaits_cases hu
  refine ⟨?_, hreach, hreach.sound.leases_eq_nil.mpr ?_⟩
  · refine Finset.ssubset_iff_subset_ne.mpr ⟨fun id hid => ?_, fun heq => ?_⟩
    · obtain ⟨u, hu, huready⟩ := Store.mem_ready.mp hid
      by_cases hne : id = w.item.id
      · rw [hne]
        exact Store.mem_ready.mpr ⟨w, hw, hready⟩
      · rcases hrest id u hne hu with hsame | ⟨hfailed, -⟩
        · exact Store.mem_ready.mpr ⟨u, hsame, huready⟩
        · rw [hfailed] at huready
          cases huready
    · have hmem : w.item.id ∈ s''.ready := heq ▸ Store.mem_ready.mpr ⟨w, hw, hready⟩
      obtain ⟨u, hu, huready⟩ := Store.mem_ready.mp hmem
      rw [hv''] at hu
      cases hu
      rw [(Work.not_ended_of_isReady huready).1] at hterminal
      cases hterminal
  · intro id u hu huactive
    by_cases hne : id = w.item.id
    · rw [hne, hv''] at hu
      cases hu
      rw [huactive] at hterminal
      cases hterminal
    · rcases hrest id u hne hu with hsame | ⟨hfailed, -⟩
      · exact h.sound.leases_eq_nil.mp hleases id u hsame huactive
      · rw [huactive] at hfailed
        cases hfailed

/-- A final round takes an item off the schedule, or leaves none on it. -/
theorem Round.ready_ssubset (h : Reachable lib s) (hleases : s.leases.rows = []) {round : Round}
    (hfinal : round.Final s) :
    ((round.exec lib s).ready ⊂ s.ready ∨ (round.exec lib s).ready = ∅) ∧
      Reachable lib (round.exec lib s) ∧ (round.exec lib s).leases.rows = [] := by
  obtain ⟨claimed, s', hclaim⟩ := claim_total h round.tie round.claimAt hfinal.fresh
  cases claimed with
  | some c =>
    obtain ⟨hready, hreach, hnone⟩ := round_claimed h hleases hfinal hclaim
    exact ⟨.inl hready, hreach, hnone⟩
  | none =>
    have hexec : round.exec lib s = s' := by
      simp only [Round.exec, hclaim]
    have hstep : (Op.claim round.tie round.token round.claimAt).step lib s = s' :=
      Op.step_of_exec (map_snd_eq_ok.mpr ⟨_, hclaim⟩)
    rw [hexec]
    refine ⟨.inr (ready_eq_empty_of_claim h hleases hfinal.due hclaim),
      hstep ▸ .step _ h trivial, ?_⟩
    rcases claim_eq_ok.mp hclaim with ⟨-, -, rfl⟩ | ⟨row, c, -, hsome, -⟩
    · exact hleases
    · cases hsome

/-- Final rounds leave at most the ready items that are more than the rounds. -/
theorem Drains.card_ready {rounds : List Round} (h : Drains lib rounds s s')
    (hs : Reachable lib s) (hleases : s.leases.rows = []) :
    s'.ready.card ≤ s.ready.card - rounds.length := by
  induction h with
  | nil s => simp
  | cons hfinal _ ih =>
    obtain ⟨hready, hreach, hnone⟩ := Round.ready_ssubset hs hleases hfinal
    have hcard := ih hreach hnone
    rw [List.length_cons]
    rcases hready with hless | hempty
    · have := Finset.card_lt_card hless
      omega
    · rw [hempty, Finset.card_empty] at hcard
      omega

end Rounds

/-! ## Every admitted item can be claimed -/

/-- What the schedule of a ledger guarantees. -/
structure Store.Schedulable (lib : LedgerLib) (s : Store) : Prop where
  /-- An item is scheduled exactly while it is admitted or waiting. -/
  scheduled : ∀ r ∈ s.workItems.rows, r.nextAttemptAt.isSome = r.state.isReady
  /-- When nothing is leased and all is due, a claim returns an item or leaves none that is
  admitted or waiting. -/
  claimed : s.leases.rows = [] → (∃ r ∈ s.workItems.rows, r.state.isReady = true) →
    ∀ tie token now, s.AllDue now → s.executorAttempts.find? (newID "attempt" token) = none →
      ∃ claimed s', claim tie token now s = .ok (claimed, s') ∧
        (claimed ≠ none ∨ ∀ r ∈ s'.workItems.rows, r.state.isReady = false)
  /-- As many final rounds as there are items leave nothing to claim. -/
  drained : s.leases.rows = [] → ∀ rounds s', Drains lib rounds s s' →
    s.workItems.rows.length ≤ rounds.length → ∀ r ∈ s'.workItems.rows, r.state.isReady = false

section Schedulable

variable {lib : LedgerLib} {s : Store}

theorem Store.not_ready_of_ready_eq_empty (h : s.ready = ∅) :
    ∀ r ∈ s.workItems.rows, r.state.isReady = false := by
  intro r hr
  by_contra hready
  obtain ⟨w, hw, rfl⟩ := exists_work hr
  have hmem : w.item.id ∈ s.ready := mem_ready.mpr ⟨w, hw, by simpa using hready⟩
  rw [h] at hmem
  exact absurd hmem (Finset.notMem_empty _)

theorem schedulable_of_reachable (h : Reachable lib s) : s.Schedulable lib where
  scheduled := by
    intro r hr
    obtain ⟨w, hw, rfl⟩ := Store.exists_work hr
    exact (h.sound.works hw).columns.scheduled
  claimed := by
    intro hleases _ tie token now hdue hfresh
    obtain ⟨claimed, s', hclaim⟩ := claim_total h tie now hfresh
    refine ⟨claimed, s', hclaim, ?_⟩
    cases claimed with
    | some c => exact .inl (by simp)
    | none =>
      exact .inr (Store.not_ready_of_ready_eq_empty (ready_eq_empty_of_claim h hleases hdue hclaim))
  drained := by
    intro hleases rounds s' hdrains hlength
    have hcard := hdrains.card_ready h hleases
    have hle := s.card_ready_le
    exact Store.not_ready_of_ready_eq_empty (Finset.card_eq_zero.mp (by omega))

end Schedulable

open Sample in
/-- An interrupted item and no lease: a claim within the deadline takes it up again. -/
theorem schedulable_interrupted :
    ((after interrupted).leases.rows = [] ∧
      (after interrupted).AllDue (30 * second) ∧
      (∃ r ∈ (after interrupted).workItems.rows, r.state.isReady = true)) ∧
    (after interrupted).Schedulable lib :=
  ⟨by decide +kernel, schedulable_of_reachable (reachable_after interrupted)⟩

/-! ## Waking an item -/

/-- A waiting item whose deadline is ahead and whose serialization key is free. -/
structure Store.Wakeable (s : Store) (now : Int) (r : WorkItemRow) : Prop where
  row : s.workItems.find? r.id = some r
  waiting : r.state = .waiting
  ahead : ∀ deadline ∈ r.waitDeadlineAt, unixMilli now < deadline
  free : s.leases.find? r.serializationKey = none

/-- `WakeWaiting` succeeds and leaves the item due, so that `Claim` at `now` may take it. -/
def Store.Wakes (s : Store) (now : Int) (r : WorkItemRow) : Prop :=
  ∃ s' r', wakeWaiting r.id now s = .ok s' ∧ (s'.expireWaits now).workItems.find? r.id = some r' ∧
    (∃ due ∈ r'.nextAttemptAt, due ≤ unixMilli now) ∧
    (s'.expireWaits now).claimable now r' = true

section Wakes

variable {lib : LedgerLib} {s : Store} {r : WorkItemRow}

theorem Store.Wakeable.find?_wake (h : s.Wakeable now r) (hnone : r.nextAttemptAt = none) :
    ((s.updateItems (fun r' => decide (r'.id = r.id) && r'.dormant) (WorkItemRow.wake now)
      (WorkItemRow.id_wake now)).expireWaits now).workItems.find? r.id = some (r.wake now) := by
  have hahead : (r.wake now).waitExpired now = false := by
    cases hdeadline : r.waitDeadlineAt with
    | none => simp [WorkItemRow.waitExpired, WorkItemRow.wake, hdeadline]
    | some deadline =>
      have := h.ahead deadline hdeadline
      simp [WorkItemRow.waitExpired, WorkItemRow.wake, hdeadline, this]
  simp only [Store.expireWaits, Store.updateItems, Table.find?_update, h.row, Option.map_some]
  simp [WorkItemRow.dormant, h.waiting, hnone, hahead]

/-- An item is woken exactly if it has no schedule, and in every ledger a waiting item has one. -/
theorem wakes_iff_unscheduled (h : s.Wakeable now r) :
    (s.Wakes now r ↔ r.nextAttemptAt = none) ∧ (Reachable lib s → ¬ s.Wakes now r) := by
  have hiff : s.Wakes now r ↔ r.nextAttemptAt = none := by
    constructor
    · rintro ⟨s', r', hwake, -⟩
      obtain ⟨r₁, hr₁, hdormant⟩ := Table.hits_iff.mp (wakeWaiting_eq_ok.mp hwake).1
      obtain rfl : r = r₁ := Option.mem_unique h.row hr₁
      simpa [WorkItemRow.dormant, h.waiting] using hdormant
    · intro hnone
      have hhits : s.workItems.hits r.id WorkItemRow.dormant = true :=
        Table.hits_iff.mpr ⟨r, h.row, by simp [WorkItemRow.dormant, h.waiting, hnone]⟩
      refine ⟨_, r.wake now, wakeWaiting_eq_ok.mpr ⟨hhits, rfl⟩, h.find?_wake hnone,
        ⟨_, rfl, Int.le_refl _⟩, ?_⟩
      simp [Store.claimable, WorkItemRow.wake, h.waiting, WorkState.isReady, Store.expireWaits,
        Store.updateItems, h.free]
  refine ⟨hiff, fun hreach hwakes => ?_⟩
  obtain ⟨w, hw, rfl⟩ := Store.exists_work (Table.mem_of_find? h.row)
  have hscheduled := (hreach.sound.works hw).columns.scheduled
  simp [hiff.mp hwakes, h.waiting, WorkState.isReady] at hscheduled

end Wakes

namespace Sample

/-- The interrupted item with its schedule taken away, as no call leaves it. -/
def unscheduled : Store :=
  (after interrupted).updateItems (fun _ => true) (fun r => { r with nextAttemptAt := none })
    (fun _ => rfl)

/-- The only item of a ledger. -/
def onlyItem (s : Store) : Option WorkItemRow := s.workItems.rows.head?

end Sample

open Sample in
/-- Without a schedule the item is woken. -/
theorem unscheduled_wakes :
    ∃ r, onlyItem unscheduled = some r ∧
      unscheduled.Wakes (30 * second) r := by
  have hwakeable : ∃ r, onlyItem unscheduled = some r ∧
      unscheduled.workItems.find? r.id = some r ∧ r.state = .waiting ∧
      (r.waitDeadlineAt.all fun deadline => decide (unixMilli (30 * second) < deadline)) = true ∧
      unscheduled.leases.find? r.serializationKey = none ∧ r.nextAttemptAt = none :=
    ⟨_, rfl, by decide +kernel⟩
  obtain ⟨r, hr, hrow, hwaiting, hahead, hfree, hnone⟩ := hwakeable
  refine ⟨r, hr, (@wakes_iff_unscheduled _ lib _ _ ⟨hrow, hwaiting, ?_, hfree⟩).1.mpr hnone⟩
  exact fun deadline hdeadline =>
    of_decide_eq_true (Option.all_eq_true _ _ |>.mp hahead _ hdeadline)

open Sample in
/-- The interrupted item waits with its deadline ahead and its key free, and cannot be woken. -/
theorem interrupted_not_woken :
    ∃ r, onlyItem (after interrupted) = some r ∧ r.state = .waiting ∧
      (r.waitDeadlineAt.all fun deadline => decide (unixMilli (30 * second) < deadline)) = true ∧
      (after interrupted).leases.find? r.serializationKey = none ∧
      wakeWaiting r.id (30 * second) (after interrupted) =
        .error (Dispatcher.newError "work item is not waiting for an external wakeup") :=
  ⟨_, rfl, by decide +kernel⟩

end SignalPlane.Workledger
