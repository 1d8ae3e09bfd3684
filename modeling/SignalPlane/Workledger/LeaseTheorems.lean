/-
SignalPlane.Workledger.LeaseTheorems — who holds a lease, and which attempts
are open.

`Exclusive` is mutual exclusion: an item is active exactly when one lease
names it, the lease has the item's key and its running attempt, and no two
active items share a key. It holds in every reachable ledger.

`Attended` says that an open attempt always belongs to an item that somebody
will look at again: a running attempt to an active item, a recoverable one to
a waiting item. `Claim` can break it. Its first statement fails every waiting
item whose deadline has passed and leaves the attempts alone; an item that
waits after a restart has a recoverable attempt, and that attempt stays
recoverable for good. `attended_of_sweeps` shows that this is the only way.
-/
import SignalPlane.Workledger.Refinement

namespace SignalPlane.Workledger

open Clock

/-! ## Mutual exclusion -/

/-- The lease table is a lock on serialization keys. -/
structure Store.Exclusive (s : Store) : Prop where
  active_iff : ∀ r ∈ s.workItems.rows,
    r.state = .active ↔ ∃! l, l ∈ s.leases.rows ∧ l.workItemID = r.id
  lease : ∀ r ∈ s.workItems.rows, ∀ l ∈ s.leases.rows, l.workItemID = r.id →
    l.serializationKey = r.serializationKey ∧
      ∃ a ∈ s.executorAttempts.rows, a.id = l.attemptID ∧ a.workItemID = r.id ∧ a.state = .running
  running : ∀ a ∈ s.executorAttempts.rows, a.state = .running →
    ∃ l ∈ s.leases.rows, l.attemptID = a.id
  keys : ∀ r ∈ s.workItems.rows, ∀ r' ∈ s.workItems.rows, r.state = .active →
    r'.state = .active → r.serializationKey = r'.serializationKey → r = r'

section Exclusive

variable {lib : LedgerLib} {s : Store}

/-- The lease of an active item. -/
theorem Store.Sound.leased (hs : s.Sound lib) {r : WorkItemRow} (hr : r ∈ s.workItems.rows)
    (hactive : r.state = .active) :
    ∃ l, l ∈ s.leases.rows ∧ l.workItemID = r.id ∧ l.serializationKey = r.serializationKey := by
  obtain ⟨w, hw, rfl⟩ := exists_work hr
  obtain ⟨earlier, last, now, -, -, -, hleases⟩ := (hs.works hw).shape.leased hactive
  have hmem : w.lease last.id now ∈ s.leasesOf w.item.id := by
    rw [← (work_eq_some.mp hw).2.2.2, hleases]
    exact List.mem_singleton_self _
  exact ⟨_, (mem_leasesOf.mp hmem).1, rfl, rfl⟩

/-- Two leases of an item are one. -/
theorem Store.Sound.lease_unique (hs : s.Sound lib) {l l' : LeaseRow} (hl : l ∈ s.leases.rows)
    (hl' : l' ∈ s.leases.rows) (hitem : l'.workItemID = l.workItemID) : l' = l := by
  obtain ⟨w, last, hw, -, hleases, -⟩ := hs.lease hl
  have hmem : l' ∈ w.leases := by
    rw [(work_eq_some.mp hw).2.2.2]
    exact mem_leasesOf.mpr ⟨hl', hitem⟩
  rw [hleases] at hmem
  exact List.mem_singleton.mp hmem

theorem exclusive_of_reachable (h : Reachable lib s) : s.Exclusive := by
  have hs := h.sound
  have hitem : ∀ {r l}, r ∈ s.workItems.rows → l ∈ s.leases.rows → l.workItemID = r.id →
      ∃ w last, s.work r.id = some w ∧ w.item = r ∧ r.state = .active ∧ last ∈ w.attempts ∧
        last.state = .running ∧ l.attemptID = last.id ∧
        l.serializationKey = r.serializationKey := by
    intro r l hr hl hid
    obtain ⟨w, last, hw, hactive, -, hlast, hrunning, hattempt, hkey⟩ := hs.lease hl
    rw [hid] at hw
    obtain ⟨v, hv, hvr⟩ := Store.exists_work hr
    rw [hw] at hv
    cases hv
    exact ⟨w, last, hw, hvr, hvr ▸ hactive, hlast, hrunning, hattempt, hvr ▸ hkey⟩
  constructor
  · intro r hr
    constructor
    · intro hactive
      obtain ⟨l, hl, hid, -⟩ := hs.leased hr hactive
      exact ⟨l, ⟨hl, hid⟩, fun l' ⟨hl', hid'⟩ => hs.lease_unique hl hl' (hid'.trans hid.symm)⟩
    · rintro ⟨l, ⟨hl, hid⟩, -⟩
      obtain ⟨-, -, -, -, hactive, -⟩ := hitem hr hl hid
      exact hactive
  · intro r hr l hl hid
    obtain ⟨w, last, hw, -, -, hlast, hrunning, hattempt, hkey⟩ := hitem hr hl hid
    rw [(Store.work_eq_some.mp hw).2.2.1] at hlast
    obtain ⟨hlast, hown⟩ := Store.mem_attemptsOf.mp hlast
    exact ⟨hkey, last, hlast, hattempt.symm, hown, hrunning⟩
  · intro a ha hrunning
    obtain ⟨w, hw⟩ := Store.work_isSome (hs.linked.attempts a ha)
    have hmem := Store.mem_attempts ha hw
    have hshape := (hs.works hw).shape
    have hactive : w.item.state = .active := by
      by_contra hne
      exact (hshape.idle hne).2 a hmem hrunning
    obtain ⟨earlier, last, now, hattempts, hclosed, -, hleases⟩ := hshape.leased hactive
    have hlast : a = last :=
      Work.eq_last hclosed (hattempts ▸ hmem) (Work.isOpen_of_running hrunning)
    have hlease : w.lease last.id now ∈ s.leasesOf a.workItemID := by
      rw [← (Store.work_eq_some.mp hw).2.2.2, hleases]
      exact List.mem_singleton_self _
    exact ⟨_, (Store.mem_leasesOf.mp hlease).1, by rw [hlast]; rfl⟩
  · intro r hr r' hr' hactive hactive' hkey
    obtain ⟨l, hl, hid, hlkey⟩ := hs.leased hr hactive
    obtain ⟨l', hl', hid', hlkey'⟩ := hs.leased hr' hactive'
    -- The key is the primary key of the lease table.
    have hsame : some l = some l' := by
      rw [← Table.find?_key hl, ← Table.find?_key hl', hlkey, hlkey', hkey]
    cases hsame
    have hrow : some r = some r' := by
      rw [← Table.find?_key hr, ← Table.find?_key hr', ← hid, ← hid']
    exact Option.some.inj hrow

end Exclusive

namespace Sample

/-- Two objects: the first is claimed, the second waits for its claim. -/
def claimedOne : List Op :=
  [activate, deliver 1 (lit "octo/repo") (lit "1") (lit "a") 0,
    deliver 2 (lit "octo/repo") (lit "2") (lit "a") 0, claim 1 0]

end Sample

open Sample in
theorem exclusive_claimed :
    ((after claimedOne).workItems.rows.map WorkItemRow.state = [.active, .admitted] ∧
      (after claimedOne).leases.rows.length = 1) ∧
    (after claimedOne).Exclusive :=
  ⟨by decide +kernel, exclusive_of_reachable (reachable_after claimedOne)⟩

/-! ## Open attempts -/

/-- Every open attempt belongs to an item that is worked on again. -/
structure Store.Attended (s : Store) : Prop where
  running : ∀ a ∈ s.executorAttempts.rows, a.state = .running →
    ∃ r ∈ s.workItems.rows, r.id = a.workItemID ∧ r.state = .active
  recoverable : ∀ a ∈ s.executorAttempts.rows, a.state = .recoverable →
    ∃ r ∈ s.workItems.rows, r.id = a.workItemID ∧ r.state = .waiting
  ended : ∀ r ∈ s.workItems.rows, r.state.isTerminal = true →
    ∀ a ∈ s.executorAttempts.rows, a.workItemID = r.id →
      a.state ≠ .running ∧ a.state ≠ .recoverable

/-- No wait that the call expires has an attempt to take up again. -/
def Op.SweepsClosed (s : Store) : Op → Prop
  | .claim _ _ now => ∀ r ∈ s.workItems.rows, r.waitExpired now = true →
      ∀ a ∈ s.executorAttempts.rows, a.workItemID = r.id → a.state ≠ .recoverable
  | _ => True

instance (s : Store) (op : Op) : Decidable (op.SweepsClosed s) := by
  cases op <;> unfold Op.SweepsClosed <;> infer_instance

namespace Work

/-- Failed work has no open attempt. -/
def FailedClosed (w : Work) : Prop := w.item.state = .failed → Closed w.attempts

variable {lib : LedgerLib}

/-- Only an expired wait can leave failed work with an open attempt. -/
theorem FailedClosed.step {k : Kind} {w w' : Work} (h : Step lib k w w') (hw : w.Shape)
    (hclosed : w.FailedClosed)
    (hexpire : ∀ now, k = .expire now → w.item.waitExpired now = true →
      ∀ a ∈ w.attempts, a.state ≠ .recoverable) : w'.FailedClosed := by
  intro hfailed
  cases h with
  | supersede | start => cases hfailed
  | expire now hexpired =>
    have hwaiting : w.item.state = .waiting := by
      simp only [WorkItemRow.waitExpired, Bool.and_eq_true, decide_eq_true_eq] at hexpired
      exact hexpired.1
    obtain ⟨-, hc | ⟨-, earlier, last, hl, -, hlast⟩⟩ := hw.ready (by rw [hwaiting]; rfl)
    · exact hc
    · exact absurd hlast (hexpire now rfl hexpired last (by simp [hl]))
  | reclaim attempt now hready hmem hstate =>
    obtain ⟨-, hc | ⟨hwaiting, -⟩⟩ := hw.ready hready
    · have := hc attempt hmem
      rw [isOpen_of_recoverable hstate] at this
      cases this
    · rw [reclaim_item hwaiting] at hfailed
      cases hfailed
  | settle attempt terms settlement result now hmem hrunning hactive _ hsettle =>
    exact (hw.closed_settle hmem hrunning hactive hsettle).1
  | close attempt result now _ _ hsuperseded =>
    have hstate : w.item.state = .failed := hfailed
    rw [hsuperseded] at hstate
    cases hstate
  | recover now =>
    by_cases hactive : w.item.state = .active
    · rw [recover_item_of_active hactive] at hfailed
      cases hfailed
    · rw [recover_item now hactive] at hfailed
      rw [recover_attempts now hactive, map_rewrite_eq_self fun a _ => by simp [hfailed]]
      exact hclosed hfailed
  | wake | resolve | correlate => exact hclosed hfailed

/-- Ended work has no open attempt, if failed work has none. -/
theorem FailedClosed.ended {w : Work} (h : w.FailedClosed) (hw : w.Shape)
    (hterminal : w.item.state.isTerminal = true) : Closed w.attempts := by
  unfold Shape at hw
  cases hs : w.item.state <;>
    simp only [hs, WorkState.isTerminal, Bool.false_eq_true] at hw hterminal
  case failed => exact h hs
  case completed => exact hw.1
  case superseded => exact hw.1
  case deadLetter => exact hw.1

end Work

section Attended

variable {lib : LedgerLib} {s s' : Store}

/-- On a sound store the three parts of `Attended` come down to failed work. -/
theorem Store.Sound.attended_iff (hs : s.Sound lib) :
    s.Attended ↔ ∀ id w, s.work id = some w → w.FailedClosed := by
  constructor
  · intro h id w hw hfailed a ha
    rw [Work.isOpen_eq_false]
    obtain ⟨hitem, -, hattempts, -⟩ := work_eq_some.mp hw
    obtain ⟨ha, hid⟩ := mem_attemptsOf.mp (hattempts ▸ ha)
    exact h.ended w.item (Table.mem_of_find? hitem) (by rw [hfailed]; rfl) a ha
      (hid.trans (id_of_work hw).symm)
  · intro h
    -- The work an attempt belongs to, and the attempt in it.
    have hown : ∀ a ∈ s.executorAttempts.rows, ∃ w, s.work a.workItemID = some w ∧
        a ∈ w.attempts ∧ w.item ∈ s.workItems.rows ∧ w.item.id = a.workItemID := by
      intro a ha
      obtain ⟨w, hw⟩ := work_isSome (hs.linked.attempts a ha)
      exact ⟨w, hw, mem_attempts ha hw, Table.mem_of_find? (work_eq_some.mp hw).1, id_of_work hw⟩
    refine ⟨fun a ha hrunning => ?_, fun a ha hrecoverable => ?_, fun r hr hterminal a ha hid => ?_⟩
    · obtain ⟨w, hw, hmem, hrow, hid⟩ := hown a ha
      refine ⟨w.item, hrow, hid, ?_⟩
      by_contra hactive
      exact ((hs.works hw).shape.idle hactive).2 a hmem hrunning
    · obtain ⟨w, hw, hmem, hrow, hid⟩ := hown a ha
      refine ⟨w.item, hrow, hid, ?_⟩
      refine ((hs.works hw).shape.recoverable hmem hrecoverable).resolve_right fun hfailed => ?_
      exact (Work.isOpen_eq_false.mp (h _ w hw hfailed a hmem)).2 hrecoverable
    · obtain ⟨w, hw, hmem, -, -⟩ := hown a ha
      rw [hid] at hw
      obtain ⟨v, hv, rfl⟩ := exists_work hr
      rw [hw] at hv
      cases hv
      exact Work.isOpen_eq_false.mp ((h _ w hw).ended (hs.works hw).shape hterminal a hmem)

/-- A call that sweeps no open attempt keeps failed work closed. -/
theorem Op.SweepsClosed.failedClosed {op : Op} (hs : s.Sound lib) (hop : op.SweepsClosed s)
    (h : op.exec lib s = .ok s') (hclosed : ∀ id w, s.work id = some w → w.FailedClosed) :
    ∀ id w, s'.work id = some w → w.FailedClosed := by
  intro id w' hw'
  obtain ⟨k, hmay, hevolves⟩ := Op.evolves hs h id
  generalize hv : s.work id = v at hevolves
  rw [hw'] at hevolves
  cases hevolves with
  | same => exact hclosed id w' hv
  | admitted snapshot e binding token now _ _ => exact fun hfailed => by cases hfailed
  | @step k w _ hstep =>
    refine (hclosed id w hv).step hstep (hs.works hv).shape ?_
    rintro now rfl hexpired a ha
    obtain ⟨tie, token, rfl⟩ := hmay.expire
    obtain ⟨hitem, -, hattempts, -⟩ := Store.work_eq_some.mp hv
    obtain ⟨ha, hid⟩ := Store.mem_attemptsOf.mp (hattempts ▸ ha)
    exact hop w.item (Table.mem_of_find? hitem) hexpired a ha
      (hid.trans (Store.id_of_work hv).symm)

/-- A claim that sweeps an item with an open attempt leaves the attempt open. -/
theorem Op.not_attended {op : Op} (hop : ¬ op.SweepsClosed s) (h : op.exec lib s = .ok s') :
    ¬ s'.Attended := by
  cases op with
  | claim tie token now =>
    simp only [Op.SweepsClosed, not_forall, Decidable.not_not] at hop
    obtain ⟨r, hr, hexpired, a, ha, hid, hrecoverable⟩ := hop
    obtain ⟨claimed, h⟩ := map_snd_eq_ok.mp h
    obtain ⟨w, hw, rfl⟩ := Store.exists_work hr
    have hw' := (claim_expires h hw hexpired).1
    have hmem : a ∈ w.attempts := Store.mem_attempts ha (hid ▸ hw)
    obtain ⟨hitem, -, hattempts, -⟩ := Store.work_eq_some.mp hw'
    obtain ⟨ha', -⟩ := Store.mem_attemptsOf.mp (hattempts ▸ hmem)
    intro hattended
    exact (hattended.ended _ (Table.mem_of_find? hitem) rfl a ha' hid).2 hrecoverable
  | _ => exact absurd trivial hop

theorem attended_of_sweeps (h : ReachableBy lib Op.SweepsClosed s) :
    s.Attended ∧ ∀ (op : Op) (s' : Store), op.exec lib s = .ok s' →
      (s'.Attended ↔ op.SweepsClosed s) := by
  have hinv : s.Sound lib ∧ ∀ id w, s.work id = some w → w.FailedClosed := by
    refine ReachableBy.invariant
      (I := fun s => s.Sound lib ∧ ∀ id w, s.work id = some w → w.FailedClosed)
      ⟨Store.sound_empty lib, fun _ _ hw => by cases hw⟩ ?_ h
    rintro s op s' ⟨hs, hclosed⟩ hop hexec
    exact ⟨Op.sound hs hexec, hop.failedClosed hs hexec hclosed⟩
  obtain ⟨hs, hclosed⟩ := hinv
  refine ⟨hs.attended_iff.mpr hclosed, fun op s' hexec => ⟨fun hattended => ?_, fun hop => ?_⟩⟩
  · by_contra hop
    exact Op.not_attended hop hexec hattended
  · exact (Op.sound hs hexec).attended_iff.mpr (hop.failedClosed hs hexec hclosed)

end Attended

namespace Sample

/-- The first claim after the deadline of the wait. -/
def lateClaim : Op := claim 3 hour

end Sample

open Sample in
/-- Up to the late claim all is well, and the late claim is a call that breaks it. -/
theorem attended_interrupted :
    ((after interrupted).executorAttempts.rows.map ExecutorAttemptRow.state =
        [.retryScheduled, .recoverable] ∧
      ¬ lateClaim.SweepsClosed (after interrupted)) ∧
    (after interrupted).Attended :=
  ⟨by decide +kernel, (attended_of_sweeps (ReachableBy.run .empty (by decide +kernel))).1⟩

open Sample in
/-- The claim after the deadline fails the item, and its attempt stays recoverable. -/
theorem not_attended_after_deadline :
    Reachable lib (after (interrupted ++ [lateClaim])) ∧
      ¬ (after (interrupted ++ [lateClaim])).Attended := by
  refine ⟨reachable_after _, fun h => ?_⟩
  have hopen : ∃ r ∈ (after (interrupted ++ [lateClaim])).workItems.rows,
      r.state.isTerminal = true ∧
      ∃ a ∈ (after (interrupted ++ [lateClaim])).executorAttempts.rows,
        a.workItemID = r.id ∧ a.state = .recoverable := by
    decide +kernel
  obtain ⟨r, hr, hterminal, a, ha, hid, hstate⟩ := hopen
  exact (h.ended r hr hterminal a ha hid).2 hstate

end SignalPlane.Workledger
