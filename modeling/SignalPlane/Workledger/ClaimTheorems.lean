/-
SignalPlane.Workledger.ClaimTheorems — claims and the attempts they hand out.

The idempotency key of an attempt joins the item's id, the digest of its
snapshot and the number of the attempt with colons. An id and a digest contain
no colon, so the key gives all three back (`executorKey_inj`). With the numbers
of `Work.Recorded` this makes keys unique over the whole ledger.

It also makes `Claim` total: whatever the ledger holds, a claim with a fresh
token breaks no constraint (`claim_total`). A claim that finds an interrupted
attempt hands out that attempt, and any other creates the next
(`Store.History`). A waiting item whose deadline has passed is failed by the
first claim after it (`Store.Deadlines`).
-/
import SignalPlane.Workledger.RouteTheorems

namespace SignalPlane.Workledger

open Clock

variable {id : GoString} {a : ExecutorAttemptRow} {now : Int} {tie : Nat}

/-! ## Idempotency keys -/

/-- A text without the separator. -/
def ColonFree (s : GoString) : Prop := ∀ b ∈ s, decide (b ≠ 58) = true

theorem ColonFree.append {s t : GoString} (hs : ColonFree s) (ht : ColonFree t) :
    ColonFree (s ++ t) :=
  fun b hb => (List.mem_append.mp hb).elim (hs b) (ht b)

theorem colonFree_hexEncode (bytes : List UInt8) : ColonFree (GoString.hexEncode bytes) := by
  have hbyte : ∀ b : UInt8, GoString.isHex b = true → decide (b ≠ 58) = true := by
    decide +kernel
  exact fun b hb => hbyte b (GoString.hexEncode_isHex hb)

theorem colonFree_decimal (n : Int) : ColonFree (GoString.decimal n) := by
  have hbyte : ∀ b : UInt8, GoString.isDecimalByte b = true → decide (b ≠ 58) = true := by
    decide +kernel
  exact fun b hb => hbyte b (GoString.isDecimalByte_of_mem_decimal hb)

theorem colonFree_work (token : Token) : ColonFree (newID "work" token) := by
  have hword : ColonFree (lit "work" ++ lit "-") := by
    unfold ColonFree
    decide +kernel
  cases token with
  | random value => exact hword.append (colonFree_hexEncode value)
  | clock unixNano => exact hword.append (colonFree_decimal unixNano)

/-- An idempotency key gives back what it was made of. -/
theorem executorKey_inj {id' digest digest' : GoString} {n n' : Nat} (hid : ColonFree id)
    (hid' : ColonFree id') (hdigest : ColonFree digest) (hdigest' : ColonFree digest')
    (h : executorKey id digest n = executorKey id' digest' n') :
    id = id' ∧ digest = digest' ∧ n = n' := by
  have hcolon : lit ":" = [58] := by decide
  have hsep : decide ((58 : UInt8) ≠ 58) = false := by decide
  simp only [executorKey, hcolon, List.append_assoc, List.append_cancel_left_eq,
    List.singleton_append] at h
  obtain ⟨hitem, hrest⟩ := GoString.append_sep_inj hsep hid hid' h
  obtain ⟨hsame, hnumber⟩ := GoString.append_sep_inj hsep hdigest hdigest' hrest
  exact ⟨hitem, hsame, by simpa using GoString.decimal_injective hnumber⟩

section Keys

variable {lib : LedgerLib} {s : Store}

/-- The items of a ledger have ids that `newID` made. -/
theorem Reachable.colonFree (h : Reachable lib s) {w : Work} (hw : s.work id = some w) :
    ColonFree w.item.id := by
  refine Reachable.works (P := fun w => ColonFree w.item.id) ?_ ?_ h hw
  · intro snapshot e binding token now
    exact colonFree_work token
  · intro k w w' _ hstep hfree
    have hid : w'.item.id = w.item.id := congrArg ItemIdentity.id hstep.identity.1
    rwa [hid]

/-- What keys are made of: of items with plain ids and snapshots with plain digests. -/
structure Store.Keyed (lib : LedgerLib) (s : Store) : Prop where
  sound : s.Sound lib
  items : ∀ {id w}, s.work id = some w → ColonFree w.item.id
  digests : ∀ {id w t}, s.work id = some w → w.terms = some t → ColonFree t.digest

theorem Reachable.keyed (h : Reachable lib s) : s.Keyed lib where
  sound := h.sound
  items := h.colonFree
  digests := by
    intro id w t hw ht
    obtain ⟨q, hq, hterms⟩ := h.sound.snapshot hw
    rw [hterms] at ht
    cases ht
    obtain ⟨bytes, hbytes⟩ := h.routed.digest q (Table.mem_of_find? hq)
    have hdigest : q.terms.digest = GoString.hexEncode bytes := hbytes
    rw [hdigest]
    exact colonFree_hexEncode bytes

/-- The sweep of a claim keeps what keys are made of. -/
theorem Store.Keyed.expireWaits (hs : s.Keyed lib) (now : Int) :
    (s.expireWaits now).Keyed lib := by
  have hback : ∀ {id w'}, (s.expireWaits now).work id = some w' → ∃ w, s.work id = some w ∧
      w'.item.id = w.item.id ∧ w'.terms = w.terms := by
    intro id w' hw'
    rw [Store.work_expireWaits, Option.map_eq_some_iff] at hw'
    obtain ⟨w, hw, rfl⟩ := hw'
    exact ⟨w, hw, congrArg ItemIdentity.id (rewrite_keeps (fun r => r.identity_expire now) w.item),
      rfl⟩
  refine ⟨⟨?_, hs.sound.linked.expireWaits now⟩, ?_, ?_⟩
  · intro id w' hw'
    obtain ⟨k, -, hevolves⟩ := expireWaits_evolves lib s now id
    exact hevolves.valid (fun _ hv => hs.sound.works hv) w' hw'
  · intro id w' hw'
    obtain ⟨w, hw, hid, -⟩ := hback hw'
    rw [hid]
    exact hs.items hw
  · intro id w' t hw' ht
    obtain ⟨w, hw, -, hterms⟩ := hback hw'
    exact hs.digests hw (hterms ▸ ht)

/-- The key of an attempt, and the work it belongs to. -/
theorem Store.Keyed.attempt (hs : s.Keyed lib) (ha : a ∈ s.executorAttempts.rows) :
    ∃ (w : Work) (t : Terms), s.work a.workItemID = some w ∧ a ∈ w.attempts ∧
      w.item.id = a.workItemID ∧ ColonFree w.item.id ∧ ColonFree t.digest ∧
      a.idempotencyKey = executorKey w.item.id t.digest a.attemptNumber := by
  obtain ⟨w, hw⟩ := work_isSome (hs.sound.linked.attempts a ha)
  obtain ⟨⟨t, ht, -, -, hall⟩, -⟩ := (hs.sound.works hw).recorded
  have hmem := mem_attempts ha hw
  exact ⟨w, t, hw, hmem, id_of_work hw, hs.items hw, hs.digests hw ht,
    (hall a.identity (List.mem_map_of_mem hmem)).key⟩

end Keys

/-! ## Numbers -/

namespace Work

variable {lib : LedgerLib} {w : Work}

theorem Valid.numbered (h : w.Valid lib) :
    w.attempts.map ExecutorAttemptRow.attemptNumber = List.range' 1 w.attempts.length := by
  have := h.recorded.numbered
  simpa [List.map_map, Function.comp_def, ExecutorAttemptRow.identity] using this

/-- A number names one attempt. -/
theorem Valid.eq_of_number (h : w.Valid lib) {b : ExecutorAttemptRow} (ha : a ∈ w.attempts)
    (hb : b ∈ w.attempts) (hnumber : a.attemptNumber = b.attemptNumber) : a = b := by
  refine List.inj_on_of_nodup_map ?_ ha hb hnumber
  rw [h.numbered]
  exact List.nodup_range'

theorem Valid.number_le (h : w.Valid lib) (ha : a ∈ w.attempts) :
    a.attemptNumber ≤ w.attempts.length := by
  have hmem : a.attemptNumber ∈ List.range' 1 w.attempts.length :=
    h.numbered ▸ List.mem_map_of_mem ha
  simp only [List.mem_range'_1] at hmem
  omega

/-- An open attempt is the last one. -/
theorem Shape.open_last (h : w.Shape) (ha : a ∈ w.attempts) (hopen : a.isOpen = true) :
    w.attempts.getLast? = some a := by
  have hclosed : ¬ Closed w.attempts := fun hc => by simp [hc a ha] at hopen
  have hends : ∀ {state}, EndsIn state w.attempts → w.attempts.getLast? = some a := by
    rintro state ⟨earlier, last, hl, hearlier, -⟩
    rw [hl] at ha ⊢
    rw [eq_last hearlier ha hopen, List.getLast?_concat]
  unfold Shape at h
  cases hs : w.item.state <;> simp only [hs] at h
  case admitted =>
    rw [h.1] at ha
    cases ha
  case active =>
    obtain ⟨earlier, last, -, hl, hearlier, hlast, -⟩ := h
    exact hends ⟨earlier, last, hl, hearlier, hlast⟩
  case waiting => exact hends (h.1.resolve_left hclosed)
  case failed => exact hends (h.1.resolve_left hclosed)
  all_goals exact absurd h.1 hclosed

end Work

section Keys

variable {lib : LedgerLib} {s : Store}

theorem Store.Keyed.eq_of_key (hs : s.Keyed lib) {b : ExecutorAttemptRow}
    (ha : a ∈ s.executorAttempts.rows) (hb : b ∈ s.executorAttempts.rows)
    (hkey : a.idempotencyKey = b.idempotencyKey) : a = b := by
  obtain ⟨w, t, hw, haw, hid, hfree, hdigest, hakey⟩ := hs.attempt ha
  obtain ⟨w', t', hw', hbw, hid', hfree', hdigest', hbkey⟩ := hs.attempt hb
  rw [hakey, hbkey] at hkey
  obtain ⟨hitem, -, hnumber⟩ := executorKey_inj hfree hfree' hdigest hdigest' hkey
  rw [hid, hid'] at hitem
  rw [hitem, hw'] at hw
  cases hw
  exact (hs.sound.works hw').eq_of_number haw hbw hnumber

end Keys

/-! ## Claims do not fail -/

section Total

variable {lib : LedgerLib} {s : Store} {w : Work} {token : Token}

/-- An item that is ready holds no lease. -/
theorem Store.Sound.not_leased (hs : s.Sound lib) (hw : s.work id = some w)
    (hready : w.item.state.isReady = true) : ∀ l ∈ s.leases.rows, l.workItemID ≠ w.item.id := by
  intro l hl hid
  obtain ⟨v, last, hv, hactive, -⟩ := hs.lease hl
  rw [hid, id_of_work hw, hw] at hv
  cases hv
  rw [hactive] at hready
  cases hready

/-- No lease names an attempt that is not running. -/
theorem Store.Sound.lease_running (hs : s.Sound lib) {l : LeaseRow} (hl : l ∈ s.leases.rows) :
    ∃ a, s.executorAttempts.find? l.attemptID = some a ∧ a.state = .running := by
  obtain ⟨w, last, hw, -, -, hlast, hrunning, hid, -⟩ := hs.lease hl
  rw [(work_eq_some.mp hw).2.2.1] at hlast
  exact ⟨last, hid ▸ Table.find?_key (mem_attemptsOf.mp hlast).1, hrunning⟩

/-- The next attempt of an item breaks no constraint. -/
theorem Store.Keyed.attemptFree (hs : s.Keyed lib) (hw : s.work id = some w)
    {snapshot : RouteSnapshotRow} (hterms : w.terms = some snapshot.terms)
    (hfresh : s.executorAttempts.find? (newID "attempt" token) = none) :
    s.AttemptFree (s.nextAttempt w.item snapshot token now) := by
  have hid := id_of_work hw
  have hnumber : ∀ a ∈ s.executorAttempts.rows, a.workItemID = w.item.id →
      a.attemptNumber ≠ (s.attemptsOf w.item.id).length + 1 := by
    intro a ha hitem heq
    rw [hid] at hitem
    have hle := (hs.sound.works hw).number_le (mem_attempts ha (hitem ▸ hw))
    rw [(work_eq_some.mp hw).2.2.1, ← hid] at hle
    omega
  refine ⟨hfresh, fun a ha hkey => ?_, fun a ha ⟨hitem, heq⟩ => hnumber a ha hitem heq⟩
  obtain ⟨v, t, hv, -, hvid, hfree, hdigest, hakey⟩ := hs.attempt ha
  have hkey' : executorKey v.item.id t.digest a.attemptNumber =
      executorKey w.item.id snapshot.terms.digest ((s.attemptsOf w.item.id).length + 1) :=
    hakey.symm.trans hkey
  obtain ⟨hitem, -, heq⟩ :=
    executorKey_inj hfree (hs.items hw) hdigest (hs.digests hw hterms) hkey'
  exact hnumber a ha (hvid.symm.trans hitem) heq

theorem Store.Keyed.claimItem_total (hs : s.Keyed lib) (now : Int) (hw : s.work w.item.id = some w)
    (hready : w.item.state.isReady = true)
    (hkey : s.leases.find? w.item.serializationKey = none)
    (hfresh : s.executorAttempts.find? (newID "attempt" token) = none) :
    ∃ c s', claimItem w.item token now s = .ok (c, s') := by
  have hitem := hs.sound.not_leased hw hready
  unfold claimItem
  cases hattempt : s.recoverableAttempt w.item.id with
  | some attempt =>
    obtain ⟨hmem, -, hstate⟩ := recoverableAttempt_eq_some hattempt
    refine ⟨_, _, reclaim_eq_ok.mpr ⟨⟨hkey, hitem, fun l hl hid => ?_⟩, rfl, rfl⟩⟩
    obtain ⟨a, ha, hrunning⟩ := hs.sound.lease_running hl
    rw [hid, Table.find?_key hmem] at ha
    cases ha
    rw [hstate] at hrunning
    cases hrunning
  | none =>
    obtain ⟨snapshot, hsnapshot, hterms⟩ := hs.sound.snapshot hw
    refine ⟨_, _, startAttempt_eq_ok.mpr ⟨snapshot, hsnapshot, hs.attemptFree hw hterms hfresh,
      ⟨hkey, hitem, fun l hl hid => ?_⟩, rfl, rfl⟩⟩
    obtain ⟨a, ha, -⟩ := hs.sound.lease_running hl
    rw [hid] at ha
    cases ha.symm.trans hfresh

/-- A claim with a fresh token commits. -/
theorem claim_total (h : Reachable lib s) (tie : Nat) (now : Int)
    (hfresh : s.executorAttempts.find? (newID "attempt" token) = none) :
    ∃ claimed s', claim tie token now s = .ok (claimed, s') := by
  cases hdue : (s.expireWaits now).nextDue tie now with
  | none => exact ⟨none, _, claim_eq_ok.mpr (.inl ⟨hdue, rfl, rfl⟩)⟩
  | some row =>
    obtain ⟨hready, w, rfl, -, hw⟩ := work_of_nextDue hdue
    have hclaimable := (List.mem_filter.mp (mem_of_pick hdue)).2
    simp only [Store.claimable, Bool.and_eq_true, Option.isNone_iff_eq_none] at hclaimable
    obtain ⟨c, s', hclaim⟩ :=
      (h.keyed.expireWaits now).claimItem_total now hw hready hclaimable.2 hfresh
    exact ⟨some c, s', claim_eq_ok.mpr (.inr ⟨w.item, c, hdue, rfl, hclaim⟩)⟩

end Total

/-! ## The history of attempts -/

/-- The attempts of every item, and what a claim adds to them. -/
structure Store.History (s : Store) : Prop where
  /-- The attempts of an item are numbered in the order of their creation. -/
  numbered : ∀ id, (s.attemptsOf id).map ExecutorAttemptRow.attemptNumber =
    List.range' 1 (s.attemptsOf id).length
  /-- An attempt that is running or recoverable is the last of its item. -/
  last : ∀ id, ∀ a ∈ s.attemptsOf id, a.state = .running ∨ a.state = .recoverable →
    (s.attemptsOf id).getLast? = some a
  /-- A claim of an item whose last attempt is recoverable returns that attempt. -/
  resumed : ∀ tie token now s' item attempt a,
    claim tie token now s = .ok (some (item, attempt), s') →
    (s.attemptsOf item.id).getLast? = some a → a.state = .recoverable →
      attempt = { a.scan with state := .running } ∧
        (s'.attemptsOf item.id).map ExecutorAttemptRow.identity =
          (s.attemptsOf item.id).map ExecutorAttemptRow.identity
  /-- Any other claim creates the next attempt. -/
  created : ∀ tie token now s' item attempt,
    claim tie token now s = .ok (some (item, attempt), s') →
    (∀ a, (s.attemptsOf item.id).getLast? = some a → a.state ≠ .recoverable) →
      ∃ a, s'.attemptsOf item.id = s.attemptsOf item.id ++ [a] ∧ a.state = .running ∧
        a.attemptNumber = (s.attemptsOf item.id).length + 1 ∧
        attempt = { a.scan with createdAt := now }
  /-- No two attempts share a key. -/
  keys : ∀ a ∈ s.executorAttempts.rows, ∀ b ∈ s.executorAttempts.rows,
    a.idempotencyKey = b.idempotencyKey → a = b

section History

variable {lib : LedgerLib} {s s' : Store}

/-- An item that is not there has no attempts. -/
theorem Store.Sound.attempts_cases (hs : s.Sound lib) (id : GoString) :
    s.attemptsOf id = [] ∨ ∃ w, s.work id = some w ∧ w.attempts = s.attemptsOf id := by
  cases hw : s.work id with
  | none => exact .inl (hs.linked.none_of_fresh (work_eq_none.mp hw)).1
  | some w => exact .inr ⟨w, rfl, (work_eq_some.mp hw).2.2.1⟩

/-- The attempts of an item as its work has them. -/
theorem attemptsOf_of_work {w : Work} (h : s.work id = some w) : s.attemptsOf id = w.attempts :=
  (Store.work_eq_some.mp h).2.2.1.symm

theorem claim_resumed (h : Reachable lib s) {token : Token} {item : WorkItem}
    {attempt : ExecutorAttempt} (hclaim : claim tie token now s = .ok (some (item, attempt), s'))
    (hlast : (s.attemptsOf item.id).getLast? = some a) (hstate : a.state = .recoverable) :
    attempt = { a.scan with state := .running } ∧
      (s'.attemptsOf item.id).map ExecutorAttemptRow.identity =
        (s.attemptsOf item.id).map ExecutorAttemptRow.identity := by
  obtain ⟨w, rfl, hready, hw, hw', hitem⟩ := claim_some hclaim
  have hid : (w.item.claimedItem now).id = w.item.id := rfl
  rw [hid, attemptsOf_of_work hw] at hlast ⊢
  have hmem : a ∈ w.attempts := List.mem_of_getLast? hlast
  rcases claimItem_work hready hw' rfl hitem with ⟨b, hb, hbstate, rfl, hs'⟩ | ⟨hclosed, -⟩
  · have hlast' := (h.sound.works hw).shape.open_last hb (Work.isOpen_of_recoverable hbstate)
    rw [hlast] at hlast'
    cases hlast'
    rw [attemptsOf_of_work hs']
    exact ⟨rfl, map_rewrite_keeps (fun a => a.identity_restart now) w.attempts⟩
  · exact absurd hstate (hclosed a hmem)

theorem claim_created (h : Reachable lib s) {token : Token} {item : WorkItem}
    {attempt : ExecutorAttempt} (hclaim : claim tie token now s = .ok (some (item, attempt), s'))
    (hlast : ∀ a, (s.attemptsOf item.id).getLast? = some a → a.state ≠ .recoverable) :
    ∃ a, s'.attemptsOf item.id = s.attemptsOf item.id ++ [a] ∧ a.state = .running ∧
      a.attemptNumber = (s.attemptsOf item.id).length + 1 ∧
      attempt = { a.scan with createdAt := now } := by
  obtain ⟨w, rfl, hready, hw, hw', hitem⟩ := claim_some hclaim
  have hid : (w.item.claimedItem now).id = w.item.id := rfl
  rw [hid, attemptsOf_of_work hw] at hlast ⊢
  rcases claimItem_work hready hw' rfl hitem with ⟨b, hb, hbstate, -, -⟩ |
    ⟨-, -, snapshot, operation, -, rfl, hs'⟩
  · have hopen := Work.isOpen_of_recoverable hbstate
    exact absurd hbstate (hlast b ((h.sound.works hw).shape.open_last hb hopen))
  · rw [attemptsOf_of_work hs']
    exact ⟨_, rfl, rfl, rfl, rfl⟩

theorem history_of_reachable (h : Reachable lib s) : s.History where
  numbered := by
    intro id
    rcases h.sound.attempts_cases id with hnone | ⟨w, hw, hattempts⟩
    · rw [hnone]
      rfl
    · rw [← hattempts]
      exact (h.sound.works hw).numbered
  last := by
    intro id a ha hopen
    rcases h.sound.attempts_cases id with hnone | ⟨w, hw, hattempts⟩
    · rw [hnone] at ha
      cases ha
    · rw [← hattempts] at ha ⊢
      exact (h.sound.works hw).shape.open_last ha
        (hopen.elim Work.isOpen_of_running Work.isOpen_of_recoverable)
  resumed := fun _ _ _ _ _ _ _ hclaim hlast hstate => claim_resumed h hclaim hlast hstate
  created := fun _ _ _ _ _ _ hclaim hlast => claim_created h hclaim hlast
  keys := fun _ ha _ hb hkey => h.keyed.eq_of_key ha hb hkey

end History

open Sample in
/-- The next claim takes up attempt 2 again. -/
theorem history_interrupted :
    ((Workledger.claim 0 (token 3) (30 * second)
        (after interrupted)).toOption.any fun answer => answer.1.any fun claimed =>
          decide (claimed.2.id = attemptID 2 ∧ claimed.2.attemptNumber = 2)) = true ∧
    (after interrupted).History :=
  ⟨by decide +kernel, history_of_reachable (reachable_after interrupted)⟩

/-! ## Wait deadlines -/

/-- The deadline a waiting outcome asks for. -/
def ExecutorResult.deadline (result : ExecutorResult) (now : Int) : Int :=
  unixMilli (result.deadlineAt.getD (now + durableWaitDeadline))

theorem settle_waiting {lib : LedgerLib} {retry : RetryPolicy} {number : Nat}
    {result : ExecutorResult} {settlement : Settlement}
    (h : settle lib retry number result now = .ok settlement)
    (hwaiting : result.outcome = .waiting) :
    settlement.deadlineAt = some (result.deadline now) := by
  unfold settle at h
  rw [hwaiting] at h
  simp only [Dispatcher.require_bind_eq_ok, Dispatcher.pure_eq_ok] at h
  obtain ⟨-, rfl⟩ := h
  rfl

namespace Work

variable {lib : LedgerLib} {k : Kind} {w w' : Work}

/-- Only a waiting outcome writes the deadline, and only when there is none. -/
theorem Step.deadline (h : Step lib k w w') :
    w'.item.waitDeadlineAt = w.item.waitDeadlineAt ∨
    ∃ result now, k = .report result now ∧ result.outcome = .waiting ∧
      w'.item.waitDeadlineAt = w.item.waitDeadlineAt.or (some (result.deadline now)) := by
  cases h with
  | reclaim attempt now _ _ _ =>
    exact .inl (rewrite_keeps (g := WorkItemRow.waitDeadlineAt) (f := WorkItemRow.activate now)
      (fun _ => rfl) w.item)
  | recover now =>
    exact .inl (rewrite_keeps (g := WorkItemRow.waitDeadlineAt) (f := WorkItemRow.requeue now)
      (fun _ => rfl) w.item)
  | settle attempt terms settlement result now _ _ _ _ hsettle =>
    by_cases hwaiting : result.outcome = .waiting
    · refine .inr ⟨result, now, rfl, hwaiting, ?_⟩
      simp only [Work.settle, WorkItemRow.settle, hwaiting, if_true]
      rw [settle_waiting hsettle hwaiting]
    · refine .inl ?_
      simp only [Work.settle, WorkItemRow.settle, hwaiting, if_false]
  | _ => exact .inl rfl

/-- A deadline that is set stays. -/
theorem Steps.deadline (h : Steps lib w w') :
    ∀ d, w.item.waitDeadlineAt = some d → w'.item.waitDeadlineAt = some d := by
  refine Steps.keeps (R := fun w w' => ∀ d, w.item.waitDeadlineAt = some d →
    w'.item.waitDeadlineAt = some d) (fun _ _ => id) (fun _ _ _ h h' d hd => h' d (h d hd)) ?_ h
  intro k w w' hstep d hd
  rcases hstep.deadline with hsame | ⟨result, now, -, -, hor⟩
  · rw [hsame, hd]
  · rw [hor, hd, Option.some_or]

end Work

/-- Where the deadline of an item comes from, and what it does. -/
structure Store.Deadlines (lib : LedgerLib) (s : Store) : Prop where
  /-- Only a waiting completion of the item sets the deadline, and only the first one. -/
  set : ∀ op s' id r r', Op.exec lib s op = .ok s' → s.workItems.find? id = some r →
    s'.workItems.find? id = some r' → r'.waitDeadlineAt ≠ r.waitDeadlineAt →
      r.waitDeadlineAt = none ∧ ∃ attemptID result now a, op = .complete attemptID result now ∧
        s.executorAttempts.find? attemptID = some a ∧ a.workItemID = id ∧
        result.outcome = .waiting ∧ r'.waitDeadlineAt = some (result.deadline now)
  /-- After a waiting completion of active work there is one. -/
  first : ∀ attemptID result now s' a r, complete lib attemptID result now s = .ok s' →
    s.executorAttempts.find? attemptID = some a → s.workItems.find? a.workItemID = some r →
    r.state = .active → result.outcome = .waiting → ∃ r',
      s'.workItems.find? a.workItemID = some r' ∧
        r'.waitDeadlineAt = r.waitDeadlineAt.or (some (result.deadline now))
  /-- No later call changes it. -/
  fixed : ∀ id r d, s.workItems.find? id = some r → r.waitDeadlineAt = some d → ∀ ops, ∃ r',
    (run lib ops s).workItems.find? id = some r' ∧ r'.waitDeadlineAt = some d
  /-- A claim at or after the deadline of a waiting item fails it and does not return it. -/
  enforced : ∀ id r d, s.workItems.find? id = some r → r.waitDeadlineAt = some d →
    r.state = .waiting → ∀ tie token now, d ≤ unixMilli now →
      (∀ claimed s', claim tie token now s = .ok (claimed, s') →
        (∀ c, claimed = some c → c.1.id ≠ id) ∧ ∃ r', s'.workItems.find? id = some r' ∧
          r'.state = .failed ∧ r'.terminalAt = some (unixMilli now)) ∧
      (s.executorAttempts.find? (newID "attempt" token) = none →
        ∃ claimed s', claim tie token now s = .ok (claimed, s'))

section Deadlines

variable {lib : LedgerLib} {s s' : Store}

theorem deadline_set (h : Reachable lib s) {op : Op} {r r' : WorkItemRow}
    (hexec : op.exec lib s = .ok s') (hr : s.workItems.find? id = some r)
    (hr' : s'.workItems.find? id = some r') (hne : r'.waitDeadlineAt ≠ r.waitDeadlineAt) :
    r.waitDeadlineAt = none ∧ ∃ attemptID result now a, op = .complete attemptID result now ∧
      s.executorAttempts.find? attemptID = some a ∧ a.workItemID = id ∧
      result.outcome = .waiting ∧ r'.waitDeadlineAt = some (result.deadline now) := by
  obtain ⟨w, hw, rfl⟩ := Store.work_of_find? hr
  obtain ⟨w', hw', hstep⟩ := h.step_work op hw
  rw [Op.step_of_exec hexec] at hw'
  rw [(Store.work_eq_some.mp hw').1] at hr'
  cases hr'
  rcases hstep with rfl | ⟨k, hmay, hk⟩
  · exact absurd rfl hne
  · rcases hk.deadline with hsame | ⟨result, now, rfl, hwaiting, hor⟩
    · exact absurd hsame hne
    · obtain ⟨attemptID, a, rfl, ha, hid⟩ := hmay.report
      have hnone : w.item.waitDeadlineAt = none := by
        cases hd : w.item.waitDeadlineAt with
        | none => rfl
        | some d =>
          rw [hd, Option.some_or] at hor
          exact absurd (hor.trans hd.symm) hne
      rw [hnone, Option.none_or] at hor
      exact ⟨hnone, attemptID, result, now, a, rfl, ha, hid, hwaiting, hor⟩

theorem deadline_enforced (h : Reachable lib s) {r : WorkItemRow} {d : Int}
    (hr : s.workItems.find? id = some r) (hd : r.waitDeadlineAt = some d)
    (hwaiting : r.state = .waiting) {token : Token} (hnow : d ≤ unixMilli now) :
    (∀ claimed s', claim tie token now s = .ok (claimed, s') →
      (∀ c, claimed = some c → c.1.id ≠ id) ∧ ∃ r', s'.workItems.find? id = some r' ∧
        r'.state = .failed ∧ r'.terminalAt = some (unixMilli now)) ∧
    (s.executorAttempts.find? (newID "attempt" token) = none →
      ∃ claimed s', claim tie token now s = .ok (claimed, s')) := by
  refine ⟨fun claimed s' hclaim => ?_, claim_total h tie now⟩
  obtain ⟨w, hw, rfl⟩ := Store.work_of_find? hr
  have hexpired : w.item.waitExpired now = true := by
    simp [WorkItemRow.waitExpired, hwaiting, hd, hnow]
  obtain ⟨hw', hne⟩ := claim_expires hclaim hw hexpired
  exact ⟨hne, (w.expire now).item, (Store.work_eq_some.mp hw').1, rfl, rfl⟩

theorem deadlines_of_reachable (h : Reachable lib s) : s.Deadlines lib where
  set := fun _ _ _ _ _ hexec hr hr' hne => deadline_set h hexec hr hr' hne
  first := by
    intro attemptID result now s' a r hexec ha hr hactive hwaiting
    obtain ⟨w, hw, rfl⟩ := Store.work_of_find? hr
    obtain ⟨q, hq, -⟩ := h.sound.snapshot hw
    obtain ⟨settlement, hsettle, hr'⟩ := completion_retry hexec ha hr hactive hq
    have hid : w.item.id = a.workItemID := Store.id_of_work hw
    refine ⟨w.item.settle settlement result now, hid ▸ hr', ?_⟩
    simp only [WorkItemRow.settle, hwaiting, if_true]
    rw [settle_waiting hsettle hwaiting]
  fixed := by
    intro id r d hr hd ops
    obtain ⟨w, hw, rfl⟩ := Store.work_of_find? hr
    obtain ⟨w', hw', hsteps⟩ := h.run_work ops hw
    exact ⟨w'.item, (Store.work_eq_some.mp hw').1, hsteps.deadline d hd⟩
  enforced := fun _ _ _ hr hd hwaiting _ _ _ hnow => deadline_enforced h hr hd hwaiting hnow

end Deadlines

open Sample in
/-- The interrupted item keeps the deadline of its first wait, thirty minutes in. -/
theorem deadlines_interrupted :
    (after interrupted).workItems.rows.map
        (fun r => (r.state, r.waitDeadlineAt)) = [(.waiting, some 1800000)] ∧
    (after interrupted).Deadlines lib :=
  ⟨by decide +kernel, deadlines_of_reachable (reachable_after interrupted)⟩

end SignalPlane.Workledger
