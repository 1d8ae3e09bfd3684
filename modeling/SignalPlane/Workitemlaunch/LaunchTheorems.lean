/-
SignalPlane.Workitemlaunch.LaunchTheorems — how many keys the launches of one
item carry.

A launch carries the idempotency key of its attempt, and the key names the
attempt's number. A crash does not change the number: the interrupted attempt
is claimed again, whether or not its launch was sent. A retryable failure that
is completed does: it closes the attempt, and the next claim starts another
one with another key, also when the broker had accepted the launch and only
its answer was lost.

So an item has one key as long as no such failure is completed while the route
allows a further attempt (`NoRetry`). The invariant is that the item has at
most one attempt, and is not waiting without one to take up again (`Single`).
-/
import SignalPlane.Workitemlaunch.Launch
import SignalPlane.Workledger.ScheduleTheorems
import SignalPlane.Workledger.RetryTheorems

namespace SignalPlane.Workitemlaunch

open Clock
open Dispatcher (BrokerError)
open Workledger

variable {a : ExecutorAttemptRow} {item : WorkItem} {attempt : ExecutorAttempt} {w : Work}
  {result : ExecutorResult} {c : LaunchCall} {now : Int} {t : Terms}
  {reply : Except BrokerError LaunchResult} {router : Router} {k : Work.Kind}

/-! ## What the launcher reports -/

section Reports

variable {lib : LedgerLib}

theorem report_not_waiting (answer : Except BrokerError LaunchResult) :
    (report lib answer).outcome ≠ .waiting := by
  cases answer with
  | ok result => simp [report]
  | error err =>
    simp only [report]
    split <;> simp [permanent]

/-- The launcher does not wait. -/
theorem execute_not_waiting (executor : Executor) (item : WorkItem) (attempt : ExecutorAttempt)
    (reply : Except BrokerError LaunchResult) :
    (executor.execute lib item attempt reply).1.outcome ≠ .waiting := by
  unfold Executor.execute
  split
  · simp [permanent]
  · exact report_not_waiting _

/-- A launch names the item and carries the key of the attempt. -/
theorem execute_call {executor : Executor}
    (h : (executor.execute lib item attempt reply).2 = some c) :
    c.workItemID = item.id ∧ c.idempotencyKey = attempt.idempotencyKey := by
  unfold Executor.execute at h
  split at h
  · cases h
  · next call hcall =>
    cases h
    unfold Executor.call at hcall
    repeat' split at hcall
    all_goals first
      | (cases hcall; exact ⟨rfl, rfl⟩)
      | cases hcall

theorem dispatch_not_waiting (reply : Except BrokerError LaunchResult) (other : ExecutorResult)
    (hlauncher : attempt.executorID = router.launcher.descriptor.id) :
    (router.dispatch lib item attempt reply other).1.outcome ≠ .waiting := by
  unfold Router.dispatch
  rw [if_pos hlauncher.symm]
  split
  · simp [permanent]
  · exact execute_not_waiting _ _ _ _

theorem dispatch_call {other : ExecutorResult}
    (h : (router.dispatch lib item attempt reply other).2 = some c) :
    attempt.executorID = router.launcher.descriptor.id ∧ c.workItemID = item.id ∧
      c.idempotencyKey = attempt.idempotencyKey := by
  unfold Router.dispatch at h
  split at h
  · next hlauncher =>
    split at h
    · cases h
    · exact ⟨hlauncher.symm, execute_call h⟩
  · split at h
    · cases h
    · split at h
      · cases h
      · cases h

end Reports

/-! ## Attempts stay -/

/-- The ledger has an attempt with these columns. -/
def HasAttempt (s : Store) (x : AttemptIdentity) : Prop :=
  ∃ a ∈ s.executorAttempts.rows, a.identity = x

section Attempts

variable {lib : LedgerLib} {s : Store}

theorem step_attempt {w' : Work} (h : Work.Step lib k w w') (ha : a ∈ w.attempts) :
    ∃ a' ∈ w'.attempts, a'.identity = a.identity := by
  have hmem := List.mem_map_of_mem (f := ExecutorAttemptRow.identity) ha
  rcases h.attempts with hsame | ⟨snapshot, operation, token, now, -, -, hnew⟩
  · rw [← hsame] at hmem
    exact List.mem_map.mp hmem
  · exact ⟨a, by rw [hnew]; exact List.mem_append_left _ ha, rfl⟩

theorem work_of_attempt (hs : s.Sound lib) (ha : a ∈ s.executorAttempts.rows) :
    ∃ w, s.work a.workItemID = some w ∧ a ∈ w.attempts := by
  obtain ⟨w, hw⟩ := Store.work_isSome (hs.linked.attempts a ha)
  exact ⟨w, hw, Store.mem_attempts ha hw⟩

theorem row_of_mem {id : GoString} (hw : s.work id = some w) (ha : a ∈ w.attempts) :
    a ∈ s.executorAttempts.rows ∧ a.workItemID = id := by
  rw [(Store.work_eq_some.mp hw).2.2.1] at ha
  exact Store.mem_attemptsOf.mp ha

/-- A call keeps every attempt and the columns that name it. -/
theorem HasAttempt.step {x : AttemptIdentity} (h : Reachable lib s) (hx : HasAttempt s x)
    (op : Op) : HasAttempt (op.step lib s) x := by
  obtain ⟨a, ha, rfl⟩ := hx
  obtain ⟨w, hw, haw⟩ := work_of_attempt h.sound ha
  obtain ⟨w', hw', hstep⟩ := h.step_work op hw
  rcases hstep with rfl | ⟨k, -, hk⟩
  · exact ⟨a, (row_of_mem hw' haw).1, rfl⟩
  · obtain ⟨a', ha', hidentity⟩ := step_attempt hk haw
    exact ⟨a', (row_of_mem hw' ha').1, hidentity⟩

/-- The attempt a claim hands out is in the ledger. -/
theorem claim_hasAttempt {tie : Nat} {token : Token} {s' : Store}
    (h : claim tie token now s = .ok (some (item, attempt), s')) :
    ∃ x, HasAttempt s' x ∧ x.id = attempt.id ∧ x.workItemID = item.id ∧
      x.executorID = attempt.executorID ∧ x.idempotencyKey = attempt.idempotencyKey := by
  obtain ⟨w, hitem, hready, hw, hw', hclaim⟩ := claim_some h
  have hid : item.id = w.item.id := by
    rw [show item = w.item.claimedItem now from hitem]
    rfl
  rcases claimItem_work hready hw' rfl hclaim with ⟨a, ha, -, hattempt, hs'⟩ |
    ⟨-, -, snapshot, operation, -, hattempt, hs'⟩
  · have hmem := List.mem_map_of_mem (f := rewrite (fun b => decide (b.id = a.id) &&
      decide (b.state = .recoverable)) (ExecutorAttemptRow.restart now)) ha
    refine ⟨a.identity, ⟨_, (row_of_mem hs' hmem).1, ?_⟩, ?_⟩
    · exact rewrite_keeps (fun b => b.identity_restart now) a
    · have hattempt : attempt = { a.scan with state := .running } := hattempt
      rw [hattempt, hid]
      exact ⟨rfl, (row_of_mem hw' ha).2, rfl, rfl⟩
  · have hattempt : attempt = { (newAttempt w.item snapshot (w.attempts.length + 1) operation token
        now).scan with createdAt := now } := hattempt
    refine ⟨(newAttempt w.item snapshot (w.attempts.length + 1) operation token now).identity,
      ⟨_, (row_of_mem hs' (List.mem_append_right _ (List.mem_singleton_self _))).1, rfl⟩, ?_⟩
    rw [hattempt, hid]
    exact ⟨rfl, rfl, rfl, rfl⟩

end Attempts

/-! ## One attempt an item -/

/-- At most one attempt, and no wait without one to take up again. -/
structure Single (w : Work) : Prop where
  one : w.attempts.length ≤ 1
  resumes : w.item.state = .waiting → ∃ a ∈ w.attempts, a.state = .recoverable

/-- The outcome leads to no further attempt: it is no wait, and no failure below the limit. -/
def Ends (w : Work) (result : ExecutorResult) : Prop :=
  result.outcome ≠ .waiting ∧ (result.outcome = .retryableFailure →
    ∀ t, w.terms = some t → ∀ a ∈ w.attempts, a.state = .running →
      t.definition.retry.maxAttempts ≤ a.attemptNumber)

section Single

variable {lib : LedgerLib} {w' : Work}

theorem Single.eq_of_mem (hs : Single w) {a' : ExecutorAttemptRow} (ha : a ∈ w.attempts)
    (ha' : a' ∈ w.attempts) : a = a' := by
  rcases Nat.le_one_iff_eq_zero_or_eq_one.mp hs.one with hzero | hone
  · rw [List.length_eq_zero_iff.mp hzero] at ha
    cases ha
  · obtain ⟨b, hb⟩ := List.length_eq_one_iff.mp hone
    rw [hb] at ha ha'
    rw [List.mem_singleton.mp ha, List.mem_singleton.mp ha']

/-- An outcome that ends the work does not make it wait. -/
theorem settle_ends (ht : w.terms = some t) (ha : a ∈ w.attempts) (hrunning : a.state = .running)
    {settlement : Settlement}
    (hsettle : settle lib t.definition.retry a.attemptNumber result now = .ok settlement)
    (hends : Ends w result) : settlement.state ≠ .waiting := by
  intro hwaiting
  by_cases hretryable : result.outcome = .retryableFailure
  · have hmax := hends.2 hretryable t ht a ha hrunning
    rcases settle_retryable hsettle hretryable with ⟨-, hdead⟩ | ⟨hbelow, -⟩
    · rw [hdead] at hwaiting
      cases hwaiting
    · omega
  · have hterminal := (settle_not_deadLetter hsettle hretryable hends.1).1
    rw [hwaiting] at hterminal
    cases hterminal

/-- Work with one attempt keeps to it, as long as no outcome asks for another. -/
theorem Single.step (hs : Single w) (h : Work.Step lib k w w') (hw : w.Valid lib)
    (hends : ∀ result now, k = .report result now → Ends w result) : Single w' := by
  cases h with
  | supersede successor now _ =>
    exact ⟨by simpa [Work.supersede] using hs.one, fun hwaiting => (by cases hwaiting)⟩
  | expire now _ => exact ⟨hs.one, fun hwaiting => (by cases hwaiting)⟩
  | reclaim attempt now hready hmem hstate =>
    refine ⟨by simpa [Work.reclaim] using hs.one, fun hwaiting => ?_⟩
    -- Only waiting work has an attempt to take up, and it is active afterwards.
    rcases hw.shape.recoverable hmem hstate with hwas | hwas
    · rw [Work.reclaim_item hwas] at hwaiting
      cases hwaiting
    · rw [hwas] at hready
      cases hready
  | start snapshot operation token now hready hclosed _ _ =>
    refine ⟨?_, fun hwaiting => (by cases hwaiting)⟩
    have hnone : w.attempts = [] := by
      cases hstate : w.item.state with
      | admitted =>
        have hshape := hw.shape
        rw [Work.Shape, hstate] at hshape
        exact hshape.1
      | waiting =>
        obtain ⟨a, ha, hrecoverable⟩ := hs.resumes hstate
        exact absurd hrecoverable (hclosed a ha)
      | _ =>
        rw [hstate] at hready
        cases hready
    simp [Work.start, hnone]
  | settle attempt t settlement result now hmem hrunning _ hterms hsettle =>
    refine ⟨by simpa [Work.settle] using hs.one, fun hwaiting => ?_⟩
    exact absurd hwaiting (settle_ends hterms hmem hrunning hsettle (hends result now rfl))
  | close attempt result now _ _ hsuperseded =>
    refine ⟨by simpa [Work.close] using hs.one, fun hwaiting => ?_⟩
    cases hsuperseded.symm.trans hwaiting
  | recover now =>
    refine ⟨by simpa [Work.recover] using hs.one, fun hwaiting => ?_⟩
    by_cases hactive : w.item.state = .active
    · obtain ⟨earlier, last, acquired, hl, -, hlast, -⟩ := hw.shape.leased hactive
      rw [Work.recover_attempts_of_active hactive]
      refine ⟨last.interrupt, List.mem_map.mpr ⟨last, by simp [hl], ?_⟩, rfl⟩
      exact rewrite_of (decide_eq_true hlast)
    · rw [Work.recover_item now hactive] at hwaiting
      rw [Work.recover_attempts now hactive, map_rewrite_eq_self fun a _ => by simp [hwaiting]]
      exact hs.resumes hwaiting
  | wake | resolve | correlate => exact ⟨hs.one, hs.resumes⟩

end Single

/-! ## Runs of the worker -/

/-- The worker is about to complete a retryable failure of a running attempt of the item, and
the route allows a further attempt. -/
def LaunchState.retries (st : LaunchState) (id : GoString) : Bool :=
  match st.worker with
  | .executed attemptID result =>
    decide (result.outcome = .retryableFailure) &&
      (st.store.executorAttempts.find? attemptID).any fun a =>
        decide (a.workItemID = id) && decide (a.state = .running) &&
          (st.store.workItems.find? id).any fun r =>
            (st.store.routeSnapshots.find? r.routeSnapshotID).any fun q =>
              decide ((a.attemptNumber : Int) < q.definition.retry.maxAttempts)
  | _ => false

/-- No such failure of the item is completed. -/
def NoRetry (id : GoString) (st : LaunchState) : Move → Prop
  | .finish _ => st.retries id = false
  | _ => True

instance (id : GoString) (st : LaunchState) : ∀ move, Decidable (NoRetry id st move)
  | .finish _ => inferInstanceAs (Decidable (st.retries id = false))
  | .claim .. | .execute .. | .crash | .call _ => .isTrue trivial

/-- What the worker holds and what it has launched are attempts of the ledger, and the item has
one attempt if it is the launcher's. -/
structure Tracked (lib : LedgerLib) (router : Router) (id : GoString) (st : LaunchState) :
    Prop where
  reachable : Reachable lib st.store
  claimed : ∀ item attempt, st.worker = .claimed item attempt → ∃ x, HasAttempt st.store x ∧
    x.id = attempt.id ∧ x.workItemID = item.id ∧ x.executorID = attempt.executorID ∧
    x.idempotencyKey = attempt.idempotencyKey
  executed : ∀ attemptID result, st.worker = .executed attemptID result →
    ∃ x, HasAttempt st.store x ∧ x.id = attemptID ∧
      (x.executorID = router.launcher.descriptor.id → result.outcome ≠ .waiting)
  launched : ∀ c ∈ st.calls, ∃ x, HasAttempt st.store x ∧ x.workItemID = c.workItemID ∧
    x.executorID = router.launcher.descriptor.id ∧ x.idempotencyKey = c.idempotencyKey
  single : ∀ w t, st.store.work id = some w → w.terms = some t →
    t.executorID = router.launcher.descriptor.id → Single w

section Tracked

variable {lib : LedgerLib} {id : GoString} {st : LaunchState}

/-- The executor of an attempt is that of its item's terms. -/
theorem executorID_of_terms {s : Store} (hs : s.Sound lib) (hw : s.work id = some w)
    (ht : w.terms = some t) (ha : a ∈ w.attempts) : a.executorID = t.executorID := by
  obtain ⟨⟨t', ht', -, -, hall⟩, -⟩ := (hs.works hw).recorded
  cases ht'.symm.trans ht
  exact (hall a.identity (List.mem_map_of_mem ha)).executorID

theorem Tracked.empty : Tracked lib router id LaunchState.empty where
  reachable := .empty
  claimed := fun _ _ h => (by cases h)
  executed := fun _ _ h => (by cases h)
  launched := fun _ h => (by cases h)
  single := fun _ _ h => (by cases h)

theorem Tracked.drop (h : Tracked lib router id st) :
    Tracked lib router id { st with worker := .idle } :=
  ⟨h.reachable, fun _ _ hw => (by cases hw), fun _ _ hw => (by cases hw), h.launched, h.single⟩

/-- A call of the ledger, when a completion of an attempt of the item ends it. -/
theorem Tracked.ledger (h : Tracked lib router id st) (op : Op)
    (hends : ∀ attemptID result now a w t, op = .complete attemptID result now →
      st.store.executorAttempts.find? attemptID = some a → a.workItemID = id →
      a.state = .running → st.store.work id = some w → w.terms = some t →
      t.executorID = router.launcher.descriptor.id → Ends w result) :
    Tracked lib router id { st with store := op.step lib st.store } where
  reachable := .step op h.reachable trivial
  claimed := by
    intro item attempt hworker
    obtain ⟨x, hx, hrest⟩ := h.claimed item attempt hworker
    exact ⟨x, hx.step h.reachable op, hrest⟩
  executed := by
    intro attemptID result hworker
    obtain ⟨x, hx, hrest⟩ := h.executed attemptID result hworker
    exact ⟨x, hx.step h.reachable op, hrest⟩
  launched := by
    intro c hc
    obtain ⟨x, hx, hrest⟩ := h.launched c hc
    exact ⟨x, hx.step h.reachable op, hrest⟩
  single := by
    intro w' t hw' ht hlauncher
    rcases op.step_cases lib st.store with he | he
    · rw [show ({ st with store := op.step lib st.store } : LaunchState).store = st.store from he]
        at hw'
      exact h.single w' t hw' ht hlauncher
    · obtain ⟨k, hmay, hevolves⟩ := Op.evolves h.reachable.sound he id
      rw [show (op.step lib st.store).work id = some w' from hw'] at hevolves
      generalize hv : st.store.work id = v at hevolves
      cases hevolves with
      | same => exact h.single w' t hv ht hlauncher
      | admitted => exact ⟨Nat.zero_le _, fun hwaiting => (by cases hwaiting)⟩
      | @step k w _ hstep =>
        have hterms : w.terms = some t := hstep.identity.2 ▸ ht
        refine (h.single w t hv hterms hlauncher).step hstep (h.reachable.sound.works hv) ?_
        rintro result now rfl
        obtain ⟨attemptID, a, rfl, ha, hid⟩ := hmay.report
        obtain ⟨a', item, ha', hrunning, -⟩ := complete_eq_ok.mp he
        cases ha'.symm.trans ha
        exact hends attemptID result now a w t rfl ha hid hrunning hv hterms hlauncher

/-- An outcome that does not schedule a retry ends the work of the launcher. -/
theorem Tracked.ends (h : Tracked lib router id st) {attemptID : GoString}
    (hworker : st.worker = .executed attemptID result) (hretries : st.retries id = false)
    (ha : st.store.executorAttempts.find? attemptID = some a) (hid : a.workItemID = id)
    (hrunning : a.state = .running) (hw : st.store.work id = some w) (ht : w.terms = some t)
    (hlauncher : t.executorID = router.launcher.descriptor.id) : Ends w result := by
  have haw : a ∈ w.attempts := Store.mem_attempts (Table.mem_of_find? ha) (hid ▸ hw)
  obtain ⟨hitem, hterms, -⟩ := Store.work_eq_some.mp hw
  refine ⟨?_, fun hretryable t' ht' b hb hbrunning => ?_⟩
  · obtain ⟨x, ⟨a', ha', rfl⟩, hx, hnot⟩ := h.executed attemptID result hworker
    have hfound : st.store.executorAttempts.find? attemptID = some a' := by
      rw [← show a'.id = attemptID from hx]
      exact Table.find?_key ha'
    cases hfound.symm.trans ha
    exact hnot ((executorID_of_terms h.reachable.sound hw ht haw).trans hlauncher)
  · -- The running attempt is the last one, so it is the one that is completed.
    have hshape := (h.reachable.sound.works hw).shape
    have hsame := (hshape.open_last hb (Work.isOpen_of_running hbrunning)).symm.trans
      (hshape.open_last haw (Work.isOpen_of_running hrunning))
    cases hsame
    cases ht'.symm.trans ht
    rw [ht, Store.termsOf, eq_comm, Option.map_eq_some_iff] at hterms
    obtain ⟨q, hq, rfl⟩ := hterms
    simp only [LaunchState.retries, hworker, hretryable, ha, hid, hrunning, hitem, hq,
      Option.any_some, decide_true, Bool.true_and, decide_eq_false_iff_not, not_lt] at hretries
    exact hretries

theorem finish_eq (lib : LedgerLib) (attemptID : GoString) (result : ExecutorResult) (now : Int)
    (s : Store) :
    finish lib attemptID result now s = Op.step lib s (.complete attemptID result now) ∨
      finish lib attemptID result now s = Op.step lib s (.recoverInterrupted now) := by
  unfold finish
  cases h : complete lib attemptID result now s with
  | ok s' =>
    have hexec : Op.exec lib s (.complete attemptID result now) = .ok s' := h
    exact .inl (Op.step_of_exec hexec).symm
  | error err => exact .inr rfl

/-- An idle worker claims. -/
theorem Tracked.claims (h : Tracked lib router id st) (hworker : st.worker = .idle) (tie : Nat)
    (token : Token) (now : Int) :
    Tracked lib router id ((Move.claim tie token now).step lib router st) := by
  have hledger := h.ledger (.claim tie token now) (fun _ _ _ _ _ _ hop => (by cases hop))
  cases hclaim : claim tie token now st.store with
  | error err =>
    simp only [Move.step, hworker, hclaim]
    exact h
  | ok answer =>
    obtain ⟨found, s'⟩ := answer
    have hstep : Op.step lib st.store (.claim tie token now) = s' :=
      Op.step_of_exec (by simp only [Op.exec, hclaim]; rfl)
    rw [hstep] at hledger
    cases found with
    | none =>
      simp only [Move.step, hworker, hclaim]
      exact hledger.drop
    | some c =>
      simp only [Move.step, hworker, hclaim]
      refine ⟨hledger.reachable, ?_, fun _ _ hw => (by cases hw), hledger.launched,
        hledger.single⟩
      rintro item attempt ⟨⟩
      exact claim_hasAttempt hclaim

/-- A worker executes what it has claimed. -/
theorem Tracked.executes (h : Tracked lib router id st)
    (hworker : st.worker = .claimed item attempt) (reply : Except BrokerError LaunchResult)
    (other : ExecutorResult) :
    Tracked lib router id ((Move.execute reply other).step lib router st) := by
  obtain ⟨x, hx, hid, hitem, hexecutor, hkey⟩ := h.claimed item attempt hworker
  simp only [Move.step, hworker]
  refine ⟨h.reachable, fun _ _ hw => (by cases hw), ?_, ?_, h.single⟩
  · rintro attemptID result ⟨⟩
    exact ⟨x, hx, hid, fun hlauncher =>
      dispatch_not_waiting reply other (hexecutor.symm.trans hlauncher)⟩
  · intro c hc
    rcases List.mem_append.mp hc with hc | hc
    · exact h.launched c hc
    · obtain ⟨hlauncher, hcitem, hckey⟩ := dispatch_call (Option.mem_toList.mp hc)
      exact ⟨x, hx, hitem.trans hcitem.symm, hexecutor.trans hlauncher, hkey.trans hckey.symm⟩

/-- A worker completes what it has executed. -/
theorem Tracked.finishes (h : Tracked lib router id st) {attemptID : GoString}
    (hworker : st.worker = .executed attemptID result) (now : Int)
    (hok : NoRetry id st (.finish now)) :
    Tracked lib router id ((Move.finish now).step lib router st) := by
  simp only [Move.step, hworker]
  rcases finish_eq lib attemptID result now st.store with hfinish | hfinish
  · rw [hfinish]
    refine (h.ledger (.complete attemptID result now) ?_).drop
    rintro _ _ _ a w t ⟨⟩ ha hid hrunning hw ht hlauncher
    exact h.ends hworker hok ha hid hrunning hw ht hlauncher
  · rw [hfinish]
    exact (h.ledger (.recoverInterrupted now) (fun _ _ _ _ _ _ hop => (by cases hop))).drop

theorem Tracked.step (h : Tracked lib router id st) {move : Move} (hok : NoRetry id st move) :
    Tracked lib router id (move.step lib router st) := by
  -- A move that the worker is not ready for changes nothing.
  cases move with
  | claim tie token now =>
    cases hworker : st.worker with
    | idle => exact h.claims hworker tie token now
    | _ =>
      simp only [Move.step, hworker]
      exact h
  | execute reply other =>
    cases hworker : st.worker with
    | claimed item attempt => exact h.executes hworker reply other
    | _ =>
      simp only [Move.step, hworker]
      exact h
  | finish now =>
    cases hworker : st.worker with
    | executed attemptID result => exact h.finishes hworker now hok
    | _ =>
      simp only [Move.step, hworker]
      exact h
  | crash => exact h.drop
  | call op =>
    simp only [Move.step]
    split
    · exact h
    · next hwork =>
      refine h.ledger op ?_
      rintro _ _ _ _ _ _ rfl
      exact absurd rfl hwork

theorem Launches.tracked (h : Launches lib router (NoRetry id) st) : Tracked lib router id st := by
  induction h with
  | empty => exact .empty
  | step move _ hok ih => exact ih.step hok

end Tracked

/-! ## Keys -/

section Keys

variable {lib : LedgerLib} {id : GoString} {st : LaunchState}

theorem number_pos (h : w.Valid lib) (ha : a ∈ w.attempts) : 1 ≤ a.attemptNumber := by
  have hmem : a.attemptNumber ∈ List.range' 1 w.attempts.length :=
    h.numbered ▸ List.mem_map_of_mem ha
  exact (List.mem_range'_1.mp hmem).1

/-- Below the limit there is a delay, so a retryable failure is settled as a wait. -/
theorem settle_below {definition : RouteDefinition} (hvalid : definition.validate lib = .ok ())
    {number : Nat} (hpos : 1 ≤ number) (hbelow : (number : Int) < definition.retry.maxAttempts)
    (hretryable : result.outcome = .retryableFailure) (now : Int) :
    ∃ settlement, settle lib definition.retry number result now = .ok settlement := by
  have hlength := (retry_of_validate hvalid).2
  have hindex : number - 1 < definition.retry.backoff.length := by omega
  unfold settle
  rw [hretryable]
  simp only [not_le.mpr hbelow, if_false, List.getElem?_eq_getElem hindex]
  exact ⟨_, rfl⟩

/-- After a retryable failure below the limit no attempt of the item is open. -/
theorem closed_of_retries (h : Reachable lib st.store) {attemptID : GoString}
    (hworker : st.worker = .executed attemptID result)
    (ha : st.store.executorAttempts.find? attemptID = some a) (hretries : st.retries id = true)
    (now : Int) :
    a.workItemID = id ∧ ∃ w', (finish lib attemptID result now st.store).work id = some w' ∧
      Work.Closed w'.attempts ∧ Reachable lib (finish lib attemptID result now st.store) ∧
      ∃ b ∈ w'.attempts, b.identity = a.identity := by
  simp only [LaunchState.retries, hworker, ha, Option.any_some, Bool.and_eq_true,
    decide_eq_true_eq] at hretries
  obtain ⟨hretryable, ⟨rfl, hrunning⟩, hany⟩ := hretries
  obtain ⟨r, hr, hany⟩ := (Option.any_eq_true _ _).mp hany
  obtain ⟨q, hq, hbelow⟩ := (Option.any_eq_true _ _).mp hany
  obtain ⟨w, hw, rfl⟩ := Store.work_of_find? hr
  have haw : a ∈ w.attempts := Store.mem_attempts (Table.mem_of_find? ha) hw
  have hvalid := h.sound.works hw
  have hactive : w.item.state = .active := by
    by_contra hne
    exact (hvalid.shape.idle hne).2 a haw hrunning
  obtain ⟨⟨t, ht, hdefinition, -, -⟩, -⟩ := hvalid.recorded
  have hterms : t = q.terms := by
    have := (Store.work_eq_some.mp hw).2.1
    rw [ht, Store.termsOf, hq] at this
    exact Option.some.inj this
  subst hterms
  obtain ⟨settlement, hsettle⟩ := settle_below hdefinition (number_pos hvalid haw)
    (of_decide_eq_true hbelow) hretryable now
  obtain ⟨s', hcomplete, hw', -⟩ :=
    complete_of_settle h.sound hw haw hrunning hactive ht hsettle
  have haid : a.id = attemptID := Table.key_of_find? ha
  rw [haid] at hcomplete hw'
  have hfinish : finish lib attemptID result now st.store = s' := by
    simp only [finish, hcomplete]
  have hexec : Op.exec lib st.store (.complete attemptID result now) = .ok s' := hcomplete
  have hreachable : Reachable lib s' :=
    Op.step_of_exec hexec ▸ .step (.complete attemptID result now) h trivial
  rw [hfinish]
  refine ⟨rfl, _, hw', ?_, hreachable, ?_⟩
  · rw [← haid]
    exact (hvalid.shape.closed_settle haw hrunning hactive hsettle).1
  · exact ⟨_, List.mem_map_of_mem haw,
      rewrite_keeps (fun b => b.identity_settle now settlement result) a⟩

/-- Two launches of a tracked item carry one key. -/
theorem Tracked.same_key (h : Tracked lib router id st) {c' : LaunchCall} (hc : c ∈ st.calls)
    (hc' : c' ∈ st.calls) (hid : c.workItemID = id) (hid' : c'.workItemID = id) :
    c.idempotencyKey = c'.idempotencyKey := by
  obtain ⟨x, ⟨a, ha, rfl⟩, hitem, hexecutor, hkey⟩ := h.launched c hc
  obtain ⟨x', ⟨a', ha', rfl⟩, hitem', -, hkey'⟩ := h.launched c' hc'
  obtain ⟨w, hw, haw⟩ := work_of_attempt h.reachable.sound ha
  obtain ⟨w', hw', haw'⟩ := work_of_attempt h.reachable.sound ha'
  rw [show a.workItemID = id from hitem.trans hid] at hw
  rw [show a'.workItemID = id from hitem'.trans hid', hw] at hw'
  cases hw'
  obtain ⟨⟨t, ht, -⟩, -⟩ := (h.reachable.sound.works hw).recorded
  have hlauncher : t.executorID = router.launcher.descriptor.id :=
    (executorID_of_terms h.reachable.sound hw ht haw).symm.trans hexecutor
  have hsame := (h.single w t hw ht hlauncher).eq_of_mem haw haw'
  rw [← hkey, ← hkey', hsame]

/-- A claim of work without an open attempt has a key that no attempt of the work has. -/
theorem claim_new_key {s s' : Store} {tie : Nat} {token : Token} (h : Reachable lib s)
    (hclaim : claim tie token now s = .ok (some (item, attempt), s')) (hw : s.work item.id = some w)
    (hclosed : Work.Closed w.attempts) {b : ExecutorAttemptRow} (hb : b ∈ w.attempts) :
    attempt.idempotencyKey ≠ b.idempotencyKey := by
  intro hkey
  have hattempts := attemptsOf_of_work hw
  obtain ⟨new, hrows, -, hnumber, rfl⟩ := claim_created h hclaim (by
    intro last hlast
    rw [hattempts] at hlast
    exact (Work.isOpen_eq_false.mp (hclosed last (List.mem_of_getLast? hlast))).2)
  rw [hattempts] at hrows hnumber
  have hexec : Op.exec lib s (.claim tie token now) = .ok s' := by
    simp only [Op.exec, hclaim]
    rfl
  have hreachable' : Reachable lib s' :=
    Op.step_of_exec hexec ▸ .step (.claim tie token now) h trivial
  -- The old attempt is still there, and keys are unique, so it would be the new one.
  have hmem : ∀ {x}, x ∈ w.attempts ++ [new] → x ∈ s'.executorAttempts.rows := by
    intro x hx
    rw [← hrows] at hx
    exact (Store.mem_attemptsOf.mp hx).1
  have heq : new = b := hreachable'.keyed.eq_of_key (hmem (by simp)) (hmem (by simp [hb])) hkey
  have hle := (h.sound.works hw).number_le hb
  rw [← heq, hnumber] at hle
  omega

/-- The launches of an item carry one key as long as no retryable failure of it is completed
below the limit; once one is, the next claim of the item hands out another key. -/
theorem one_key_unless_retried (lib : LedgerLib) (router : Router) (id : GoString) :
    (∀ st, Launches lib router (NoRetry id) st → ∀ c ∈ st.calls, ∀ c' ∈ st.calls,
      c.workItemID = id → c'.workItemID = id → c.idempotencyKey = c'.idempotencyKey) ∧
    (∀ (st : LaunchState) attemptID result a, Reachable lib st.store →
      st.worker = .executed attemptID result →
      st.store.executorAttempts.find? attemptID = some a → st.retries id = true →
      ∀ now tie token later item attempt s',
        claim tie token later ((Move.finish now).step lib router st).store =
          .ok (some (item, attempt), s') → item.id = id →
        attempt.idempotencyKey ≠ a.idempotencyKey) := by
  constructor
  · intro st hst c hc c' hc' hid hid'
    exact hst.tracked.same_key hc hc' hid hid'
  · intro st attemptID result a h hworker ha hretries now tie token later item attempt s' hclaim
      hid hkey
    obtain ⟨-, w, hw, hclosed, hreachable, b, hb, hidentity⟩ :=
      closed_of_retries h hworker ha hretries now
    simp only [Move.step, hworker] at hclaim
    have hbkey : b.idempotencyKey = a.idempotencyKey :=
      congrArg AttemptIdentity.idempotencyKey hidentity
    exact claim_new_key hreachable hclaim (hid ▸ hw) hclosed hb (hkey.trans hbkey.symm)

end Keys

namespace Sample

open Workledger.Sample

/-- A launcher for one agent type and one mode, and no other executor. -/
def launcher : Router where
  launcher :=
    { config := ⟨lit "curator", lit "tool", none, lit "1", [(lit "intake", lit "profile")]⟩
      hasBroker := true }
  others := []

def uploads : RouteDefinition :=
  { route with admission := ⟨[lit "github"], [], [lit "upload"], [lit "opened"], []⟩ }

/-- One upload is admitted for the launcher. -/
def admitted : List Move :=
  [.call (.activateRoute uploads (some registry) (token 0) 0),
    .call (.admitWithAgent (newID "route" (token 0))
      { event 1 (lit "octo/repo") (lit "1") (lit "a") with objectKind := lit "upload" }
      { agentType := lit "curator", mode := lit "intake", typeContractRevision := lit "1" } 0
      (token 1) (token 1) 0)]

/-- The answer to a launch is lost. -/
def lost : Move := .execute (.error { transport := true }) (permanent [])

def started : Move := .execute (.ok ⟨brokerRunLaunchVersion, lit "run"⟩) (permanent [])

/-- The process dies after the launch, and the next one launches again. -/
def restarted : List Move :=
  admitted ++ [.claim 0 (token 1) 0, lost, .crash, .call (.recoverInterrupted second),
    .claim 0 (token 2) second, started]

/-- The failure is completed, and the item is launched again when its delay is over. -/
def retried : List Move :=
  admitted ++ [.claim 0 (token 1) 0, lost, .finish 0, .claim 0 (token 2) (2 * second), started]

/-- The state after a list of moves. -/
def launchesOf (moves : List Move) : LaunchState := runMoves lib launcher moves LaunchState.empty

end Sample

open Sample in
/-- A crash between launch and completion: two launches, one key. -/
theorem one_key_restarted :
    (launchesOf restarted).calls.length = 2 ∧
    ∀ c ∈ (launchesOf restarted).calls,
      ∀ c' ∈ (launchesOf restarted).calls,
        c.workItemID = Workledger.Sample.itemID 1 → c'.workItemID = Workledger.Sample.itemID 1 →
          c.idempotencyKey = c'.idempotencyKey := by
  refine ⟨by decide +kernel, ?_⟩
  refine (one_key_unless_retried Workledger.Sample.lib launcher (Workledger.Sample.itemID 1)).1 _ ?_
  exact Launches.empty.run (by decide +kernel)

open Sample in
/-- A lost answer that is reported as a failure: two launches of one item, two keys. -/
theorem two_keys_after_lost_answer :
    Launches Workledger.Sample.lib launcher (fun _ _ => True) (launchesOf retried) ∧
    ∃ c ∈ (launchesOf retried).calls,
      ∃ c' ∈ (launchesOf retried).calls,
        c.workItemID = Workledger.Sample.itemID 1 ∧ c'.workItemID = Workledger.Sample.itemID 1 ∧
          c.idempotencyKey ≠ c'.idempotencyKey := by
  refine ⟨Launches.empty.run (by decide +kernel), by decide +kernel⟩

end SignalPlane.Workitemlaunch
