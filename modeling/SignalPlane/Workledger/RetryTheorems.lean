/-
SignalPlane.Workledger.RetryTheorems — what a retry budget counts.

`Complete` indexes the retry policy with the number of the attempt, and every
claim that is no recovery makes a new attempt. So the policy counts attempts,
and it counts failures only as long as every attempt but the last has failed:
an attempt that ends in a wait takes a retry from the budget as well.

`Tally` is a run that counts the retryable failures of an item. As long as no
attempt of the item waits, the attempts that are over are the failures
(`Counted`), the item is a dead letter exactly when the budget is used up, and
each failure gets the delay of its own place (`retries_counted`). Restarts in
between change nothing: they keep the number of the attempt.
-/
import SignalPlane.Workledger.ClaimTheorems

namespace SignalPlane.Workledger

open Clock

variable {result : ExecutorResult} {now : Int} {settlement : Settlement} {retry : RetryPolicy}
  {l : List ExecutorAttemptRow}

/-! ## Counting failures -/

/-- Whether a call completes an attempt of an item with an outcome. -/
def Op.completes (lib : LedgerLib) (s : Store) (id : GoString) (outcome : ExecutorOutcome)
    (op : Op) : Bool :=
  match op with
  | .complete attemptID result _ =>
    decide (result.outcome = outcome) &&
      (s.executorAttempts.find? attemptID).any (fun a => decide (a.workItemID = id)) &&
      (op.exec lib s).toOption.isSome
  | _ => false

/-- The states reached by calls that meet a condition, with the number of retryable failures
of an item that were completed on the way. -/
inductive Tally (lib : LedgerLib) (ok : Store → Op → Prop) (id : GoString) :
    Nat → Store → Prop where
  | empty : Tally lib ok id 0 Store.empty
  | step {k : Nat} {s : Store} (op : Op) (h : Tally lib ok id k s) (hop : ok s op) :
      Tally lib ok id (k + if op.completes lib s id .retryableFailure then 1 else 0)
        (op.step lib s)

/-- The retryable failures of an item that a list of calls completes. -/
def failures (lib : LedgerLib) (id : GoString) : List Op → Store → Nat
  | [], _ => 0
  | op :: ops, s =>
    (if op.completes lib s id .retryableFailure then 1 else 0) + failures lib id ops (op.step lib s)

section Tally

variable {lib : LedgerLib} {ok : Store → Op → Prop} {id : GoString} {k : Nat} {s : Store}

theorem Tally.reachable (h : Tally lib ok id k s) : Reachable lib s := by
  induction h with
  | empty => exact .empty
  | step op _ _ ih => exact .step op ih trivial

theorem Tally.run {ops : List Op} (h : Tally lib ok id k s) (hops : Meets lib ok ops s) :
    Tally lib ok id (k + failures lib id ops s) (Workledger.run lib ops s) := by
  induction ops generalizing k s with
  | nil => exact h
  | cons op ops ih =>
    have hrest := ih (.step op h hops.1) hops.2
    rwa [Nat.add_assoc] at hrest

end Tally

/-! ## What a failure does -/

/-- The policy asks whether the number of the attempt is the last, and else takes the delay at
its place. -/
theorem settle_retryable {lib : LedgerLib} {number : Nat}
    (h : settle lib retry number result now = .ok settlement)
    (hretryable : result.outcome = .retryableFailure) :
    (retry.maxAttempts ≤ number ∧ settlement.state = .deadLetter) ∨
    ((number : Int) < retry.maxAttempts ∧ settlement.state = .waiting ∧
      ∃ delay, retry.backoff[number - 1]? = some delay ∧
        settlement.nextAttemptAt = some (unixMilli (now + delay))) := by
  unfold settle at h
  rw [hretryable] at h
  simp only at h
  split at h
  · next hmax =>
    cases h
    exact .inl ⟨hmax, rfl⟩
  · next hmax =>
    split at h
    · next delay hdelay =>
      cases h
      exact .inr ⟨not_le.mp hmax, rfl, delay, hdelay, rfl⟩
    · cases h

/-- Only a failure makes a dead letter. -/
theorem settle_not_deadLetter {lib : LedgerLib} {number : Nat}
    (h : settle lib retry number result now = .ok settlement)
    (hother : result.outcome ≠ .retryableFailure) (hnoWait : result.outcome ≠ .waiting) :
    settlement.state.isTerminal = true ∧ settlement.state ≠ .deadLetter := by
  unfold settle at h
  split at h
  · cases h
    exact ⟨rfl, by simp⟩
  · cases h
    exact ⟨rfl, by simp⟩
  · next hretryable => exact absurd hretryable hother
  · next hwaiting => exact absurd hwaiting hnoWait
  · cases h

namespace Work

variable {lib : LedgerLib} {w w' : Work} {k : Nat}

/-- The attempts of work that are running or may be taken up again. -/
def openCount (w : Work) : Nat := w.attempts.countP ExecutorAttemptRow.isOpen

theorem countP_map_rewrite {p : ExecutorAttemptRow → Bool}
    {f : ExecutorAttemptRow → ExecutorAttemptRow}
    (h : ∀ a ∈ l, p a = true → (f a).isOpen = a.isOpen) :
    (l.map (rewrite p f)).countP ExecutorAttemptRow.isOpen =
      l.countP ExecutorAttemptRow.isOpen := by
  rw [List.countP_map]
  refine List.countP_congr fun a ha => ?_
  rw [Function.comp_apply]
  cases hp : p a with
  | true => rw [rewrite_of hp, h a ha hp]
  | false => rw [rewrite_of_not hp]

theorem countP_eq_zero (h : Closed l) : l.countP ExecutorAttemptRow.isOpen = 0 :=
  List.countP_eq_zero.mpr fun a ha => by simp [h a ha]

/-- The number of the last attempt is the number of attempts. -/
theorem Valid.number_last (h : w.Valid lib) {a : ExecutorAttemptRow}
    (ha : w.attempts.getLast? = some a) : a.attemptNumber = w.attempts.length := by
  obtain ⟨earlier, hl⟩ := List.getLast?_eq_some_iff.mp ha
  have hnumbered := h.numbered
  rw [hl, List.map_append, List.map_singleton, List.length_append, List.length_singleton,
    List.range'_1_concat] at hnumbered
  have hlast := (List.append_inj' hnumbered rfl).2
  rw [hl, List.length_append, List.length_singleton, List.singleton_inj.mp hlast, Nat.add_comm]

/-- `k` failures have been counted: they are within the budget of the terms, they use it up
exactly in a dead letter, and in work that goes on they are the attempts that are over. -/
structure Counted (w : Work) (k : Nat) : Prop where
  budget : ∃ t, w.terms = some t ∧
    (w.item.state = .deadLetter → (k : Int) = t.definition.retry.maxAttempts) ∧
    (w.item.state ≠ .deadLetter → (k : Int) < t.definition.retry.maxAttempts)
  finished : w.item.state.isTerminal = false → w.attempts.length = k + w.openCount

/-- Counted work that ends otherwise than as a dead letter stays counted. -/
theorem Counted.ended (h : w.Counted k) (hterms : w'.terms = w.terms)
    (hopen : w.item.state ≠ .deadLetter) (hterminal : w'.item.state.isTerminal = true)
    (hstate : w'.item.state ≠ .deadLetter) : w'.Counted k := by
  obtain ⟨t, ht, -, hbelow⟩ := h.budget
  refine ⟨⟨t, hterms.trans ht, fun hdead => absurd hdead hstate, fun _ => hbelow hopen⟩, ?_⟩
  intro hfalse
  rw [hterminal] at hfalse
  cases hfalse

/-- Counted work whose state and attempts change without an attempt being over stays
counted. -/
theorem Counted.goes_on (h : w.Counted k) (hterms : w'.terms = w.terms)
    (hopen : w.item.state.isTerminal = false) (hopen' : w'.item.state.isTerminal = false)
    (hlength : w'.attempts.length - w'.openCount = w.attempts.length - w.openCount)
    (hle : w'.openCount ≤ w'.attempts.length) : w'.Counted k := by
  obtain ⟨t, ht, -, hbelow⟩ := h.budget
  have hstate : ∀ {state : WorkState}, state.isTerminal = false → state ≠ .deadLetter := by
    rintro state hfalse rfl
    cases hfalse
  refine ⟨⟨t, hterms.trans ht, fun hdead => absurd hdead (hstate hopen'), fun _ =>
    hbelow (hstate hopen)⟩, fun _ => ?_⟩
  have := h.finished hopen
  omega

/-- Counted work whose row changes in columns of no concern stays counted. -/
theorem Counted.congr (h : w.Counted k) (hterms : w'.terms = w.terms)
    (hstate : w'.item.state = w.item.state) (hattempts : w'.attempts = w.attempts) :
    w'.Counted k := by
  obtain ⟨hbudget, hfinished⟩ := h
  unfold openCount at hfinished
  exact ⟨by rw [hterms, hstate]; exact hbudget,
    by rw [hstate, openCount, hattempts]; exact hfinished⟩

/-- Whether a step reports an outcome. -/
def Kind.reports (outcome : ExecutorOutcome) : Kind → Bool
  | .report result _ => decide (result.outcome = outcome)
  | _ => false

theorem openCount_le (w : Work) : w.openCount ≤ w.attempts.length := List.countP_le_length

/-- A completion of counted work: the attempt has the number of the failures, this one
included. -/
theorem Counted.settle (h : w.Counted k) (hw : w.Valid lib) {attempt : ExecutorAttemptRow}
    {terms : Terms} (hmem : attempt ∈ w.attempts) (hrunning : attempt.state = .running)
    (hactive : w.item.state = .active) (hterms : w.terms = some terms)
    (hsettle : Workledger.settle lib terms.definition.retry attempt.attemptNumber result now =
      .ok settlement) (hnoWait : result.outcome ≠ .waiting) : attempt.attemptNumber = k + 1 ∧
      (w.settle attempt.id settlement result now).Counted
        (k + if result.outcome = .retryableFailure then 1 else 0) := by
  have hclosed := (hw.shape.closed_settle hmem hrunning hactive hsettle).1
  have hopen : w.openCount = 1 := by
    obtain ⟨earlier, last, _, hl, hearlier, hlast, -⟩ := hw.shape.leased hactive
    rw [openCount, hl, List.countP_append, countP_eq_zero hearlier, List.countP_singleton,
      if_pos (isOpen_of_running hlast)]
  have hnumber : attempt.attemptNumber = k + 1 := by
    rw [hw.number_last (hw.shape.open_last hmem (isOpen_of_running hrunning)),
      h.finished (by rw [hactive]; rfl), hopen]
  refine ⟨hnumber, ?_⟩
  have hstate : (w.settle attempt.id settlement result now).item.state = settlement.state := rfl
  have hlength : (w.settle attempt.id settlement result now).attempts.length =
      w.attempts.length := List.length_map _
  obtain ⟨t, ht, -, hbelow⟩ := h.budget
  rw [hterms] at ht
  cases ht
  have hbelow := hbelow (by rw [hactive]; decide)
  by_cases hretryable : result.outcome = .retryableFailure
  · rw [if_pos hretryable]
    rcases settle_retryable hsettle hretryable with ⟨hmax, hdead⟩ | ⟨hmax, hwaiting, -⟩
    · rw [hnumber] at hmax
      refine ⟨⟨terms, hterms, fun _ => ?_, fun hne => absurd (hstate.trans hdead) hne⟩, ?_⟩
      · push_cast at hmax ⊢
        omega
      · intro hfalse
        rw [hstate, hdead] at hfalse
        cases hfalse
    · rw [hnumber] at hmax
      refine ⟨⟨terms, hterms, fun hdead => ?_, fun _ => hmax⟩, fun _ => ?_⟩
      · rw [hstate, hwaiting] at hdead
        cases hdead
      · rw [openCount, countP_eq_zero hclosed, hlength, h.finished (by rw [hactive]; rfl), hopen]
  · rw [if_neg hretryable, Nat.add_zero]
    obtain ⟨hterminal, hother⟩ := settle_not_deadLetter hsettle hretryable hnoWait
    exact h.ended rfl (by rw [hactive]; decide) hterminal hother

/-- A step of work that does not wait keeps the count. -/
theorem Counted.step {kind : Kind} (hc : w.Counted k) (h : Step lib kind w w') (hw : w.Valid lib)
    (hnoWait : kind.reports .waiting = false) :
    w'.Counted (k + if kind.reports .retryableFailure then 1 else 0) := by
  cases h with
  | supersede successor now hopen =>
    refine hc.ended rfl ?_ rfl (by simp [Work.supersede, WorkItemRow.supersede])
    rintro hdead
    rw [hdead] at hopen
    cases hopen
  | expire now hexpired =>
    simp only [WorkItemRow.waitExpired, Bool.and_eq_true, decide_eq_true_eq] at hexpired
    exact hc.ended rfl (by rw [hexpired.1]; decide) rfl
      (by simp [Work.expire, WorkItemRow.expire])
  | reclaim attempt now hready hmem hstate =>
    have hwaiting : w.item.state = .waiting :=
      (hw.shape.recoverable hmem hstate).resolve_right fun hfailed => by
        rw [hfailed] at hready
        cases hready
    have hcount : (w.reclaim attempt.id now).openCount = w.openCount := by
      refine countP_map_rewrite fun a _ hp => ?_
      simp only [Bool.and_eq_true, decide_eq_true_eq] at hp
      rw [isOpen_of_recoverable hp.2]
      rfl
    refine hc.goes_on rfl (by rw [hwaiting]; rfl) (by rw [reclaim_item hwaiting]; rfl) ?_
      (openCount_le _)
    rw [hcount]
    simp only [Work.reclaim, List.length_map]
  | start snapshot operation token now hready hclosed _ _ =>
    have hall : Closed w.attempts := fun a ha => isOpen_eq_false.mpr
      ⟨(hw.shape.idle fun hactive => by rw [hactive] at hready; cases hready).2 a ha,
        hclosed a ha⟩
    refine hc.goes_on rfl (not_ended_of_isReady hready).1 rfl ?_ (openCount_le _)
    simp only [openCount, Work.start, List.countP_append, countP_eq_zero hall,
      List.countP_singleton, List.length_append, List.length_singleton]
    rw [if_pos (isOpen_of_running rfl)]
    omega
  | settle attempt terms settlement result now hmem hrunning hactive hterms hsettle =>
    have := (hc.settle hw hmem hrunning hactive hterms hsettle (of_decide_eq_false hnoWait)).2
    simpa only [Kind.reports, decide_eq_true_eq] using this
  | close attempt result now hmem hrunning hsuperseded =>
    exact absurd hrunning ((hw.shape.idle (by simp [hsuperseded])).2 attempt hmem)
  | recover now =>
    by_cases hactive : w.item.state = .active
    · have hcount : (w.recover now).openCount = w.openCount := by
        rw [openCount, recover_attempts_of_active hactive]
        refine countP_map_rewrite fun a _ hp => ?_
        rw [isOpen_of_running (of_decide_eq_true hp)]
        rfl
      refine hc.goes_on rfl (by rw [hactive]; rfl) (by rw [recover_item_of_active hactive]; rfl) ?_
        (openCount_le _)
      rw [hcount, recover_attempts_of_active hactive, List.length_map]
    · by_cases hsuperseded : w.item.state = .superseded
      · refine hc.ended rfl (by rw [hsuperseded]; decide) ?_ ?_
        · rw [recover_item now hactive, hsuperseded]
          rfl
        · rw [recover_item now hactive, hsuperseded]
          decide
      · refine hc.congr rfl (by rw [recover_item now hactive]) ?_
        rw [recover_attempts now hactive]
        exact map_rewrite_eq_self fun a _ => by simp [hsuperseded]
  | wake | resolve | correlate => exact hc.congr rfl rfl rfl

end Work

/-! ## Runs without waits -/

/-- Whether a call reports a wait for a running attempt of the item. -/
def Op.waits (id : GoString) (s : Store) : Op → Bool
  | .complete attemptID result _ => decide (result.outcome = .waiting) &&
      (s.executorAttempts.find? attemptID).any
        (fun a => decide (a.workItemID = id) && decide (a.state = .running))
  | _ => false

/-- The call reports no such wait. -/
def Op.NoWait (id : GoString) (s : Store) (op : Op) : Prop := op.waits id s = false

instance (id : GoString) (s : Store) (op : Op) : Decidable (op.NoWait id s) :=
  inferInstanceAs (Decidable (_ = _))

section NoWait

variable {lib : LedgerLib} {id : GoString} {k : Nat} {s s' : Store}

/-- A committed call completes an attempt of an item exactly when its step reports. -/
theorem Op.May.completes {op : Op} {kind : Option Work.Kind} (h : op.May s id kind)
    (hexec : op.exec lib s = .ok s') (outcome : ExecutorOutcome) :
    op.completes lib s id outcome = kind.any (Work.Kind.reports outcome) := by
  cases op with
  | complete attemptID result now =>
    simp only [Op.May] at h
    subst h
    simp only [Op.completes, hexec, Except.toOption, Option.isSome_some, Bool.and_true]
    split
    · next hany => rw [hany, Bool.and_true, Option.any_some, Work.Kind.reports]
    · next hany => rw [Bool.eq_false_of_not_eq_true hany, Bool.and_false, Option.any_none]
  | claim tie token now =>
    rcases h with rfl | rfl | rfl <;> rfl
  | resolveRelease | recordAuthoritativePRCorrelation =>
    simp only [Op.May] at h
    subst h
    split <;> rfl
  | _ =>
    simp only [Op.May] at h
    rcases h with rfl | rfl <;> rfl

/-- Only a running attempt can be completed. -/
theorem Op.NoWait.completes {op : Op} (h : op.NoWait id s) (hexec : op.exec lib s = .ok s') :
    op.completes lib s id .waiting = false := by
  cases op with
  | complete attemptID result now =>
    obtain ⟨attempt, -, hattempt, hrunning, -⟩ := complete_eq_ok.mp hexec
    have hwaits : (decide (result.outcome = .waiting) && decide (attempt.workItemID = id)) =
        false := by
      simpa only [Op.NoWait, Op.waits, hattempt, Option.any_some, hrunning, decide_true,
        Bool.and_true] using h
    simp only [Op.completes, hattempt, Option.any_some, hwaits, Bool.false_and]
  | _ => rfl

theorem retry_of_validate {definition : RouteDefinition}
    (h : definition.validate lib = .ok ()) : 1 ≤ definition.retry.maxAttempts ∧
      (definition.retry.backoff.length : Int) = definition.retry.maxAttempts - 1 := by
  simp only [RouteDefinition.validate, Dispatcher.bind_eq_ok, Dispatcher.require_eq_ok] at h
  obtain ⟨-, -, -, -, -, -, -, -, -, -, -, -, -, -, -, -, -, -, h⟩ := h
  split at h
  · cases h
  · simp only [Dispatcher.bind_eq_ok, Dispatcher.require_eq_ok] at h
    obtain ⟨-, -, -, hmax, -, hbackoff, -⟩ := h
    exact ⟨hmax.1, hbackoff⟩

/-- Along a run without waits the failures of an item are counted by its attempts. -/
theorem Tally.counted (h : Tally lib (Op.NoWait id) id k s) :
    (s.work id = none → k = 0) ∧ ∀ w, s.work id = some w → w.Counted k := by
  induction h with
  | empty => exact ⟨fun _ => rfl, fun w hw => by cases hw⟩
  | @step k s op h hop ih =>
    obtain ⟨hnone, hcounted⟩ := ih
    rcases he : op.exec lib s with err | s'
    · have hcompletes : op.completes lib s id .retryableFailure = false := by
        cases op <;> simp_all [Op.completes, Except.toOption]
      rw [Op.step_of_error he, hcompletes, if_neg (by simp), Nat.add_zero]
      exact ⟨hnone, hcounted⟩
    · rw [Op.step_of_exec he]
      obtain ⟨kind, hmay, hevolves⟩ := Op.evolves h.reachable.sound he id
      rw [hmay.completes he]
      have hnoWait : kind.any (Work.Kind.reports .waiting) = false := by
        rw [← hmay.completes he]
        exact hop.completes he
      generalize hv : s.work id = v at hevolves hnone hcounted
      generalize hv' : s'.work id = v' at hevolves
      cases hevolves with
      | same =>
        rw [Option.any_none, if_neg (by simp), Nat.add_zero]
        exact ⟨hnone, hcounted⟩
      | admitted snapshot e binding token now hvalid _ =>
        rw [Option.any_none, if_neg (by simp), Nat.add_zero, hnone rfl]
        refine ⟨fun hfalse => (by cases hfalse), fun w hw => ?_⟩
        cases hw
        have hmax := (retry_of_validate hvalid).1
        refine ⟨⟨snapshot.terms, rfl, fun hdead => (by cases hdead), fun _ => ?_⟩, fun _ => rfl⟩
        have hterms : snapshot.terms.definition = snapshot.definition := rfl
        rw [hterms]
        push_cast
        omega
      | @step kind w w' hstep =>
        refine ⟨fun hfalse => (by cases hfalse), fun u hu => ?_⟩
        cases hu
        exact (hcounted w rfl).step hstep (h.reachable.sound.works hv) hnoWait

theorem retries_counted (h : Tally lib (Op.NoWait id) id k s) {r : WorkItemRow}
    {q : RouteSnapshotRow} (hr : s.workItems.find? id = some r)
    (hq : s.routeSnapshots.find? r.routeSnapshotID = some q) :
    (r.state = .deadLetter ↔ (k : Int) = q.definition.retry.maxAttempts) ∧
    ∀ attemptID result t s' a, complete lib attemptID result t s = .ok s' →
      s.executorAttempts.find? attemptID = some a → a.workItemID = id →
      result.outcome = .retryableFailure → ∃ r', s'.workItems.find? id = some r' ∧
        ((k : Int) + 1 = q.definition.retry.maxAttempts → r'.state = .deadLetter) ∧
        ((k : Int) + 1 < q.definition.retry.maxAttempts → r'.state = .waiting ∧
          ∃ delay, q.definition.retry.backoff[k]? = some delay ∧
            r'.nextAttemptAt = some (unixMilli (t + delay))) := by
  obtain ⟨w, hw, rfl⟩ := Store.work_of_find? hr
  have hs := h.reachable.sound
  have hcounted := h.counted.2 w hw
  have hterms : w.terms = some q.terms := by
    rw [(Store.work_eq_some.mp hw).2.1, Store.termsOf, hq, Option.map_some]
  constructor
  · obtain ⟨t, ht, hdead, hbelow⟩ := hcounted.budget
    rw [hterms] at ht
    cases ht
    refine ⟨hdead, fun heq => ?_⟩
    by_contra hne
    exact absurd heq (ne_of_lt (hbelow hne))
  · intro attemptID result t s' a hexec ha hid hretryable
    subst hid
    obtain ⟨attempt, item, hattempt, hrunning, hitem, hcases⟩ := complete_eq_ok.mp hexec
    rw [ha] at hattempt
    cases hattempt
    rw [hr] at hitem
    cases hitem
    have hmem := Store.mem_attempts (Table.mem_of_find? ha) hw
    -- Only active work has a running attempt.
    have hactive : w.item.state = .active := by
      by_contra hne
      exact ((hs.works hw).shape.idle hne).2 a hmem hrunning
    obtain ⟨settlement, hsettle, hr'⟩ := completion_retry hexec ha hr hactive hq
    have hnumber := (hcounted.settle (hs.works hw) hmem hrunning hactive hterms hsettle
      (by simp [hretryable])).1
    rw [Store.id_of_work hw] at hr'
    refine ⟨_, hr', ?_⟩
    have hstate : (w.item.settle settlement result t).state = settlement.state := rfl
    have hnext : (w.item.settle settlement result t).nextAttemptAt = settlement.nextAttemptAt := rfl
    rw [hstate, hnext]
    rw [hnumber] at hsettle
    rcases settle_retryable hsettle hretryable with ⟨hmax, hdead⟩ | ⟨hmax, hwaiting, hdelay⟩
    · refine ⟨fun _ => hdead, fun hless => ?_⟩
      push_cast at hmax
      omega
    · refine ⟨fun heq => ?_, fun _ => ⟨hwaiting, hdelay⟩⟩
      push_cast at hmax
      omega

end NoWait

namespace Sample

/-- The item's first attempt fails, and a restart interrupts its second. -/
def failedOnce : List Op :=
  [activate, deliver 1 (lit "octo/repo") (lit "1") (lit "a") 0, claim 1 0,
    report 1 .retryableFailure 0, claim 2 (2 * second), .recoverInterrupted (3 * second),
    claim 3 (3 * second)]

/-- The item waits twice before it fails for the first time. -/
def waitsThenFails : List Op :=
  [activate, deliver 1 (lit "octo/repo") (lit "1") (lit "a") 0, claim 1 0, report 1 .waiting 0,
    claim 2 (10 * second), report 2 .waiting (10 * second), claim 3 (20 * second),
    report 3 .retryableFailure (20 * second)]

theorem tally_after {ok : Store → Op → Prop} {ops : List Op} (id : GoString)
    (hops : Meets lib ok ops Store.empty) :
    Tally lib ok id (failures lib id ops Store.empty) (after ops) := by
  have hnone : Tally lib ok id 0 Store.empty := .empty
  have h := hnone.run hops
  rwa [Nat.zero_add] at h

end Sample

open Sample in
/-- One failure and one restart: the third claim is of the second attempt, and the budget of
three is not used up. -/
theorem retries_counted_failedOnce :
    ∃ r q, (after failedOnce).workItems.find? (itemID 1) = some r ∧
      (after failedOnce).routeSnapshots.find? r.routeSnapshotID = some q ∧
      r.state = .active ∧ q.definition.retry.maxAttempts = 3 ∧
      (r.state = .deadLetter ↔ ((1 : Nat) : Int) = q.definition.retry.maxAttempts) := by
  have hrows : ((after failedOnce).workItems.find? (itemID 1)).any (fun r =>
      ((after failedOnce).routeSnapshots.find? r.routeSnapshotID).any fun q =>
        decide (r.state = .active ∧ q.definition.retry.maxAttempts = 3)) = true := by
    decide +kernel
  have hcount : failures lib (itemID 1) failedOnce Store.empty = 1 := by
    decide +kernel
  obtain ⟨r, hr, hsnapshot⟩ := (Option.any_eq_true _ _).mp hrows
  obtain ⟨q, hq, hfacts⟩ := (Option.any_eq_true _ _).mp hsnapshot
  obtain ⟨hstate, hmax⟩ := of_decide_eq_true hfacts
  have htally : Tally lib (Op.NoWait (itemID 1)) (itemID 1) 1 (after failedOnce) :=
    hcount ▸ tally_after (itemID 1) (by decide +kernel)
  exact ⟨r, q, hr, hq, hstate, hmax, (retries_counted htally hr hq).1⟩

open Sample in
/-- Two waits use up two of the three attempts: the first failure makes a dead letter. -/
theorem deadLetter_after_one_failure :
    Tally lib (fun _ _ => True) (itemID 1) 1 (after waitsThenFails) ∧
    ((after waitsThenFails).workItems.find? (itemID 1)).any (fun r =>
      ((after waitsThenFails).routeSnapshots.find? r.routeSnapshotID).any fun q =>
        decide (r.state = .deadLetter ∧ q.definition.retry.maxAttempts = 3)) = true := by
  have hcount : failures lib (itemID 1) waitsThenFails Store.empty = 1 := by
    decide +kernel
  exact ⟨hcount ▸ tally_after (itemID 1) (by decide +kernel), by decide +kernel⟩

end SignalPlane.Workledger
