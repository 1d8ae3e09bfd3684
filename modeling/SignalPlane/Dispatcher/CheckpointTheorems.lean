/-
SignalPlane.Dispatcher.CheckpointTheorems — what the stored stream position
says about the deliveries below it.

`Record` moves the checkpoint to the largest sequence recorded so far, and a
restarted consumer reads from the sequence after it. The checkpoint is sound
when no delivered message below it is still without its record: such a
message is never read again. `handle` is `Process` with a failure allowed at
every store call, and `Consumer` remembers which sequences were delivered and
which were settled, that is recorded or terminated as malformed.

A failed message stays below the checkpoint as soon as a later one is
recorded. `Ordered` is the condition on a delivery that excludes this, and a
delivery keeps a sound checkpoint sound exactly when it meets it
(`checkpoint_sound_iff`).
-/
import SignalPlane.Dispatcher.CIEvent
import SignalPlane.Dispatcher.Recovery
import SignalPlane.Dispatcher.Run

namespace SignalPlane.Dispatcher

/-! ## `Process` with failing store calls -/

/-- The database errors of one call of `Process`. -/
structure Faults where
  event : Option GoError := none
  wake : Option GoError := none
  record : Option GoError := none

/-- A store call that may meet a database error; its transaction is rolled back. -/
def failing {α : Type} (fault : Option GoError) (op : Store → Except GoError α) (s : Store) :
    Except GoError α :=
  match fault with
  | none => op s
  | some e => .error e

/-- The wake-ups of `process`, and the store they leave. -/
def persistWakes (faults : Faults) (env : Env) (signal : Signal) (now : Int) (s : Store) :
    Except GoError Unit × Store :=
  if routeOwnsRepository env.routes signal.nameSpace then
    match (if isCIWakeEvent signal.sourceEvent then
        failing faults.event (recordCIEvent env.lib signal now) s
      else .ok (false, s)) with
    | .error e => (.error (e.wrap "persist CI wake-up"), s)
    | .ok (_, s₁) =>
      match failing faults.wake (recordRepositoryRunExternalWake env.lib signal now) s₁ with
      | .error e => (.error (e.wrap "persist repository run external wake-up"), s₁)
      | .ok (_, s₂) => (.ok (), s₂)
  else (.ok (), s)

/-- The `Record` call of `process`. -/
def persistDelivery (faults : Faults) (env : Env) (signal : Signal) (streamSequence : Nat)
    (now : Int) : Store → Except GoError Store :=
  let selected := select env.lib signal env.routes
  failing faults.record (record [] signal.sourceDeliveryID (selectOutcome selected) streamSequence
    selected.toOption now)

/-- What became of a message. -/
inductive Fate where
  /-- The stream sequence could not be read. -/
  | unread
  /-- Malformed JSON, terminated at the stream. -/
  | terminated
  /-- A store call failed. -/
  | failed
  /-- `Record` committed, whether or not the acknowledgement went through. -/
  | recorded
  deriving DecidableEq, Repr

/-- What a call of `Process` leaves. -/
structure Handled where
  fate : Fate
  result : Except GoError Unit
  store : Store

/-- `Process`, with the given database errors. -/
def handle (faults : Faults) (env : Env) (delivery : Delivery) (now : Int) (s : Store) : Handled :=
  match delivery.streamSequence with
  | .error e => ⟨.unread, .error (e.wrap "read JetStream delivery metadata"), s⟩
  | .ok streamSequence =>
    if streamSequence = 0 then
      ⟨.unread, .error ((newError "stream sequence is zero").wrap
        "read JetStream delivery metadata"), s⟩
    else
      match env.lib.unmarshalSignal delivery.data with
      | .error e => ⟨.terminated, .error (e.wrap "decode replayed signal"), s⟩
      | .ok signal =>
        match persistWakes faults env signal now s with
        | (.error e, s₁) => ⟨.failed, .error e, s₁⟩
        | (.ok (), s₁) =>
          match persistDelivery faults env signal streamSequence now s₁ with
          | .error e => ⟨.failed, .error (e.wrap "persist delivery"), s₁⟩
          | .ok s' =>
            ⟨.recorded, delivery.ackSync.mapError (GoError.wrap "acknowledge delivery"), s'⟩

/-- Without database errors the wake-ups are those of `process`. -/
theorem persistWakes_eq_exec (env : Env) (o : BrokerAnswers) (signal : Signal) (now : Int)
    (s : Store) :
    ((recordWakes env signal now).exec o s).value = (persistWakes {} env signal now s).1 ∧
      ((recordWakes env signal now).exec o s).store = (persistWakes {} env signal now s).2 := by
  unfold recordWakes persistWakes
  by_cases howned : routeOwnsRepository env.routes signal.nameSpace
  · simp only [if_pos howned, failing]
    by_cases hci : isCIWakeEvent signal.sourceEvent
    · simp only [if_pos hci, Workflow.exec_bind, Workflow.atomic, Workflow.exec]
      cases recordCIEvent env.lib signal now s with
      | error e => exact ⟨rfl, rfl⟩
      | ok r =>
        dsimp only [Workflow.exec]
        simp only [Workflow.exec_bind, Workflow.exec]
        cases recordRepositoryRunExternalWake env.lib signal now r.2 <;> exact ⟨rfl, rfl⟩
    · simp only [if_neg hci, Workflow.exec_bind, Workflow.exec_pure, Workflow.atomic,
        Workflow.exec]
      cases recordRepositoryRunExternalWake env.lib signal now s <;> exact ⟨rfl, rfl⟩
  · simp [if_neg howned]

/-- Without database errors `handle` is `process` as a worker runs it. -/
theorem handle_eq_exec (env : Env) (o : BrokerAnswers) (delivery : Delivery) (now : Int)
    (s : Store) :
    ((process env [] delivery now).exec o s).value = (handle {} env delivery now s).result ∧
      ((process env [] delivery now).exec o s).store = (handle {} env delivery now s).store := by
  unfold process handle
  cases delivery.streamSequence with
  | error e => exact ⟨rfl, rfl⟩
  | ok streamSequence =>
    dsimp only
    split
    · exact ⟨rfl, rfl⟩
    cases env.lib.unmarshalSignal delivery.data with
    | error e => exact ⟨rfl, rfl⟩
    | ok signal =>
      dsimp only
      obtain ⟨hvalue, hstore⟩ := persistWakes_eq_exec env o signal now s
      simp only [Workflow.exec_bind, hvalue, hstore]
      obtain ⟨woken, s1⟩ := persistWakes {} env signal now s
      cases woken with
      | error e => exact ⟨rfl, rfl⟩
      | ok _ =>
        simp only [persistDelivery, failing, Workflow.exec_bind, Workflow.commit, Workflow.exec]
        cases record [] signal.sourceDeliveryID _ streamSequence _ now s1 with
        | error e => exact ⟨rfl, rfl⟩
        | ok s' => cases delivery.ackSync <;> exact ⟨rfl, rfl⟩

/-! ## The checkpoint -/

theorem failing_eq_ok {α : Type} {fault : Option GoError} {op : Store → Except GoError α}
    {s : Store} {a : α} (h : failing fault op s = .ok a) : op s = .ok a := by
  cases fault with
  | none => exact h
  | some e => cases h

/-- The wake-ups leave the checkpoint alone. -/
theorem persistWakes_checkpoint (faults : Faults) (env : Env) (signal : Signal) (now : Int)
    (s : Store) : (persistWakes faults env signal now s).2.checkpoint = s.checkpoint := by
  unfold persistWakes
  split
  · have hevent : ∀ b s1, (if isCIWakeEvent signal.sourceEvent then
        failing faults.event (recordCIEvent env.lib signal now) s else .ok (false, s)) =
          .ok (b, s1) → s1.checkpoint = s.checkpoint := by
      intro b s1 h
      split at h
      · obtain ⟨_, _, _, rfl⟩ := recordCIEvent_frame (failing_eq_ok h)
        rfl
      · cases h
        rfl
    split
    · rfl
    · next h =>
      have hsame := hevent _ _ h
      split
      · exact hsame
      · next h' =>
        obtain ⟨_, _, rfl⟩ := recordRepositoryRunExternalWake_frame (failing_eq_ok h')
        exact hsame
  · rfl

/-- A committed record moves the checkpoint to its sequence, or leaves it beyond. -/
theorem record_checkpoint {recoveryID deliveryID outcome : GoString} {streamSequence : Nat}
    {candidate : Option Candidate} {now : Int} {s s' : Store}
    (h : record recoveryID deliveryID outcome streamSequence candidate now s = .ok s') :
    s'.checkpoint = max s.checkpoint streamSequence := by
  obtain ⟨-, -, rfl⟩ := record_eq_ok.mp h
  rfl

/-! ## A consumer -/

/-- A consumer of the stream: its store, the sequences delivered to it, and those whose message
was recorded or terminated. -/
structure Consumer where
  store : Store
  delivered : List Nat := []
  settled : List Nat := []

/-- Every delivered sequence at or below the checkpoint is settled: a restart at
`RecoverySequence` reads all others again. -/
def Consumer.Sound (w : Consumer) : Prop :=
  ∀ n ∈ w.delivered, n ≤ w.store.checkpoint → n ∈ w.settled

instance (w : Consumer) : Decidable w.Sound :=
  inferInstanceAs (Decidable (∀ n ∈ w.delivered, n ≤ w.store.checkpoint → n ∈ w.settled))

/-- A delivery handed to `Process`, its time and the database errors it meets. -/
structure Handling where
  delivery : Delivery
  now : Int
  faults : Faults := {}

/-- The consumer after the delivery. -/
def Handling.step (env : Env) (w : Consumer) (h : Handling) : Consumer :=
  let handled := handle h.faults env h.delivery h.now w.store
  match h.delivery.streamSequence with
  | .error _ => { w with store := handled.store }
  | .ok n =>
    if handled.fate = .unread then { w with store := handled.store }
    else
      { store := handled.store
        delivered := n :: w.delivered
        settled := if handled.fate = .failed then w.settled else n :: w.settled }

/-- The consumer after a sequence of deliveries. -/
def Handling.run (env : Env) (hs : List Handling) (w : Consumer) : Consumer :=
  hs.foldl (Handling.step env) w

/-- The store calls of the delivery all succeed. -/
def Handling.Persists (h : Handling) (env : Env) (signal : Signal) (n : Nat) (s : Store) : Prop :=
  (persistWakes h.faults env signal h.now s).1 = .ok () ∧
    ∃ s', persistDelivery h.faults env signal n h.now
      (persistWakes h.faults env signal h.now s).2 = .ok s'

/-- The condition on a delivery and the consumer it finds. A message whose store calls succeed
comes when every smaller delivered sequence is settled; one with a failing store call is above
the checkpoint, or was settled before. -/
def Handling.Ordered (h : Handling) (env : Env) (w : Consumer) : Prop :=
  ∀ n signal, h.delivery.streamSequence = .ok n → n ≠ 0 →
    env.lib.unmarshalSignal h.delivery.data = .ok signal →
      (h.Persists env signal n w.store → ∀ m ∈ w.delivered, m < n → m ∈ w.settled) ∧
      (¬ h.Persists env signal n w.store → n ≤ w.store.checkpoint → n ∈ w.settled)

/-- Every delivery of the sequence is ordered in the state it finds. -/
def Handling.OrderedRun (env : Env) : List Handling → Consumer → Prop
  | [], _ => True
  | h :: hs, w => h.Ordered env w ∧ OrderedRun env hs (h.step env w)

/-! ## One delivery -/

section Step

variable {env : Env} {h : Handling} {w : Consumer} {n : Nat} {signal : Signal}

theorem Handling.step_unread (hn : ∀ n, h.delivery.streamSequence = .ok n → n = 0) :
    h.step env w = w := by
  unfold Handling.step handle
  cases hseq : h.delivery.streamSequence with
  | error e => rfl
  | ok n =>
    obtain rfl := hn n hseq
    rfl

theorem Handling.step_terminated {e : GoError} (hseq : h.delivery.streamSequence = .ok n)
    (hn : n ≠ 0) (hdata : env.lib.unmarshalSignal h.delivery.data = .error e) :
    h.step env w =
      { store := w.store, delivered := n :: w.delivered, settled := n :: w.settled } := by
  simp [Handling.step, handle, hseq, hdata, hn]

theorem Handling.step_failed (hseq : h.delivery.streamSequence = .ok n) (hn : n ≠ 0)
    (hdata : env.lib.unmarshalSignal h.delivery.data = .ok signal)
    (hfails : ¬ h.Persists env signal n w.store) :
    (h.step env w).store.checkpoint = w.store.checkpoint ∧
      (h.step env w).delivered = n :: w.delivered ∧ (h.step env w).settled = w.settled := by
  have hwakes := persistWakes_checkpoint h.faults env signal h.now w.store
  simp only [Handling.step, handle, hseq, hdata, if_neg hn]
  simp only [Handling.Persists] at hfails
  generalize persistWakes h.faults env signal h.now w.store = woken at hwakes hfails
  obtain ⟨result, s1⟩ := woken
  cases result with
  | error e => exact ⟨hwakes, rfl, rfl⟩
  | ok _ =>
    cases hrecord : persistDelivery h.faults env signal n h.now s1 with
    | error e => exact ⟨by simpa [hrecord] using hwakes, by simp [hrecord], by simp [hrecord]⟩
    | ok s' => exact absurd ⟨rfl, s', hrecord⟩ hfails

theorem Handling.step_recorded (hseq : h.delivery.streamSequence = .ok n) (hn : n ≠ 0)
    (hdata : env.lib.unmarshalSignal h.delivery.data = .ok signal)
    (hpersists : h.Persists env signal n w.store) :
    (h.step env w).store.checkpoint = max w.store.checkpoint n ∧
      (h.step env w).delivered = n :: w.delivered ∧ (h.step env w).settled = n :: w.settled := by
  have hwakes := persistWakes_checkpoint h.faults env signal h.now w.store
  obtain ⟨hwoken, s', hrecord⟩ := hpersists
  simp only [Handling.step, handle, hseq, hdata, if_neg hn]
  generalize persistWakes h.faults env signal h.now w.store = woken at hwakes hwoken hrecord
  obtain ⟨result, s1⟩ := woken
  obtain rfl : result = .ok () := hwoken
  have hcheckpoint : s'.checkpoint = max s1.checkpoint n :=
    record_checkpoint (failing_eq_ok hrecord)
  simp only [hrecord]
  refine ⟨?_, rfl, rfl⟩
  rw [← hwakes]
  exact hcheckpoint

/-- A delivery keeps a sound checkpoint sound exactly when it is ordered. -/
theorem Handling.step_sound_iff (hw : w.Sound) : (h.step env w).Sound ↔ h.Ordered env w := by
  by_cases hread : ∃ n, h.delivery.streamSequence = .ok n ∧ n ≠ 0
  case neg =>
    push Not at hread
    rw [Handling.step_unread hread]
    exact iff_of_true hw fun n _ hseq hn => absurd (hread n hseq) hn
  obtain ⟨n, hseq, hn⟩ := hread
  cases hdata : env.lib.unmarshalSignal h.delivery.data with
  | error e =>
    rw [Handling.step_terminated hseq hn hdata]
    refine iff_of_true (fun m hm hle => ?_) fun _ _ _ _ hok => by simp [hdata] at hok
    rcases List.mem_cons.mp hm with rfl | hm
    · exact List.mem_cons_self
    · exact List.mem_cons_of_mem _ (hw m hm hle)
  | ok signal =>
    -- The condition speaks about this sequence and this signal only.
    have hordered : h.Ordered env w ↔
        (h.Persists env signal n w.store → ∀ m ∈ w.delivered, m < n → m ∈ w.settled) ∧
        (¬ h.Persists env signal n w.store → n ≤ w.store.checkpoint → n ∈ w.settled) := by
      constructor
      · intro hord
        exact hord n signal hseq hn hdata
      · intro hord m signal' hm _ hsignal
        obtain rfl : n = m := Except.ok.inj (hseq.symm.trans hm)
        obtain rfl : signal = signal' := Except.ok.inj (hdata.symm.trans hsignal)
        exact hord
    rw [hordered]
    by_cases hpersists : h.Persists env signal n w.store
    · obtain ⟨hcheckpoint, hdelivered, hsettled⟩ := Handling.step_recorded hseq hn hdata hpersists
      simp only [Consumer.Sound, hcheckpoint, hdelivered, hsettled, hpersists, not_true_eq_false,
        forall_const, false_imp_iff, and_true, List.mem_cons]
      constructor
      · intro hsound m hm hlt
        exact (hsound m (.inr hm) (le_max_of_le_right hlt.le)).resolve_left hlt.ne
      · rintro hbelow m (rfl | hm) hle
        · exact .inl rfl
        · rcases lt_trichotomy m n with hlt | heq | hgt
          · exact .inr (hbelow m hm hlt)
          · exact .inl heq
          · exact .inr (hw m hm ((le_max_iff.mp hle).resolve_right (by omega)))
    · obtain ⟨hcheckpoint, hdelivered, hsettled⟩ := Handling.step_failed hseq hn hdata hpersists
      simp only [Consumer.Sound, hcheckpoint, hdelivered, hsettled, hpersists, false_imp_iff,
        not_false_eq_true, forall_const, true_and, List.forall_mem_cons]
      exact and_iff_left hw

/-- A message above the checkpoint, with everything below it settled, is ordered. -/
theorem Handling.ordered_of_next (hseq : h.delivery.streamSequence = .ok n)
    (hsettled : ∀ m ∈ w.delivered, m < n → m ∈ w.settled) (hnext : w.store.checkpoint < n) :
    h.Ordered env w := by
  intro m signal hm _ _
  obtain rfl : n = m := Except.ok.inj (hseq.symm.trans hm)
  exact ⟨fun _ => hsettled, fun _ hle => absurd hnext (by omega)⟩

end Step

/-! ## Every sequence of deliveries -/

theorem Handling.run_sound {env : Env} {hs : List Handling} {w : Consumer} (hw : w.Sound)
    (hordered : OrderedRun env hs w) : (Handling.run env hs w).Sound := by
  induction hs generalizing w with
  | nil => exact hw
  | cons h hs ih => exact ih ((Handling.step_sound_iff hw).mpr hordered.1) hordered.2

/-- After any sequence of ordered deliveries the checkpoint is sound, and the next delivery keeps
it sound exactly when it is ordered too. -/
theorem checkpoint_sound_iff (env : Env) (hs : List Handling) (w : Consumer) (hw : w.Sound)
    (hordered : Handling.OrderedRun env hs w) :
    (Handling.run env hs w).Sound ∧ ∀ h : Handling,
      (h.step env (Handling.run env hs w)).Sound ↔ h.Ordered env (Handling.run env hs w) :=
  have hrun := Handling.run_sound hw hordered
  ⟨hrun, fun _ => Handling.step_sound_iff hrun⟩

namespace Sample

/-- Delivery number `n`, with the given database errors. -/
def handling (n : Nat) (faults : Faults) : Handling :=
  { delivery := ⟨.ok n, lit "delivery" ++ GoString.decimal n, .ok ()⟩
    now := 0
    faults := faults }

/-- A consumer that has read nothing. -/
def newConsumer : Consumer := { store := .empty }

/-- `Record` meets a locked database. -/
def locked : Faults := { record := some unavailable }

end Sample

open Sample in
theorem checkpoint_sound_iff_redelivered :
    Handling.OrderedRun env [handling 1 {}, handling 2 locked, handling 2 {}] newConsumer ∧
      (Handling.run env [handling 1 {}, handling 2 locked, handling 2 {}] newConsumer).Sound ∧
      recoverySequence (Handling.run env [handling 1 {}, handling 2 locked, handling 2 {}]
        newConsumer).store = 3 := by
  have hrun : Handling.OrderedRun env [handling 1 {}, handling 2 locked, handling 2 {}]
      newConsumer :=
    ⟨Handling.ordered_of_next rfl (by decide +kernel) (by decide +kernel),
      Handling.ordered_of_next rfl (by decide +kernel) (by decide +kernel),
      Handling.ordered_of_next rfl (by decide +kernel) (by decide +kernel), trivial⟩
  exact ⟨hrun, (checkpoint_sound_iff env _ newConsumer (by decide +kernel) hrun).1,
    by decide +kernel⟩

open Sample in
/-- Message 1 fails at `Record` and message 2 is recorded: the restarted consumer begins at 3. -/
theorem checkpoint_skips_failed :
    newConsumer.Sound ∧ ¬ (Handling.run env [handling 1 locked, handling 2 {}] newConsumer).Sound ∧
      recoverySequence (Handling.run env [handling 1 locked, handling 2 {}] newConsumer).store =
        3 ∧
      (Handling.run env [handling 1 locked, handling 2 {}] newConsumer).store.deliveries.find?
        (lit "delivery1") = none := by
  decide +kernel

end SignalPlane.Dispatcher
