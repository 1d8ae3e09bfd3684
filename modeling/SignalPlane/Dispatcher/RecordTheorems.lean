/-
SignalPlane.Dispatcher.RecordTheorems — recorded deliveries in any order.

`Record` is called once per delivered message, and a consumer may deliver a
message again, late, or in another order. Three things make a repeated call
harmless: a known delivery id, a known semantic key, and the maximum that the
checkpoint takes. The lemmas about `Store.recordedAll` say what a list of
accepted calls leaves in terms of which calls it contains; order and
repetition are then irrelevant, as long as one delivery id does not come with
two candidates. Accepted are the calls with a positive sequence that the driver
takes, below 2^63, and with a fitting candidate. The replay evidence of a
recovery, which `CompleteRecovery` counts, is one row per sequence for the same
reason.
-/
import SignalPlane.Dispatcher.Process
import SignalPlane.Dispatcher.Recovery

namespace SignalPlane.Dispatcher

/-! ## Calls -/

/-- The arguments of `Record` and, next to the recovery id, of `RecordRecovery`. -/
structure RecordCall where
  deliveryID : GoString
  outcome : GoString := []
  streamSequence : Nat
  candidate : Option Candidate
  now : Int := 0

/-- The arguments pass the checks of `record`, and the driver takes the sequence. -/
def RecordCall.accepted (c : RecordCall) : Bool :=
  c.streamSequence ≠ 0 && c.streamSequence < 2 ^ 63 &&
    c.candidate.all fun x => c.deliveryID ≠ [] && x.deliveryID = c.deliveryID

/-- The store after a call, whether it succeeds or not. -/
def RecordCall.step (recoveryID : GoString) (s : Store) (c : RecordCall) : Store :=
  match record recoveryID c.deliveryID c.outcome c.streamSequence c.candidate c.now s with
  | .ok s' => s'
  | .error _ => s

/-- The store after a list of calls. -/
def recordAll (recoveryID : GoString) (calls : List RecordCall) (s : Store) : Store :=
  calls.foldl (RecordCall.step recoveryID) s

/-- The calls with one nonempty delivery id carry one candidate. -/
def Consistent (calls : List RecordCall) : Prop :=
  ∀ c ∈ calls, ∀ d ∈ calls, c.deliveryID ≠ [] → c.deliveryID = d.deliveryID →
    c.candidate = d.candidate

/-- The semantic keys of the jobs. -/
def Store.jobKeys (s : Store) : List GoString := s.jobs.rows.map JobRow.semanticKey

/-- Calls under `recoveryID` are not refused for it: it is empty, or an open recovery. -/
def Store.Records (s : Store) (recoveryID : GoString) : Prop :=
  recoveryID = [] ∨ s.recoveryRuns.hits recoveryID (fun r => r.status = .incomplete) = true

/-- The call has the candidate `x`, and the store does not know its delivery id. -/
def RecordCall.Brings (c : RecordCall) (s : Store) (x : Candidate) : Prop :=
  c.candidate = some x ∧ s.deliveries.find? c.deliveryID = none

/-! ## Accepted calls -/

/-- The store after an accepted call. -/
def Store.recorded (recoveryID : GoString) (s : Store) (c : RecordCall) : Store :=
  { s with
    deliveries := s.withDelivery c.deliveryID c.outcome c.streamSequence c.candidate c.now
    jobs := s.withCandidate c.deliveryID c.candidate c.now
    checkpoint := max s.checkpoint c.streamSequence
    recoveryReplayed := s.withReplay recoveryID c.streamSequence }

/-- The store after accepted calls. -/
abbrev Store.recordedAll (recoveryID : GoString) (calls : List RecordCall) (s : Store) : Store :=
  calls.foldl (Store.recorded recoveryID) s

variable {recoveryID : GoString} {s : Store} {c : RecordCall} {calls : List RecordCall}

theorem RecordCall.accepted_iff : c.accepted = true ↔ c.streamSequence ≠ 0 ∧
    c.streamSequence < 2 ^ 63 ∧
    ∀ x ∈ c.candidate, c.deliveryID ≠ [] ∧ x.deliveryID = c.deliveryID := by
  simp [accepted, Option.all_eq_true, and_assoc]

theorem record_refuses (h : c.accepted = false) : ∃ e,
    record recoveryID c.deliveryID c.outcome c.streamSequence c.candidate c.now s = .error e := by
  cases hrecord : record recoveryID c.deliveryID c.outcome c.streamSequence c.candidate c.now s with
  | error e => exact ⟨e, rfl⟩
  | ok s' =>
    have haccepted := RecordCall.accepted_iff.mpr (record_eq_ok.mp hrecord).1
    rw [h] at haccepted
    cases haccepted

/-- A call that is not accepted changes nothing. -/
theorem recordAll_eq (hopen : s.Records recoveryID) :
    recordAll recoveryID calls s = s.recordedAll recoveryID (calls.filter RecordCall.accepted) := by
  induction calls generalizing s with
  | nil => rfl
  | cons c calls ih =>
    by_cases h : c.accepted = true
    · have hstep : c.step recoveryID s = s.recorded recoveryID c := by
        unfold RecordCall.step
        rw [record_eq_ok.mpr ⟨RecordCall.accepted_iff.mp h, hopen, rfl⟩]
        rfl
      rw [List.filter_cons_of_pos h, recordAll, List.foldl_cons, hstep]
      exact @ih (s.recorded recoveryID c) hopen
    · have hstep : c.step recoveryID s = s := by
        obtain ⟨e, he⟩ := @record_refuses recoveryID s c (Bool.eq_false_iff.mpr h)
        rw [RecordCall.step, he]
      rw [List.filter_cons_of_neg h, recordAll, List.foldl_cons, hstep]
      exact ih hopen

/-- `INSERT … ON CONFLICT(semantic_key) DO NOTHING`, seen by the keys. -/
theorem insertJob_jobKeys (s : Store) (x : Candidate) (now : Int) :
    (s.insertJob x now).jobKeys =
      if x.semanticKey ∈ s.jobKeys then s.jobKeys else s.jobKeys ++ [x.semanticKey] := by
  have hknown : s.jobs.rows.any (fun r => r.semanticKey = x.semanticKey) = true ↔
      x.semanticKey ∈ s.jobKeys := by
    simp [Store.jobKeys]
  unfold Store.insertJob
  by_cases h : x.semanticKey ∈ s.jobKeys
  · rw [if_pos (hknown.mpr h), if_pos h]
  · rw [if_neg (mt hknown.mp h), if_neg h, Store.jobKeys, Table.rows_insert]
    · rw [List.map_append]
      rfl
    -- The id of the new row is larger than every id in use.
    · exact Table.find?_eq_none.mpr fun r hr => (lt_nextID (List.mem_map_of_mem hr)).ne

/-- The keys after a call: its candidate counts under a new delivery id. -/
theorem recorded_jobKeys (recoveryID : GoString) (s : Store) (c : RecordCall) :
    (s.recorded recoveryID c).jobKeys = match c.candidate, s.deliveries.find? c.deliveryID with
      | some x, none => (s.insertJob x c.now).jobKeys
      | _, _ => s.jobKeys := by
  unfold Store.recorded Store.withCandidate Store.jobKeys
  cases c.candidate <;> cases s.deliveries.find? c.deliveryID <;> rfl

theorem mem_recorded_jobKeys (k : GoString) : k ∈ (s.recorded recoveryID c).jobKeys ↔
    k ∈ s.jobKeys ∨ ∃ x, c.Brings s x ∧ k = x.semanticKey := by
  rw [recorded_jobKeys]
  cases hx : c.candidate with
  | none => simp [RecordCall.Brings, hx]
  | some x =>
    cases hfind : s.deliveries.find? c.deliveryID with
    | some row => simp [RecordCall.Brings, hfind]
    | none =>
      simp only [RecordCall.Brings, hx, hfind, insertJob_jobKeys]
      split <;> simp_all

theorem nodup_recorded (h : s.jobKeys.Nodup) : (s.recorded recoveryID c).jobKeys.Nodup := by
  rw [recorded_jobKeys]
  split
  · rw [insertJob_jobKeys]
    split
    · exact h
    · next hnew => exact List.concat_eq_append ▸ h.concat hnew
  · exact h

theorem recorded_deliveries (d : GoString) :
    (s.recorded recoveryID c).deliveries.find? d = none ↔
      s.deliveries.find? d = none ∧ ¬ (d = c.deliveryID ∧ d ≠ []) := by
  dsimp only [Store.recorded, Store.withDelivery]
  by_cases hid : c.deliveryID = []
  · rw [if_pos hid, hid]
    simp
  · rw [if_neg hid, Table.find?_insert]
    by_cases hd : d = c.deliveryID
    · simp [hd, hid]
    · simp [hd]

theorem mem_recorded_replayed (hid : recoveryID ≠ []) (m : ReplayedMessageRow) :
    m ∈ (s.recorded recoveryID c).recoveryReplayed.rows ↔
      m ∈ s.recoveryReplayed.rows ∨ m = ⟨recoveryID, c.streamSequence⟩ := by
  dsimp only [Store.recorded, Store.withReplay]
  rw [if_neg hid, Table.mem_insert]
  refine or_congr_right' fun hm => and_iff_right_of_imp ?_
  intro hnew
  exact Table.find?_eq_none.mpr fun r hr he => hm (hnew.trans he.symm ▸ hr)

/-! ## Lists of accepted calls -/

/-- The keys after a list of calls are those before and those that some call brings: of two calls
under one delivery id the second is ignored, but it carries the same candidate. -/
theorem mem_recordedAll_jobKeys (h : Consistent calls) (k : GoString) :
    k ∈ (s.recordedAll recoveryID calls).jobKeys ↔
      k ∈ s.jobKeys ∨ ∃ c ∈ calls, ∃ x, c.Brings s x ∧ k = x.semanticKey := by
  induction calls generalizing s with
  | nil => simp
  | cons c calls ih =>
    rw [Store.recordedAll, List.foldl_cons, ih (fun a ha b hb =>
      h a (List.mem_cons_of_mem c ha) b (List.mem_cons_of_mem c hb)), mem_recorded_jobKeys]
    constructor
    · rintro ((hk | ⟨x, hx, rfl⟩) | ⟨d, hd, x, ⟨hx, hnew⟩, rfl⟩)
      · exact .inl hk
      · exact .inr ⟨c, List.mem_cons_self, x, hx, rfl⟩
      · exact .inr ⟨d, List.mem_cons_of_mem c hd, x,
          ⟨hx, ((recorded_deliveries _).mp hnew).1⟩, rfl⟩
    · rintro (hk | ⟨d, hd, x, ⟨hx, hnew⟩, rfl⟩)
      · exact .inl (.inl hk)
      · rcases List.mem_cons.mp hd with rfl | hd'
        · exact .inl (.inr ⟨x, ⟨hx, hnew⟩, rfl⟩)
        · by_cases hsame : d.deliveryID = c.deliveryID ∧ d.deliveryID ≠ []
          · have hcandidate := h d hd c List.mem_cons_self hsame.2 hsame.1
            exact .inl (.inr ⟨x, ⟨hcandidate ▸ hx, hsame.1 ▸ hnew⟩, rfl⟩)
          · exact .inr ⟨d, hd', x, ⟨hx, (recorded_deliveries _).mpr ⟨hnew, hsame⟩⟩, rfl⟩

theorem nodup_recordedAll (h : s.jobKeys.Nodup) :
    (s.recordedAll recoveryID calls).jobKeys.Nodup := by
  induction calls generalizing s with
  | nil => exact h
  | cons c calls ih => exact ih (nodup_recorded h)

/-- The checkpoint after a list of calls is the largest of their sequences and of the checkpoint
before. -/
theorem isGreatest_recordedAll_checkpoint :
    IsGreatest {n | n = s.checkpoint ∨ ∃ c ∈ calls, n = c.streamSequence}
      (s.recordedAll recoveryID calls).checkpoint := by
  induction calls generalizing s with
  | nil => simp [IsGreatest, upperBounds]
  | cons c calls ih =>
    obtain ⟨hmem, hupper⟩ := @ih (s.recorded recoveryID c)
    have hmax : (s.recorded recoveryID c).checkpoint = max s.checkpoint c.streamSequence := rfl
    have hle := hupper (.inl rfl)
    rw [hmax, max_le_iff] at hle
    refine ⟨?_, ?_⟩
    · rcases hmem with hmem | ⟨d, hd, hmem⟩
      · rw [Store.recordedAll, List.foldl_cons]
        rw [Store.recordedAll, hmax] at hmem
        rcases max_choice s.checkpoint c.streamSequence with h | h <;> rw [h] at hmem
        · exact .inl hmem
        · exact .inr ⟨c, List.mem_cons_self, hmem⟩
      · exact .inr ⟨d, List.mem_cons_of_mem c hd, hmem⟩
    · rintro n (rfl | ⟨d, hd, rfl⟩)
      · exact hle.1
      · rcases List.mem_cons.mp hd with rfl | hd
        · exact hle.2
        · exact hupper (.inr ⟨d, hd, rfl⟩)

/-- The replay evidence after a list of calls under a recovery. -/
theorem mem_recordedAll_replayed (hid : recoveryID ≠ []) (m : ReplayedMessageRow) :
    m ∈ (s.recordedAll recoveryID calls).recoveryReplayed.rows ↔
      m ∈ s.recoveryReplayed.rows ∨ ∃ c ∈ calls, m = ⟨recoveryID, c.streamSequence⟩ := by
  induction calls generalizing s with
  | nil => simp
  | cons c calls ih =>
    rw [Store.recordedAll, List.foldl_cons, ih, mem_recorded_replayed hid, List.exists_mem_cons_iff,
      or_assoc]

theorem recordedAll_frame : (s.recordedAll recoveryID calls).recoveryRuns = s.recoveryRuns ∧
    (s.recordedAll recoveryID calls).recoveryReconciliations = s.recoveryReconciliations := by
  induction calls generalizing s with
  | nil => exact ⟨rfl, rfl⟩
  | cons c calls ih => exact @ih (s.recorded recoveryID c)

/-- A recovery has one row of evidence for every sequence. -/
theorem countP_recordedAll_replayed (hid : recoveryID ≠ [])
    (hnone : ∀ m ∈ s.recoveryReplayed.rows, m.recoveryID ≠ recoveryID) :
    (s.recordedAll recoveryID calls).recoveryReplayed.rows.countP
        (fun m => m.recoveryID = recoveryID) =
      (calls.map RecordCall.streamSequence).toFinset.card := by
  have hnodup : (s.recordedAll recoveryID calls).recoveryReplayed.rows.Nodup := by
    simpa using (s.recordedAll recoveryID calls).recoveryReplayed.nodup
  have hsequences : (((s.recordedAll recoveryID calls).recoveryReplayed.rows.filter
      (fun m => m.recoveryID = recoveryID)).map ReplayedMessageRow.streamSequence).Nodup := by
    refine List.Nodup.map_on (fun a ha b hb hab => ?_) (hnodup.filter _)
    have hrecovery := (of_decide_eq_true (List.mem_filter.mp ha).2).trans
      (of_decide_eq_true (List.mem_filter.mp hb).2).symm
    cases a
    cases b
    cases hrecovery
    cases hab
    rfl
  rw [List.countP_eq_length_filter, ← List.length_map ReplayedMessageRow.streamSequence,
    ← List.toFinset_card_of_nodup hsequences]
  congr 1
  ext n
  simp only [List.mem_toFinset, List.mem_map, List.mem_filter, decide_eq_true_eq,
    mem_recordedAll_replayed hid]
  constructor
  · rintro ⟨m, ⟨hm | ⟨c, hc, rfl⟩, hrecovery⟩, rfl⟩
    · exact absurd hrecovery (hnone m hm)
    · exact ⟨c, hc, rfl⟩
  · rintro ⟨c, hc, rfl⟩
    exact ⟨_, ⟨.inr ⟨c, hc, rfl⟩, rfl⟩, rfl⟩

/-! ## Calls in any order -/

/-- What `Record` calls leave does not depend on their order or on repetitions: the jobs have the
keys of the accepted candidates, each once, and the checkpoint is the largest accepted sequence.
For calls under an open recovery `CompleteRecovery` reports the number of distinct sequences. A call
that is not accepted fails. -/
theorem recordings_order_insensitive (s : Store) (calls : List RecordCall) :
    (Consistent calls →
      (∀ calls', (∀ c, c ∈ calls' ↔ c ∈ calls) →
        ∀ k, k ∈ (recordAll [] calls' s).jobKeys ↔ k ∈ (recordAll [] calls s).jobKeys) ∧
      ∀ k, k ∈ (recordAll [] calls s).jobKeys ↔ k ∈ s.jobKeys ∨
        ∃ c ∈ calls, c.accepted ∧ ∃ x, c.Brings s x ∧ k = x.semanticKey) ∧
    (s.jobKeys.Nodup → (recordAll [] calls s).jobKeys.Nodup) ∧
    (∀ calls', (∀ c, c ∈ calls' ↔ c ∈ calls) →
      (recordAll [] calls' s).checkpoint = (recordAll [] calls s).checkpoint) ∧
    IsGreatest {n | n = s.checkpoint ∨ ∃ c ∈ calls, c.accepted ∧ n = c.streamSequence}
      (recordAll [] calls s).checkpoint ∧
    (∀ id, id ≠ [] → s.recoveryRuns.hits id (fun r => r.status = .incomplete) = true →
      (∀ m ∈ s.recoveryReplayed.rows, m.recoveryID ≠ id) → ∀ now, ∃ s' run,
        completeRecovery id (s.recoveryReconciliations.rows.countP fun r => r.recoveryID = id) now
          (recordAll id calls s) = .ok s' ∧ s'.recoveryRuns.find? id = some run ∧
        run.replayCount =
          ((calls.filter RecordCall.accepted).map RecordCall.streamSequence).toFinset.card) ∧
    ∀ id, ∀ c : RecordCall, c.accepted = false → ∃ e,
      record id c.deliveryID c.outcome c.streamSequence c.candidate c.now s = .error e := by
  have hopen : s.Records [] := .inl rfl
  have keys : ∀ calls, Consistent calls → ∀ k, k ∈ (recordAll [] calls s).jobKeys ↔
      k ∈ s.jobKeys ∨ ∃ c ∈ calls, c.accepted ∧ ∃ x, c.Brings s x ∧ k = x.semanticKey := by
    intro calls h k
    rw [recordAll_eq hopen, mem_recordedAll_jobKeys fun c hc d hd =>
      h c (List.mem_filter.mp hc).1 d (List.mem_filter.mp hd).1]
    simp only [List.mem_filter, and_assoc]
  have checkpoint : ∀ calls, IsGreatest {n | n = s.checkpoint ∨ ∃ c ∈ calls, c.accepted ∧
      n = c.streamSequence} (recordAll [] calls s).checkpoint := by
    intro calls
    have h := @isGreatest_recordedAll_checkpoint [] s (calls.filter RecordCall.accepted)
    rw [recordAll_eq hopen]
    simpa only [List.mem_filter, and_assoc] using h
  refine ⟨fun hconsistent => ⟨fun calls' hcalls k => ?_, keys calls hconsistent⟩, fun h => ?_,
    fun calls' hcalls => ?_, checkpoint calls, fun id hid hrun hnone now => ?_, fun id c hc => ?_⟩
  · rw [keys calls' fun c hc d hd => hconsistent c ((hcalls c).mp hc) d ((hcalls d).mp hd),
      keys calls hconsistent]
    simp only [hcalls]
  · rw [recordAll_eq hopen]
    exact nodup_recordedAll h
  · have h := checkpoint calls'
    simp only [hcalls] at h
    exact h.unique (checkpoint calls)
  · obtain ⟨run, hfind, hstatus⟩ := Table.hits_iff.mp hrun
    obtain ⟨hruns, hreconciliations⟩ := @recordedAll_frame id s (calls.filter RecordCall.accepted)
    rw [recordAll_eq (.inr hrun)]
    simp only [completeRecovery, require_bind_eq_ok, expectOne_bind_eq_ok, pure_eq_ok, hruns,
      hreconciliations, hrun, true_and, exists_and_left, exists_eq_left']
    refine ⟨_, by rw [Table.find?_updateKey_self, hfind, Option.map_some, if_pos hstatus], ?_⟩
    exact countP_recordedAll_replayed hid hnone
  · exact record_refuses hc

/-- A store with an open recovery and nothing else. -/
def Sample.recovering : Store :=
  { Store.empty with
    recoveryRuns := Table.empty.insert
      { recoveryID := lit "r"
        durable := lit "d"
        manifestSequence := 1
        startSequence := 1
        status := .incomplete
        startedAt := 0 } }

/-- A message with a candidate. -/
def Sample.labeled (n : Nat) : RecordCall :=
  ⟨lit "a", [], n, some ⟨lit "o/r", 3, lit "a", lit "t", lit "p"⟩, 0⟩

/-- A message with a candidate, and one without. -/
def Sample.messages : List RecordCall := [labeled 7, ⟨lit "b", [], 5, none, 1⟩]

open Sample in
/-- The two messages in the other order, with a redelivery. -/
theorem recordings_order_insensitive_redelivered :
    (recordAll [] (messages.reverse ++ messages) recovering).checkpoint =
      (recordAll [] messages recovering).checkpoint ∧
    (recordAll [] messages recovering).jobKeys.Nodup ∧
    (recordAll [] messages recovering).jobKeys.length = 1 ∧
    ∃ s' run, completeRecovery (lit "r") 0 0 (recordAll (lit "r") messages
      recovering) = .ok s' ∧ s'.recoveryRuns.find? (lit "r") = some run ∧
      run.replayCount = 2 := by
  obtain ⟨-, honce, horder, -, hcount, -⟩ :=
    recordings_order_insensitive recovering messages
  refine ⟨horder _ fun c => by simp, honce (by decide), by decide, ?_⟩
  exact hcount (lit "r") (by decide) (by decide) (by decide) 0

open Sample in
/-- The driver refuses the sequence 2^63: there is no job for the candidate, the checkpoint is not
the largest sequence, and the message is no evidence of the recovery. -/
theorem recording_high_sequence_refused :
    0 < (labeled (2 ^ 63)).streamSequence ∧ Consistent [labeled (2 ^ 63)] ∧
    record [] (lit "a") [] (2 ^ 63) (labeled (2 ^ 63)).candidate 0 recovering =
      .error (newError ("sql: converting argument $4 type: uint64 values with high bit set are " ++
        "not supported")) ∧
    (recordAll [] [labeled (2 ^ 63)] recovering).jobKeys = [] ∧
    (recordAll [] [labeled (2 ^ 63)] recovering).checkpoint = 0 ∧
    ((completeRecovery (lit "r") 0 0 (recordAll (lit "r") [labeled (2 ^ 63)]
      recovering)).toOption.bind (·.recoveryRuns.find? (lit "r"))).map
        RecoveryRunRow.replayCount = some 0 := by
  refine ⟨by decide, ?_, by decide +kernel, by decide +kernel, by decide +kernel,
    by decide +kernel⟩
  unfold Consistent
  decide

end SignalPlane.Dispatcher
