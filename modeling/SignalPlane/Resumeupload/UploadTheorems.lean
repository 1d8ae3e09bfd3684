/-
SignalPlane.Resumeupload.UploadTheorems — one upload result for one content.

The content of a release is named by its digest, and the idempotency key of an
upload by nothing else. A crash, or a response that is lost, can make the loop
upload again, but always under the same key; once a result is recorded the
executor reports it and does not ask again. A result is never written over, and
neither is the operation of an item, so every item of one digest ends with the
same correlation.

The argument is a contract of the loop (`contract`). Throughout, every operation
is valid and an item the executor completed carries the recorded correlation
(`Consistent`). Others may do what they like with the ledger as long as they
leave claims, completions and results to the loop.
-/
import SignalPlane.Resumeupload.Executor
import SignalPlane.Workitemlaunch.LaunchTheorems
import SignalPlane.Workledger.AdmissionTheorems

namespace SignalPlane.Resumeupload

open Relation (ReflTransGen)
open Dispatcher (GoError bind_eq_ok require_bind_eq_ok require_eq_ok pure_eq_ok)
open Workflow
open Workitemlaunch (HasAttempt claim_hasAttempt executorID_of_terms)
open Workledger

variable {external id : GoString} {now : Int} {o : ReleaseOperation} {result : ExecutorResult}
  {K : Store → Prop} {attempt : ExecutorAttempt} {item : WorkItem}

/-! ## Keys -/

theorem computedDigest_format {lib : LedgerLib} (h : o.validate lib = .ok ()) :
    imageDigestFormat o.computedDigest = true := by
  simp only [ReleaseOperation.validate, requireText, require_bind_eq_ok, require_eq_ok] at h
  obtain ⟨-, -, -, -, -, -, -, -, -, -, -, -, hformat, hsame⟩ := h
  rwa [← hsame]

/-- The key of a valid digest determines it. -/
theorem uploadKey_injective {d d' : GoString} (h : imageDigestFormat d = true)
    (h' : imageDigestFormat d' = true) (hkey : uploadKey d = uploadKey d') : d = d' := by
  have hsplit {x : GoString} (hx : imageDigestFormat x = true) :
      x = lit "sha256:" ++ trimSHA256 x := by
    simp only [imageDigestFormat, Bool.and_eq_true, decide_eq_true_eq] at hx
    rw [trimSHA256, if_pos hx.1, ← hx.1, List.take_append_drop]
  rw [hsplit h, hsplit h', List.append_cancel_left hkey]

/-! ## Records that stay -/

section Records

variable {lib : LedgerLib} {s s' : Store}

theorem recordContentResult_eq_ok {digest result : GoString} :
    recordContentResult digest external result now s = .ok s' ↔
      (∃ row, (s.contentResults.insert ⟨digest, external, result, Clock.unixMilli now⟩).find?
        digest = some row ∧ row.externalCorrelation = external ∧ row.resultDigest = result) ∧
      s' = { s with
        contentResults := s.contentResults.insert
          ⟨digest, external, result, Clock.unixMilli now⟩ } := by
  simp only [recordContentResult, bind_eq_ok, selectRow_eq_ok, require_eq_ok, pure_eq_ok]
  constructor
  · rintro ⟨row, hrow, ⟨⟩, hsame, rfl⟩
    exact ⟨⟨row, hrow, hsame⟩, rfl⟩
  · rintro ⟨⟨row, hrow, hsame⟩, rfl⟩
    exact ⟨row, hrow, (), hsame, rfl⟩

/-- A committed call leaves the results as they are, or it is the call that records one. -/
theorem Op.contentResults {op : Op} (h : op.exec lib s = .ok s') :
    s'.contentResults = s.contentResults ∨ (isLoops op = true ∧
      ∃ row, s'.contentResults = s.contentResults.insert row) := by
  cases Op.commits h with
  | admitted h | released h =>
    obtain rfl | ⟨_, _, _, _, _, -, -, rfl⟩ := admit_frame h <;> exact .inl rfl
  | replaced _ _ _ hretire | retired hretire =>
    obtain ⟨-, rfl⟩ := retireSnapshots_eq_ok.mp hretire
    exact .inl rfl
  | contentRecorded digest external result now results =>
    obtain ⟨-, hs'⟩ := recordContentResult_eq_ok.mp h
    exact .inr ⟨rfl, _, congrArg Store.contentResults hs'⟩
  | _ => exact .inl rfl

/-- A committed call leaves the operations as they are, or adds a valid one. -/
theorem Op.releaseOperations {op : Op} (h : op.exec lib s = .ok s') :
    s'.releaseOperations = s.releaseOperations ∨
      ∃ row, row.operation.validate lib = .ok () ∧
        s'.releaseOperations = s.releaseOperations.insert row := by
  cases Op.commits h with
  | admitted h =>
    obtain rfl | ⟨_, _, _, _, _, -, hsame | ⟨row, ⟨⟩, -⟩, rfl⟩ := admit_frame h
    · exact .inl rfl
    · exact .inl hsame
  | released hadmit =>
    obtain rfl | ⟨_, _, _, _, _, -, hsame | ⟨row, ⟨⟩, hinsert⟩, rfl⟩ := admit_frame hadmit
    · exact .inl rfl
    · exact .inl hsame
    · obtain ⟨result, hexec⟩ := map_snd_eq_ok.mp h
      obtain ⟨⟨⟩, hvalid, -⟩ := bind_eq_ok.mp hexec
      exact .inr ⟨row, hvalid, hinsert⟩
  | replaced _ _ _ hretire | retired hretire =>
    obtain ⟨-, rfl⟩ := retireSnapshots_eq_ok.mp hretire
    exact .inl rfl
  | _ => exact .inl rfl

/-- A result that is recorded stays. -/
theorem contentResult_step (op : Op) {digest : GoString} {row : ContentResultRow}
    (h : s.contentResults.find? digest = some row) :
    (op.step lib s).contentResults.find? digest = some row := by
  rcases op.step_cases lib s with hstep | hstep
  · rwa [hstep]
  · rcases Op.contentResults hstep with hsame | ⟨-, new, hnew⟩
    · rwa [hsame]
    · rw [hnew]
      exact Table.find?_insert_of_some h

/-- The operation of an item stays. -/
theorem releaseOperation_step (op : Op) {row : ReleaseOperationRow}
    (h : s.releaseOperations.find? id = some row) :
    (op.step lib s).releaseOperations.find? id = some row := by
  rcases op.step_cases lib s with hstep | hstep
  · rwa [hstep]
  · rcases Op.releaseOperations hstep with hsame | ⟨new, -, hnew⟩
    · rwa [hsame]
    · rw [hnew]
      exact Table.find?_insert_of_some h

theorem operationOf_step (op : Op) (h : s.operationOf id = some o) :
    (op.step lib s).operationOf id = some o := by
  obtain ⟨row, hrow, ho⟩ := Option.map_eq_some_iff.mp h
  exact Option.map_eq_some_iff.mpr ⟨row, releaseOperation_step op hrow, ho⟩

end Records

/-! ## Completed items -/

/-- The content of the item's operation has a result with this correlation. -/
def Delivered (s : Store) (id external : GoString) : Prop :=
  ∃ o row, s.operationOf id = some o ∧ s.contentResults.find? o.computedDigest = some row ∧
    row.externalCorrelation = external

/-- What holds throughout: operations are valid, and an item the executor completed carries the
recorded correlation. -/
structure Consistent (lib : LedgerLib) (s : Store) : Prop where
  reachable : Reachable lib s
  valid : ∀ r ∈ s.releaseOperations.rows, r.operation.validate lib = .ok ()
  completed : ∀ id w, s.work id = some w → w.item.state = .completed →
    ∀ t, w.terms = some t → t.executorID = executorID →
      Delivered s id w.item.latestExecutorCorrelation

section Consistent

variable {lib : LedgerLib} {s : Store}

theorem Delivered.step (h : Delivered s id external) (op : Op) :
    Delivered (op.step lib s) id external := by
  obtain ⟨o, row, ho, hrow, hexternal⟩ := h
  exact ⟨o, row, operationOf_step op ho, contentResult_step op hrow, hexternal⟩

theorem settle_not_completed {retry : RetryPolicy} {number : Nat} {settlement : Settlement}
    (h : Workledger.settle lib retry number result now = .ok settlement)
    (houtcome : result.outcome ≠ .completed) : settlement.state ≠ .completed := by
  unfold Workledger.settle at h
  split at h
  · next hcompleted => exact absurd hcompleted houtcome
  · cases h; simp
  · split at h
    · cases h; simp
    · split at h
      · cases h; simp
      · cases h
  · simp only [require_bind_eq_ok, pure_eq_ok] at h
    obtain ⟨-, rfl⟩ := h
    simp
  · cases h

/-- Work is completed by a report of that outcome, which leaves its correlation, and by nothing
else. -/
theorem completed_of_step {k : Work.Kind} {w w' : Work} (h : Work.Step lib k w w')
    (hcompleted : w'.item.state = .completed) :
    (w.item.state = .completed ∧
      w'.item.latestExecutorCorrelation = w.item.latestExecutorCorrelation) ∨
    ∃ result now, k = .report result now ∧ result.outcome = .completed ∧
      w'.item.latestExecutorCorrelation = result.externalCorrelation := by
  -- Claims and restarts touch only items in a state that is not the completed one.
  have hrewritten {p : WorkItemRow → Bool} {f : WorkItemRow → WorkItemRow}
      (hf : ∀ r, (f r).state ≠ .completed) (hc : (rewrite p f w.item).state = .completed) :
      w.item.state = .completed ∧ (rewrite p f w.item).latestExecutorCorrelation =
        w.item.latestExecutorCorrelation := by
    cases hp : p w.item with
    | true =>
      rw [rewrite_of hp] at hc
      exact absurd hc (hf _)
    | false =>
      rw [rewrite_of_not hp] at hc ⊢
      exact ⟨hc, rfl⟩
  cases h with
  | supersede | expire | start => cases hcompleted
  | reclaim attempt now _ _ _ =>
    exact .inl (hrewritten (fun r hr => (by cases hr)) hcompleted)
  | settle attempt t settlement result now _ _ _ _ hsettle =>
    refine .inr ⟨result, now, rfl, ?_, rfl⟩
    have hstate : settlement.state = .completed := hcompleted
    by_contra houtcome
    exact settle_not_completed hsettle houtcome hstate
  | close | wake | resolve | correlate => exact .inl ⟨hcompleted, rfl⟩
  | recover now => exact .inl (hrewritten (fun r hr => (by cases hr)) hcompleted)

/-- Every call keeps the ledger consistent, if a completion of the executor reports what is
recorded. -/
theorem Consistent.step (h : Consistent lib s) (op : Op)
    (hreports : ∀ attemptID result now a, op = .complete attemptID result now →
      result.outcome = .completed → s.executorAttempts.find? attemptID = some a →
      a.executorID = executorID → Delivered s a.workItemID result.externalCorrelation) :
    Consistent lib (op.step lib s) where
  reachable := .step op h.reachable trivial
  valid := by
    rcases op.step_cases lib s with hstep | hstep
    · rw [hstep]
      exact h.valid
    · intro r hr
      rcases Op.releaseOperations hstep with hsame | ⟨new, hvalid, hnew⟩
      · exact h.valid r (hsame ▸ hr)
      · exact Table.forall_insert h.valid hvalid r (hnew ▸ hr)
  completed := by
    intro id w' hw' hcompleted t ht hexecutor
    rcases op.step_cases lib s with hstep | hstep
    · rw [hstep] at hw' ⊢
      exact h.completed id w' hw' hcompleted t ht hexecutor
    · obtain ⟨k, hmay, hevolves⟩ := Op.evolves h.reachable.sound hstep id
      rw [hw'] at hevolves
      generalize hv : s.work id = v at hevolves
      cases hevolves with
      | same => exact (h.completed id w' hv hcompleted t ht hexecutor).step op
      | admitted => cases hcompleted
      | @step k w _ hwork =>
        have hterms : w.terms = some t := hwork.identity.2 ▸ ht
        rcases completed_of_step hwork hcompleted with ⟨hwas, hsame⟩ |
          ⟨result, now, rfl, houtcome, hcorrelation⟩
        · rw [hsame]
          exact (h.completed id w hv hwas t hterms hexecutor).step op
        · rw [hcorrelation]
          obtain ⟨attemptID, a, hop, ha, rfl⟩ := hmay.report
          have hmem : a ∈ w.attempts := Store.mem_attempts (Table.mem_of_find? ha) hv
          have hmine := (executorID_of_terms h.reachable.sound hv hterms hmem).trans hexecutor
          exact (hreports attemptID result now a hop houtcome ha hmine).step op

theorem Consistent.empty : Consistent lib Store.empty where
  reachable := .empty
  valid := fun _ hr => (by cases hr)
  completed := fun _ _ hw => (by cases hw)

/-- A call that completes nothing. -/
theorem Consistent.other (h : Consistent lib s) {op : Op}
    (hop : ∀ attemptID result now, op ≠ .complete attemptID result now) :
    Consistent lib (op.step lib s) :=
  h.step op fun attemptID result now _ he => absurd he (hop attemptID result now)

end Consistent

/-! ## The contract of the loop -/

/-- What may be asked: an upload is made for a valid operation that is stored, under the key and
the name of its digest, and only as long as the digest has no result. -/
def Allowed (lib : LedgerLib) : Question → Store → Prop
  | .upload c, s => c.operation.validate lib = .ok () ∧
      c.key = uploadKey c.operation.computedDigest ∧
      c.filename = uploadFilename c.operation.computedDigest ∧
      s.contentResults.find? c.operation.computedDigest = none ∧
      ∃ id, s.operationOf id = some c.operation
  | _, _ => True

/-- The others make calls that are not the loop's, the loop makes any. -/
def contract (lib : LedgerLib) (others : List ExecutorDescriptor) :
    Contract Store Question Answer where
  rely s s' := Consistent lib s ∧ ∃ op, s' = (system lib others).act op s
  guarantee s s' := s' = s ∨ (Consistent lib s ∧ ∃ op : Op, s' = op.step lib s)
  inv := Consistent lib
  asks := Allowed lib
  answers _ _ := True
  kept := by
    rintro s _ hs ⟨-, op, rfl⟩
    unfold system
    dsimp only
    split
    · exact hs
    · next hop => exact hs.other fun _ _ _ he => hop (by rw [he]; rfl)
  unchanged _ := .inl rfl

section Contract

variable {lib : LedgerLib} {others : List ExecutorDescriptor} {s s' : Store}

/-- Both sides change the ledger by calls. -/
theorem change_cases (h : (contract lib others).change s s') :
    s' = s ∨ (Consistent lib s ∧ ∃ op : Op, s' = op.step lib s) := by
  rcases h with ⟨hs, op, rfl⟩ | h
  · unfold system
    dsimp only
    split
    · exact .inl rfl
    · exact .inr ⟨hs, op, rfl⟩
  · exact h

/-- What every call keeps, both sides keep. -/
theorem kept_by_change (hK : ∀ s (op : Op), Consistent lib s → K s → K (op.step lib s))
    (h : (contract lib others).change s s') (hs : K s) : K s' := by
  rcases change_cases h with rfl | ⟨hconsistent, op, rfl⟩
  · exact hs
  · exact hK s op hconsistent hs

theorem kept_by_others (hK : ∀ s (op : Op), Consistent lib s → K s → K (op.step lib s)) (hs : K s)
    (h : ReflTransGen (contract lib others).rely s s') : K s' :=
  stable (K := K) (fun _ _ hstep hs => kept_by_change hK (.inl hstep) hs) hs h

theorem kept_by_run (hK : ∀ s (op : Op), Consistent lib s → K s → K (op.step lib s)) (hs : K s)
    (h : ReflTransGen (contract lib others).change s s') : K s' :=
  stable (K := K) (fun _ _ hstep hs => kept_by_change hK hstep hs) hs h

theorem operationOf_others (h : s.operationOf id = some o)
    (hs : ReflTransGen (contract lib others).rely s s') : s'.operationOf id = some o :=
  kept_by_others (K := fun s => s.operationOf id = some o) (fun _ op _ => operationOf_step op) h hs

theorem Delivered.stays (h : Delivered s id external)
    (hs : ReflTransGen (contract lib others).rely s s') : Delivered s' id external :=
  kept_by_others (K := fun s => Delivered s id external) (fun _ op _ h => h.step op) h hs

/-- The others record no result. -/
theorem contentResults_of_others (h : ReflTransGen (contract lib others).rely s s') :
    s'.contentResults = s.contentResults := by
  induction h with
  | refl => rfl
  | @tail s1 s2 _ hstep ih =>
    obtain ⟨-, op, rfl⟩ := hstep
    rw [← ih]
    unfold system
    dsimp only
    split
    · rfl
    · next hop =>
      rcases op.step_cases lib s1 with he | he
      · rw [he]
      · rcases Op.contentResults he with hsame | ⟨hloops, -⟩
        · exact hsame
        · exact absurd hloops hop

/-- A transaction of the loop that is one call, and completes nothing. -/
theorem call_honours (others : List ExecutorDescriptor) (hs : Consistent lib s) {op : Op}
    (hexec : op.exec lib s = .ok s')
    (hop : ∀ attemptID result now, op ≠ .complete attemptID result now) :
    (contract lib others).inv s' ∧ (contract lib others).guarantee s s' := by
  rw [← Op.step_of_exec hexec]
  exact ⟨hs.other hop, .inr ⟨hs, op, rfl⟩⟩

/-- What the executor reports as completed is recorded. -/
def Reports (id : GoString) (answer : Except GoError ExecutorResult) (s : Store) : Prop :=
  ∀ result, answer = .ok result → result.outcome = .completed →
    Delivered s id result.externalCorrelation

theorem reports_of_not_completed (h : result.outcome ≠ .completed) : Reports id (.ok result) s := by
  rintro _ ⟨⟩ hcompleted
  exact absurd hcompleted h

theorem uploadContent_honours {content : GoString} (hs : Consistent lib s)
    (ho : s.operationOf id = some o) (hnone : s.contentResults.find? o.computedDigest = none) :
    Honours (contract lib others) (uploadContent lib o content now) s (Reports id) := by
  refine honours_request (fun s1 hs1 hinv => ?_) fun answer _ => ?_
  · obtain ⟨row, hrow, rfl⟩ := Option.map_eq_some_iff.mp ho
    refine ⟨hs.valid row (Table.mem_of_find? hrow), rfl, rfl, ?_, id, operationOf_others ho hs1⟩
    rw [contentResults_of_others hs1]
    exact hnone
  · cases answer with
    | error err =>
      exact honours_pure fun _ _ _ => reports_of_not_completed (fun h => (by cases h))
    | ok uploadID =>
      refine honours_commit (fun s1 s' hs1 hinv hrecord => ?_) fun s1 err hs1 hinv _ => ?_
      · have hexec : (Op.recordContentResult o.computedDigest uploadID
            (uploadResult lib uploadID o.computedDigest) now).exec lib s1 = .ok s' := hrecord
        obtain ⟨hinv', hguarantee⟩ := call_honours others hinv hexec fun _ _ _ he => (by cases he)
        refine ⟨hinv', hguarantee, honours_pure fun s2 hs2 _ => ?_⟩
        rintro _ ⟨⟩ -
        refine Delivered.stays (s := s') ?_ hs2
        have ho1 := operationOf_others ho hs1
        obtain ⟨⟨row, hrow, hexternal, -⟩, rfl⟩ := recordContentResult_eq_ok.mp hrecord
        exact ⟨o, row, ho1, hrow, hexternal⟩
      · refine honours_pure fun _ _ _ => ?_
        rintro _ ⟨⟩

theorem fetchContent_honours (hs : Consistent lib s) (ho : s.operationOf id = some o)
    (hnone : s.contentResults.find? o.computedDigest = none) :
    Honours (contract lib others) (fetchContent lib attempt o now) s (Reports id) := by
  refine honours_request (fun _ _ _ => trivial) fun answer _ => ?_
  cases answer with
  | error err =>
    exact honours_pure fun _ _ _ => reports_of_not_completed (fun h => (by cases h))
  | ok content =>
    dsimp only
    split
    · exact honours_pure fun _ _ _ => reports_of_not_completed (fun h => (by cases h))
    · exact uploadContent_honours hs ho hnone

theorem execute_honours :
    Honours (contract lib others) (execute lib item attempt now) s (Reports item.id) := by
  refine honours_read fun s1 _ _ => ?_
  cases hoperation : s1.releaseOperation item.id with
  | error err =>
    exact honours_pure fun _ _ _ => reports_of_not_completed (fun h => (by cases h))
  | ok o =>
    have ho : s1.operationOf item.id = some o := by
      simp only [Store.releaseOperation, bind_eq_ok, selectRow_eq_ok, pure_eq_ok] at hoperation
      obtain ⟨row, hrow, rfl⟩ := hoperation
      exact Option.map_eq_some_iff.mpr ⟨row, hrow, rfl⟩
    refine honours_read fun s2 hs2 hinv2 => ?_
    have ho2 := operationOf_others ho hs2
    cases hresult : s2.contentResult o.computedDigest with
    | none => exact fetchContent_honours hinv2 ho2 (Option.map_eq_none_iff.mp hresult)
    | some pair =>
      obtain ⟨row, hrow, rfl⟩ := Option.map_eq_some_iff.mp hresult
      refine honours_pure fun s3 hs3 _ => ?_
      rintro _ ⟨⟩ -
      exact Delivered.stays ⟨o, row, ho2, hrow, rfl⟩ hs3

/-- What the executor of this package reports as completed is recorded. -/
theorem dispatch_honours (hs : Consistent lib s) :
    Honours (contract lib others) (dispatch lib others item attempt now) s fun result s =>
      attempt.executorID = executorID → result.outcome = .completed →
        Delivered s item.id result.externalCorrelation := by
  unfold dispatch
  dsimp only
  by_cases hmine : executorID = attempt.executorID
  · rw [if_pos hmine]
    split
    · exact honours_pure fun _ _ _ _ h => (by cases h)
    · refine honours_bind hs execute_honours fun answer s' _ hreports => ?_
      refine honours_pure fun s1 hs1 _ _ hcompleted => ?_
      cases answer with
      | error err => cases hcompleted
      | ok result =>
        exact (hreports result rfl hcompleted).stays hs1
  · rw [if_neg hmine]
    split
    · exact honours_pure fun _ _ _ h => absurd h.symm hmine
    · split
      · exact honours_pure fun _ _ _ h => absurd h.symm hmine
      · refine honours_request (fun _ _ _ => trivial) fun answer _ => ?_
        exact honours_pure fun _ _ _ h => absurd h.symm hmine

theorem recover_honours (hs : Consistent lib s) (now : Int) :
    (contract lib others).inv (recoverInterrupted now s).2 ∧
      (contract lib others).guarantee s (recoverInterrupted now s).2 := by
  have hexec : (Op.recoverInterrupted now).exec lib s = .ok (recoverInterrupted now s).2 := rfl
  exact call_honours others hs hexec fun _ _ _ he => (by cases he)

theorem finish_honours {attemptID : GoString} {x : AttemptIdentity} (hx : HasAttempt s x)
    (hid : x.id = attemptID) (hreports : x.executorID = executorID → result.outcome = .completed →
      Delivered s x.workItemID result.externalCorrelation) :
    Honours (contract lib others) (finish lib attemptID result now) s fun _ _ => True := by
  refine honours_commit (fun s1 s' hs1 hinv hcomplete => ?_) fun s1 err _ _ _ => ?_
  · have hexec : (Op.complete attemptID result now).exec lib s1 = .ok s' := hcomplete
    have hstep := Op.step_of_exec hexec
    refine ⟨?_, .inr ⟨hinv, _, hstep.symm⟩, honours_done⟩
    rw [← hstep]
    refine hinv.step _ ?_
    rintro _ _ _ a ⟨⟩ houtcome ha hexecutor
    -- The attempt that is completed is the one that was claimed.
    obtain ⟨b, hb, hidentity⟩ : HasAttempt s1 x :=
      kept_by_others (K := fun s => HasAttempt s x)
        (fun _ op hs hx => hx.step hs.reachable op) hx hs1
    have hsame : a = b := by
      have hfound := Table.find?_key hb
      rw [show b.id = attemptID from (congrArg AttemptIdentity.id hidentity).trans hid] at hfound
      exact Option.mem_unique ha hfound
    subst hsame
    subst hidentity
    exact (hreports hexecutor houtcome).stays hs1
  · exact fun s2 _ hinv2 => ⟨(recover_honours hinv2 now).1, (recover_honours hinv2 now).2,
      honours_done⟩

theorem claimAndWork_honours (round : Round) :
    Honours (contract lib others) (claimAndWork lib others round) s fun _ _ => True := by
  refine honours_atomic (fun s1 claimed s' _ hinv hclaim => ?_) fun _ _ _ _ _ =>
    honours_done
  have hexec : (Op.claim round.tie round.token round.now).exec lib s1 = .ok s' :=
    map_snd_eq_ok.mpr ⟨claimed, hclaim⟩
  obtain ⟨hinv', hguarantee⟩ := call_honours others hinv hexec fun _ _ _ he => (by cases he)
  refine ⟨hinv', hguarantee, ?_⟩
  cases claimed with
  | none => exact honours_done
  | some pair =>
    obtain ⟨item, attempt⟩ := pair
    obtain ⟨x, hx, hid, hitem, hexecutor, -⟩ := claim_hasAttempt hclaim
    have hkept : ∀ s s', Consistent lib s → (contract lib others).change s s' →
        HasAttempt s x → HasAttempt s' x := fun _ _ _ hchange hx =>
      kept_by_change (K := fun s => HasAttempt s x) (fun _ op hs hx => hx.step hs.reachable op)
        hchange hx
    refine honours_bind hinv' ((dispatch_honours hinv').frame hkept hinv' hx)
      fun result s2 _ hresult => ?_
    refine finish_honours hresult.2 hid fun hmine houtcome => ?_
    rw [hitem]
    exact hresult.1 (hexecutor.symm.trans hmine) houtcome

theorem workOne_honours (round : Round) :
    Honours (contract lib others) (workOne lib others round) s fun _ _ => True := by
  unfold workOne
  split
  · refine honours_perform fun s1 _ hinv => ?_
    exact ⟨(recover_honours hinv round.now).1, (recover_honours hinv round.now).2,
      claimAndWork_honours round⟩
  · exact claimAndWork_honours round

theorem system_honours : (system lib others).Honours (contract lib others) where
  programs round _ _ := workOne_honours round
  others op _ hs := ⟨hs, op, rfl⟩

end Contract

/-! ## One result for one content -/

/-- The uploads so far. -/
def uploads (st : Loop) : List Upload :=
  st.asked.filterMap fun x => match x.1 with
    | .upload call => some call
    | _ => none

/-- The item is completed, an attempt of it is the executor's, and the operation of the item has
this digest. -/
structure CompletedFor (s : Store) (digest : GoString) (r : WorkItemRow) : Prop where
  item : r ∈ s.workItems.rows
  completed : r.state = .completed
  executor : ∃ a ∈ s.executorAttempts.rows, a.workItemID = r.id ∧ a.executorID = executorID
  digest : ∃ o, s.operationOf r.id = some o ∧ o.computedDigest = digest

/-- What holds of two moments of a run. -/
structure UploadOnce (st st' : Loop) : Prop where
  /-- An upload is made for an operation that is stored. -/
  stored : ∀ c ∈ uploads st', ∃ id, st'.store.operationOf id = some c.operation
  same_key : ∀ c ∈ uploads st', ∀ c' ∈ uploads st',
    c.operation.computedDigest = c'.operation.computedDigest →
      c.key = c'.key ∧ c.filename = c'.filename
  other_key : ∀ c ∈ uploads st', ∀ c' ∈ uploads st',
    c.operation.computedDigest ≠ c'.operation.computedDigest → c.key ≠ c'.key
  write_once : ∀ digest row, st.store.contentResults.find? digest = some row →
    st'.store.contentResults.find? digest = some row
  /-- Nothing is uploaded for a digest once it has a result. -/
  not_again : ∃ later, uploads st' = uploads st ++ later ∧
    ∀ c ∈ later, st.store.contentResults.find? c.operation.computedDigest = none
  correlation : ∀ digest r r', CompletedFor st'.store digest r → CompletedFor st'.store digest r' →
    r.latestExecutorCorrelation = r'.latestExecutorCorrelation
  operation : ∀ id row, st.store.releaseOperations.find? id = some row →
    st'.store.releaseOperations.find? id = some row

section Once

variable {lib : LedgerLib} {others : List ExecutorDescriptor}

theorem mem_uploads {asked : List (Question × Store)} {c : Upload} :
    c ∈ asked.filterMap (fun x => match x.1 with
      | .upload call => some call
      | _ => none) ↔ ∃ s, (Question.upload c, s) ∈ asked := by
  simp only [List.mem_filterMap, Prod.exists]
  constructor
  · rintro ⟨q, s, hmem, h⟩
    cases q with
    | upload call =>
      cases h
      exact ⟨s, hmem⟩
    | downloadVerified _ => cases h
    | execute _ _ _ => cases h
  · rintro ⟨s, hmem⟩
    exact ⟨_, s, hmem, rfl⟩

/-- The correlation of an item the executor completed is the recorded one. -/
theorem CompletedFor.correlation {s : Store} (hs : Consistent lib s) {digest : GoString}
    {r : WorkItemRow} (h : CompletedFor s digest r) :
    ∃ row, s.contentResults.find? digest = some row ∧
      row.externalCorrelation = r.latestExecutorCorrelation := by
  obtain ⟨w, hw, hitem⟩ := Store.exists_work h.item
  obtain ⟨a, ha, hid, hexecutor⟩ := h.executor
  have hmem : a ∈ w.attempts := Store.mem_attempts ha (hid ▸ hw)
  obtain ⟨⟨t, ht, -, -, -⟩, -⟩ := (hs.reachable.sound.works hw).recorded
  have hmine := (executorID_of_terms hs.reachable.sound hw ht hmem).symm.trans hexecutor
  obtain ⟨o, ho, rfl⟩ := h.digest
  obtain ⟨o', row, ho', hrow, hcorrelation⟩ :=
    hs.completed r.id w hw (hitem ▸ h.completed) t ht hmine
  cases ho.symm.trans ho'
  exact ⟨row, hrow, hcorrelation.trans (by rw [hitem])⟩

/-- Every upload of a run was allowed at its moment. -/
theorem uploads_allowed {st : Loop} (h : (Process.fresh Store.empty : Loop).Extends
    (contract lib others) st) {c : Upload} (hc : c ∈ uploads st) :
    ∃ s, Allowed lib (.upload c) s ∧ ReflTransGen (contract lib others).change s st.store := by
  obtain ⟨later, hlater, hall⟩ := h.asked
  obtain ⟨s, hmem⟩ := mem_uploads.mp hc
  rw [hlater] at hmem
  obtain ⟨hallowed, -, hafter⟩ := hall _ hmem
  exact ⟨s, hallowed, hafter⟩

theorem move_fair (move : Move Question Answer Round Op) : move.Fair (contract lib others) := by
  cases move with
  | advance answer => exact fun _ => trivial
  | _ => trivial

/-- Two moments of a run that keeps the contract. -/
theorem UploadOnce.of_extends {st st' : Loop}
    (h : (Process.fresh Store.empty : Loop).Extends (contract lib others) st)
    (h' : st.Extends (contract lib others) st') : UploadOnce st st' where
  stored := by
    intro c hc
    obtain ⟨s, ⟨-, -, -, -, id, ho⟩, hafter⟩ := uploads_allowed (h.trans h') hc
    exact ⟨id, kept_by_run (K := fun s => s.operationOf id = some c.operation)
      (fun _ op _ => operationOf_step op) ho hafter⟩
  same_key := by
    intro c hc c' hc' hdigest
    obtain ⟨-, ⟨-, hkey, hname, -⟩, -⟩ := uploads_allowed (h.trans h') hc
    obtain ⟨-, ⟨-, hkey', hname', -⟩, -⟩ := uploads_allowed (h.trans h') hc'
    rw [hkey, hkey', hname, hname', hdigest]
    exact ⟨rfl, rfl⟩
  other_key := by
    intro c hc c' hc' hdigest hsame
    obtain ⟨-, ⟨hvalid, hkey, -⟩, -⟩ := uploads_allowed (h.trans h') hc
    obtain ⟨-, ⟨hvalid', hkey', -⟩, -⟩ := uploads_allowed (h.trans h') hc'
    rw [hkey, hkey'] at hsame
    exact hdigest (uploadKey_injective (computedDigest_format hvalid)
      (computedDigest_format hvalid') hsame)
  write_once digest row hrow :=
    kept_by_run (K := fun s => s.contentResults.find? digest = some row)
      (fun _ op _ => contentResult_step op) hrow h'.store
  not_again := by
    obtain ⟨later, hlater, hall⟩ := h'.asked
    refine ⟨_, by rw [uploads, hlater, List.filterMap_append]; rfl, fun c hc => ?_⟩
    obtain ⟨s, hmem⟩ := mem_uploads.mp hc
    obtain ⟨⟨-, -, -, hnone, -⟩, hbefore, -⟩ := hall _ hmem
    -- A result that was there would still be there when the upload is made.
    by_contra hsome
    obtain ⟨row, hrow⟩ := Option.ne_none_iff_exists'.mp hsome
    have hthere := kept_by_run
      (K := fun s => s.contentResults.find? c.operation.computedDigest = some row)
      (fun _ op _ => contentResult_step op) hrow hbefore
    cases hnone.symm.trans hthere
  correlation := by
    intro digest r r' hr hr'
    obtain ⟨row, hrow, hcorrelation⟩ := hr.correlation h'.sound.inv
    obtain ⟨row', hrow', hcorrelation'⟩ := hr'.correlation h'.sound.inv
    cases hrow.symm.trans hrow'
    exact hcorrelation.symm.trans hcorrelation'
  operation id row hrow :=
    kept_by_run (K := fun s => s.releaseOperations.find? id = some row)
      (fun _ op _ => releaseOperation_step op) hrow h'.store

/-- In every run of the loop, whatever the others do, whatever is answered and wherever it
crashes. -/
theorem upload_once_per_content (lib : LedgerLib) (others : List ExecutorDescriptor)
    (moves moves' : List (Move Question Answer Round Op)) :
    UploadOnce ((system lib others).run moves (.fresh Store.empty))
      ((system lib others).run moves' ((system lib others).run moves (.fresh Store.empty))) := by
  have hstart : (Process.fresh Store.empty : Loop).Sound (contract lib others) :=
    Process.sound_fresh Consistent.empty
  have hruns {st : Loop} (hst : st.Sound (contract lib others))
      (moves : List (Move Question Answer Round Op)) :
      st.Extends (contract lib others) ((system lib others).run moves st) :=
    .run system_honours (fun move _ => move_fair move) hst
  exact .of_extends (hruns hstart moves) (hruns (hruns hstart moves).sound moves')

end Once

namespace Sample

open Workledger.Sample (operation token)

/-- Release `n`, always of the same content. -/
def released (n : UInt8) : Move Question Answer Round Op :=
  .other (.admitRelease (newID "route" (token 0))
    (Workledger.Sample.event n (lit "octo/repo") [n + 48] (lit "a")) operation 0 (token n) (token n)
    0)

/-- A round in which an upload is answered with `answer`. -/
def round (n : UInt8) (now : Int) (answer : Except GoError GoString) :
    List (Move Question Answer Round Op) :=
  .start ⟨false, 0, token n, now, now⟩ :: List.replicate 10 (.advance fun
    | .downloadVerified _ => .ok (lit "content")
    | .upload _ => answer
    | .execute .. => .error (Dispatcher.newError "not registered"))

/-- The response to the first upload of two releases is lost. -/
def loop : Loop :=
  let route := { Workledger.Sample.route with executorID := executorID }
  (system Workledger.Sample.lib []).run
    ([.other (.activateRoute route (some ⟨[descriptor]⟩) (token 0) 0), released 1, released 2] ++
      round 3 0 (.error (Dispatcher.newError "timeout")) ++ round 4 0 (.ok (lit "first")) ++
      round 5 (10 * second) (.ok (lit "second"))) (.fresh Store.empty)

end Sample

/-- The lost upload is made up for by that of the other release, under the same key, and no third
one is made. -/
example :
    (uploads Sample.loop).map Upload.key =
      List.replicate 2 (uploadKey Workledger.Sample.operation.computedDigest) ∧
    (Sample.loop.store.workItems.rows.map fun r => (r.state, r.latestExecutorCorrelation)) =
      List.replicate 2 (.completed, lit "first") := by
  decide +kernel

end SignalPlane.Resumeupload
