/-
SignalPlane.Pushscan.LoopTheorems — what the loop of the scanner never takes back.

The loop and the registry write the same database, each in transactions of its
own, and the loop may stop between any two of them. `Persists` says what stays:
receipts as they are, of a result its finding, of an event its payload, and
both altogether once they are settled. Every operation of the store keeps that,
hence every program of the loop (`program_durable`, by the rules for `Conforms`),
and by those for contracts every run (`scanner_persists`).
-/
import SignalPlane.Lib.Interleaving
import SignalPlane.Pushscan.RegistryTheorems

namespace SignalPlane.Pushscan

open Workflow
open Dispatcher (GoError require_bind_eq_ok pure_eq_ok)

variable {s s' : Store}

/-! ## Operations of the store -/

/-- Receipts stay; a result keeps its finding, an event its payload, and both stay once settled. -/
structure Store.Persists (s s' : Store) : Prop where
  receipts : ∀ id r, s.receipts.find? id = some r → s'.receipts.find? id = some r
  results : ∀ id r, s.results.find? id = some r → ∃ r', s'.results.find? id = some r' ∧
    r'.findingID = r.findingID ∧ r'.severity = r.severity ∧ (r.isPending = false → r' = r)
  events : ∀ id e, s.events.find? id = some e → ∃ e', s'.events.find? id = some e' ∧
    e'.payload = e.payload ∧ (e.publishedAt ≠ none → e' = e)

namespace Store.Persists

theorem of_tables (hreceipts : s'.receipts = s.receipts) (hresults : s'.results = s.results)
    (hevents : s'.events = s.events) : s.Persists s' where
  receipts _ _ h := hreceipts ▸ h
  results _ r h := ⟨r, hresults ▸ h, rfl, rfl, fun _ => rfl⟩
  events _ e h := ⟨e, hevents ▸ h, rfl, fun _ => rfl⟩

theorem refl (s : Store) : s.Persists s := of_tables rfl rfl rfl

theorem trans {s'' : Store} (h : s.Persists s') (h' : s'.Persists s'') : s.Persists s'' where
  receipts id r hr := h'.receipts id r (h.receipts id r hr)
  results id r hr := by
    obtain ⟨r', hr', hfinding, hseverity, hsettled⟩ := h.results id r hr
    obtain ⟨r'', hr'', hfinding', hseverity', hsettled'⟩ := h'.results id r' hr'
    refine ⟨r'', hr'', hfinding'.trans hfinding, hseverity'.trans hseverity, fun hdone => ?_⟩
    obtain rfl := hsettled hdone
    exact hsettled' hdone
  events id e he := by
    obtain ⟨e', he', hpayload, hpublished⟩ := h.events id e he
    obtain ⟨e'', he'', hpayload', hpublished'⟩ := h'.events id e' he'
    refine ⟨e'', he'', hpayload'.trans hpayload, fun hdone => ?_⟩
    obtain rfl := hpublished hdone
    exact hpublished' hdone

/-- Pending results are written, and keep their findings. -/
theorem of_results {p : ResultRow → Bool} {f : ResultRow → ResultRow}
    {hf : ∀ r, (f r).deliveryID = r.deliveryID} (hp : ∀ r, p r = true → r.isPending = true)
    (hkept : ∀ r, (f r).findingID = r.findingID ∧ (f r).severity = r.severity) :
    s.Persists { s with results := s.results.update p f hf } where
  receipts _ _ h := h
  results id r h := by
    refine ⟨if p r then f r else r, by simp [h], ?_⟩
    split
    · next hr => exact ⟨(hkept r).1, (hkept r).2, fun hdone => by simp [hp r hr] at hdone⟩
    · exact ⟨rfl, rfl, fun _ => rfl⟩
  events _ e h := ⟨e, h, rfl, fun _ => rfl⟩

end Store.Persists

theorem recordReceipt_persists {identity : PushIdentity} {now receiptAt : Int}
    (h : recordReceipt identity now s = .ok (receiptAt, s')) : s.Persists s' := by
  simp only [recordReceipt, require_bind_eq_ok] at h
  obtain ⟨-, h⟩ := h
  split at h
  · cases h
    exact ⟨fun _ _ hr => Table.find?_insert_of_some hr, (Store.Persists.refl s).results,
      (Store.Persists.refl s).events⟩
  · cases (require_bind_eq_ok.mp h).2
    exact .refl s

theorem recordResult_persists (result : Result) (event : Option SecurityEvent) (s : Store) :
    s.Persists (recordResult result event s) where
  receipts _ _ h := h
  results _ r h := ⟨r, Table.find?_insert_of_some h, rfl, rfl, fun _ => rfl⟩
  events _ e h := by
    refine ⟨e, ?_, rfl, fun _ => rfl⟩
    cases event with
    | none => exact h
    | some _ => exact Table.find?_insert_of_some h

theorem completeResponseRow_persists {result : Result}
    (h : completeResponseRow result s = .ok s') : s.Persists s' := by
  simp only [completeResponseRow, require_bind_eq_ok, pure_eq_ok] at h
  obtain ⟨-, rfl⟩ := h
  exact .of_results (fun r hr => (Bool.and_eq_true_iff.mp hr).2) fun _ => ⟨rfl, rfl⟩

theorem recordResponseAttempt_persists {deliveryID : GoString} {now : Int}
    (h : recordResponseAttempt deliveryID now s = .ok s') : s.Persists s' := by
  simp only [recordResponseAttempt, require_bind_eq_ok, pure_eq_ok] at h
  obtain ⟨-, rfl⟩ := h
  exact .of_results (fun r hr => (Bool.and_eq_true_iff.mp hr).2) fun _ => ⟨rfl, rfl⟩

theorem markOverdueResponses_persists (now : Int) (s : Store) :
    s.Persists (markOverdueResponses now s) :=
  .of_results (fun r hr => by simp_all) fun _ => ⟨rfl, rfl⟩

theorem markEventPublished_persists {eventID : GoString} {now : Int}
    (h : markEventPublished eventID now s = .ok s') : s.Persists s' := by
  unfold markEventPublished at h
  split at h
  · cases h
    refine ⟨fun _ _ h => h, (Store.Persists.refl s).results, fun id e he => ?_⟩
    rw [Table.updateKey, Table.find?_update, he]
    refine ⟨_, rfl, ?_⟩
    dsimp only
    split
    · next hrow => exact ⟨rfl, fun hdone => absurd (Bool.and_eq_true_iff.mp hrow).2 (by simpa)⟩
    · exact ⟨rfl, fun _ => rfl⟩
  · split at h <;> cases h
    exact .refl s

theorem RegistryCall.step_persists (call : RegistryCall) (s : Store) :
    s.Persists (call.step s) := by
  rcases call.step_cases s with h | ⟨row, -, -, h⟩ | ⟨id, next, -, h⟩ <;> rw [h] <;>
    exact .of_tables rfl rfl rfl

/-! ## Programs -/

/-- Every transaction of the program keeps what is there. -/
def Durable {α : Type} (p : Task α) : Prop :=
  Conforms (fun _ => True) Store.Persists Store.Persists p

section Programs

variable {lib : ScanLib} {sc : Scanner} {identity : PushIdentity}

theorem durable_request (q : Question) : Durable (request q) := ⟨trivial, fun _ => trivial⟩

theorem matchCandidates_durable {key : GoString} {values : List GoString} :
    Durable (matchCandidates lib key values) := by
  induction values with
  | nil => exact conforms_pure
  | cons candidate rest ih =>
    refine conforms_request trivial fun now => conforms_perform .refl fun found => ?_
    cases found with
    | some attribution => exact conforms_pure
    | none => exact ih

theorem scanLoop_durable {fuel : Nat} {search : Search} {low : Option Finding} :
    Durable (sc.scanLoop lib identity fuel search low) := by
  induction fuel generalizing search low with
  | zero => exact conforms_pure
  | succ fuel ih =>
    unfold Scanner.scanLoop
    split
    · exact conforms_pure
    split
    · exact conforms_pure
    refine conforms_bind matchCandidates_durable fun found => ?_
    cases found with
    | some attribution => exact conforms_pure
    | none =>
      dsimp only
      split
      · exact conforms_pure
      · exact ih

theorem publishEach_durable {events : List SecurityEvent} : Durable (publishEach events) := by
  induction events with
  | nil => exact conforms_pure
  | cons event rest ih =>
    refine conforms_request trivial fun published => ?_
    cases published with
    | error err => exact conforms_pure
    | ok _ =>
      refine conforms_request trivial fun now => ?_
      refine conforms_commit .refl (fun _ _ => markEventPublished_persists) fun marked => ?_
      cases marked with
      | error err => exact conforms_pure
      | ok _ => exact ih

theorem flushEvents_durable : Durable sc.flushEvents := by
  refine conforms_perform .refl fun events => ?_
  split
  · exact publishEach_durable
  · exact conforms_pure

theorem completeResponse_durable {result : Result} :
    Durable (completeResponse identity result) := by
  refine conforms_request trivial fun now => ?_
  refine conforms_commit .refl (fun _ _ => recordResponseAttempt_persists) fun attempted => ?_
  cases attempted with
  | error err => exact conforms_pure
  | ok _ =>
    refine conforms_request trivial fun answer => ?_
    cases answer with
    | error err => exact conforms_pure
    | ok answer =>
      dsimp only
      split
      · exact conforms_pure
      refine conforms_commit .refl (fun _ _ => completeResponseRow_persists) fun stored => ?_
      cases stored <;> exact conforms_pure

theorem runSideEffects_durable {result : Result} : Durable (sc.runSideEffects identity result) := by
  refine conforms_bind flushEvents_durable fun flushed => ?_
  split
  · refine conforms_bind completeResponse_durable fun completed => ?_
    cases completed <;> exact conforms_pure
  · exact conforms_pure

theorem scanMaterial_durable {material : Material} :
    Durable (sc.scanMaterial lib identity material) := by
  unfold Scanner.scanMaterial
  split
  · exact conforms_pure
  unfold Scanner.scanValues
  split
  · exact conforms_pure
  · exact scanLoop_durable

theorem findingOf_durable {answer : Except MaterialFailure Material} :
    Durable (sc.findingOf lib identity answer) := by
  unfold Scanner.findingOf
  split
  · exact conforms_pure
  · exact conforms_pure
  split
  · exact conforms_pure
  split
  · exact conforms_pure
  refine conforms_bind scanMaterial_durable fun scanned => ?_
  cases scanned <;> exact conforms_pure

theorem conclude_durable {result : Result} {finding : Option Finding} :
    Durable (conclude identity result finding) := by
  cases finding with
  | none => exact conforms_pure
  | some f =>
    refine conforms_request trivial fun findingAt => ?_
    dsimp only
    split
    · exact conforms_request trivial fun _ => conforms_request trivial fun _ => conforms_pure
    · exact conforms_bind conforms_pure fun _ => conforms_request trivial fun _ => conforms_pure

theorem scanDelivery_durable {now receiptAt : Int} :
    Durable (sc.scanDelivery lib identity now receiptAt) := by
  unfold Scanner.scanDelivery
  split
  · exact conforms_perform (recordResult_persists _ none) fun _ => conforms_pure
  · refine conforms_request trivial fun answer => conforms_request trivial fun _ => ?_
    refine conforms_bind findingOf_durable fun finding => conforms_request trivial fun _ => ?_
    refine conforms_bind conclude_durable fun concluded => ?_
    exact conforms_perform (recordResult_persists _ _) fun _ => runSideEffects_durable

theorem process_durable : Durable (sc.process lib identity) := by
  unfold Scanner.process
  split
  · exact conforms_pure
  refine conforms_request trivial fun now => ?_
  refine conforms_atomic .refl (fun _ receiptAt _ h => ⟨recordReceipt_persists h, ?_⟩)
    fun err => conforms_pure
  refine conforms_perform .refl fun existing => ?_
  cases existing with
  | some result => exact runSideEffects_durable
  | none => exact scanDelivery_durable

theorem reconcileEach_durable {deliveryIDs : List GoString} :
    Durable (reconcileEach deliveryIDs) := by
  induction deliveryIDs with
  | nil => exact conforms_pure
  | cons deliveryID rest ih =>
    refine conforms_bind ?_ fun errors => conforms_bind ih fun later => conforms_pure
    refine conforms_perform .refl fun loaded => conforms_perform .refl fun result => ?_
    split
    · exact conforms_pure
    · exact conforms_pure
    refine conforms_bind completeResponse_durable fun completed => ?_
    cases completed <;> exact conforms_pure

theorem reconcile_durable : Durable sc.reconcile := by
  unfold Scanner.reconcile
  split
  · exact conforms_pure
  refine conforms_bind flushEvents_durable fun flushed => conforms_request trivial fun now => ?_
  refine conforms_perform (markOverdueResponses_persists now) fun _ => ?_
  refine conforms_perform .refl fun deliveryIDs => ?_
  exact conforms_bind reconcileEach_durable fun errors => conforms_pure

theorem maintain_durable {prune reconcile : Bool} : Durable (sc.maintain prune reconcile) := by
  have hreconcile : Durable (if reconcile then do
      let _ ← sc.reconcile
      return ()
    else pure () : Task Unit) := by
    split
    · exact conforms_bind reconcile_durable fun _ => conforms_pure
    · exact conforms_pure
  refine conforms_request trivial fun now => ?_
  dsimp only
  split
  · exact conforms_perform (fun _ => .of_tables rfl rfl rfl) fun _ => hreconcile
  · exact hreconcile

theorem deliver_durable {message : Message} : Durable (sc.deliver lib message) := by
  unfold Scanner.deliver
  split
  · split
    · exact conforms_request trivial fun _ => conforms_pure
    split
    · exact durable_request _
    refine conforms_bind process_durable fun processed => ?_
    split
    · exact durable_request _
    · exact conforms_request trivial fun _ => conforms_pure
  · exact durable_request _

theorem program_durable (job : Job) : Durable ((system lib sc).program job) := by
  cases job with
  | startup | runDue => exact maintain_durable
  | deliver message => exact deliver_durable

end Programs

/-! ## Runs -/

/-- Nothing is assumed of the answers. -/
def durability : Contract Store Question Answer where
  rely := Store.Persists
  guarantee := Store.Persists
  inv _ := True
  asks _ _ := True
  answers _ _ := True
  kept _ _ := trivial
  unchanged := .refl

theorem system_honours {lib : ScanLib} {sc : Scanner} : (system lib sc).Honours durability where
  programs job _ _ := (program_durable job).honours (K := fun _ => True) (L := fun _ => True)
    trivial (fun _ _ _ => trivial) (fun _ _ _ => ⟨id, id⟩) (fun _ _ => trivial)
    (fun _ _ _ _ h => ⟨trivial, h, trivial⟩) (fun _ _ _ _ h => ⟨trivial, h, trivial⟩)
  others call s _ := call.step_persists s

/-- What is recorded at one moment of a run is there at every later one. -/
theorem scanner_persists (lib : ScanLib) (sc : Scanner) (s : Store)
    (moves later : List (Move Question Answer Job RegistryCall)) :
    ((system lib sc).run moves (.fresh s)).store.Persists
      ((system lib sc).run (moves ++ later) (.fresh s)).store := by
  have hrun : ∀ ms {st : Loop}, st.Sound durability →
      st.Extends durability ((system lib sc).run ms st) :=
    fun ms _ h => .run system_honours (fun m _ => by cases m <;> simp [Move.Fair, durability]) h
  rw [System.run, System.run, List.foldl_append]
  refine stable (fun _ _ hstep h => ?_) (.refl _)
    (hrun later (hrun moves (Process.sound_fresh trivial)).sound).store
  exact h.trans (hstep.elim id id)

end SignalPlane.Pushscan
