/-
SignalPlane.Resumeupload.IngressTheorems — whether a release leaves a trace.

A release is accounted for when the ledger has an event for its delivery, or a
dead letter. Events and dead letters are never removed, so what counts is
whether some delivery of the message handles it. `deliver_accounted_iff` says
exactly when one delivery does: the release is accounted for already, or its
hydration fails and it is the last delivery, or it can be admitted. What
`MatchRoute`, the executor check and `AdmitRelease` refuse is given back to the
stream, also for the last time, and then nothing is left of it.
`release_accounted_iff` carries this through the deliveries of a message.
-/
import SignalPlane.Resumeupload.Router
import SignalPlane.Workledger.AdmissionTheorems

namespace SignalPlane.Resumeupload

open Workledger
open Dispatcher (GoError bind_eq_ok require_bind_eq_ok pure_eq_ok)

variable {k : GoString × GoString × GoString} {cause : GoError} {o : ReleaseOperation}

/-! ## Matching a route -/

/-- `row` is the one active route whose policy accepts the event, and every active definition can
be read. -/
structure SoleRoute (lib : LedgerLib) (e : Event) (row : RouteSnapshotRow) (s : Store) : Prop where
  readable : ∀ r ∈ s.routeSnapshots.rows, r.retiredAt = none → r.definition.validate lib = .ok ()
  found : row ∈ s.routeSnapshots.rows
  active : row.retiredAt = none
  accepts : row.definition.admission.matches e = true
  sole : ∀ r ∈ s.routeSnapshots.rows, r.retiredAt = none →
    r.definition.admission.matches e = true → r = row

section Routes

variable {lib : LedgerLib} {e : Event} {s : Store}

theorem matchingRoutes_eq_ok {rows : List RouteSnapshotRow} {found : List RouteSnapshot} :
    matchingRoutes lib e rows = .ok found ↔
      (∀ r ∈ rows, r.definition.validate lib = .ok ()) ∧
        found = (rows.filter fun r => r.definition.admission.matches e).map
          fun r => r.scan r.definition := by
  induction rows generalizing found with
  | nil => simp [matchingRoutes, eq_comm]
  | cons row rows ih =>
    cases hvalid : row.definition.validate lib with
    | error err => simp [matchingRoutes, hvalid]
    | ok u =>
      simp only [matchingRoutes, hvalid, bind_eq_ok, ih, pure_eq_ok, List.forall_mem_cons, true_and,
        List.filter_cons]
      constructor
      · rintro ⟨_, ⟨hrest, rfl⟩, rfl⟩
        refine ⟨hrest, ?_⟩
        split <;> rfl
      · rintro ⟨hrest, rfl⟩
        refine ⟨_, ⟨hrest, rfl⟩, ?_⟩
        split <;> rfl

/-- A list without repetitions whose members are all one value. -/
theorem eq_singleton_iff {α : Type} {l : List α} {a : α} (h : l.Nodup) :
    l = [a] ↔ a ∈ l ∧ ∀ b ∈ l, b = a := by
  constructor
  · rintro rfl
    simp
  · rintro ⟨hmem, hall⟩
    obtain ⟨n, rfl⟩ : ∃ n, l = List.replicate n a := ⟨_, List.eq_replicate_of_mem hall⟩
    have hn := List.nodup_replicate.mp h
    have hpos := (List.mem_replicate.mp hmem).1
    obtain rfl : n = 1 := by omega
    rfl

theorem mem_activeRoutes {r : RouteSnapshotRow} :
    r ∈ s.activeRoutes ↔ r ∈ s.routeSnapshots.rows ∧ r.retiredAt = none := by
  simp [Store.activeRoutes]

theorem nodup_activeRoutes : s.activeRoutes.Nodup := by
  have hrows : s.routeSnapshots.rows.Nodup := List.Nodup.of_map _ s.routeSnapshots.nodup
  exact (List.perm_insertionSort _ _).nodup_iff.mpr (hrows.filter _)

/-- `MatchRoute` succeeds with the one route that matches. -/
theorem matchRoute_eq_ok {snapshot : RouteSnapshot} :
    matchRoute lib e s = .ok snapshot ↔
      ∃ row, SoleRoute lib e row s ∧ snapshot = row.scan row.definition := by
  have hfound : matchRoute lib e s = .ok snapshot ↔
      matchingRoutes lib e s.activeRoutes = .ok [snapshot] := by
    unfold matchRoute
    rw [bind_eq_ok]
    constructor
    · rintro ⟨found, hfound, h⟩
      split at h
      · cases h
      · cases h
        exact hfound
      · cases h
    · exact fun h => ⟨_, h, rfl⟩
  rw [hfound, matchingRoutes_eq_ok, eq_comm (a := [snapshot]), List.map_eq_singleton_iff]
  constructor
  · rintro ⟨hvalid, row, hone, rfl⟩
    obtain ⟨hmem, hall⟩ := (eq_singleton_iff (nodup_activeRoutes.filter _)).mp hone
    obtain ⟨hactive, haccepts⟩ := List.mem_filter.mp hmem
    obtain ⟨hrow, hretired⟩ := mem_activeRoutes.mp hactive
    refine ⟨row, ⟨fun r hr ha => hvalid r (mem_activeRoutes.mpr ⟨hr, ha⟩), hrow, hretired, haccepts,
      fun r hr ha hm => ?_⟩, rfl⟩
    exact hall r (List.mem_filter.mpr ⟨mem_activeRoutes.mpr ⟨hr, ha⟩, hm⟩)
  · rintro ⟨row, h, rfl⟩
    refine ⟨fun r hr => ?_, row, (eq_singleton_iff (nodup_activeRoutes.filter _)).mpr ⟨?_, ?_⟩, rfl⟩
    · obtain ⟨hr, ha⟩ := mem_activeRoutes.mp hr
      exact h.readable r hr ha
    · exact List.mem_filter.mpr ⟨mem_activeRoutes.mpr ⟨h.found, h.active⟩, h.accepts⟩
    · intro r hr
      obtain ⟨hr, hm⟩ := List.mem_filter.mp hr
      obtain ⟨hr, ha⟩ := mem_activeRoutes.mp hr
      exact h.sole r hr ha hm

end Routes

/-! ## Accounted for -/

/-- The ledger has an event for the delivery, or a dead letter. -/
def Accounted (s : Store) (e : Event) : Prop :=
  s.recordedDelivery e ≠ none ∨
    s.ingressFailures.find? (e.source, e.nameSpace, e.sourceDeliveryID) ≠ none

instance (s : Store) (e : Event) : Decidable (Accounted s e) :=
  inferInstanceAs (Decidable (_ ∨ _))

section Accounted

variable {lib : LedgerLib} {s s' : Store} {e : Event}

theorem accounted_of_mem {row : WorkEventRow} (hrow : row ∈ s.workEvents.rows)
    (hrecords : row.records e) : Accounted s e :=
  .inl fun hnone => recordedDelivery_eq_none.mp hnone row hrow hrecords

/-- Recording a failure leaves a dead letter for its delivery, beside those that are there. -/
theorem recordIngressFailure_find? {classification : GoString} {attempts now : Int}
    (h : recordIngressFailure lib e classification attempts now s = .ok s')
    (hk : k = (e.source, e.nameSpace, e.sourceDeliveryID) ∨ s.ingressFailures.find? k ≠ none) :
    s'.ingressFailures.find? k ≠ none := by
  obtain ⟨-, h⟩ := require_bind_eq_ok.mp h
  cases h
  let row : IngressFailureRow := ⟨e.source, e.nameSpace, e.sourceDeliveryID, e.digest lib,
    classification, attempts, Clock.unixMilli now⟩
  by_cases hkey : k = row.key
  · subst hkey
    rw [Table.find?_updateKey_self, Table.find?_insert_self s.ingressFailures row]
    exact Option.some_ne_none _
  · rw [Table.find?_updateKey_ne _ _ _ _ hkey, Table.find?_insert_ne _ hkey]
    exact hk.resolve_left hkey

/-- A dead letter is written over, never removed. -/
theorem Op.ingressFailures {op : Op} (h : op.exec lib s = .ok s')
    (hk : s.ingressFailures.find? k ≠ none) : s'.ingressFailures.find? k ≠ none := by
  cases Op.commits h with
  | admitted h | released h =>
    obtain rfl | ⟨_, _, _, _, _, -, -, rfl⟩ := admit_frame h <;> exact hk
  | replaced _ _ _ hretire | retired hretire =>
    obtain ⟨-, rfl⟩ := retireSnapshots_eq_ok.mp hretire
    exact hk
  | ingressFailed e classification attempts now failures =>
    exact recordIngressFailure_find? h (.inr hk)
  | _ => exact hk

/-- What is accounted for stays so. -/
theorem Accounted.step (op : Op) (h : Accounted s e) : Accounted (op.step lib s) e := by
  rcases Op.step_cases lib s op with hstep | hstep
  · rwa [hstep]
  rcases h with hrecorded | hfailed
  · obtain ⟨row, hrow⟩ := Option.ne_none_iff_exists'.mp hrecorded
    obtain ⟨hmem, hrecords⟩ := recordedDelivery_eq_some hrow
    rcases Op.workEvents hstep with hsame | ⟨new, -, hnew⟩
    · exact accounted_of_mem (by rwa [hsame]) hrecords
    · exact accounted_of_mem (by rw [hnew]; exact Table.mem_insert.mpr (.inl hmem)) hrecords
  · exact .inr (Op.ingressFailures hstep hfailed)

theorem Accounted.run (ops : List Op) (h : Accounted s e) :
    Accounted (Workledger.run lib ops s) e := by
  induction ops generalizing s with
  | nil => exact h
  | cons op ops ih => exact ih (h.step op)

end Accounted

/-! ## Admitting a release -/

/-- What `AdmitRelease` asks of a hydrated release besides its route. -/
structure Takes (lib : LedgerLib) (row : RouteSnapshotRow) (e : Event) (o : ReleaseOperation)
    (pass : Pass) (s : Store) : Prop where
  operation : o.validate lib = .ok ()
  delivery : e.sourceDeliveryID ≠ []
  hops : 0 ≤ e.hopCount
  unexpired : ∀ t ∈ e.expiresAt, pass.now < t
  /-- An item that matches has no other operation. -/
  stored : ∀ item, s.matchedItem row.id e pass.tie = some item →
    ∀ stored ∈ s.operationOf item.id, stored = o
  sequence : e.transportSequence.toNat < 2 ^ 63
  /-- The place in the stream is not taken by another delivery. -/
  transport : ∀ r ∈ s.workEvents.rows, ¬ (r.event.transportStream = e.transportStream ∧
    r.event.transportSequence = e.transportSequence)

/-- The tokens a pass draws are new. -/
structure Pass.Fresh (pass : Pass) (s : Store) : Prop where
  work : s.workItems.find? (newID "work" pass.workToken) = none
  event : s.workEvents.find? (newID "event" pass.eventToken) = none

instance (pass : Pass) (s : Store) : Decidable (pass.Fresh s) :=
  decidable_of_iff (s.workItems.find? (newID "work" pass.workToken) = none ∧
      s.workEvents.find? (newID "event" pass.eventToken) = none)
    ⟨fun h => ⟨h.1, h.2⟩, fun h => ⟨h.work, h.event⟩⟩

section Admission

variable {lib : LedgerLib} {s s' : Store} {e : Event} {pass : Pass} {row : RouteSnapshotRow}
  {result : AdmissionResult}

/-- The fields an event of the adapter always has. -/
theorem normalize_fields {signal : Envelope.Signal} {stream : GoString} {sequence : UInt64}
    (h : normalize lib signal stream sequence = .ok e) :
    e.transportStream ≠ [] ∧ e.transportSequence ≠ 0 ∧ e.nameSpace ≠ [] ∧ e.objectID ≠ [] ∧
      e.sourceRevision ≠ [] ∧ e.payloadDigest ≠ [] ∧ e.evidenceRef ≠ [] := by
  simp only [Workledger.normalize, GitHubAdapter.normalize, require_bind_eq_ok, pure_eq_ok] at h
  obtain ⟨-, -, ⟨hspace, -, hobject, hrevision⟩, ⟨hstream, hsequence⟩, rfl⟩ := h
  have hlit {a b : GoString} (ha : a ≠ []) : a ++ b ≠ [] := List.append_ne_nil_of_left_ne_nil ha b
  exact ⟨hstream, hsequence, hspace, hobject, hrevision, hlit (by decide),
    hlit (hlit (hlit (by decide)))⟩

/-- An admission that succeeds leaves the delivery recorded. -/
theorem accounted_of_admitRelease {snapshotID : GoString}
    (h : admitRelease lib snapshotID e o pass.tie pass.workToken pass.eventToken pass.now s =
      .ok (result, s')) : Accounted s' e := by
  obtain ⟨-, -, h⟩ := bind_eq_ok.mp h
  obtain ⟨snapshot, -, -, ⟨recorded, hrecorded, rfl, -⟩ |
    ⟨-, item, s1, s2, -, -, hevent, -⟩⟩ := admit_eq_ok.mp h
  · exact .inl (by simp [hrecorded])
  · obtain ⟨-, hfresh, -, -, rfl⟩ := insertEvent_eq_ok.mp hevent
    exact accounted_of_mem (Table.mem_insert.mpr (.inr ⟨hfresh, rfl⟩)) ⟨rfl, rfl, rfl⟩

/-- A delivery that is not recorded is admitted exactly when the ledger takes it. -/
theorem admitRelease_iff (hs : s.Linked) (hroute : SoleRoute lib e row s)
    (hfields : e.transportStream ≠ [] ∧ e.transportSequence ≠ 0 ∧ e.nameSpace ≠ [] ∧
      e.objectID ≠ [] ∧ e.sourceRevision ≠ [] ∧ e.payloadDigest ≠ [] ∧ e.evidenceRef ≠ [])
    (hrecorded : s.recordedDelivery e = none) (hfresh : pass.Fresh s) :
    (∃ result s', admitRelease lib row.id e o pass.tie pass.workToken pass.eventToken pass.now s =
      .ok (result, s')) ↔ Takes lib row e o pass s := by
  constructor
  · rintro ⟨result, s', h⟩
    obtain ⟨⟨⟩, hvalid, h⟩ := bind_eq_ok.mp h
    obtain ⟨snapshot, hid, hadmissible, ⟨recorded, hsome, -⟩ |
      ⟨-, item, s1, s2, hitem, hattach, hevent, -⟩⟩ := admit_eq_ok.mp h
    · cases hrecorded.symm.trans hsome
    obtain ⟨hsequence, -, -, htransport, -⟩ := insertEvent_eq_ok.mp hevent
    have hevents : s2.workEvents = s.workEvents := by
      obtain ⟨_, _, _, rfl⟩ := admitItem_frame hitem
      rcases attachOperation_eq_ok.mp hattach with ⟨-, rfl⟩ | ⟨o, -, rfl, -⟩ <;> rfl
    refine ⟨hvalid, hadmissible.fields.1, hadmissible.hops, hadmissible.unexpired, ?_, hsequence,
      hevents ▸ htransport⟩
    intro matched hmatched stored hstored
    rcases admitItem_eq_ok.mp hitem with ⟨row', hrow', rfl, rfl⟩ | ⟨hnone, -⟩
    · cases hmatched.symm.trans hrow'
      rcases attachOperation_eq_ok.mp hattach with ⟨hnone, -⟩ | ⟨o', ho, -, hagrees⟩
      · cases hnone
      · cases ho
        have hstored : (s1.releaseOperations.find? matched.scan.id).map
            ReleaseOperationRow.operation = some stored := hstored
        rw [hstored] at hagrees
        exact hagrees
    · cases hmatched.symm.trans hnone
  · intro h
    let q : Request := ⟨row.id, e, .release o, pass.tie, pass.workToken, pass.eventToken, pass.now⟩
    have hpasses : q.Passes lib s := by
      refine ⟨?_, row.definition, checkAdmission_eq_ok.mpr ⟨row, rfl, rfl, rfl, rfl, ?_, ?_, ?_, ?_,
        ⟨h.delivery, hfields⟩, h.hops, h.unexpired⟩⟩
      · rintro _ ⟨⟩
        exact h.operation
      · exact Table.find?_key hroute.found
      · exact hroute.readable row hroute.found hroute.active
      · exact hroute.active
      · exact hroute.accepts
    obtain ⟨result, s', hexec, -⟩ := Request.fresh_exec hs hpasses h.sequence hfresh.work
      hfresh.event (recordedDelivery_eq_none.mp hrecorded) h.transport (by
        rintro _ ⟨⟩ item hitem
        exact h.stored item hitem)
    exact ⟨result, s', hexec⟩

end Admission

/-! ## One delivery -/

/-- The message is a verified release of the repository, with a payload that says so too. -/
structure Message.Carries (lib : ReleaseLib) (m : Message) (e : Event) (p : ReleasePayload) :
    Prop where
  decodes : ∃ signal, lib.unmarshalSignal m.data = .ok signal ∧
    normalize lib.toLedgerLib signal m.stream m.sequence = .ok e ∧
    lib.unmarshalRelease signal.payload = some p
  release : isRelease e = true
  repository : p.repositoryFullName = Resumeupload.repository
  release_id : e.objectID = GoString.decimal p.releaseID

/-- Delivery `n`, which finds the ledger `s`, does not end without a trace: the release is
accounted for, or its hydration fails for the last time, or it can be admitted. -/
def Handles (lib : LedgerLib) (e : Event) (p : ReleasePayload) (n : Nat) (pass : Pass)
    (s : Store) : Prop :=
  Accounted s e ∨
  (5 ≤ n ∧ ∃ cause, pass.hydrate p.repositoryID p.installationID p.releaseID = .error cause) ∨
  ∃ o row, pass.hydrate p.repositoryID p.installationID p.releaseID = .ok o ∧
    SoleRoute lib e row s ∧ row.executorID = executorID ∧ Takes lib row e o pass s

section Deliveries

variable {lib : ReleaseLib} {m : Message} {e : Event} {p : ReleasePayload} {n : Nat} {pass : Pass}
  {s : Store}

/-- A delivery of a release, once it is decoded. -/
theorem process_eq (hm : m.Carries lib e p) :
    process lib m.stream m.data (.ok m.sequence) n pass s =
      match deliveryRecorded lib.toLedgerLib e s with
      | .error err => defer err s
      | .ok true => acknowledge pass s
      | .ok false => match pass.hydrate p.repositoryID p.installationID p.releaseID with
        | .error cause => retryOrDeadLetter lib pass n e (lit "release_hydration") cause s
        | .ok o => admitHydrated lib pass e o s := by
  obtain ⟨signal, hsignal, hnormal, hpayload⟩ := hm.decodes
  cases hrecorded : deliveryRecorded lib.toLedgerLib e s with
  | error err => simp [process, hsignal, hnormal, hm.release, hrecorded]
  | ok recorded =>
    cases recorded with
    | true => simp [process, hsignal, hnormal, hm.release, hrecorded]
    | false =>
      simp only [process, hsignal, hnormal, hm.release, hrecorded, Bool.true_eq_false, if_false]
      cases hhydrate : pass.hydrate p.repositoryID p.installationID p.releaseID <;>
        simp [processNew, hpayload, Option.filter_some, hm.repository, hm.release_id, hhydrate]

/-- The ledger `Process` leaves is the one it found, or one that a call to it leaves. -/
theorem process_reachable (hm : m.Carries lib e p) (hs : Reachable lib.toLedgerLib s) :
    Reachable lib.toLedgerLib (process lib m.stream m.data (.ok m.sequence) n pass s).store := by
  rw [process_eq hm]
  split
  · exact hs
  · exact hs
  · split
    · unfold retryOrDeadLetter
      split
      · exact hs
      · split
        · exact hs
        · next s' hrecord =>
          have hexec : (Op.recordIngressFailure e _ n pass.now).exec lib.toLedgerLib s = .ok s' :=
            hrecord
          have hstep : Reachable lib.toLedgerLib s' :=
            Op.step_of_exec hexec ▸ .step _ hs trivial
          split
          · exact hstep
          · exact hstep
    · unfold admitHydrated
      split
      · exact hs
      · split
        · exact hs
        · split
          · exact hs
          · next snapshot _ _ _ result s' hadmit =>
            have hexec : (Op.admitRelease snapshot.id e _ pass.tie pass.workToken pass.eventToken
                pass.now).exec lib.toLedgerLib s = .ok s' := map_snd_eq_ok.mpr ⟨result, hadmit⟩
            exact Op.step_of_exec hexec ▸ .step _ hs trivial

theorem deliveryRecorded_of_none (h : s.recordedDelivery e = none) :
    deliveryRecorded lib.toLedgerLib e s = .ok false := by
  simp only [deliveryRecorded, h]

/-- A delivery that is not recorded. -/
theorem process_of_none (hm : m.Carries lib e p) (h : s.recordedDelivery e = none) :
    process lib m.stream m.data (.ok m.sequence) n pass s =
      match pass.hydrate p.repositoryID p.installationID p.releaseID with
        | .error cause => retryOrDeadLetter lib pass n e (lit "release_hydration") cause s
        | .ok o => admitHydrated lib pass e o s := by
  rw [process_eq hm, deliveryRecorded_of_none h]

/-- A delivery that is recorded, with this content or another, changes nothing. -/
theorem process_of_recorded (hm : m.Carries lib e p) (h : s.recordedDelivery e ≠ none) :
    (process lib m.stream m.data (.ok m.sequence) n pass s).store = s := by
  rw [process_eq hm]
  cases hrecorded : deliveryRecorded lib.toLedgerLib e s with
  | error err => rfl
  | ok recorded =>
    cases recorded with
    | true => rfl
    | false =>
      obtain ⟨row, hrow⟩ := Option.ne_none_iff_exists'.mp h
      simp only [deliveryRecorded, hrow, require_bind_eq_ok, pure, Except.pure] at hrecorded
      cases hrecorded.2

/-- The dead letter of the last delivery. -/
theorem retryOrDeadLetter_accounted :
    Accounted (retryOrDeadLetter lib pass n e (lit "release_hydration") cause s).store e ↔
      Accounted s e ∨ 5 ≤ n := by
  unfold retryOrDeadLetter
  by_cases hn : n < 5
  · rw [if_pos hn]
    exact ⟨.inl, fun h => h.resolve_right (by omega)⟩
  · rw [if_neg hn]
    have hrecord : recordIngressFailure lib.toLedgerLib e (lit "release_hydration") n pass.now s =
        .ok _ := require_bind_eq_ok.mpr ⟨⟨by omega, by decide, by decide⟩, rfl⟩
    have hafter : Accounted _ e := .inr (recordIngressFailure_find? hrecord (.inl rfl))
    rw [hrecord]
    refine ⟨fun _ => .inr (by omega), fun _ => ?_⟩
    dsimp only
    cases pass.term with
    | error | ok => exact hafter

theorem retryOrDeadLetter_settled
    (h : (retryOrDeadLetter lib pass n e (lit "release_hydration") cause s).settled = true) :
    5 ≤ n := by
  unfold retryOrDeadLetter at h
  split at h
  · cases h
  · omega

/-- A hydrated release that is not recorded leaves an event exactly when it has one route, to
the executor, and the ledger takes it. -/
theorem admitHydrated_accounted (hs : s.Linked) (hm : m.Carries lib e p)
    (hrecorded : s.recordedDelivery e = none) (hfresh : pass.Fresh s) :
    Accounted (admitHydrated lib pass e o s).store e ↔ Accounted s e ∨ ∃ row,
      SoleRoute lib.toLedgerLib e row s ∧ row.executorID = executorID ∧
        Takes lib.toLedgerLib row e o pass s := by
  obtain ⟨signal, -, hnormal, -⟩ := hm.decodes
  have hfields := normalize_fields hnormal
  unfold admitHydrated
  cases hmatch : matchRoute lib.toLedgerLib e s with
  | error err =>
    refine ⟨.inl, fun h => h.elim id ?_⟩
    rintro ⟨row, hroute, -⟩
    cases hmatch.symm.trans (matchRoute_eq_ok.mpr ⟨row, hroute, rfl⟩)
  | ok snapshot =>
    obtain ⟨row, hroute, rfl⟩ := matchRoute_eq_ok.mp hmatch
    have hsole : ∀ row', SoleRoute lib.toLedgerLib e row' s → row' = row := fun row' h' =>
      hroute.sole row' h'.found h'.active h'.accepts
    dsimp only
    by_cases hexecutor : row.executorID = executorID
    · rw [if_neg (by exact fun h => h hexecutor)]
      have hadmit := admitRelease_iff (o := o) hs hroute hfields hrecorded hfresh
      cases hresult : admitRelease lib.toLedgerLib (row.scan row.definition).id e o pass.tie
          pass.workToken pass.eventToken pass.now s with
      | error err =>
        refine ⟨.inl, fun h => h.elim id ?_⟩
        rintro ⟨row', hroute', -, htakes⟩
        cases hsole row' hroute'
        obtain ⟨result, s', hok⟩ := hadmit.mpr htakes
        cases hresult.symm.trans hok
      | ok answer =>
        exact ⟨fun _ => .inr ⟨row, hroute, hexecutor, hadmit.mp ⟨_, _, hresult⟩⟩,
          fun _ => accounted_of_admitRelease hresult⟩
    · rw [if_pos (by exact hexecutor)]
      refine ⟨.inl, fun h => h.elim id ?_⟩
      rintro ⟨row', hroute', hexecutor', -⟩
      cases hsole row' hroute'
      exact absurd hexecutor' hexecutor

theorem admitHydrated_settled (h : (admitHydrated lib pass e o s).settled = true) :
    Accounted (admitHydrated lib pass e o s).store e := by
  unfold admitHydrated at h ⊢
  cases hmatch : matchRoute lib.toLedgerLib e s with
  | error err => rw [hmatch] at h; cases h
  | ok snapshot =>
    obtain ⟨row, -, rfl⟩ := matchRoute_eq_ok.mp hmatch
    rw [hmatch] at h
    dsimp only at h ⊢
    split at h
    · cases h
    · rename_i hexecutor
      rw [if_neg hexecutor]
      split at h
      · cases h
      · next hadmit => exact accounted_of_admitRelease hadmit

/-- What one delivery of a release leaves. -/
theorem deliver_accounted_iff (hs : Reachable lib.toLedgerLib s) (hm : m.Carries lib e p)
    (hfresh : pass.Fresh s) :
    Accounted (process lib m.stream m.data (.ok m.sequence) n pass s).store e ↔
      Handles lib.toLedgerLib e p n pass s := by
  cases hrecorded : s.recordedDelivery e with
  | some row =>
    have hsome : s.recordedDelivery e ≠ none := by simp [hrecorded]
    rw [process_of_recorded hm hsome]
    exact ⟨.inl, fun _ => .inl hsome⟩
  | none =>
    rw [process_of_none hm hrecorded]
    unfold Handles
    cases hhydrate : pass.hydrate p.repositoryID p.installationID p.releaseID with
    | error cause =>
      simp only [retryOrDeadLetter_accounted, Except.error.injEq, exists_eq', and_true,
        reduceCtorEq, false_and, exists_false, or_false]
    | ok o =>
      simp only [admitHydrated_accounted hs.sound.linked hm hrecorded hfresh, reduceCtorEq,
        exists_false, and_false, false_or, Except.ok.injEq, exists_and_left, exists_eq_left']

/-- Only a release that is accounted for is settled. -/
theorem accounted_of_settled (hm : m.Carries lib e p)
    (h : (process lib m.stream m.data (.ok m.sequence) n pass s).settled = true) :
    Accounted (process lib m.stream m.data (.ok m.sequence) n pass s).store e := by
  cases hrecorded : s.recordedDelivery e with
  | some row =>
    have hsome : s.recordedDelivery e ≠ none := by simp [hrecorded]
    rw [process_of_recorded hm hsome]
    exact .inl hsome
  | none =>
    rw [process_of_none hm hrecorded] at h ⊢
    cases hhydrate : pass.hydrate p.repositoryID p.installationID p.releaseID with
    | error cause =>
      rw [hhydrate] at h
      exact retryOrDeadLetter_accounted.mpr (.inr (retryOrDeadLetter_settled h))
    | ok o =>
      rw [hhydrate] at h
      exact admitHydrated_settled h

end Deliveries

/-! ## All deliveries -/

section Life

variable {lib : ReleaseLib} {m : Message} {e : Event} {p : ReleasePayload}

/-- The deliveries of a release leave a trace exactly when there was one before or one of them
handles it. -/
theorem deliverAll_accounted {n : Nat} {passes : List Pass} {s : Store}
    (hs : Reachable lib.toLedgerLib s) (hm : m.Carries lib e p)
    (hfresh : ∀ x ∈ m.passes lib n passes s, x.2.1.Fresh x.2.2) :
    Accounted (m.deliverAll lib n passes s) e ↔
      Accounted s e ∨ ∃ x ∈ m.passes lib n passes s,
        Handles lib.toLedgerLib e p x.1 x.2.1 x.2.2 := by
  induction passes generalizing n s with
  | nil => simp [Message.deliverAll, Message.passes]
  | cons pass rest ih =>
    have hfound := hs.run pass.others
    have hone := deliver_accounted_iff (n := n) hfound hm (hfresh _ (List.mem_cons_self ..))
    have hthere : Accounted s e → Handles lib.toLedgerLib e p n pass
        (run lib.toLedgerLib pass.others s) := fun h => .inl (h.run pass.others)
    simp only [Message.deliverAll, Message.passes, List.mem_cons, exists_eq_or_imp]
    by_cases hsettled : (m.deliver lib n pass s).settled = true
    · have hdone := hone.mp (accounted_of_settled hm hsettled)
      simp only [if_pos hsettled, List.not_mem_nil, false_and, exists_false, or_false]
      exact ⟨fun _ => .inr hdone, fun _ => accounted_of_settled hm hsettled⟩
    · simp only [if_neg hsettled, Message.passes, List.mem_cons] at hfresh ⊢
      have hafter : Reachable lib.toLedgerLib (m.deliver lib n pass s).store :=
        process_reachable hm hfound
      rw [ih hafter (fun x hx => hfresh x (.inr hx)), ← or_assoc]
      refine or_congr_left ?_
      exact hone.trans ⟨.inr, fun h => h.elim hthere id⟩

/-- After its five deliveries a release is accounted for exactly when one of them handles it. -/
theorem release_accounted_iff {passes : List Pass} {s : Store}
    (hs : Reachable lib.toLedgerLib s) (hm : m.Carries lib e p) (hfive : passes.length = 5)
    (hfresh : ∀ x ∈ m.passes lib 1 passes s, x.2.1.Fresh x.2.2) :
    Accounted (m.deliverAll lib 1 passes s) e ↔
      ∃ x ∈ m.passes lib 1 passes s, Handles lib.toLedgerLib e p x.1 x.2.1 x.2.2 := by
  rw [deliverAll_accounted hs hm hfresh]
  refine ⟨fun h => h.elim (fun hbefore => ?_) id, .inr⟩
  -- The first delivery finds what was there before.
  cases passes with
  | nil => cases hfive
  | cons pass rest =>
    exact ⟨_, List.mem_cons_self .., .inl (hbefore.run pass.others)⟩

end Life

namespace Sample

open Workledger.Sample (operation token)

/-- The webhook of the first release. -/
def payload : GoString := lit ("\x7b\"action\":\"published\",\"installation\":" ++
  "\x7b\"id\":146625575\x7d,\"release\":\x7b\"id\":1\x7d,\"repository\":" ++
  "\x7b\"full_name\":\"grubbyhacker/resume-builder\",\"id\":1\x7d\x7d")

/-- The text of a struct of strings. -/
def object (fields : List (String × GoString)) : GoString :=
  lit "\x7b" ++ GoString.join (fields.map fun field =>
    lit ("\"" ++ field.1 ++ "\":\"") ++ field.2 ++ lit "\"") (lit ",") ++ lit "\x7d"

def canonicalText (c : CanonicalEvent) : GoString :=
  object [("Source", c.source), ("Namespace", c.nameSpace), ("ObjectKind", c.objectKind),
    ("ObjectID", c.objectID), ("EventKind", c.eventKind), ("Action", c.action),
    ("ActorClass", c.actorClass), ("SourceRevision", c.sourceRevision),
    ("PayloadDigest", c.payloadDigest)]

/-- The text of the two routes below with their executor. -/
def activationText (d : RouteDefinition) (x : ExecutorDescriptor) : GoString :=
  lit "\x7b\"route\":\x7b\"id\":\"" ++ d.id ++
    lit ("\",\"schema_version\":1,\"semantic_version\":\"1.0.0\"," ++
      "\"executor_id\":\"youknowme_upload_v1\",\"admission\":\x7b" ++
      "\"sources\":[\"github\"],\"namespaces\":") ++
    lit (if d.admission.namespaces = [] then "null" else "[\"grubbyhacker/resume-builder\"]") ++
    lit (",\"object_kinds\":[\"release\"],\"events\":[\"release\"]," ++
      "\"actions\":[\"published\"]\x7d,\"concurrency\":\x7b" ++
      "\"serialization\":\"object\",\"supersede\":false\x7d,\"retry\":\x7b" ++
      "\"max_attempts\":5,\"backoff\":[60000000000,300000000000,900000000000,3600000000000]" ++
      "\x7d\x7d,\"executor\":") ++
    object [("ID", x.id), ("Kind", lit "deterministic_tool"), ("Version", x.version)] ++
    lit "\x7d"

def executor : ExecutorDescriptor := ⟨executorID, .deterministicTool, lit "v1"⟩

/-- The route of the service. -/
def route : RouteDefinition where
  id := lit "resume-builder-release-upload"
  schemaVersion := 1
  semanticVersion := lit "1.0.0"
  executorID := executorID
  admission := ⟨[lit "github"], [repository], [lit "release"], [lit "release"], [lit "published"]⟩
  concurrency := ⟨.object, false⟩
  retry := ⟨5, [minute, 5 * minute, 15 * minute, hour]⟩

/-- Another route for releases, of every repository. -/
def otherRoute : RouteDefinition :=
  { route with
    id := lit "all-release-upload"
    admission := { route.admission with namespaces := [] } }

def signal : Envelope.Signal where
  signalID := lit "signal-1"
  source := lit "github"
  routeID := lit "github"
  receivedAt := 0
  sourceEvent := lit "release"
  sourceAction := lit "published"
  sourceDeliveryID := lit "delivery-1"
  nameSpace := repository
  objectKind := lit "release"
  objectID := lit "1"
  sourceRevision := lit "2026-01-02T00:00:00Z"
  sourceRef := []
  sourceBefore := []
  sourceAfter := []
  sourceHeadTime := none
  sourceTimestamp := none
  actorClass := []
  authentication := ⟨lit "github_hmac_sha256", true⟩
  payload := payload

/-- The text of the signal in the stream. -/
def data : GoString :=
  lit "\x7b\"meta\":\x7b\"signal_id\":\"signal-1\",\"source\":\"github\"," ++
    lit "\"route_id\":\"github\",\"received_at\":\"1970-01-01T00:00:00Z\"," ++
    lit "\"source_event\":\"release\",\"source_action\":\"published\"," ++
    lit "\"source_delivery_id\":\"delivery-1\",\"namespace\":\"" ++ repository ++
    lit "\",\"object_kind\":\"release\",\"object_id\":\"1\"," ++
    lit "\"source_revision\":\"2026-01-02T00:00:00Z\",\"authentication\":" ++
    lit "\x7b\"method\":\"github_hmac_sha256\",\"verified\":true\x7d\x7d,\"payload\":" ++
    payload ++ lit "\x7d"

def releasePayload : ReleasePayload := ⟨1, repository, 146625575, 1⟩

/-- The SHA-256 digests of the texts that are hashed here, in hexadecimal. -/
def digests : List (GoString × String) :=
  [(payload, "551a7b6a25774e176449d7599223c8bf2d08332c66998fe4ade55467a28dc24e"),
   (activationText route executor,
    "76c652f9a81e4a52c5d3c224f8c768fbededc5bf9c79e5a06f7b6ade5b123759"),
   (activationText otherRoute executor,
    "2887d7fffc65815308b045ec3ecfec13892738ec68097195218a2e6765951a58"),
   (canonicalText ⟨lit "github", repository, lit "release", lit "1", lit "release",
      lit "published", [], lit "2026-01-02T00:00:00Z",
      lit "sha256:551a7b6a25774e176449d7599223c8bf2d08332c66998fe4ade55467a28dc24e"⟩,
    "fb80f4724e7f8a3c5aa5b13661601eef159bc81982e031a7053d1e16df517790")]

/-- The standard library, as far as this release is concerned. -/
def lib : ReleaseLib where
  sha256 s := ((digests.find? fun entry => entry.1 = s).bind fun entry =>
    GoString.hexDecode (lit entry.2)).getD []
  marshalCanonical := canonicalText
  marshalActivation := activationText
  parsesRFC3339 _ := true
  quote s := lit "\"" ++ s ++ lit "\""
  unmarshalSignal s :=
    if s = data then .ok signal else .error (Dispatcher.newError "invalid character")
  unmarshalRelease s := if s = payload then some releasePayload else none

def activate (d : RouteDefinition) (n : UInt8) : Op :=
  .activateRoute d (some ⟨[executor]⟩) (token n) 0

/-- The ledger with these routes. -/
def ledger (routes : List Op) : Store := run lib.toLedgerLib routes Store.empty

theorem reachable_ledger (routes : List Op) : Reachable lib.toLedgerLib (ledger routes) :=
  Reachable.run ReachableBy.empty routes

def message : Message := ⟨lit "SIGNALS", data, 1⟩

def event : Event := (normalize lib.toLedgerLib signal (lit "SIGNALS") 1).toOption.getD
  (Workledger.Sample.event 0 [] [] [])

theorem message_carries : message.Carries lib event releasePayload where
  decodes := ⟨signal, by decide +kernel, by decide +kernel, by decide +kernel⟩
  release := by decide +kernel
  repository := rfl
  release_id := by decide +kernel

/-- A delivery for which GitHub answers `answer`. -/
def pass (answer : Except GoError ReleaseOperation) : Pass where
  hydrate _ _ _ := answer
  workToken := token 1
  eventToken := token 1
  now := second

/-- Five deliveries. -/
def five (answer : Except GoError ReleaseOperation) : List Pass := List.replicate 5 (pass answer)

end Sample

open Resumeupload.Sample in
/-- A release that cannot be hydrated is a dead letter after its last delivery. -/
theorem unhydrated_release_accounted :
    Accounted (message.deliverAll lib 1
      (five (.error (Dispatcher.newError "GitHub request failed")))
      (ledger [activate route 0])) event := by
  have hlast : ∃ x ∈ message.passes lib 1
      (five (.error (Dispatcher.newError "GitHub request failed")))
      (ledger [activate route 0]),
      x.1 = 5 ∧ (x.2.1.hydrate 1 146625575 1).toOption.isNone = true := by decide +kernel
  obtain ⟨x, hx, hfive, hfails⟩ := hlast
  refine (release_accounted_iff (reachable_ledger _) message_carries rfl
    (by decide +kernel)).mpr ⟨x, hx, .inr (.inl ⟨hfive.ge, ?_⟩)⟩
  cases hcause : x.2.1.hydrate 1 146625575 1 with
  | error cause => exact ⟨cause, hcause⟩
  | ok o => simp [hcause, Except.toOption] at hfails

open Resumeupload.Sample in
/-- Two routes accept the release. Every delivery is hydrated and given back, and after the last
one nothing tells that there was a release. -/
theorem ambiguous_release_lost :
    message.Carries lib event releasePayload ∧
    Reachable lib.toLedgerLib (ledger [activate route 0, activate otherRoute 2]) ∧
    ¬ Accounted (message.deliverAll lib 1 (five (.ok Workledger.Sample.operation))
        (ledger [activate route 0, activate otherRoute 2]))
      event :=
  ⟨message_carries, reachable_ledger _, by decide +kernel⟩

end SignalPlane.Resumeupload
