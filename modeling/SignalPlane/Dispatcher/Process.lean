/-
SignalPlane.Dispatcher.Process — from a delivered signal to the store
(`predicate.go` and `process` in `dispatcher.go`).

`select` decides whether a signal is a repository task; `process` records CI
events and external wakes, then the delivery itself. Each is a transaction of
its own, and the first that fails ends the call.
-/
import SignalPlane.Dispatcher.Worker

namespace SignalPlane.Dispatcher

open Workflow (atomic commit)

variable {now : Int} {streamSequence : Nat} {candidate : Option Candidate}

/-- Whether a route admits an issue event. -/
def RepositoryTaskRoute.admits (route : RepositoryTaskRoute) (signal : Signal)
    (event : IssueEvent) : Bool :=
  event.fullName = route.repository && signal.sourceEvent = route.event &&
    event.action = route.action && event.label = route.label

/-- `Select`: the candidate, or the word for why there is none. -/
def select (lib : GoLib) (signal : Signal) (routes : List RepositoryTaskRoute) :
    Except GoString Candidate := do
  if signal.source ≠ lit "github" ∨ signal.sourceEvent ≠ lit "issues" ∨
      signal.sourceAction ≠ lit "labeled" then throw (lit "event_filtered")
  if signal.sourceDeliveryID = [] then throw (lit "missing_delivery_id")
  match lib.unmarshalIssueEvent signal.payload with
  | none => throw (lit "invalid_payload")
  | some event =>
    if event.number ≤ 0 ∨ event.state ≠ lit "open" ∨ event.pullRequest.length ≠ 0 ∨
        event.senderLogin = [] then throw (lit "issue_filtered")
    match routes.filter (fun route => route.admits signal event) with
    | [] => throw (lit "route_filtered")
    | [route] =>
      return { repository := event.fullName
               issueNumber := event.number
               deliveryID := signal.sourceDeliveryID
               routeID := route.id
               profile := route.profile }
    | _ :: _ :: _ => throw (lit "ambiguous_route")

/-- The word `Select` returns beside the candidate. -/
def selectOutcome (selected : Except GoString Candidate) : GoString :=
  match selected with
  | .ok _ => lit "accepted"
  | .error word => word

/-- `routeOwnsRepository`. -/
def routeOwnsRepository (routes : List RepositoryTaskRoute) (repository : GoString) : Bool :=
  routes.any (fun route => route.repository = repository)

/-- A JetStream delivery: its sequence, its data and what acknowledging it returns. -/
structure Delivery where
  streamSequence : Except GoError Nat
  data : GoString
  ackSync : Except GoError Unit

/-- `fmt.Errorf("…: %w", err)`. -/
def GoError.wrap (context : String) (err : GoError) : GoError :=
  { err with text := lit context ++ lit ": " ++ err.text }

/-- The two wake-ups of `process`: a CI event, then an external wait. -/
def recordWakes (env : Env) (signal : Signal) (now : Int) : Dispatch (Except GoError Unit) := do
  if routeOwnsRepository env.routes signal.nameSpace then
    let recorded ← (if isCIWakeEvent signal.sourceEvent then
        atomic (recordCIEvent env.lib signal now)
      else pure (.ok false))
    match recorded with
    | .error e => return .error (e.wrap "persist CI wake-up")
    | .ok _ =>
      match ← atomic (recordRepositoryRunExternalWake env.lib signal now) with
      | .error e => return .error (e.wrap "persist repository run external wake-up")
      | .ok _ => return .ok ()
  else return .ok ()

/-- `process`; `Process` passes the empty recovery id. -/
def process (env : Env) (recoveryID : GoString) (delivery : Delivery) (now : Int) :
    Dispatch (Except GoError Unit) := do
  match delivery.streamSequence with
  | .error e => return .error (e.wrap "read JetStream delivery metadata")
  | .ok streamSequence =>
    if streamSequence = 0 then
      return .error ((newError "stream sequence is zero").wrap "read JetStream delivery metadata")
    else
      match env.lib.unmarshalSignal delivery.data with
      | .error e => return .error (e.wrap "decode replayed signal")
      | .ok signal =>
        match ← recordWakes env signal now with
        | .error e => return .error e
        | .ok () =>
          let selected := select env.lib signal env.routes
          match ← commit (record recoveryID signal.sourceDeliveryID (selectOutcome selected)
              streamSequence selected.toOption now) with
          | .error e => return .error (e.wrap "persist delivery")
          | .ok () =>
            match delivery.ackSync with
            | .error e => return .error (e.wrap "acknowledge delivery")
            | .ok () => return .ok ()

/-- What is selected names a route of the list. -/
theorem select_spec (lib : GoLib) (signal : Signal) (routes : List RepositoryTaskRoute) :
    (∀ c, select lib signal routes = .ok c → signal.sourceDeliveryID ≠ [] ∧
      c.deliveryID = signal.sourceDeliveryID ∧ ∃ r ∈ routes, c.routeID = r.id) ∧
    (select lib signal routes = .error (lit "ambiguous_route") →
      ∃ event, 1 < (routes.filter fun r => r.admits signal event).length) := by
  have filtered {word : GoString} {A : Candidate → Prop} {B : Prop}
      (hword : word ≠ lit "ambiguous_route") :
      (∀ c, (.error word : Except GoString Candidate) = .ok c → A c) ∧
        ((.error word : Except GoString Candidate) = .error (lit "ambiguous_route") → B) :=
    ⟨fun _ h => (by cases h), fun h => absurd (Except.error.inj h) hword⟩
  simp only [select, throw, throwThe, MonadExceptOf.throw, bind, Except.bind, pure, Except.pure]
  split
  · exact filtered (by decide)
  split
  · exact filtered (by decide)
  next hdelivery =>
  split
  · exact filtered (by decide)
  next event _ =>
  split
  · exact filtered (by decide)
  split
  · exact filtered (by decide)
  · next route hfilter =>
    have hroute : route ∈ routes := (List.mem_filter.mp (hfilter ▸ List.mem_singleton_self route)).1
    refine ⟨fun c h => ?_, fun h => by cases h⟩
    cases h
    exact ⟨hdelivery, rfl, route, hroute, rfl⟩
  · next hfilter => exact ⟨fun _ h => (by cases h), fun _ => ⟨event, by simp [hfilter]⟩⟩

/-! ## What a delivery writes -/

/-- The transactions of a delivery, in order: the CI event, the external wake, the delivery. A
failure ends the call, so each may be missing. -/
structure DeliveryPath (env : Env) (recoveryID : GoString) (delivery : Delivery) (now : Int)
    (s s₁ s₂ s' : Store) : Prop where
  event : s₁ = s ∨ ∃ signal b, env.lib.unmarshalSignal delivery.data = .ok signal ∧
    routeOwnsRepository env.routes signal.nameSpace = true ∧
    isCIWakeEvent signal.sourceEvent = true ∧ recordCIEvent env.lib signal now s = .ok (b, s₁)
  wake : s₂ = s₁ ∨ ∃ signal b, env.lib.unmarshalSignal delivery.data = .ok signal ∧
    recordRepositoryRunExternalWake env.lib signal now s₁ = .ok (b, s₂)
  recorded : s' = s₂ ∨ ∃ signal streamSequence,
    env.lib.unmarshalSignal delivery.data = .ok signal ∧
    delivery.streamSequence = .ok streamSequence ∧
    record recoveryID signal.sourceDeliveryID (selectOutcome (select env.lib signal env.routes))
      streamSequence (select env.lib signal env.routes).toOption now s₂ = .ok s'

/-- A delivery asks nothing and makes these transactions. -/
theorem process_path (env : Env) (o : BrokerAnswers) (recoveryID : GoString) (delivery : Delivery)
    (now : Int) (s : Store) :
    Workflow.Post (fun _ _ => False) o (process env recoveryID delivery now) s
      (fun _ s' => ∃ s1 s2, DeliveryPath env recoveryID delivery now s s1 s2 s') := by
  have none : ∃ s1 s2, DeliveryPath env recoveryID delivery now s s1 s2 s :=
    ⟨s, s, .inl rfl, .inl rfl, .inl rfl⟩
  unfold process
  split
  · exact Workflow.post_pure.mpr none
  next streamSequence hsequence =>
  split
  · exact Workflow.post_pure.mpr none
  split
  · exact Workflow.post_pure.mpr none
  next signal hsignal =>
  have wakes : Workflow.Post (fun _ _ => False) o (recordWakes env signal now) s
      (fun _ s2 => ∃ s1, DeliveryPath env recoveryID delivery now s s1 s2 s2) := by
    unfold recordWakes
    split
    · next howned =>
      refine Workflow.post_bind.mpr ?_
      have hevent : Workflow.Post (fun _ _ => False) o
          (if isCIWakeEvent signal.sourceEvent then atomic (recordCIEvent env.lib signal now)
            else pure (.ok false) : Dispatch (Except GoError Bool)) s
          (fun _ s1 => DeliveryPath env recoveryID delivery now s s1 s1 s1) := by
        split
        · next hci =>
          exact Workflow.post_atomic (fun b s1 h => ⟨.inr ⟨signal, b, hsignal, howned, hci, h⟩,
            .inl rfl, .inl rfl⟩) fun _ _ => ⟨.inl rfl, .inl rfl, .inl rfl⟩
        · exact Workflow.post_pure.mpr ⟨.inl rfl, .inl rfl, .inl rfl⟩
      refine Workflow.post_mono hevent fun recorded s1 hpath => ?_
      cases recorded with
      | error e => exact Workflow.post_pure.mpr ⟨s1, hpath⟩
      | ok b =>
        refine Workflow.post_bind.mpr (Workflow.post_atomic (fun b' s2 h => ?_) fun _ _ => ?_)
        · exact Workflow.post_pure.mpr ⟨s1, hpath.event, .inr ⟨signal, b', hsignal, h⟩,
            .inl rfl⟩
        · exact Workflow.post_pure.mpr ⟨s1, hpath⟩
    · exact Workflow.post_pure.mpr ⟨s, .inl rfl, .inl rfl, .inl rfl⟩
  refine Workflow.post_bind.mpr (Workflow.post_mono wakes ?_)
  rintro woken s2 ⟨s1, hpath⟩
  cases woken with
  | error e => exact Workflow.post_pure.mpr ⟨s1, s2, hpath⟩
  | ok _ =>
    refine Workflow.post_bind.mpr (Workflow.post_commit (fun s' h => ?_) fun _ _ => ?_)
    · have hrecorded : ∃ s1 s2, DeliveryPath env recoveryID delivery now s s1 s2 s' :=
        ⟨s1, s2, hpath.event, hpath.wake, .inr ⟨signal, streamSequence, hsignal, hsequence, h⟩⟩
      dsimp only
      split <;> exact Workflow.post_pure.mpr hrecorded
    · exact Workflow.post_pure.mpr ⟨s1, s2, hpath⟩

/-- An external wake writes waits and jobs only. -/
theorem recordRepositoryRunExternalWake_frame {lib : GoLib} {signal : Signal} {b : Bool}
    {s s' : Store} (h : recordRepositoryRunExternalWake lib signal now s = .ok (b, s')) :
    ∃ waits jobs, s' = { s with externalWaits := waits, jobs := jobs } := by
  unfold recordRepositoryRunExternalWake at h
  split at h
  · cases h
    exact ⟨_, _, rfl⟩
  · dsimp only at h
    split at h <;> cases h <;> exact ⟨_, _, rfl⟩

/-- The deliveries after a recorded message. A known delivery keeps its row. -/
def Store.withDelivery (s : Store) (deliveryID outcome : GoString) (streamSequence : Nat)
    (candidate : Option Candidate) (now : Int) : Table DeliveryRow.deliveryID :=
  if deliveryID = [] then s.deliveries else
    s.deliveries.insert ⟨deliveryID, outcome, (candidate.map Candidate.semanticKey).getD [],
      streamSequence, Clock.unixMilli now⟩

/-- The jobs after a recorded message: a candidate counts under a new delivery id only. -/
def Store.withCandidate (s : Store) (deliveryID : GoString) (candidate : Option Candidate)
    (now : Int) : Table JobRow.id :=
  match candidate with
  | some c => if (s.deliveries.find? deliveryID).isSome then s.jobs else (s.insertJob c now).jobs
  | none => s.jobs

/-- The replay evidence after a recorded message. -/
def Store.withReplay (s : Store) (recoveryID : GoString) (streamSequence : Nat) :
    Table (id : ReplayedMessageRow → ReplayedMessageRow) :=
  if recoveryID = [] then s.recoveryReplayed
  else s.recoveryReplayed.insert ⟨recoveryID, streamSequence⟩

theorem recordReplay_eq_ok {recoveryID : GoString} {s s' : Store} :
    recordReplay recoveryID streamSequence s = .ok s' ↔
      (recoveryID = [] ∨ (streamSequence < 2 ^ 63 ∧
        s.recoveryRuns.hits recoveryID (fun r => r.status = .incomplete) = true)) ∧
      { s with recoveryReplayed := s.withReplay recoveryID streamSequence } = s' := by
  unfold recordReplay Store.withReplay
  by_cases hid : recoveryID = []
  · simp [hid, pure_eq_ok]
  · simp only [hid, if_false, false_or, require_bind_eq_ok, pure_eq_ok, and_assoc]

/-- What `record` checks and writes. -/
theorem record_eq_ok {recoveryID deliveryID outcome : GoString} {s s' : Store} :
    record recoveryID deliveryID outcome streamSequence candidate now s = .ok s' ↔
      (streamSequence ≠ 0 ∧ streamSequence < 2 ^ 63 ∧
        ∀ c ∈ candidate, deliveryID ≠ [] ∧ c.deliveryID = deliveryID) ∧
      (recoveryID = [] ∨
        s.recoveryRuns.hits recoveryID (fun r => r.status = .incomplete) = true) ∧
      s' = { s with
        deliveries := s.withDelivery deliveryID outcome streamSequence candidate now
        jobs := s.withCandidate deliveryID candidate now
        checkpoint := max s.checkpoint streamSequence
        recoveryReplayed := s.withReplay recoveryID streamSequence } := by
  rw [record, require_bind_eq_ok, require_bind_eq_ok, bind_eq_ok]
  simp only [recordReplay_eq_ok, require_bind_eq_ok, and_assoc, exists_and_left, exists_eq_left']
  by_cases hsequence : streamSequence < 2 ^ 63
  · simp only [hsequence, true_and]
    refine and_congr_right fun _ => and_congr_right fun hcandidate => and_congr_right fun _ => ?_
    split
    · next hknown =>
      obtain ⟨row, hrow⟩ := Option.isSome_iff_exists.mp hknown.2
      have hdeliveries : s.withDelivery deliveryID outcome streamSequence candidate now =
          s.deliveries := by
        rw [Store.withDelivery, if_neg hknown.1]
        exact Table.insert_of_find? hrow
      have hcandidates : s.withCandidate deliveryID candidate now = s.jobs := by
        unfold Store.withCandidate
        split
        · exact if_pos hknown.2
        · rfl
      rw [hdeliveries, hcandidates, pure_eq_ok, eq_comm]
    · next hnew =>
      rw [pure_eq_ok, eq_comm (a := s')]
      refine Eq.congr ?_ rfl
      cases candidate with
      | none =>
        unfold Store.withDelivery Store.withCandidate
        dsimp only
        split <;> rfl
      | some c =>
        have hid := (hcandidate c rfl).1
        have hfind : ¬ (s.deliveries.find? deliveryID).isSome = true := fun h => hnew ⟨hid, h⟩
        simp only [Store.withDelivery, Store.withCandidate, if_neg hid, if_neg hfind,
          Store.insertJob]
        split <;> rfl
  · exact iff_of_false (fun h => hsequence h.2.2.2.1) fun h => hsequence h.2.1

/-- A recorded delivery writes deliveries, jobs, the checkpoint and the replay evidence only. -/
theorem record_frame {recoveryID deliveryID outcome : GoString} {s s' : Store}
    (h : record recoveryID deliveryID outcome streamSequence candidate now s = .ok s') :
    ∃ deliveries jobs checkpoint replayed, s' = { s with
      deliveries := deliveries
      jobs := jobs
      checkpoint := checkpoint
      recoveryReplayed := replayed } :=
  ⟨_, _, _, _, (record_eq_ok.mp h).2.2⟩

/-- A recorded message adds at most the job of its candidate. -/
theorem record_jobs {recoveryID deliveryID outcome : GoString} {s s' : Store}
    (h : record recoveryID deliveryID outcome streamSequence candidate now s = .ok s') :
    s'.jobs = s.jobs ∨ ∃ c, s'.jobs = (s.insertJob c now).jobs := by
  obtain ⟨-, -, rfl⟩ := record_eq_ok.mp h
  dsimp only [Store.withCandidate]
  split
  · next c =>
    split
    · exact .inl rfl
    · exact .inr ⟨c, rfl⟩
  · exact .inl rfl

end SignalPlane.Dispatcher
