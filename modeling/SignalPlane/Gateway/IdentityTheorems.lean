/-
SignalPlane.Gateway.IdentityTheorems — what the consumers can identify.

The gateway and its consumers check different fields. `admitGitHub` checks the
head of a `check_run`, a `check_suite` or a `status`, and both heads of a push.
`RecordCIEvent` wants a delivery, a repository and an exact head, whichever
object of the payload it came from, and `IdentityFromSignal` wants a delivery
and a repository as well. Nothing in between checks the delivery header, the
name of the repository or the head of a `pull_request`.

`published_identified_iff` says which published signals their consumers
accept. The condition is about the request alone: `headIdentified` is the rule
by which one object of the payload overrides another.
-/
import SignalPlane.Gateway.Server
import SignalPlane.Pushscan.Model
import SignalPlane.Dispatcher.Run

namespace SignalPlane.Gateway

open Envelope
open Dispatcher (GoLib recordCIEvent ciEventPull isCIWakeEvent isGithubSHA bind_eq_ok
  pure_eq_ok)
open Pushscan (identityFromSignal)

/-! ## Published signals -/

/-- The kind of event a request announces. -/
abbrev Request.event (request : Request) : GoString := request.header "X-GitHub-Event"

/-- The delivery a request belongs to. -/
abbrev Request.delivery (request : Request) : GoString := request.header "X-GitHub-Delivery"

/-- The admission of a request, before it is enriched. -/
def Request.admitted (request : Request) (action : GoString) : AdmissionResult :=
  { event := request.event, action := action, deliveryID := request.delivery }

/-- `signal` is what the gateway publishes for a request with this payload. -/
structure Publishes (lib : GatewayLib) (request : Request) (route : Route)
    (payload : GitHubPayload) (signal : Signal) : Prop where
  push : ∃ pushedAt, checkPush lib route request.event payload = .ok pushedAt
  ci : checkCI request.event payload = .ok ()
  signal : ∃ action pushedAt signalID receivedAt, signal = newSignal route
    (enrichGitHubAdmission lib (request.admitted action) request.event payload pushedAt)
    request.body signalID receivedAt

section Admission

variable {lib : GatewayLib} {request : Request} {route : Route}

theorem rejectUnless_bind_eq_ok {c : Prop} [Decidable c] {status : Nat} {reason : String}
    {α : Type} {f : Unit → Except RejectedRequest α} {a : α} :
    (rejectUnless c status reason >>= f) = .ok a ↔ c ∧ f () = .ok a := by
  by_cases h : c <;> simp [rejectUnless, h, bind, Except.bind]

theorem admitTuple_ok {event deliveryID action : GoString} {tuple : AdmissionTuple}
    (hi : (admitTuple route event deliveryID action tuple).ignore = none) :
    ∃ action', admitTuple route event deliveryID action tuple =
      { event := event, action := action', deliveryID := deliveryID } := by
  revert hi
  unfold admitTuple
  split
  · intro hi
    cases hi
  · split
    · exact fun _ => ⟨[], rfl⟩
    · split
      · intro hi
        cases hi
      · exact fun _ => ⟨action, rfl⟩

/-- What a tuple admits keeps the event and the delivery. -/
theorem admitGitHubTuple_ok {event deliveryID action repository : GoString}
    {result : AdmissionResult}
    (h : admitGitHubTuple route event deliveryID action repository = .ok result)
    (hi : result.ignore = none) :
    ∃ action', result = { event := event, action := action', deliveryID := deliveryID } := by
  unfold admitGitHubTuple at h
  dsimp only at h
  split at h
  · cases h
    exact admitTuple_ok hi
  · split at h <;> cases h

/-- The results differ at most in what the event is about. -/
def AdmissionResult.Redescribed (r r' : AdmissionResult) : Prop :=
  ∃ kind id revision,
    r' = { r with objectKind := kind, objectID := id, sourceRevision := revision }

theorem AdmissionResult.Redescribed.trans {r r' r'' : AdmissionResult} (h : r.Redescribed r')
    (h' : r'.Redescribed r'') : r.Redescribed r'' := by
  obtain ⟨_, _, _, rfl⟩ := h
  obtain ⟨kind, id, revision, rfl⟩ := h'
  exact ⟨kind, id, revision, rfl⟩

theorem enrichObjects_redescribed (result : AdmissionResult) (payload : GitHubPayload) :
    result.Redescribed (enrichObjects result payload) := by
  unfold enrichObjects
  cases payload.issue <;> cases payload.pullRequest <;> cases payload.release <;>
    exact ⟨_, _, _, rfl⟩

theorem enrichCheck_redescribed (result : AdmissionResult) (check : Option CheckObject) :
    result.Redescribed (CheckObject.enrich result check) := by
  unfold CheckObject.enrich
  split
  · exact ⟨_, _, _, rfl⟩
  · dsimp only
    split
    · split <;> exact ⟨_, _, _, rfl⟩
    · exact ⟨_, _, _, rfl⟩

theorem enrichGitHubAdmission_redescribed (lib : GatewayLib) (result : AdmissionResult)
    (event : GoString) (payload : GitHubPayload) (pushedAt : Option Int) :
    (enrichEvent lib result event payload pushedAt).Redescribed
      (enrichGitHubAdmission lib result event payload pushedAt) := by
  have hchecks := ((enrichObjects_redescribed (enrichEvent lib result event payload pushedAt)
    payload).trans (enrichCheck_redescribed _ payload.checkRun)).trans
      (enrichCheck_redescribed _ payload.checkSuite)
  unfold enrichGitHubAdmission
  dsimp only
  split
  · exact hchecks.trans ⟨_, _, _, rfl⟩
  · exact hchecks

theorem enrichGitHubAdmission_ignore (result : AdmissionResult) (event : GoString)
    (payload : GitHubPayload) (pushedAt : Option Int) :
    (enrichGitHubAdmission lib result event payload pushedAt).ignore = result.ignore := by
  obtain ⟨_, _, _, h⟩ := enrichGitHubAdmission_redescribed lib result event payload pushedAt
  rw [h]
  unfold enrichEvent
  dsimp only
  split <;> rfl

/-- What the identity of an event does not touch. -/
theorem enrichGitHubAdmission_fields (lib : GatewayLib) (result : AdmissionResult)
    (event : GoString) (payload : GitHubPayload) (pushedAt : Option Int) :
    let enriched := enrichGitHubAdmission lib result event payload pushedAt
    enriched.event = result.event ∧ enriched.deliveryID = result.deliveryID ∧
      enriched.nameSpace = payload.repository ∧
      enriched.authMethod = lit "github_hmac_sha256" ∧ enriched.authVerified = true ∧
      (event = lit "push" → enriched.sourceRef = payload.ref ∧
        enriched.sourceBefore = payload.before ∧ enriched.sourceAfter = payload.after) := by
  obtain ⟨_, _, _, h⟩ := enrichGitHubAdmission_redescribed lib result event payload pushedAt
  dsimp only
  rw [h]
  unfold enrichEvent
  dsimp only
  split
  · exact ⟨rfl, rfl, rfl, rfl, rfl, fun _ => ⟨rfl, rfl, rfl⟩⟩
  · next hne => exact ⟨rfl, rfl, rfl, rfl, rfl, fun he => absurd he hne⟩

/-- An admitted request that is not ignored. -/
theorem admitGitHub_ok {body : GoString} {result : AdmissionResult}
    (h : admitGitHub lib request route body = .ok result) (hi : result.ignore = none) :
    ∃ payload action pushedAt, lib.unmarshalGitHub body = some payload ∧
      checkPush lib route request.event payload = .ok pushedAt ∧
      checkCI request.event payload = .ok () ∧
      result = enrichGitHubAdmission lib (request.admitted action) request.event payload
        pushedAt := by
  simp only [admitGitHub, rejectUnless_bind_eq_ok] at h
  obtain ⟨-, -, h⟩ := h
  split at h
  · cases h
  next payload hpayload =>
  simp only [bind_eq_ok] at h
  obtain ⟨pushedAt, hpush, ⟨⟩, hci, h⟩ := h
  split at h
  · simp only [bind_eq_ok, pure_eq_ok] at h
    obtain ⟨r, hr, rfl⟩ := h
    rw [enrichGitHubAdmission_ignore] at hi
    obtain ⟨action, rfl⟩ := admitGitHubTuple_ok hr hi
    exact ⟨payload, action, pushedAt, hpayload, hpush, hci, rfl⟩
  · simp only [admitListed, rejectUnless_bind_eq_ok] at h
    obtain ⟨-, -, h⟩ := h
    split at h
    · cases h
      cases hi
    · split at h
      · cases h
        cases hi
      · cases h
        exact ⟨payload, payload.action, pushedAt, hpayload, hpush, hci, rfl⟩

/-- Whatever a GitHub route publishes comes from an admitted payload. -/
theorem handleRoute_publishes {signalID subject : GoString} {receivedAt : Int} {signal : Signal}
    (hsource : route.source = lit "github")
    (h : handleRoute lib request route signalID receivedAt = .ok (.publishes subject signal)) :
    signal.receivedAt = receivedAt ∧
      ∃ payload, lib.unmarshalGitHub request.body = some payload ∧
        Publishes lib request route payload signal := by
  unfold handleRoute at h
  rw [bind_eq_ok] at h
  obtain ⟨body, hbody, h⟩ := h
  simp only [readJSONBody, rejectUnless_bind_eq_ok, pure_eq_ok] at hbody
  obtain ⟨-, -, -, rfl⟩ := hbody
  simp only [bind_eq_ok] at h
  obtain ⟨admission, hadmit, h⟩ := h
  split at h
  · cases h
  next hi =>
  cases h
  rw [admitBySource, if_pos hsource] at hadmit
  obtain ⟨payload, action, pushedAt, hpayload, hpush, hci, rfl⟩ := admitGitHub_ok hadmit hi
  exact ⟨rfl, payload, hpayload, ⟨pushedAt, hpush⟩, hci, action, pushedAt, signalID, receivedAt,
    rfl⟩

end Admission

/-! ## Heads -/

/-- The object of a payload that says what a CI event is about names an exact head, and a pull
request that says so is numbered. -/
def GitHubPayload.headIdentified (payload : GitHubPayload) : Bool :=
  match payload.checkSuite <|> payload.checkRun with
  | some check => validGitHubSHA check.headSHA
  | none => match payload.release with
    | some release =>
      validGitHubSHA (if release.updatedAt = [] then release.tagName else release.updatedAt)
    | none => match payload.pullRequest with
      | some pull =>
        validGitHubSHA (if pull.headSHA = [] then pull.updatedAt else pull.headSHA) &&
          decide (1 ≤ pull.number.toInt)
      | none => match payload.issue with
        | some issue => validGitHubSHA issue.updatedAt
        | none => false

/-- `fmt.Sscan` reads a number that `fmt.Sprint` wrote. -/
def ScansDecimals (lib : GoLib) : Prop :=
  ∀ n : Int64, lib.sscanInt (GoString.decimal n.toInt) = some n.toInt

/-- `RecordCIEvent` accepts the head and the pull request of the result. -/
def AdmissionResult.IdentifiesHead (lib : GoLib) (result : AdmissionResult) : Prop :=
  isGithubSHA result.sourceRevision = true ∧
    (result.objectKind = lit "pull_request" → ∃ n, lib.sscanInt result.objectID = some n ∧ 1 ≤ n)

section Heads

variable {lib : GoLib} {result : AdmissionResult}

theorem isGithubSHA_iff {s : GoString} : isGithubSHA s = true ↔ validGitHubSHA s = true := Iff.rfl

theorem not_validGitHubSHA_nil : validGitHubSHA [] = false := rfl

/-- Of anything but a pull request only the head is checked. -/
theorem identifiesHead_iff (kind : GoString) (hkind : result.objectKind = kind)
    (hpull : kind ≠ lit "pull_request") :
    result.IdentifiesHead lib ↔ validGitHubSHA result.sourceRevision = true :=
  ⟨fun h => h.1, fun h => ⟨h, fun hk => absurd (hkind.symm.trans hk) hpull⟩⟩

theorem enrichCheck_identifies (hscan : ScansDecimals lib) (check : CheckObject) :
    (CheckObject.enrich result (some check)).IdentifiesHead lib ↔
      validGitHubSHA check.headSHA = true := by
  unfold CheckObject.enrich
  dsimp only
  split
  · next number _ =>
    split
    · next hpos =>
      refine ⟨fun h => h.1, fun h => ⟨h, fun _ => ⟨number.toInt, hscan number, hpos⟩⟩⟩
    · exact identifiesHead_iff (lit "commit") rfl (by decide)
  · exact identifiesHead_iff (lit "commit") rfl (by decide)

theorem enrichObjects_identifies (hscan : ScansDecimals lib) {payload : GitHubPayload}
    (hnone : (payload.checkSuite <|> payload.checkRun) = none)
    (hrevision : result.sourceRevision = []) :
    (enrichObjects result payload).IdentifiesHead lib ↔ payload.headIdentified = true := by
  unfold enrichObjects GitHubPayload.headIdentified
  rw [hnone]
  cases payload.release with
  | some release => exact identifiesHead_iff (lit "release") rfl (by decide)
  | none =>
    cases payload.pullRequest with
    | some pull =>
      simp only [AdmissionResult.IdentifiesHead, hscan pull.number, Bool.and_eq_true,
        decide_eq_true_eq, Option.some.injEq, exists_eq_left', forall_const]
      exact Iff.rfl
    | none =>
      cases payload.issue with
      | some issue => exact identifiesHead_iff (lit "issue") rfl (by decide)
      | none =>
        simp only [AdmissionResult.IdentifiesHead, hrevision, isGithubSHA_iff,
          not_validGitHubSHA_nil, Bool.false_eq_true, false_and]

/-- The head that a CI event gets from its payload. -/
theorem enrichGitHubAdmission_identifies (hscan : ScansDecimals lib) (gateway : GatewayLib)
    {event : GoString} {payload : GitHubPayload} (pushedAt : Option Int)
    (hpush : event ≠ lit "push") (hci : checkCI event payload = .ok ())
    (hrevision : result.sourceRevision = []) :
    (enrichGitHubAdmission gateway result event payload pushedAt).IdentifiesHead lib ↔
      event = lit "status" ∨ payload.headIdentified = true := by
  unfold enrichGitHubAdmission enrichEvent
  dsimp only
  rw [if_neg hpush]
  by_cases hstatus : event = lit "status"
  · -- The head of a status is checked, and is what the signal gets.
    subst hstatus
    have hsha : validGitHubSHA payload.sha = true := by
      by_contra hsha
      simp [checkCI, rejectUnless, hsha] at hci
      cases hci
    have hne : payload.sha ≠ [] := fun h => by simp [h, not_validGitHubSHA_nil] at hsha
    rw [if_pos (by simp [hne])]
    exact iff_of_true ((identifiesHead_iff (lit "commit") rfl (by decide)).mpr hsha) (.inl rfl)
  · rw [if_neg (by simp [hstatus])]
    simp only [hstatus, false_or]
    cases hsuite : payload.checkSuite with
    | some check =>
      rw [enrichCheck_identifies hscan]
      simp [GitHubPayload.headIdentified, hsuite]
    | none =>
      cases hrun : payload.checkRun with
      | some check =>
        rw [CheckObject.enrich, enrichCheck_identifies hscan]
        simp [GitHubPayload.headIdentified, hsuite, hrun]
      | none => exact enrichObjects_identifies hscan (by rw [hsuite, hrun]; rfl) hrevision

end Heads

/-! ## The consumers -/

/-- The consumers of the signal can identify it: `RecordCIEvent` takes a CI event and
`IdentityFromSignal` a push, whatever the state of their stores. -/
structure Identified (lib : GoLib) (signal : Signal) : Prop where
  ci : isCIWakeEvent signal.sourceEvent = true →
    ∀ now s, ∃ r, recordCIEvent lib signal.dispatched now s = .ok r
  push : signal.sourceEvent = lit "push" →
    ∀ sequence, 0 < sequence → ∃ identity, identityFromSignal signal sequence = .ok identity

section Consumers

variable {lib : GoLib}

theorem ciEventPull_eq_ok {signal : Dispatcher.Signal} :
    (∃ n, ciEventPull lib signal = .ok n) ↔
      (signal.objectKind = lit "pull_request" →
        ∃ n, lib.sscanInt signal.objectID = some n ∧ 1 ≤ n) := by
  unfold ciEventPull
  by_cases hk : signal.objectKind = lit "pull_request"
  · simp only [hk, if_true, forall_const]
    cases lib.sscanInt signal.objectID with
    | none => simp
    | some n => by_cases hn : 1 ≤ n <;> simp [Option.filter, hn]
  · simp [hk]

/-- What `RecordCIEvent` requires of a CI event. -/
theorem recordCIEvent_succeeds_iff {signal : Dispatcher.Signal} {now : Int} {s : Dispatcher.Store}
    (hevent : isCIWakeEvent signal.sourceEvent = true) :
    (∃ r, recordCIEvent lib signal now s = .ok r) ↔
      signal.source = lit "github" ∧ signal.sourceDeliveryID ≠ [] ∧ signal.nameSpace ≠ [] ∧
        isGithubSHA signal.sourceRevision = true ∧
        (signal.objectKind = lit "pull_request" →
          ∃ n, lib.sscanInt signal.objectID = some n ∧ 1 ≤ n) := by
  rw [← ciEventPull_eq_ok]
  simp only [recordCIEvent, Dispatcher.require_bind_eq_ok]
  simp only [hevent, Bool.true_eq_false, if_false, bind_eq_ok, not_or, ne_eq, not_not,
    Bool.not_eq_false]
  constructor
  · rintro ⟨r, ⟨hsource, hdelivery, hspace, hhead⟩, n, hn, -⟩
    exact ⟨hsource, hdelivery, hspace, hhead, n, hn⟩
  · rintro ⟨hsource, hdelivery, hspace, hhead, n, hn⟩
    -- Once the event is identified, both ways to go on succeed.
    by_cases hseen : (s.ciEvents.rows.any fun e =>
        e.deliveryID = (Dispatcher.ciEventRow lib signal n now).deliveryID ||
          e.semanticIdentity = (Dispatcher.ciEventRow lib signal n now).semanticIdentity) = true
    · exact ⟨(false, s), ⟨hsource, hdelivery, hspace, hhead⟩, n, hn, by rw [if_pos hseen]; rfl⟩
    · exact ⟨_, ⟨hsource, hdelivery, hspace, hhead⟩, n, hn, by rw [if_neg hseen]; rfl⟩

end Consumers

theorem checkPush_ok {gateway : GatewayLib} {route : Route} {payload : GitHubPayload}
    {pushedAt : Option Int} (h : checkPush gateway route (lit "push") payload = .ok pushedAt) :
    validGitHubSHA payload.before = true ∧ validGitHubSHA payload.after = true ∧
      hasPrefix payload.ref (lit "refs/heads/") = true := by
  simp only [checkPush, if_true, rejectUnless_bind_eq_ok] at h
  exact h.2.1

/-! ## Agreement -/

section Agreement

variable {lib : GoLib} {gateway : GatewayLib} {request : Request} {route : Route}
  {payload : GitHubPayload} {signal : Signal}

theorem Publishes.event (h : Publishes gateway request route payload signal) :
    signal.sourceEvent = request.event := by
  obtain ⟨-, -, action, pushedAt, _, _, rfl⟩ := h
  exact (enrichGitHubAdmission_fields ..).1

theorem Publishes.recordCIEvent_iff (h : Publishes gateway request route payload signal)
    (hscan : ScansDecimals lib) (hsource : route.source = lit "github")
    (hevent : isCIWakeEvent request.event = true) (now : Int)
    (s : Dispatcher.Store) :
    (∃ r, recordCIEvent lib signal.dispatched now s = .ok r) ↔
      request.delivery ≠ [] ∧ payload.repository ≠ [] ∧
        (request.event = lit "status" ∨ payload.headIdentified = true) := by
  have hpush : request.event ≠ lit "push" := by
    intro he
    rw [he] at hevent
    exact absurd hevent (by decide)
  rw [recordCIEvent_succeeds_iff (by rw [Signal.dispatched, h.event]; exact hevent)]
  obtain ⟨-, hci, action, pushedAt, id, receivedAt, rfl⟩ := h
  obtain ⟨-, hdelivery, hspace, -⟩ := enrichGitHubAdmission_fields gateway
    (request.admitted action) request.event payload pushedAt
  have hrevision : (request.admitted action).sourceRevision = [] := rfl
  rw [← enrichGitHubAdmission_identifies hscan gateway pushedAt hpush hci hrevision]
  simp only [Signal.dispatched, newSignal, hsource, hdelivery, hspace, true_and]
  exact Iff.rfl

theorem Publishes.identityFromSignal_iff (h : Publishes gateway request route payload signal)
    (hsource : route.source = lit "github") (hclock : signal.receivedAt ≠ Clock.zero)
    (hevent : request.event = lit "push") {sequence : Nat}
    (hsequence : 0 < sequence) :
    (∃ identity, identityFromSignal signal sequence = .ok identity) ↔
      request.delivery ≠ [] ∧ payload.repository ≠ [] := by
  obtain ⟨⟨pushedAt0, hpush⟩, hci, action, pushedAt, id, receivedAt, rfl⟩ := h
  rw [hevent] at hpush
  obtain ⟨hbefore, hafter, hheads⟩ := checkPush_ok hpush
  obtain ⟨hkind, hdelivery, hspace, hmethod, hverified, hfields⟩ :=
    enrichGitHubAdmission_fields gateway (request.admitted action) request.event payload pushedAt
  obtain ⟨href, hb, ha⟩ := hfields hevent
  have hkind' : (request.admitted action).event = lit "push" := hevent
  have hat : Clock.isZero receivedAt = false := decide_eq_false hclock
  have hheads' : (lit "refs/heads/").isPrefixOf payload.ref = true := hheads
  have hbefore' : Pushscan.matchesSHA payload.before = true := hbefore
  have hafter' : Pushscan.matchesSHA payload.after = true := hafter
  simp only [identityFromSignal, Dispatcher.require_bind_eq_ok, pure_eq_ok, newSignal, hsource,
    hkind, hkind', hdelivery, hspace, hmethod, hverified, href, hb, ha, hat, hheads', hbefore',
    hafter', hsequence.ne', ne_eq, not_true_eq_false, Bool.true_eq_false, Bool.false_eq_true,
    false_or, or_false, not_or, exists_and_left, exists_eq', and_true]
  exact Iff.rfl

end Agreement

/-- A published signal is identified by its consumers exactly when the request names a delivery
and a repository and, for a CI event other than a status, an exact head. -/
theorem published_identified_iff (lib : GoLib) (hscan : ScansDecimals lib) (gateway : GatewayLib)
    (request : Request) (route : Route) (hsource : route.source = lit "github")
    (signalID subject : GoString) (receivedAt : Int) (hclock : receivedAt ≠ Clock.zero)
    (signal : Signal)
    (h : handleRoute gateway request route signalID receivedAt = .ok (.publishes subject signal))
    (payload : GitHubPayload) (hpayload : gateway.unmarshalGitHub request.body = some payload) :
    Identified lib signal ↔
      ((isCIWakeEvent request.event = true ∨
          request.event = lit "push") →
        request.delivery ≠ [] ∧ payload.repository ≠ []) ∧
      (isCIWakeEvent request.event = true →
        request.event = lit "status" ∨ payload.headIdentified = true) := by
  obtain ⟨hreceived, payload', hpayload', hpublishes⟩ := handleRoute_publishes hsource h
  cases hpayload.symm.trans hpayload'
  have hci := fun hevent => hpublishes.recordCIEvent_iff hscan hsource hevent
  have hpush : request.event = lit "push" → ∀ sequence, 0 < sequence →
      ((∃ identity, identityFromSignal signal sequence = .ok identity) ↔
        request.delivery ≠ [] ∧ payload.repository ≠ []) := fun hevent _ hsequence =>
    hpublishes.identityFromSignal_iff hsource (hreceived ▸ hclock) hevent hsequence
  constructor
  · rintro ⟨hidentified, hpushed⟩
    rw [hpublishes.event] at hidentified hpushed
    refine ⟨fun hevent => ?_, fun hevent => ?_⟩
    · rcases hevent with hevent | hevent
      · obtain ⟨hdelivery, hspace, -⟩ :=
          (hci hevent 0 .empty).mp (hidentified hevent 0 .empty)
        exact ⟨hdelivery, hspace⟩
      · exact (hpush hevent 1 Nat.one_pos).mp (hpushed hevent 1 Nat.one_pos)
    · exact ((hci hevent 0 .empty).mp (hidentified hevent 0 .empty)).2.2
  · rintro ⟨hnamed, hhead⟩
    refine ⟨fun hevent now s => ?_, fun hevent sequence hsequence => ?_⟩
    · rw [hpublishes.event] at hevent
      obtain ⟨hdelivery, hspace⟩ := hnamed (.inl hevent)
      exact (hci hevent now s).mpr ⟨hdelivery, hspace, hhead hevent⟩
    · rw [hpublishes.event] at hevent
      exact (hpush hevent sequence hsequence).mpr (hnamed (.inr hevent))

namespace Sample

/-- The number that `decimal` wrote. -/
def readDecimal : GoString → Option Int
  | 45 :: digits => (readDigits digits).map fun n => -(n : Int)
  | digits => (readDigits digits).map fun n => (n : Int)
where
  readDigits (digits : GoString) : Option Nat :=
    if digits.all GoString.isDigit then
      some (Nat.ofDigitChars 10 (digits.map fun b => Char.ofNat b.toNat) 0)
    else none

theorem readDigits_decimalNat (n : Nat) :
    readDecimal.readDigits (GoString.decimalNat n) = some n := by
  have digit : ∀ c ∈ Nat.toDigits 10 n, c.isDigit = true := fun _ hc =>
    Nat.isDigit_of_mem_toDigits (by decide) (by decide) hc
  have hall : (GoString.decimalNat n).all GoString.isDigit = true := by
    refine List.all_eq_true.mpr fun b hb => ?_
    simp only [GoString.isDigit, Bool.and_eq_true, decide_eq_true_eq, UInt8.le_iff_toNat_le]
    exact GoString.isDecimalByte_of_mem_decimalNat hb
  have hback : (GoString.decimalNat n).map (fun b => Char.ofNat b.toNat) = Nat.toDigits 10 n := by
    rw [GoString.decimalNat, List.map_map]
    refine (List.map_congr_left fun c hc => ?_).trans (List.map_id _)
    rw [Function.comp_apply, (GoString.asciiByte_digit (digit c hc)).1, Char.ofNat_toNat, id]
  rw [readDecimal.readDigits, if_pos hall, hback,
    Nat.ofDigitChars_toDigits (by decide) (by decide)]

/-- A standard library whose `fmt.Sscan` reads decimal numbers. -/
def scanningLib : GoLib := { Dispatcher.Sample.lib with sscanInt := readDecimal }

theorem scanningLib_scans : ScansDecimals scanningLib := by
  intro n
  change readDecimal (GoString.decimal n.toInt) = some n.toInt
  generalize n.toInt = z
  cases z with
  | ofNat m =>
    have hhead : ∀ digits, GoString.decimalNat m ≠ 45 :: digits := by
      intro digits he
      have := GoString.isDecimalByte_of_mem_decimalNat (n := m) (b := 45) (he ▸ List.mem_cons_self)
      simp at this
    rw [GoString.decimal]
    unfold readDecimal
    split
    · next digits he => exact absurd he (hhead digits)
    · rw [readDigits_decimalNat]
      rfl
  | negSucc m =>
    rw [GoString.decimal, readDecimal, readDigits_decimalNat]
    rfl

/-- A pull request without a head. -/
def pullBody : GoString := lit (
  "\x7b\"action\":\"synchronize\",\"repository\":\x7b\"full_name\":\"octo/repo\"" ++
  "\x7d,\"pull_request\":\x7b\"number\":7,\"updated_at\":\"2026-01-02T03:04:05Z\"" ++
  ",\"head\":\x7b\x7d\x7d\x7d")

/-- A finished check. -/
def checkBody : GoString := lit (
  "\x7b\"action\":\"completed\",\"repository\":\x7b\"full_name\":\"octo/repo\"" ++
  "\x7d,\"check_run\":\x7b\"head_sha\":\"0123456789abcdef0123456789abcdef01234567" ++
  "\",\"pull_requests\":[\x7b\"number\":7\x7d]\x7d\x7d")

def headSHA : GoString := lit "0123456789abcdef0123456789abcdef01234567"

/-- The signatures of the two bodies under the key `secret`. -/
def pullSignature : GoString :=
  lit "63eb2219269008b032bf3781a3952df916454e5f5cd1f870f8c825cc5401a3af"

def checkSignature : GoString :=
  lit "c881a0d895788af646094a98d116b7bc8a7811656e19b8cbd195ab345eb76c24"

/-- The standard library, as far as the two bodies are concerned. -/
def gatewayLib : GatewayLib where
  getenv _ := lit "secret"
  hmacSHA256 _ body :=
    ((if body = pullBody then GoString.hexDecode pullSignature
      else if body = checkBody then GoString.hexDecode checkSignature else none)).getD []
  jsonValid body := body = pullBody || body = checkBody
  unmarshalGitHub body :=
    if body = pullBody then
      some { action := lit "synchronize", repository := lit "octo/repo",
             pullRequest := some ⟨7, lit "2026-01-02T03:04:05Z", []⟩ }
    else if body = checkBody then
      some { action := lit "completed", repository := lit "octo/repo",
             checkRun := some ⟨headSHA, [7]⟩ }
    else none
  unmarshalString _ := none
  unmarshalInt64 _ := none
  parseRFC3339 _ := none
  toLower s := s

/-- A route for the CI events of one repository. -/
def route : Route where
  id := lit "github"
  source := lit "github"
  maxBodyBytes := 1048576
  publishSubject := lit "signals.github"
  github := { webhookSecretEnv := lit "GITHUB_WEBHOOK_SECRET" }
  admission := { tuples := [⟨lit "octo/repo", lit "pull_request", [lit "synchronize"]⟩,
    ⟨lit "octo/repo", lit "check_run", [lit "completed"]⟩] }

/-- A signed request. -/
def request (event body signature : GoString) : Request where
  header
    | "X-Hub-Signature-256" => lit "sha256=" ++ signature
    | "X-GitHub-Event" => event
    | "X-GitHub-Delivery" => lit "delivery-1"
    | _ => []
  body := body

/-- What the gateway publishes for the pull request. -/
def pullSignal : Signal where
  signalID := lit "signal-1"
  source := lit "github"
  routeID := lit "github"
  receivedAt := second
  sourceEvent := lit "pull_request"
  sourceAction := lit "synchronize"
  sourceDeliveryID := lit "delivery-1"
  nameSpace := lit "octo/repo"
  objectKind := lit "pull_request"
  objectID := lit "7"
  sourceRevision := lit "2026-01-02T03:04:05Z"
  sourceRef := []
  sourceBefore := []
  sourceAfter := []
  sourceHeadTime := none
  sourceTimestamp := none
  actorClass := []
  authentication := ⟨lit "github_hmac_sha256", true⟩
  payload := pullBody

/-- What it publishes for the check. -/
def checkSignal : Signal :=
  { pullSignal with
    sourceEvent := lit "check_run"
    sourceAction := lit "completed"
    sourceRevision := headSHA
    payload := checkBody }

end Sample

open Sample in
/-- A check of a pull request is identified. -/
theorem check_run_identified : Identified scanningLib checkSignal :=
  (published_identified_iff scanningLib scanningLib_scans gatewayLib
    (request (lit "check_run") checkBody checkSignature) route rfl
    (lit "signal-1") (lit "signals.github") second (by decide) checkSignal
    (by decide +kernel)
    { action := lit "completed", repository := lit "octo/repo",
      checkRun := some ⟨headSHA, [7]⟩ } (by decide +kernel)).mpr (by decide +kernel)

open Sample in
/-- A pull request without a head is published under its time, which is no head. -/
theorem pull_request_not_identified :
    handleRoute gatewayLib (request (lit "pull_request") pullBody pullSignature) route
        (lit "signal-1") second = .ok (.publishes (lit "signals.github") pullSignal) ∧
      ∀ now s, recordCIEvent scanningLib pullSignal.dispatched now s =
        .error (Dispatcher.newError
          "CI event lacks authenticated GitHub delivery, repository, or exact head identity") :=
  ⟨by decide +kernel, fun _ _ => rfl⟩

end SignalPlane.Gateway
