/-
SignalPlane.Pushscan.Scanner — `Process`, `Reconcile` and the loop that runs them.

They are workflows over the scanner's database: every access to it is a
transaction of its own, and the clock, the broker, the event sink and the
message queue are asked. A clock may answer differently each time, and a broker
or a sink that fails answers with an error.

The search of `scanValues` ends because every value it takes from the queue is
one of at most `MaxCandidates` that it has seen; its fuel is that number.
Running out of fuel would look like an empty queue.

`system` is the loop of `cmd/push-security-scanner` with the registry beside it.
Whether maintenance is due is left open: `runDue` takes it as an argument.
-/
import SignalPlane.Lib.Contract
import SignalPlane.Pushscan.Scan
import SignalPlane.Pushscan.Store

namespace SignalPlane.Pushscan

open Clock
open Dispatcher (GoError newError)
open GoString (findAll)
open Workflow (atomic commit perform request)

/-! ## Questions -/

/-- Why there is no material: a `MaterialError`, or another error. -/
inductive MaterialFailure where
  | bounded (code : GoString)
  | other
  deriving DecidableEq, Repr

/-- What the loop asks of others. -/
inductive Question where
  | now
  | material (request : MaterialRequest)
  | respond (idempotencyKey : GoString) (request : ResponseRequest)
  | publish (event : SecurityEvent)
  | ackSync (signal : Envelope.Signal)
  | nakWithDelay (signal : Envelope.Signal)
  | term (data : GoString)
  deriving DecidableEq

/-- What they answer. The result of `Term` and `NakWithDelay` is ignored. -/
@[reducible] def Answer : Question → Type
  | .now => Int
  | .material _ => Except MaterialFailure Material
  | .respond .. => Except GoError ResponseResult
  | .publish _ => Except GoError Unit
  | .ackSync _ => Except GoError Unit
  | .nakWithDelay _ => Unit
  | .term _ => Unit

/-- A part of the loop. -/
abbrev Task := Workflow Store Question Answer

def clock : Task Int := request Question.now

def fetchMaterial (r : MaterialRequest) : Task (Except MaterialFailure Material) :=
  request (Question.material r)

def respond (key : GoString) (r : ResponseRequest) : Task (Except GoError ResponseResult) :=
  request (Question.respond key r)

def publish (event : SecurityEvent) : Task (Except GoError Unit) :=
  request (Question.publish event)

def ackSync (signal : Envelope.Signal) : Task (Except GoError Unit) :=
  request (Question.ackSync signal)

def nakWithDelay (signal : Envelope.Signal) : Task Unit := request (Question.nakWithDelay signal)

def term (data : GoString) : Task Unit := request (Question.term data)

/-- `fmt.Errorf("…: %w", err)`. -/
def wrapped (context : GoString) (err : GoError) : GoError :=
  { err with text := context ++ lit ": " ++ err.text }

/-! ## The search -/

/-- `canaryPattern` matched. -/
def Scanner.canaryFinding (lib : ScanLib) (sc : Scanner) (identity : PushIdentity) : Finding :=
  { sc.highFinding lib identity (lit "seeded_canary_match") with
    attribution := sc.canaryAttribution }

/-- A registered fingerprint matched. -/
def Scanner.matchFinding (lib : ScanLib) (sc : Scanner) (identity : PushIdentity)
    (attribution : Attribution) : Finding :=
  let reason :=
    if attribution.state = some .active then lit "issued_token_fingerprint_match"
    else (attribution.state.map TokenState.word).getD [] ++ lit "_token_fingerprint_match"
  { sc.highFinding lib identity reason with
    attribution := attribution
    id := findingID lib identity reason attribution.fingerprintID }

/-- The inner loop of `scanValues`. -/
def matchCandidates (lib : ScanLib) (key : GoString) : List GoString → Task (Option Attribution)
  | [] => return none
  | candidate :: rest => do
    let now ← clock
    match ← perform (fun s => (s.matchCandidate lib key candidate now, s)) with
    | some attribution => return some attribution
    | none => matchCandidates lib key rest

/-- What is compared with the registered fingerprints. -/
def candidates (value : GoString) : List GoString := value :: findAll tokenRun 0 value

/-- The end of one round of `scanValues`. -/
def Scanner.expand (sc : Scanner) (current : QueuedValue) (search : Search) :
    Except GoError Search :=
  if sc.bounds.maxDecodeDepth ≤ current.depth then
    if hasFullReversibleDecoding current.value then .error (newError "decode depth exceeded")
    else .ok search
  else search.addAll sc.bounds (current.depth + 1) (reversibleDecodings current.value)

/-- The low finding, once some value has the shape of a credential. -/
def Scanner.lowAfter (lib : ScanLib) (sc : Scanner) (identity : PushIdentity)
    (low : Option Finding) (value : GoString) : Option Finding :=
  if low.isNone && (matchesJwt value || genericEntropyShape value) then
    some (lowFinding lib identity (lit "generic_credential_shape") sc.profile sc.profileGeneration)
  else low

/-- The outer loop of `scanValues`. -/
def Scanner.scanLoop (lib : ScanLib) (sc : Scanner) (identity : PushIdentity) :
    Nat → Search → Option Finding → Task (Except GoError (Option Finding))
  | 0, _, low => return .ok low
  | fuel + 1, search, low =>
    match search.queue with
    | [] => return .ok low
    | current :: queue =>
      if matchesCanary current.value then return .ok (some (sc.canaryFinding lib identity))
      else do
        match ← matchCandidates lib sc.fingerprintKey (candidates current.value) with
        | some attribution => return .ok (some (sc.matchFinding lib identity attribution))
        | none =>
          match sc.expand current ⟨queue, search.seen⟩ with
          | .error err => return .error err
          | .ok search =>
            sc.scanLoop lib identity fuel search (sc.lowAfter lib identity low current.value)

/-- `scanValues`. -/
def Scanner.scanValues (lib : ScanLib) (sc : Scanner) (identity : PushIdentity)
    (inputs : List GoString) : Task (Except GoError (Option Finding)) :=
  match Search.addAll sc.bounds 0 inputs ⟨[], []⟩ with
  | .error err => return .error err
  | .ok search => sc.scanLoop lib identity sc.bounds.maxCandidates.toNat search none

/-- `scanMaterial`. -/
def Scanner.scanMaterial (lib : ScanLib) (sc : Scanner) (identity : PushIdentity)
    (material : Material) : Task (Except GoError (Option Finding)) :=
  match materialValues sc.bounds material with
  | .error err => return .error err
  | .ok values => sc.scanValues lib identity values

/-! ## Side effects -/

/-- The loop of `flushEvents`. -/
def publishEach : List SecurityEvent → Task (Except GoError Unit)
  | [] => return .ok ()
  | event :: rest => do
    match ← publish event with
    | .error err => return .error err
    | .ok () =>
      let now ← clock
      match ← commit (markEventPublished event.eventID now) with
      | .error err => return .error err
      | .ok () => publishEach rest

/-- `flushEvents`. -/
def Scanner.flushEvents (sc : Scanner) : Task (Except GoError Unit) := do
  let events ← perform (fun s => (s.pendingEvents, s))
  if sc.hasEventSink then publishEach events else return .ok ()

/-- The finding of a stored result. -/
def Result.finding (result : Result) : Finding where
  id := result.findingID
  severity := result.severity
  reasonCode := result.reasonCode
  attribution := {
    fingerprintID := result.fingerprintID
    profile := result.profile
    profileGeneration := result.profileGeneration
    logicalSessionID := result.logicalSessionID
    sessionLineageID := result.sessionLineageID
    workerID := result.workerID
    workerStorageLineage := result.workerStorageLineage
    workerFenceEpoch := result.workerFenceEpoch }

/-- The result of a response that is complete. -/
def Result.completed (result : Result) (response : Response) : Result :=
  let breached : Bool := result.sloDeadline < maxTime [result.alertRequestedAt, response.halted]
  { result with
    haltedAt := response.halted
    fenceRequestedAt := response.fenceRequested
    fencedAt := response.fenced
    fenceState := response.fenceState
    terminalAt :=
      maxTime [result.terminalAt, response.halted, response.fenceRequested, response.fenced]
    sloBreached := breached
    sloState := if breached then .breached else .met
    status := .finding result.severity }

/-- The key of a response. -/
def responseKey (findingID : GoString) : GoString := lit "push-tripwire:" ++ findingID

/-- `completeResponse`. -/
def completeResponse (identity : PushIdentity) (result : Result) :
    Task (Except GoError Result) := do
  let now ← clock
  match ← commit (recordResponseAttempt result.deliveryID now) with
  | .error err => return .error err
  | .ok () =>
    match ← respond (responseKey result.finding.id) (responseRequest identity result.finding) with
    | .error err => return .error err
    | .ok answer =>
      match validateResponse answer result.finding with
      | .error err => return .error err
      | .ok response =>
        match ← commit (completeResponseRow (result.completed response)) with
        | .error err => return .error err
        | .ok () => return .ok (result.completed response)

/-- What `Process` returns: no result is the empty one. -/
structure Processed where
  result : Option Result
  errors : List GoError

def flushErrors : Except GoError Unit → List GoError
  | .error err => [wrapped (lit "flush security event outbox") err]
  | .ok () => []

/-- `runSideEffects`. -/
def Scanner.runSideEffects (sc : Scanner) (identity : PushIdentity) (result : Result) :
    Task Processed := do
  let flushed ← sc.flushEvents
  if result.status = .responsePending then
    match ← completeResponse identity result with
    | .error err =>
      return ⟨some result,
        flushErrors flushed ++ [wrapped (lit "complete pending broker response") err]⟩
    | .ok completed => return ⟨some completed, flushErrors flushed⟩
  else return ⟨some result, flushErrors flushed⟩

/-! ## `Process` -/

/-- The middle of `Process`: what the material amounts to. -/
def Scanner.findingOf (lib : ScanLib) (sc : Scanner) (identity : PushIdentity) :
    Except MaterialFailure Material → Task (Option Finding)
  | .error (.bounded code) => return some (sc.highFinding lib identity (safeReason code))
  | .error .other => return some (sc.highFinding lib identity (lit "material_unavailable"))
  | .ok material =>
    if exactMaterialIdentity material identity = false then
      return some (sc.highFinding lib identity (lit "material_identity_mismatch"))
    else if material.complete = false then
      return some (sc.highFinding lib identity (safeReason material.reasonCode))
    else do
      match ← sc.scanMaterial lib identity material with
      | .error _ => return some (sc.highFinding lib identity (lit "scan_bound_exceeded"))
      | .ok finding => return finding

/-- The deadline of a finding: a tenth of the token's life, at most five minutes. -/
def findingDeadline (receiptAt : Int) (a : Attribution) : Int :=
  if isZero a.issuedAt = false ∧ a.issuedAt < a.expiresAt ∧
      (a.expiresAt - a.issuedAt) / 10 < 5 * minute then
    receiptAt + (a.expiresAt - a.issuedAt) / 10
  else receiptAt + 5 * minute

/-- A response is asked for. -/
def Finding.isLive (f : Finding) : Bool :=
  decide (f.severity = .high) &&
    (decide (f.attribution.fingerprintID = []) || decide (f.attribution.state = some .active))

/-- The result with a finding, before a response is asked for. -/
def Result.withFinding (result : Result) (f : Finding) (findingAt : Int) : Result :=
  { result with
    findingID := f.id
    severity := f.severity
    reasonCode := f.reasonCode
    status := .finding f.severity
    findingAt := findingAt
    fingerprintID := f.attribution.fingerprintID
    profile := f.attribution.profile
    logicalSessionID := f.attribution.logicalSessionID
    sessionLineageID := f.attribution.sessionLineageID
    workerID := f.attribution.workerID
    workerStorageLineage := f.attribution.workerStorageLineage
    workerFenceEpoch := f.attribution.workerFenceEpoch
    profileGeneration := f.attribution.profileGeneration
    sloDeadline := findingDeadline result.receiptAt f.attribution
    sloState :=
      if f.severity = .high ∧ f.attribution.fingerprintID ≠ [] then .notLiveWhenScanned
      else .notApplicable }

def Result.requested (result : Result) (requestedAt : Int) : Result :=
  { result with
    status := .responsePending, responseRequestedAt := requestedAt, sloState := .pending }

def Result.alerted (result : Result) (alertRequestedAt : Int) : Result :=
  { result with alertState := .alertRequested, alertRequestedAt := alertRequestedAt }

/-- The end of `Process`: what is stored of a finding, and the event about it. -/
def conclude (identity : PushIdentity) (result : Result) :
    Option Finding → Task (Result × Option SecurityEvent)
  | none => return (result, none)
  | some f => do
    let findingAt ← clock
    let found := result.withFinding f findingAt
    let requestedAt ← if f.isLive then clock else pure Clock.zero
    let requested := if f.isLive then found.requested requestedAt else found
    let alertRequestedAt ← clock
    let alerted := requested.alerted alertRequestedAt
    return (alerted, some (securityEvent identity alerted))

def materialRequest (identity : PushIdentity) : MaterialRequest where
  version := wireVersion
  deliveryID := identity.deliveryID
  repository := identity.repository
  ref := identity.ref
  before := identity.before
  after := identity.after

/-- The result of a push that nothing is found in. -/
def Scanner.cleanResult (sc : Scanner) (identity : PushIdentity)
    (now receiptAt materialCompletedAt terminalAt : Int) : Result where
  deliveryID := identity.deliveryID
  status := .clean
  severity := .none
  reasonCode := lit "clean"
  profile := sc.profile
  profileGeneration := sc.profileGeneration
  receiptAt := receiptAt
  scanStartedAt := now
  materialCompletedAt := materialCompletedAt
  terminalAt := terminalAt
  sloDeadline := receiptAt + 5 * minute

/-- The result of a push that the catalog does not have. -/
def Scanner.rejectedResult (sc : Scanner) (identity : PushIdentity) (now receiptAt : Int) :
    Result :=
  { sc.cleanResult identity now receiptAt now now with
    status := .rejectedCatalog
    reasonCode := lit "catalog_rejected" }

def Scanner.inCatalog (sc : Scanner) (repository ref : GoString) : Bool :=
  decide (repository ∈ sc.repositories) && decide (ref ∈ sc.refs)

/-- `Process` of a delivery that has no result yet. -/
def Scanner.scanDelivery (lib : ScanLib) (sc : Scanner) (identity : PushIdentity)
    (now receiptAt : Int) : Task Processed :=
  if sc.inCatalog identity.repository identity.ref = false then do
    let result := sc.rejectedResult identity now receiptAt
    perform (fun s => ((), recordResult result none s))
    return ⟨some result, []⟩
  else do
    let answer ← fetchMaterial (materialRequest identity)
    let materialCompletedAt ← clock
    let finding ← sc.findingOf lib identity answer
    let terminalAt ← clock
    let (result, event) ← conclude identity
      (sc.cleanResult identity now receiptAt materialCompletedAt terminalAt) finding
    perform (fun s => ((), recordResult result event s))
    sc.runSideEffects identity result

/-- The scanner has what it needs. -/
def Scanner.isReady (sc : Scanner) : Bool :=
  sc.connected && decide (32 ≤ sc.fingerprintKey.length) && decide (sc.profile ≠ []) &&
    decide (0 < sc.profileGeneration)

/-- `Process`. -/
def Scanner.process (lib : ScanLib) (sc : Scanner) (identity : PushIdentity) : Task Processed :=
  if sc.isReady = false then
    return ⟨none, [newError "push scanner dependencies are incomplete"]⟩
  else do
    let now ← clock
    match ← atomic (recordReceipt identity now) with
    | .error err => return ⟨none, [err]⟩
    | .ok receiptAt =>
      match ← perform (fun s => (s.result identity.deliveryID, s)) with
      | some existing => sc.runSideEffects identity existing
      | none => sc.scanDelivery lib identity now receiptAt

/-! ## `Reconcile` -/

/-- One round of the loop of `Reconcile`. -/
def reconcileDelivery (deliveryID : GoString) : Task (List GoError) := do
  let loaded ← perform (fun s => (s.pushIdentity deliveryID, s))
  let result ← perform (fun s => (s.result deliveryID, s))
  match loaded, result with
  | .error err, _ =>
    return [wrapped (lit "load pending response identity " ++ deliveryID) err]
  | .ok _, none =>
    return [wrapped (lit "load pending response result " ++ deliveryID) (newError "result missing")]
  | .ok identity, some result =>
    match ← completeResponse identity result with
    | .error err => return [wrapped (lit "complete pending response " ++ deliveryID) err]
    | .ok _ => return []

def reconcileEach : List GoString → Task (List GoError)
  | [] => return []
  | deliveryID :: rest => do
    let errors ← reconcileDelivery deliveryID
    let later ← reconcileEach rest
    return errors ++ later

/-- `Reconcile`. -/
def Scanner.reconcile (sc : Scanner) : Task (List GoError) :=
  if sc.connected = false then
    return [newError "push scanner reconciliation dependencies are incomplete"]
  else do
    let flushed ← sc.flushEvents
    let now ← clock
    perform (fun s => ((), markOverdueResponses now s))
    let deliveryIDs ← perform (fun s => (s.pendingResponseDeliveryIDs, s))
    let errors ← reconcileEach deliveryIDs
    return flushErrors flushed ++ errors

/-! ## The loop -/

/-- A message of the queue; its metadata may be unreadable. -/
structure Message where
  data : GoString
  streamSequence : Option Nat
  deriving DecidableEq, Repr

/-- `Process` failed before there was a result. -/
def Processed.isLost (p : Processed) : Bool :=
  decide (p.errors ≠ []) && decide ((p.result.map Result.deliveryID).getD [] = [])

/-- The main loop with one message. -/
def Scanner.deliver (lib : ScanLib) (sc : Scanner) (message : Message) : Task Unit :=
  match lib.unmarshalSignal message.data, message.streamSequence with
  | some signal, some sequence =>
    if signal.sourceEvent ≠ lit "push" then do
      let _ ← ackSync signal
      return ()
    else match identityFromSignal signal sequence with
      | .error _ => term message.data
      | .ok identity => do
        let processed ← sc.process lib identity
        if processed.isLost then nakWithDelay signal
        else do
          let _ ← ackSync signal
          return ()
  | _, _ => term message.data

/-- What the loop runs. -/
inductive Job where
  | startup
  | runDue (prune reconcile : Bool)
  | deliver (message : Message)

/-- Maintenance: what is due of pruning and reconciling. -/
def Scanner.maintain (sc : Scanner) (prune reconcile : Bool) : Task Unit := do
  let now ← clock
  if prune then perform (fun s => ((), pruneFingerprints now s)) else pure ()
  if reconcile then do
    let _ ← sc.reconcile
    return ()
  else pure ()

/-- What the registry does to the database. -/
inductive RegistryCall where
  | register (fingerprint : List UInt8) (registration : FingerprintRegistration)
  | transition (fingerprintID : GoString) (state : Option TokenState)

def RegistryCall.exec : RegistryCall → Store → Except GoError Store
  | .register fingerprint registration => registerFingerprint fingerprint registration
  | .transition fingerprintID state => transitionFingerprintState fingerprintID state

def RegistryCall.step (call : RegistryCall) (s : Store) : Store :=
  match call.exec s with
  | .ok s' => s'
  | .error _ => s

/-- The loop, and the registry beside it. -/
def system (lib : ScanLib) (sc : Scanner) :
    Workflow.System Store Question Answer Job RegistryCall where
  program
    | .startup => sc.maintain true true
    | .runDue prune reconcile => sc.maintain prune reconcile
    | .deliver message => sc.deliver lib message
  act := RegistryCall.step

/-- A state of the loop. -/
abbrev Loop := Workflow.Process Store Question Answer

end SignalPlane.Pushscan
