/-
SignalPlane.Pushscan.Store — the scanner's tables and the operations of its `store.go`.

A receipt is written for the first delivery of a push and never again, a result
is inserted together with its event, and fingerprints belong to the registry.
Columns hold milliseconds, so what an operation returns is what the table can
hold of it. An event is stored as text and read by `PendingEvents` only; the row
holds the value that the text decodes to.

The database itself does not fail here. `RecordReceipt` inserts and then
reads: between the two nothing else writes the table, so they are one operation.
-/
import SignalPlane.Lib.Table
import SignalPlane.Pushscan.Model

namespace SignalPlane.Pushscan

open Clock
open Dispatcher (GoError newError errNoRows highBitSet require)

/-! ## Rows -/

/-- `push_scan_receipts`. -/
structure ReceiptRow where
  deliveryID : GoString
  streamSequence : Nat
  repository : GoString
  ref : GoString
  beforeSHA : GoString
  afterSHA : GoString
  headTimestamp : Option Int
  sourceTimestamp : Option Int
  receivedAt : Int
  receiptAt : Int
  consumerObservedAt : Int
  deriving DecidableEq, Repr

/-- `push_scan_results`. -/
structure ResultRow where
  deliveryID : GoString
  findingID : GoString
  status : Status
  severity : Severity
  reasonCode : GoString
  fingerprintID : GoString
  profile : GoString
  logicalSessionID : GoString
  sessionLineageID : GoString
  workerID : GoString
  workerStorageLineage : GoString
  workerFenceEpoch : Int
  profileGeneration : Int
  scanStartedAt : Int
  materialCompletedAt : Int
  findingAt : Option Int
  responseRequestedAt : Option Int
  responseLastAttemptAt : Option Int := none
  responseAttemptCount : Nat := 0
  haltedAt : Option Int
  fenceRequestedAt : Option Int
  fencedAt : Option Int
  fenceState : FenceState
  alertState : AlertState
  alertRequestedAt : Option Int
  terminalAt : Int
  sloDeadlineAt : Int
  sloBreached : Bool
  sloState : SLOState
  deriving DecidableEq, Repr

/-- `push_scan_token_fingerprints`. -/
structure FingerprintRow where
  fingerprintID : GoString
  fingerprint : List UInt8
  profile : GoString
  logicalSessionID : GoString
  sessionLineageID : GoString
  workerID : GoString
  workerStorageLineage : GoString
  workerFenceEpoch : Int
  profileGeneration : Int
  issuedAt : Int
  expiresAt : Int
  retainedUntil : Int
  state : TokenState
  deriving DecidableEq, Repr

/-- `push_scan_security_events`. -/
structure EventRow where
  eventID : GoString
  deliveryID : GoString
  payload : SecurityEvent
  publishedAt : Option Int := none
  deriving DecidableEq, Repr

/-- The database of the scanner. -/
structure Store where
  receipts : Table ReceiptRow.deliveryID
  results : Table ResultRow.deliveryID
  fingerprints : Table FingerprintRow.fingerprintID
  events : Table EventRow.eventID
  deriving DecidableEq

def Store.empty : Store := ⟨.empty, .empty, .empty, .empty⟩

/-- `nullableMillis`. -/
def nullableMillis (value : Int) : Option Int :=
  if isZero value then none else some (unixMilli value)

/-- `millisTime`. -/
def millisTime : Option Int → Int
  | none => Clock.zero
  | some ms => ofUnixMilli ms

/-! ## Fingerprints -/

/-- `FingerprintRegistration`. No state is any other word. -/
structure FingerprintRegistration where
  fingerprintID : GoString
  profile : GoString
  logicalSessionID : GoString
  sessionLineageID : GoString
  workerID : GoString
  workerStorageLineage : GoString
  workerFenceEpoch : Int
  profileGeneration : Int
  issuedAt : Int
  expiresAt : Int
  retainedUntil : Int
  state : Option TokenState
  deriving DecidableEq, Repr

def FingerprintRegistration.row (r : FingerprintRegistration) (fingerprint : List UInt8)
    (state : TokenState) : FingerprintRow where
  fingerprintID := r.fingerprintID
  fingerprint := fingerprint
  profile := r.profile
  logicalSessionID := r.logicalSessionID
  sessionLineageID := r.sessionLineageID
  workerID := r.workerID
  workerStorageLineage := r.workerStorageLineage
  workerFenceEpoch := r.workerFenceEpoch
  profileGeneration := r.profileGeneration
  issuedAt := unixMilli r.issuedAt
  expiresAt := unixMilli r.expiresAt
  retainedUntil := unixMilli r.retainedUntil
  state := state

/-- `ErrFingerprintConflict`. -/
def errFingerprintConflict : GoError :=
  newError "fingerprint registration conflicts with existing metadata"

/-- The rows that have the id or the digest of another one. -/
def Store.sameFingerprint (s : Store) (row : FingerprintRow) : List FingerprintRow :=
  s.fingerprints.rows.filter fun r =>
    decide (r.fingerprintID = row.fingerprintID) || decide (r.fingerprint = row.fingerprint)

/-- The end of `RegisterFingerprint`. Both the id and the fingerprint are unique, and a conflict
with a row that says the same is no error. -/
def insertFingerprint (row : FingerprintRow) (s : Store) : Except GoError Store :=
  if s.sameFingerprint row = [] then .ok { s with fingerprints := s.fingerprints.insert row }
  else if s.sameFingerprint row = [row] then .ok s
  else .error errFingerprintConflict

/-- `RegisterFingerprint`. -/
def registerFingerprint (fingerprint : List UInt8) (r : FingerprintRegistration) (s : Store) :
    Except GoError Store :=
  let incomplete := newError "fingerprint registration is incomplete"
  if fingerprint.length ≠ 32 ∨ r.fingerprintID = [] ∨ r.profile = [] ∨ r.logicalSessionID = [] ∨
      r.sessionLineageID = [] ∨ r.workerID = [] ∨ r.workerStorageLineage = [] ∨
      r.workerFenceEpoch ≤ 0 ∨ r.profileGeneration ≤ 0 ∨ ¬ r.issuedAt < r.expiresAt ∨
      r.retainedUntil < r.expiresAt then .error incomplete
  else match r.state with
    | none => .error incomplete
    | some state => insertFingerprint (r.row fingerprint state) s

/-- What a transition asks of a row. -/
def TokenState.isReachable (next : TokenState) (r : FingerprintRow) : Bool :=
  next = .revoked || r.state ≠ .revoked

/-- `TransitionFingerprintState`. -/
def transitionFingerprintState (fingerprintID : GoString) (state : Option TokenState)
    (s : Store) : Except GoError Store := do
  require (¬ (fingerprintID = [] ∨ (state ≠ some .expired ∧ state ≠ some .revoked)))
    (newError "fingerprint state transition is invalid")
  let next := state.getD .expired
  require (s.fingerprints.hits fingerprintID next.isReachable = true)
    (newError "fingerprint state transition target is unavailable")
  return { s with
    fingerprints := s.fingerprints.updateKey fingerprintID next.isReachable
      (fun r => { r with state := next }) (fun _ => rfl) }

/-- The state that a row shows at a moment: what has expired is not active. -/
def FingerprintRow.shows (r : FingerprintRow) (now : Int) : TokenState :=
  if r.state = .active ∧ ¬ now < ofUnixMilli r.expiresAt then .expired else r.state

/-- The attribution that a row gives at a moment. -/
def FingerprintRow.attribution (r : FingerprintRow) (now : Int) : Attribution where
  fingerprintID := r.fingerprintID
  profile := r.profile
  logicalSessionID := r.logicalSessionID
  sessionLineageID := r.sessionLineageID
  workerID := r.workerID
  workerStorageLineage := r.workerStorageLineage
  workerFenceEpoch := r.workerFenceEpoch
  profileGeneration := r.profileGeneration
  issuedAt := ofUnixMilli r.issuedAt
  expiresAt := ofUnixMilli r.expiresAt
  state := some (r.shows now)

/-- `MatchCandidate`. -/
def Store.matchCandidate (lib : ScanLib) (key candidate : GoString) (now : Int) (s : Store) :
    Option Attribution :=
  (s.fingerprints.rows.find? fun r =>
    decide (r.fingerprint = lib.hmacSHA256 key candidate) &&
      decide (unixMilli now ≤ r.retainedUntil)).map (·.attribution now)

/-- `PruneFingerprints`. -/
def pruneFingerprints (now : Int) (s : Store) : Store :=
  { s with fingerprints := s.fingerprints.delete fun r => r.retainedUntil < unixMilli now }

/-! ## Receipts -/

/-- The row of a first delivery. -/
def PushIdentity.row (identity : PushIdentity) (consumerObservedAt : Int) : ReceiptRow where
  deliveryID := identity.deliveryID
  streamSequence := identity.streamSequence
  repository := identity.repository
  ref := identity.ref
  beforeSHA := identity.before
  afterSHA := identity.after
  headTimestamp := identity.headTime.map unixMilli
  sourceTimestamp := identity.sourceTime.map unixMilli
  receivedAt := unixMilli identity.receivedAt
  receiptAt := unixMilli identity.receivedAt
  consumerObservedAt := unixMilli consumerObservedAt

/-- What `RecordReceipt` compares: a replay names the same push. -/
def ReceiptRow.sameIdentity (r : ReceiptRow) (identity : PushIdentity) : Bool :=
  decide (r.repository = identity.repository) && decide (r.ref = identity.ref) &&
    decide (r.beforeSHA = identity.before) && decide (r.afterSHA = identity.after) &&
    decide (r.headTimestamp = identity.headTime.map unixMilli) &&
    decide (r.sourceTimestamp = identity.sourceTime.map unixMilli)

/-- `RecordReceipt`, returning the time of the receipt. A sequence with the high bit set is
refused by the driver. -/
def recordReceipt (identity : PushIdentity) (consumerObservedAt : Int) (s : Store) :
    Except GoError (Int × Store) := do
  require (identity.streamSequence < 2 ^ 63) (highBitSet "2")
  match s.receipts.find? identity.deliveryID with
  | none =>
    return (ofUnixMilli (unixMilli identity.receivedAt),
      { s with receipts := s.receipts.insert (identity.row consumerObservedAt) })
  | some r => do
    require (r.sameIdentity identity = true) (newError "delivery replay identity conflict")
    return (ofUnixMilli r.receiptAt, s)

/-- `PushIdentity`. -/
def Store.pushIdentity (s : Store) (deliveryID : GoString) : Except GoError PushIdentity :=
  match s.receipts.find? deliveryID with
  | none => .error errNoRows
  | some r => .ok {
      deliveryID := r.deliveryID
      repository := r.repository
      ref := r.ref
      before := r.beforeSHA
      after := r.afterSHA
      headTime := r.headTimestamp.map ofUnixMilli
      sourceTime := r.sourceTimestamp.map ofUnixMilli
      receivedAt := ofUnixMilli r.receivedAt
      streamSequence := r.streamSequence }

/-! ## Results -/

def Result.row (result : Result) : ResultRow where
  deliveryID := result.deliveryID
  findingID := result.findingID
  status := result.status
  severity := result.severity
  reasonCode := result.reasonCode
  fingerprintID := result.fingerprintID
  profile := result.profile
  logicalSessionID := result.logicalSessionID
  sessionLineageID := result.sessionLineageID
  workerID := result.workerID
  workerStorageLineage := result.workerStorageLineage
  workerFenceEpoch := result.workerFenceEpoch
  profileGeneration := result.profileGeneration
  scanStartedAt := unixMilli result.scanStartedAt
  materialCompletedAt := unixMilli result.materialCompletedAt
  findingAt := nullableMillis result.findingAt
  responseRequestedAt := nullableMillis result.responseRequestedAt
  haltedAt := nullableMillis result.haltedAt
  fenceRequestedAt := nullableMillis result.fenceRequestedAt
  fencedAt := nullableMillis result.fencedAt
  fenceState := result.fenceState
  alertState := result.alertState
  alertRequestedAt := nullableMillis result.alertRequestedAt
  terminalAt := unixMilli result.terminalAt
  sloDeadlineAt := unixMilli result.sloDeadline
  sloBreached := result.sloBreached
  sloState := result.sloState

def ResultRow.result (r : ResultRow) (receiptAt : Int) : Result where
  deliveryID := r.deliveryID
  findingID := r.findingID
  status := r.status
  severity := r.severity
  reasonCode := r.reasonCode
  fingerprintID := r.fingerprintID
  profile := r.profile
  logicalSessionID := r.logicalSessionID
  sessionLineageID := r.sessionLineageID
  workerID := r.workerID
  workerStorageLineage := r.workerStorageLineage
  workerFenceEpoch := r.workerFenceEpoch
  profileGeneration := r.profileGeneration
  receiptAt := ofUnixMilli receiptAt
  scanStartedAt := ofUnixMilli r.scanStartedAt
  materialCompletedAt := ofUnixMilli r.materialCompletedAt
  findingAt := millisTime r.findingAt
  responseRequestedAt := millisTime r.responseRequestedAt
  haltedAt := millisTime r.haltedAt
  fenceRequestedAt := millisTime r.fenceRequestedAt
  fencedAt := millisTime r.fencedAt
  fenceState := r.fenceState
  terminalAt := ofUnixMilli r.terminalAt
  sloDeadline := ofUnixMilli r.sloDeadlineAt
  sloBreached := r.sloBreached
  sloState := r.sloState
  alertState := r.alertState
  alertRequestedAt := millisTime r.alertRequestedAt

/-- `Result`: a result joined with its receipt. -/
def Store.result (s : Store) (deliveryID : GoString) : Option Result := do
  let r ← s.results.find? deliveryID
  let d ← s.receipts.find? deliveryID
  return r.result d.receiptAt

/-- `RecordResult`. -/
def recordResult (result : Result) (event : Option SecurityEvent) (s : Store) : Store :=
  { s with
    results := s.results.insert result.row
    events := match event with
      | none => s.events
      | some e =>
        s.events.insert { eventID := e.eventID, deliveryID := e.deliveryID, payload := e } }

/-- The rows that wait for a response. -/
def ResultRow.isPending (r : ResultRow) : Bool := r.status = .responsePending

/-- `CompleteResponse`. -/
def completeResponseRow (result : Result) (s : Store) : Except GoError Store := do
  require (s.results.hits result.deliveryID ResultRow.isPending = true)
    (newError "pending response state was not advanced")
  return { s with
    results := s.results.updateKey result.deliveryID ResultRow.isPending
      (fun r => { r with
        status := result.status
        haltedAt := nullableMillis result.haltedAt
        fenceRequestedAt := nullableMillis result.fenceRequestedAt
        fencedAt := nullableMillis result.fencedAt
        fenceState := result.fenceState
        terminalAt := unixMilli result.terminalAt
        sloBreached := result.sloBreached
        sloState := result.sloState }) (fun _ => rfl) }

/-- `RecordResponseAttempt`. -/
def recordResponseAttempt (deliveryID : GoString) (now : Int) (s : Store) :
    Except GoError Store := do
  require (s.results.hits deliveryID ResultRow.isPending = true)
    (newError "pending response attempt state is unavailable")
  return { s with
    results := s.results.updateKey deliveryID ResultRow.isPending
      (fun r => { r with
        responseLastAttemptAt := some (unixMilli now)
        responseAttemptCount := r.responseAttemptCount + 1 }) (fun _ => rfl) }

/-- `MarkOverdueResponses`. -/
def markOverdueResponses (now : Int) (s : Store) : Store :=
  { s with
    results := s.results.update
      (fun r => r.isPending && decide (r.sloState ≠ .breached) &&
        decide (r.sloDeadlineAt < unixMilli now))
      (fun r => { r with
        sloBreached := true
        sloState := .breached
        terminalAt := max r.terminalAt (unixMilli now) }) (fun _ => rfl) }

/-- `ORDER BY COALESCE(response_last_attempt_at,response_requested_at),delivery_id`, where `NULL`
comes first. -/
def ResultRow.comesFirst (a b : ResultRow) : Bool :=
  match a.responseLastAttemptAt.or a.responseRequestedAt,
      b.responseLastAttemptAt.or b.responseRequestedAt with
  | none, some _ => true
  | some _, none => false
  | none, none => a.deliveryID ≤ b.deliveryID
  | some t, some u => decide (t < u) || (decide (t = u) && decide (a.deliveryID ≤ b.deliveryID))

/-- `PendingResponseDeliveryIDs`. -/
def Store.pendingResponseDeliveryIDs (s : Store) : List GoString :=
  (((s.results.rows.filter ResultRow.isPending).insertionSort
    fun a b => a.comesFirst b = true).take 64).map ResultRow.deliveryID

/-! ## Events -/

/-- `PendingEvents`. -/
def Store.pendingEvents (s : Store) : List SecurityEvent :=
  (((s.events.rows.filter fun r => r.publishedAt = none).insertionSort
    fun a b => a.eventID ≤ b.eventID).take 32).map EventRow.payload

/-- `MarkEventPublished`. -/
def markEventPublished (eventID : GoString) (now : Int) (s : Store) : Except GoError Store :=
  if s.events.hits eventID (fun r => r.publishedAt = none) then
    .ok { s with
      events := s.events.updateKey eventID (fun r => r.publishedAt = none)
        (fun r => { r with publishedAt := some (unixMilli now) }) (fun _ => rfl) }
  else if s.events.hits eventID (fun r => r.publishedAt ≠ none) then .ok s
  else .error (newError "security event publication state missing")

end SignalPlane.Pushscan
