/-
SignalPlane.Pushscan.Model — the values of the push scanner.

The scanner reads the pushes that the gateway published. A `PushIdentity` is
what it needs of one: `identityFromSignal` refuses a signal that lacks any part
of it. A `Finding` is what a scan ends with, a `Result` is what is stored of
it, and a `SecurityEvent` is what is published about it. An absent time is
Go's zero time.
-/
import SignalPlane.Envelope
import SignalPlane.Lib.GoPattern

namespace SignalPlane.Pushscan

open Clock
open Dispatcher (GoError newError require)

/-! ## Pushes -/

/-- `shaPattern`. -/
def matchesSHA (s : GoString) : Bool := s.length = 40 && s.all GoString.isHex

/-- `PushIdentity`. -/
structure PushIdentity where
  deliveryID : GoString
  repository : GoString
  ref : GoString
  before : GoString
  after : GoString
  headTime : Option Int
  sourceTime : Option Int
  receivedAt : Int
  streamSequence : Nat
  deriving DecidableEq, Repr

/-- `IdentityFromSignal`. -/
def identityFromSignal (signal : Envelope.Signal) (sequence : Nat) :
    Except GoError PushIdentity := do
  require (¬ (signal.source ≠ lit "github" ∨ signal.sourceEvent ≠ lit "push" ∨
      signal.authentication.verified = false ∨
      signal.authentication.method ≠ lit "github_hmac_sha256" ∨
      signal.sourceDeliveryID = [] ∨ signal.nameSpace = [] ∨
      (lit "refs/heads/").isPrefixOf signal.sourceRef = false ∨
      matchesSHA signal.sourceBefore = false ∨ matchesSHA signal.sourceAfter = false ∨
      isZero signal.receivedAt = true ∨ sequence = 0))
    (newError "signed push identity is incomplete")
  return {
    deliveryID := signal.sourceDeliveryID
    repository := signal.nameSpace
    ref := signal.sourceRef
    before := signal.sourceBefore
    after := signal.sourceAfter
    headTime := signal.sourceHeadTime
    sourceTime := signal.sourceTimestamp
    receivedAt := signal.receivedAt
    streamSequence := sequence }

/-! ## Material -/

/-- `WireVersion`. -/
def wireVersion : GoString := lit "broker/push-tripwire/v1"

/-- `MaterialRequest`. -/
structure MaterialRequest where
  version : GoString
  deliveryID : GoString
  repository : GoString
  ref : GoString
  before : GoString
  after : GoString
  deriving DecidableEq, Repr

/-- `Commit`. -/
structure Commit where
  sha : GoString
  message : GoString
  deriving DecidableEq, Repr

/-- `File`, without its status, which nothing reads. -/
structure File where
  commitSHA : GoString
  path : GoString
  side : GoString
  blobSHA : GoString
  size : Int
  contentBase64 : GoString
  deriving DecidableEq, Repr

/-- `MaterialBounds`. -/
structure MaterialBounds where
  commitCount : Int
  pathCount : Int
  totalBytes : Int
  deriving DecidableEq, Repr

/-- `Material`. -/
structure Material where
  version : GoString
  deliveryID : GoString
  repository : GoString
  ref : GoString
  before : GoString
  after : GoString
  complete : Bool
  bounds : MaterialBounds
  commits : List Commit
  files : List File
  reasonCode : GoString
  deriving DecidableEq, Repr

/-- `exactMaterialIdentity`. -/
def exactMaterialIdentity (material : Material) (identity : PushIdentity) : Bool :=
  decide (material.version = wireVersion) && decide (material.deliveryID = identity.deliveryID) &&
    decide (material.repository = identity.repository) && decide (material.ref = identity.ref) &&
    decide (material.before = identity.before) && decide (material.after = identity.after)

/-! ## Findings -/

/-- The severity of a result; a finding is low or high. -/
inductive Severity where
  | none
  | low
  | high
  deriving DecidableEq, Repr

/-- The state of a registered token. -/
inductive TokenState where
  | active
  | expired
  | revoked
  deriving DecidableEq, Repr

def TokenState.word : TokenState → GoString
  | .active => lit "active"
  | .expired => lit "expired"
  | .revoked => lit "revoked"

/-- `Attribution`. No state is the empty string. -/
structure Attribution where
  fingerprintID : GoString := []
  profile : GoString := []
  logicalSessionID : GoString := []
  sessionLineageID : GoString := []
  workerID : GoString := []
  workerStorageLineage : GoString := []
  workerFenceEpoch : Int := 0
  profileGeneration : Int := 0
  issuedAt : Int := Clock.zero
  expiresAt : Int := Clock.zero
  state : Option TokenState := none
  deriving DecidableEq, Repr

/-- `Finding`. A scan that finds nothing returns none. -/
structure Finding where
  id : GoString
  severity : Severity
  reasonCode : GoString
  attribution : Attribution
  deriving DecidableEq, Repr

/-- What the scanner takes from Go's standard library. -/
structure ScanLib where
  sha256 : GoString → List UInt8
  hmacSHA256 : GoString → GoString → List UInt8
  unmarshalSignal : GoString → Option Envelope.Signal

/-- `Bounds`. -/
structure Bounds where
  maxCommits : Int
  maxPaths : Int
  maxCandidates : Int
  maxDecodeDepth : Int
  maxBlobBytes : Int
  maxTotalBytes : Int
  deriving DecidableEq, Repr

/-- `Scanner`. -/
structure Scanner where
  /-- Neither the store nor the broker is `nil`. -/
  connected : Bool := true
  /-- The event sink is not `nil`. -/
  hasEventSink : Bool := true
  fingerprintKey : GoString
  bounds : Bounds
  profile : GoString
  profileGeneration : Int
  canaryAttribution : Attribution
  repositories : List GoString
  refs : List GoString
  deriving DecidableEq, Repr

/-- `findingID`. -/
def findingID (lib : ScanLib) (identity : PushIdentity) (reason fingerprint : GoString) :
    GoString :=
  lit "push-finding-" ++ GoString.hexEncode
    ((lib.sha256 (identity.deliveryID ++ [0] ++ reason ++ [0] ++ fingerprint)).take 16)

/-- `highFinding`. -/
def Scanner.highFinding (lib : ScanLib) (sc : Scanner) (identity : PushIdentity)
    (reason : GoString) : Finding where
  id := findingID lib identity reason []
  severity := .high
  reasonCode := reason
  attribution := { profile := sc.profile, profileGeneration := sc.profileGeneration }

/-- `lowFinding`. -/
def lowFinding (lib : ScanLib) (identity : PushIdentity) (reason profile : GoString)
    (generation : Int) : Finding where
  id := findingID lib identity reason []
  severity := .low
  reasonCode := reason
  attribution := { profile := profile, profileGeneration := generation }

/-- The codes that `safeReason` lets through. -/
def safeReasons : List GoString :=
  ["before_mismatch", "ref_deletion_rejected", "non_fast_forward_rejected",
   "commit_bound_exceeded", "path_bound_exceeded", "blob_bound_exceeded", "total_bytes_exceeded",
   "candidate_bound_exceeded", "decode_bound_exceeded"].map lit

/-- `safeReason`. -/
def safeReason (value : GoString) : GoString :=
  if value ∈ safeReasons then value else lit "material_incomplete"

/-! ## Results -/

/-- The status of a result: `rejected_catalog`, `clean`, `finding_…` or `response_pending`. -/
inductive Status where
  | rejectedCatalog
  | clean
  | finding (severity : Severity)
  | responsePending
  deriving DecidableEq, Repr

/-- The state of the service level objective. -/
inductive SLOState where
  | notApplicable
  | pending
  | notLiveWhenScanned
  | breached
  | met
  deriving DecidableEq, Repr

/-- The state of the fence that the broker reports. -/
inductive FenceState where
  | none
  | fenceRequested
  | fenced
  deriving DecidableEq, Repr

/-- `AlertState`: `alert_requested`, or nothing. -/
inductive AlertState where
  | none
  | alertRequested
  deriving DecidableEq, Repr

/-- `Result`. -/
structure Result where
  deliveryID : GoString
  findingID : GoString := []
  status : Status
  severity : Severity
  reasonCode : GoString
  fingerprintID : GoString := []
  profile : GoString
  logicalSessionID : GoString := []
  sessionLineageID : GoString := []
  workerID : GoString := []
  workerStorageLineage : GoString := []
  workerFenceEpoch : Int := 0
  profileGeneration : Int
  receiptAt : Int
  scanStartedAt : Int
  materialCompletedAt : Int
  findingAt : Int := Clock.zero
  responseRequestedAt : Int := Clock.zero
  haltedAt : Int := Clock.zero
  fenceRequestedAt : Int := Clock.zero
  fencedAt : Int := Clock.zero
  fenceState : FenceState := .none
  terminalAt : Int
  sloDeadline : Int
  sloBreached : Bool := false
  sloState : SLOState := .notApplicable
  alertState : AlertState := .none
  alertRequestedAt : Int := Clock.zero
  deriving DecidableEq, Repr

/-- `SecurityEvent`, without its version. -/
structure SecurityEvent where
  eventID : GoString
  state : AlertState
  findingID : GoString
  deliveryID : GoString
  repository : GoString
  ref : GoString
  before : GoString
  after : GoString
  severity : Severity
  reasonCode : GoString
  fingerprintID : GoString
  profile : GoString
  profileGeneration : Int
  logicalSessionID : GoString
  sessionLineageID : GoString
  workerID : GoString
  workerStorageLineage : GoString
  workerFenceEpoch : Int
  receivedAt : Int
  receiptAt : Int
  findingAt : Int
  alertRequestedAt : Int
  deriving DecidableEq, Repr

/-- The id of the event of a finding. -/
def eventID (finding : GoString) : GoString := lit "push-event-" ++ finding

/-- `securityEvent`. -/
def securityEvent (identity : PushIdentity) (result : Result) : SecurityEvent where
  eventID := eventID result.findingID
  state := result.alertState
  findingID := result.findingID
  deliveryID := identity.deliveryID
  repository := identity.repository
  ref := identity.ref
  before := identity.before
  after := identity.after
  severity := result.severity
  reasonCode := result.reasonCode
  fingerprintID := result.fingerprintID
  profile := result.profile
  profileGeneration := result.profileGeneration
  logicalSessionID := result.logicalSessionID
  sessionLineageID := result.sessionLineageID
  workerID := result.workerID
  workerStorageLineage := result.workerStorageLineage
  workerFenceEpoch := result.workerFenceEpoch
  receivedAt := identity.receivedAt
  receiptAt := result.receiptAt
  findingAt := result.findingAt
  alertRequestedAt := result.alertRequestedAt

/-! ## Responses -/

/-- `ResponseBinding`. -/
structure ResponseBinding where
  logicalSessionID : GoString
  sessionLineageID : GoString
  workerID : GoString
  workerStorageLineage : GoString
  workerFenceEpoch : Int
  deriving DecidableEq, Repr

/-- `ResponseRequest`. -/
structure ResponseRequest where
  version : GoString
  findingID : GoString
  deliveryID : GoString
  repository : GoString
  ref : GoString
  before : GoString
  after : GoString
  severity : Severity
  reasonCode : GoString
  fingerprintID : GoString
  profile : GoString
  profileGeneration : Int
  binding : Option ResponseBinding
  actions : List GoString
  deriving DecidableEq, Repr

/-- `ActionResult`, as the broker sends it. -/
structure ActionResult where
  action : GoString
  state : GoString
  completedAt : Int
  deriving DecidableEq, Repr

/-- `ResponseResult`, as far as it is read. -/
structure ResponseResult where
  version : GoString
  findingID : GoString
  actions : List ActionResult
  deriving DecidableEq, Repr

/-- `responseRequest`, with the actions in sorted order. -/
def responseRequest (identity : PushIdentity) (finding : Finding) : ResponseRequest where
  version := wireVersion
  findingID := finding.id
  deliveryID := identity.deliveryID
  repository := identity.repository
  ref := identity.ref
  before := identity.before
  after := identity.after
  severity := finding.severity
  reasonCode := finding.reasonCode
  fingerprintID := finding.attribution.fingerprintID
  profile := finding.attribution.profile
  profileGeneration := finding.attribution.profileGeneration
  binding :=
    if finding.attribution.workerID = [] then none
    else some ⟨finding.attribution.logicalSessionID, finding.attribution.sessionLineageID,
      finding.attribution.workerID, finding.attribution.workerStorageLineage,
      finding.attribution.workerFenceEpoch⟩
  actions :=
    if finding.attribution.workerID = [] then [lit "halt_issuance"]
    else [lit "fence_worker_session", lit "halt_issuance"]

/-- What the broker did, as far as it has said so. -/
structure Response where
  halted : Int := Clock.zero
  fenceRequested : Int := Clock.zero
  fenced : Int := Clock.zero
  fenceState : FenceState := .none
  deriving DecidableEq, Repr

/-- The loop of `validateResponse`. -/
def readActions : List ActionResult → Response → Except GoError Response
  | [], response => .ok response
  | action :: rest, response =>
    if isZero action.completedAt then .error (newError "broker action response invalid")
    else if action.action = lit "halt_issuance" then
      if action.state ≠ lit "halted" then .error (newError "broker halt response invalid")
      else readActions rest { response with halted := action.completedAt }
    else if action.action = lit "fence_worker_session" then
      if action.state = lit "fence_requested" then
        readActions rest { response with
          fenceState := .fenceRequested, fenceRequested := action.completedAt }
      else if action.state = lit "fenced" then
        readActions rest { response with
          fenceState := .fenced
          fenceRequested := action.completedAt
          fenced := action.completedAt }
      else .error (newError "broker fence response invalid")
    else .error (newError "broker returned unknown action")

/-- `validateResponse`. -/
def validateResponse (result : ResponseResult) (finding : Finding) : Except GoError Response := do
  require (result.version = wireVersion ∧ result.findingID = finding.id)
    (newError "broker response identity mismatch")
  let response ← readActions result.actions {}
  require (¬ (isZero response.halted = true ∨
      (finding.attribution.workerID ≠ [] ∧ isZero response.fenceRequested = true)))
    (newError "broker omitted required response action")
  return response

/-- `maxTime`. -/
def maxTime (values : List Int) : Int := values.foldl max Clock.zero

end SignalPlane.Pushscan
