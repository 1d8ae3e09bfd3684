/-
SignalPlane.Workledger.Model — the values of the work ledger and their checks.

A route definition says which events a route admits, how its work is
serialised and how often an executor may fail; `validate` is the check that
runs at activation and again every time a stored definition is read. An event
is what an ingress delivers. An agent binding is the part of a work item that
the deployment and the broker fill in.

States, kinds and scopes are enumerations; where Go's string type lets a
caller pass any word, the enumeration has a constructor for the others. What
the code takes from Go's library (SHA-256, the JSON text that is hashed,
`time.Parse`, the `%q` verb) is a parameter, `LedgerLib`. Errors are the
dispatcher's `GoError`s.

Two validators of the source range over a map. Go's order is not fixed, so
when several fields are bad the code may name any of them; the functions here
take the fields in the order in which the source writes them down.
-/
import SignalPlane.Lib.GoPattern
import SignalPlane.Dispatcher.Model

namespace SignalPlane.Workledger

open Clock
open Dispatcher (GoError newError errNoRows constraintFailed require)

/-! ## Enumerations -/

/-- `WorkState`. -/
inductive WorkState where
  | observed | admitted | active | waiting
  | completed | failed | cancelled | superseded | deadLetter
  deriving DecidableEq, Repr

/-- The states a work item does not leave. -/
def WorkState.isTerminal : WorkState → Bool
  | .completed | .failed | .cancelled | .superseded | .deadLetter => true
  | .observed | .admitted | .active | .waiting => false

/-- `state IN ('observed','admitted','active','waiting')`, the work an admission supersedes. -/
def WorkState.isOpen : WorkState → Bool
  | .observed | .admitted | .active | .waiting => true
  | .completed | .failed | .cancelled | .superseded | .deadLetter => false

/-- `state IN ('admitted','waiting')`, the work `Claim` looks at. -/
def WorkState.isReady : WorkState → Bool
  | .admitted | .waiting => true
  | _ => false

/-- `AttemptState`. -/
inductive AttemptState where
  | running | recoverable | retryScheduled | succeeded | failed | interrupted | superseded
  deriving DecidableEq, Repr

/-- `ExecutorKind`. -/
inductive ExecutorKind where
  | deterministicTool | policyEvaluator
  | other (word : GoString)
  deriving DecidableEq, Repr

/-- `SerializationScope`. -/
inductive SerializationScope where
  | object | nameSpace | route
  | other (word : GoString)
  deriving DecidableEq, Repr

/-- `ExecutorOutcome`. -/
inductive ExecutorOutcome where
  | completed | retryableFailure | permanentFailure | waiting
  | other (word : GoString)
  deriving DecidableEq, Repr

/-! ## Routes -/

/-- `AdmissionPolicy`. -/
structure AdmissionPolicy where
  sources : List GoString
  namespaces : List GoString
  objectKinds : List GoString
  events : List GoString
  actions : List GoString
  deriving DecidableEq, Repr

/-- `ConcurrencyPolicy`. -/
structure ConcurrencyPolicy where
  serialization : SerializationScope
  supersede : Bool
  deriving DecidableEq, Repr

/-- `RetryPolicy`; the delays are nanoseconds. -/
structure RetryPolicy where
  maxAttempts : Int
  backoff : List Int
  deriving DecidableEq, Repr

/-- `RouteDefinition`. -/
structure RouteDefinition where
  id : GoString
  schemaVersion : Int
  semanticVersion : GoString
  executorID : GoString
  admission : AdmissionPolicy
  concurrency : ConcurrencyPolicy
  retry : RetryPolicy
  deriving DecidableEq, Repr

/-- `ExecutorDescriptor`. -/
structure ExecutorDescriptor where
  id : GoString
  kind : ExecutorKind
  version : GoString
  deriving DecidableEq, Repr

/-! ## Events -/

/-- `Event`. Instants are nanoseconds. -/
structure Event where
  signalID : GoString := []
  sourceDeliveryID : GoString
  transportStream : GoString
  transportSequence : UInt64
  source : GoString
  nameSpace : GoString
  objectKind : GoString
  objectID : GoString
  eventKind : GoString
  action : GoString := []
  actorClass : GoString := []
  sourceRevision : GoString
  correlationID : GoString := []
  causationID : GoString := []
  rootWorkItemID : GoString := []
  parentWorkItemID : GoString := []
  originatingSession : GoString := []
  originatingTurn : GoString := []
  hopCount : Int := 0
  expiresAt : Option Int := none
  payloadDigest : GoString
  evidenceRef : GoString
  receivedAt : Int := 0
  deriving DecidableEq, Repr

/-- The fields `Event.Digest` hashes. -/
structure CanonicalEvent where
  source : GoString
  nameSpace : GoString
  objectKind : GoString
  objectID : GoString
  eventKind : GoString
  action : GoString
  actorClass : GoString
  sourceRevision : GoString
  payloadDigest : GoString
  deriving DecidableEq, Repr

/-- What the ledger takes from Go's standard library. -/
structure LedgerLib where
  sha256 : GoString → List UInt8
  /-- `json.Marshal` of the hashed fields of an event. -/
  marshalCanonical : CanonicalEvent → GoString
  /-- `json.Marshal` of a route definition with its executor. -/
  marshalActivation : RouteDefinition → ExecutorDescriptor → GoString
  /-- `time.Parse(time.RFC3339, …)` succeeds. -/
  parsesRFC3339 : GoString → Bool
  /-- The `%q` verb. -/
  quote : GoString → GoString

def Event.canonical (e : Event) : CanonicalEvent :=
  ⟨e.source, e.nameSpace, e.objectKind, e.objectID, e.eventKind, e.action, e.actorClass,
    e.sourceRevision, e.payloadDigest⟩

/-- `Event.Digest`. -/
def Event.digest (lib : LedgerLib) (e : Event) : GoString :=
  GoString.hexEncode (lib.sha256 (lib.marshalCanonical e.canonical))

/-- `strings.Join(…, ":")` of the four fields that name an object. -/
def semanticObjectKey (source nameSpace objectKind objectID : GoString) : GoString :=
  GoString.join [source, nameSpace, objectKind, objectID] (lit ":")

/-- `Event.SemanticObjectKey`. -/
def Event.semanticObjectKey (e : Event) : GoString :=
  Workledger.semanticObjectKey e.source e.nameSpace e.objectKind e.objectID

/-- `contains`: an empty list allows everything. -/
def contains (allowed : List GoString) (value : GoString) : Bool :=
  if allowed.length = 0 then true else allowed.any (fun candidate => candidate = value)

/-- `AdmissionPolicy.Matches`. -/
def AdmissionPolicy.matches (policy : AdmissionPolicy) (e : Event) : Bool :=
  contains policy.sources e.source && contains policy.namespaces e.nameSpace &&
    contains policy.objectKinds e.objectKind && contains policy.events e.eventKind &&
    contains policy.actions e.action

/-- `serializationKey`. -/
def serializationKey (route : RouteDefinition) (e : Event) : GoString :=
  match route.concurrency.serialization with
  | .nameSpace => route.id ++ lit ":namespace:" ++ e.nameSpace
  | .route => route.id ++ lit ":route"
  | _ => route.id ++ lit ":object:" ++ e.semanticObjectKey

/-! ## Patterns -/

/-- A first letter and at most 127 bytes of a class. -/
def boundedIdentifier (rest : UInt8 → Bool) (s : GoString) : Bool :=
  GoString.matchesFrom GoString.isLower rest s && s.length ≤ 128

/-- `identifierPattern`: `^[a-z][a-z0-9_.-]{0,127}$`. -/
def identifierPattern (s : GoString) : Bool :=
  boundedIdentifier
    (fun b => GoString.isLower b || GoString.isDigit b || b = 95 || b = 46 || b = 45) s

/-- `kebabIdentifier`: `^[a-z][a-z0-9-]{0,127}$`. -/
def kebabIdentifier (s : GoString) : Bool :=
  boundedIdentifier (fun b => GoString.isLower b || GoString.isDigit b || b = 45) s

/-- `snakeIdentifier`: `^[a-z][a-z0-9_]{0,127}$`. -/
def snakeIdentifier (s : GoString) : Bool :=
  boundedIdentifier (fun b => GoString.isLower b || GoString.isDigit b || b = 95) s

/-- `imageDigestFormat`: `^sha256:[0-9a-f]{64}$`. -/
def imageDigestFormat (s : GoString) : Bool :=
  s.take 7 = lit "sha256:" && GoString.matchesEach (List.replicate 64 GoString.isHex) (s.drop 7)

/-- `^[A-Za-z0-9][A-Za-z0-9._-]*$`. -/
def fileName (s : GoString) : Bool :=
  GoString.matchesFrom GoString.isAlnum
    (fun b => GoString.isAlnum b || b = 46 || b = 95 || b = 45) s

/-- `repoFormat`: two names with a slash between them; no name contains a slash. -/
def repoFormat (s : GoString) : Bool :=
  match s.dropWhile (· ≠ 47) with
  | [] => false
  | _ :: name => fileName (s.takeWhile (· ≠ 47)) && fileName name

/-! ## Validation of routes and executors -/

/-- The loop over the values of one admission list. -/
def validateValues (lib : LedgerLib) (name : String) :
    List GoString → List GoString → Except GoError Unit
  | _, [] => .ok ()
  | seen, value :: values => do
    require (GoString.trimSpace value ≠ [] ∧ value.length ≤ 256)
      (newError ("route admission " ++ name ++ " contains an empty or oversized value"))
    require (value ∉ seen)
      ⟨lit ("route admission " ++ name ++ " contains duplicate ") ++ lib.quote value, none⟩
    validateValues lib name (value :: seen) values

/-- One admission list. -/
def validateList (lib : LedgerLib) (name : String) (values : List GoString) :
    Except GoError Unit := do
  require (values.length ≤ 64) (newError ("route admission " ++ name ++ " exceeds 64 entries"))
  validateValues lib name [] values

/-- `RouteDefinition.Validate`. -/
def RouteDefinition.validate (lib : LedgerLib) (d : RouteDefinition) : Except GoError Unit := do
  require (identifierPattern d.id = true)
    (newError "route id must be a bounded lowercase identifier")
  require (0 < d.schemaVersion ∧ GoString.trimSpace d.semanticVersion ≠ [])
    (newError "route schema and semantic versions are required")
  require (identifierPattern d.executorID = true)
    (newError "route executor_id must name a registered executor")
  require (d.admission.sources ≠ [] ∧ d.admission.objectKinds ≠ [] ∧ d.admission.events ≠ [])
    (newError "route admission requires sources, object kinds, and events")
  validateList lib "sources" d.admission.sources
  validateList lib "namespaces" d.admission.namespaces
  validateList lib "object_kinds" d.admission.objectKinds
  validateList lib "events" d.admission.events
  validateList lib "actions" d.admission.actions
  match d.concurrency.serialization with
  | .other word => .error ⟨lit "unsupported serialization scope " ++ lib.quote word, none⟩
  | _ => .ok ()
  require (1 ≤ d.retry.maxAttempts ∧ d.retry.maxAttempts ≤ 10)
    (newError "route max_attempts must be between 1 and 10")
  require ((d.retry.backoff.length : Int) = d.retry.maxAttempts - 1)
    (newError "route retry backoff must define one delay per retry")
  require (∀ delay ∈ d.retry.backoff, 0 < delay ∧ delay ≤ 24 * hour)
    (newError "route retry delays must be positive and at most 24 hours")

/-- `ExecutorDescriptor.Validate`. -/
def ExecutorDescriptor.validate (lib : LedgerLib) (d : ExecutorDescriptor) :
    Except GoError Unit := do
  require (identifierPattern d.id = true ∧ d.version ≠ [])
    (newError "executor requires a bounded id and version")
  match d.kind with
  | .other word => .error ⟨lit "unsupported executor kind " ++ lib.quote word, none⟩
  | _ => .ok ()

/-- `activationDigest`. -/
def activationDigest (lib : LedgerLib) (definition : RouteDefinition)
    (descriptor : ExecutorDescriptor) : Except GoError GoString := do
  definition.validate lib
  descriptor.validate lib
  return GoString.hexEncode (lib.sha256 (lib.marshalActivation definition descriptor))

/-- `Registry`: the executors registered under their own ids. -/
structure Registry where
  executors : List ExecutorDescriptor

/-- `Registry.Resolve`. -/
def Registry.resolve (lib : LedgerLib) (registry : Registry) (id : GoString) :
    Except GoError ExecutorDescriptor :=
  match registry.executors.find? (fun d => d.id = id) with
  | some d => .ok d
  | none => .error ⟨lit "executor " ++ lib.quote id ++ lit " is not registered", none⟩

/-! ## The JSON text of a definition -/

/-- What a string is after `json.Marshal` and decoding: each byte that is no part of a valid
rune has become U+FFFD. The fuel is the number of bytes left. -/
def jsonTextLoop : Nat → GoString → GoString
  | _, [] => []
  | 0, _ :: _ => []
  | n + 1, b :: rest =>
    let w := GoString.runeLen (b :: rest)
    if w = 0 then [0xEF, 0xBF, 0xBD] ++ jsonTextLoop n rest
    else (b :: rest).take w ++ jsonTextLoop n ((b :: rest).drop w)

def jsonText (s : GoString) : GoString := jsonTextLoop s.length s

/-- The value the JSON text of a definition decodes to. The identifiers and the scope are
ASCII once `validate` has passed, and numbers are exact. -/
def RouteDefinition.decoded (d : RouteDefinition) : RouteDefinition :=
  { d with
    semanticVersion := jsonText d.semanticVersion
    admission :=
      { sources := d.admission.sources.map jsonText
        namespaces := d.admission.namespaces.map jsonText
        objectKinds := d.admission.objectKinds.map jsonText
        events := d.admission.events.map jsonText
        actions := d.admission.actions.map jsonText } }

/-! ## Agent bindings -/

/-- `AgentBinding`. -/
structure AgentBinding where
  agentType : GoString := []
  mode : GoString := []
  typeContractRevision : GoString := []
  resolvedReleaseGeneration : Int := 0
  resolvedReleaseDigest : GoString := []
  brokerRunID : GoString := []
  authoritativePRRepository : GoString := []
  authoritativePRNumber : Int := 0
  deriving DecidableEq, Repr

/-- `AgentBinding.Zero`. -/
def AgentBinding.zero (b : AgentBinding) : Bool := b = {}

/-- `AgentBinding.Validate`. -/
def AgentBinding.validate (b : AgentBinding) : Except GoError Unit :=
  if b.zero then .ok ()
  else do
    require (kebabIdentifier b.agentType = true)
      (newError "agent_type must be a bounded kebab-case identifier")
    require (snakeIdentifier b.mode = true)
      (newError "agent mode must be a bounded snake_case identifier")
    require (b.typeContractRevision ≠ [] ∧ b.typeContractRevision.length ≤ 256)
      (newError "type_contract_revision is required and bounded when an agent is bound")
    require (0 ≤ b.resolvedReleaseGeneration)
      (newError "resolved_release_generation must be non-negative")
    require (b.resolvedReleaseGeneration = 0 ↔ b.resolvedReleaseDigest = [])
      (newError "resolved release generation and digest must be set together")
    require (b.resolvedReleaseDigest = [] ∨ imageDigestFormat b.resolvedReleaseDigest = true)
      (newError "resolved_release_digest must be a sha256 image digest")
    require (b.brokerRunID = [] ∨ b.brokerRunID.length ≤ 256)
      (newError "broker_run_id is oversized")
    require (b.authoritativePRRepository = [] ↔ b.authoritativePRNumber = 0)
      (newError "authoritative PR repository and number must be set together")
    require (b.authoritativePRRepository = [] ∨ (repoFormat b.authoritativePRRepository = true ∧
        b.authoritativePRRepository.length ≤ 256))
      (newError "authoritative_pr_repository must be owner/name")
    require (b.authoritativePRRepository = [] ∨ 0 ≤ b.authoritativePRNumber)
      (newError "authoritative_pr_number must be non-negative")

/-- `admissionSelectionFields`, each with whether the binding violates it. -/
def AgentBinding.admissionSelections (b : AgentBinding) : List (String × Bool) :=
  [("resolved_release_generation", b.resolvedReleaseGeneration ≠ 0),
   ("resolved_release_digest", b.resolvedReleaseDigest ≠ []),
   ("broker_run_id", b.brokerRunID ≠ []),
   ("authoritative_pr_repository", b.authoritativePRRepository ≠ []),
   ("authoritative_pr_number", b.authoritativePRNumber ≠ 0)]

/-- `AgentBinding.RejectAdmissionSelection`. -/
def AgentBinding.rejectAdmissionSelection (b : AgentBinding) : Except GoError Unit :=
  match b.admissionSelections.find? (fun selection => selection.2) with
  | some (field, _) =>
    .error (newError ("admission caller may not supply " ++ field ++ ": image, release, " ++
      "generation, broker run, and PR correlation are broker-resolved after admission"))
  | none => .ok ()

/-- `AgentBinding.AdmissionBinding`. -/
def AgentBinding.admissionBinding (b : AgentBinding) : AgentBinding :=
  { agentType := b.agentType, mode := b.mode, typeContractRevision := b.typeContractRevision }

/-! ## Release operations -/

/-- `ReleaseOperation`. -/
structure ReleaseOperation where
  repository : GoString
  repositoryID : Int
  installationID : Int
  releaseID : Int
  tag : GoString
  publishedAt : GoString
  targetCommitish : GoString
  commitSHA : GoString
  assetID : Int
  assetName : GoString
  assetSize : Int
  assetContentType : GoString
  providerDigest : GoString
  computedDigest : GoString
  deriving DecidableEq, Repr

/-- `^v\d{4}\.\d{2}\.\d{2}-[0-9a-f]{7}$`. -/
def tagPattern (s : GoString) : Bool :=
  GoString.matchesEach
    ([GoString.isByte 118] ++ List.replicate 4 GoString.isDigit ++ [GoString.isByte 46] ++
      List.replicate 2 GoString.isDigit ++ [GoString.isByte 46] ++
      List.replicate 2 GoString.isDigit ++ [GoString.isByte 45] ++
      List.replicate 7 GoString.isHex) s

/-- `^[A-Za-z0-9][A-Za-z0-9._-]*_DATE\.structured\.md$`. -/
def assetNamePattern (date s : GoString) : Bool :=
  let ending := lit "_" ++ date ++ lit ".structured.md"
  s.drop (s.length - ending.length) = ending && fileName (s.take (s.length - ending.length))

/-- A required text of an operation. -/
def requireText (name : String) (value : GoString) : Except GoError Unit :=
  require (value ≠ [] ∧ value.length ≤ 256)
    (newError ("release operation " ++ name ++ " is missing or oversized"))

/-- `ReleaseOperation.Validate`. -/
def ReleaseOperation.validate (lib : LedgerLib) (o : ReleaseOperation) :
    Except GoError Unit := do
  require (o.repository = lit "grubbyhacker/resume-builder" ∧ 0 < o.repositoryID ∧
      o.installationID = 146625575 ∧ 0 < o.releaseID ∧ 0 < o.assetID ∧ 0 < o.assetSize ∧
      o.assetSize ≤ 20 * 1024)
    (newError "release operation has invalid fixed identity or bounds")
  requireText "tag" o.tag
  requireText "published_at" o.publishedAt
  requireText "target_commitish" o.targetCommitish
  requireText "commit_sha" o.commitSHA
  requireText "asset_name" o.assetName
  requireText "asset_content_type" o.assetContentType
  requireText "provider_digest" o.providerDigest
  requireText "computed_digest" o.computedDigest
  require (tagPattern o.tag = true ∧
      GoString.matchesEach (List.replicate 40 GoString.isHex) o.commitSHA = true)
    (newError "release operation tag or commit contract is invalid")
  let date := ((o.tag.drop 1).take 10).filter (· ≠ 46)
  require (lib.parsesRFC3339 o.publishedAt = true)
    (newError "release operation published_at is invalid")
  require (o.targetCommitish = o.commitSHA ∧ o.assetContentType = lit "text/markdown" ∧
      o.tag.drop (o.tag.length - 7) = o.commitSHA.take 7 ∧
      assetNamePattern date o.assetName = true)
    (newError "release operation tag, commit, or asset contract is invalid")
  require (imageDigestFormat o.providerDigest = true ∧ o.providerDigest = o.computedDigest)
    (newError "release operation digest contract is invalid")

/-! ## Executor results -/

/-- `ExecutorResult`. -/
structure ExecutorResult where
  outcome : ExecutorOutcome
  retryClassification : GoString := []
  externalCorrelation : GoString := []
  sanitizedError : GoString := []
  resultDigest : GoString := []
  nextAttemptAt : Option Int := none
  deadlineAt : Option Int := none
  deriving DecidableEq, Repr

/-! ## Identifiers -/

/-- What `newID` draws: sixteen random bytes, or the clock when there are none. -/
inductive Token where
  | random (value : List UInt8)
  | clock (unixNano : Int)
  deriving DecidableEq, Repr

/-- `newID`. -/
def newID (kind : String) : Token → GoString
  | .random value => lit kind ++ lit "-" ++ GoString.hexEncode value
  | .clock unixNano => lit kind ++ lit "-" ++ GoString.decimal unixNano

end SignalPlane.Workledger
