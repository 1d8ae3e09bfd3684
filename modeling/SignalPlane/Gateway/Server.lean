/-
SignalPlane.Gateway.Server — admission of webhooks.

The gateway turns an HTTP request into a signal. `admitGitHub` checks the
signature, decodes the fields it needs from the payload, checks some of them
by the kind of the event, and lets the route decide whether the event is
wanted. `enrichGitHubAdmission` then says what the event is about: each object
that the payload happens to contain overrides what the objects before it said.

Environment variables, HMAC, the JSON decoder and the time parser are
parameters. Responses and metrics are left out: `handleRoute` ends in a
rejection, in an event that is ignored, or in a signal for the publisher.
-/
import SignalPlane.Envelope
import SignalPlane.Lib.GoPattern

namespace SignalPlane.Gateway

open Envelope

/-! ## Routes -/

/-- `config.AdmissionTuple`. -/
structure AdmissionTuple where
  repository : GoString
  event : GoString
  actions : List GoString
  deriving DecidableEq, Repr

/-- `config.AdmissionSet`. -/
structure AdmissionSet where
  repositories : List GoString := []
  events : List GoString := []
  actions : List GoString := []
  tuples : List AdmissionTuple := []
  deriving DecidableEq, Repr

/-- `config.GitHubConfig`. -/
structure GitHubConfig where
  webhookSecretEnv : GoString := []
  publishPing : Bool := false
  pushRefs : List GoString := []
  deriving DecidableEq, Repr

/-- `config.Route`. -/
structure Route where
  id : GoString
  source : GoString
  maxBodyBytes : Nat
  publishSubject : GoString
  publishSubjectTemplate : GoString := []
  manualAuthTokenEnv : GoString := []
  github : GitHubConfig := {}
  admission : AdmissionSet := {}
  deriving DecidableEq, Repr

/-- `Route.Subject`. -/
def Route.subject (route : Route) : GoString :=
  if route.publishSubject ≠ [] then route.publishSubject else route.publishSubjectTemplate

/-- `config.ContainsAllowed`: an empty list allows everything. -/
def containsAllowed (values : List GoString) (value : GoString) : Bool :=
  if values = [] then true else values.contains value

/-! ## Payloads -/

/-- The `issue` of a payload. -/
structure IssueObject where
  number : Int64
  updatedAt : GoString
  deriving DecidableEq

/-- The `pull_request` of a payload. -/
structure PullRequestObject where
  number : Int64
  updatedAt : GoString
  headSHA : GoString
  deriving DecidableEq

/-- The `release` of a payload. -/
structure ReleaseObject where
  id : Int64
  tagName : GoString
  updatedAt : GoString
  deriving DecidableEq

/-- The `check_run` or `check_suite` of a payload, with the numbers of its pull requests. -/
structure CheckObject where
  headSHA : GoString
  pullRequests : List Int64
  deriving DecidableEq

/-- What `admitGitHub` decodes from a payload. An absent text is empty. -/
structure GitHubPayload where
  action : GoString := []
  repository : GoString
  /-- The raw JSON of `repository.pushed_at`. -/
  pushedAt : GoString := []
  issue : Option IssueObject := none
  pullRequest : Option PullRequestObject := none
  release : Option ReleaseObject := none
  checkRun : Option CheckObject := none
  checkSuite : Option CheckObject := none
  sha : GoString := []
  ref : GoString := []
  before : GoString := []
  after : GoString := []
  /-- The `timestamp` of `head_commit`. -/
  headCommit : Option GoString := none
  senderType : GoString := []
  deriving DecidableEq

/-- What the gateway takes from Go's standard library and its process environment. -/
structure GatewayLib where
  getenv : GoString → GoString
  hmacSHA256 : GoString → GoString → List UInt8
  jsonValid : GoString → Bool
  unmarshalGitHub : GoString → Option GitHubPayload
  unmarshalString : GoString → Option GoString
  unmarshalInt64 : GoString → Option Int64
  /-- `time.Parse` with the layout of RFC 3339. -/
  parseRFC3339 : GoString → Option Int
  toLower : GoString → GoString

/-- A request: its headers and its body. -/
structure Request where
  header : String → GoString
  body : GoString

/-! ## Checks -/

/-- `strings.HasPrefix`. -/
def hasPrefix (s start : GoString) : Bool := start.isPrefixOf s

/-- `githubwebhook.VerifySignature`. -/
def verifySignature (lib : GatewayLib) (secret body header : GoString) : Bool :=
  let start := lit "sha256="
  if secret = [] || !hasPrefix header start then false
  else match GoString.hexDecode (header.drop start.length) with
    | none => false
    | some got => got = lib.hmacSHA256 secret body

/-- `validGitHubSHA`. The loop is over runes; one in these ranges is a single byte. -/
def validGitHubSHA (value : GoString) : Bool :=
  value.length = 40 && value.all GoString.isHex

/-- `rejectedRequest`. -/
structure RejectedRequest where
  status : Nat
  reason : String
  deriving DecidableEq, Repr

/-- Reject the request unless the condition holds. -/
def rejectUnless (c : Prop) [Decidable c] (status : Nat) (reason : String) :
    Except RejectedRequest Unit :=
  if c then .ok () else .error ⟨status, reason⟩

/-- `readJSONBody`. -/
def readJSONBody (lib : GatewayLib) (limit : Nat) (request : Request) :
    Except RejectedRequest GoString := do
  rejectUnless (request.body.length ≤ limit) 400 "invalid_body"
  rejectUnless (lib.jsonValid request.body = true) 400 "invalid_body"
  rejectUnless ((GoString.trimSpace request.body).head? = some 123) 400 "invalid_body"
  return request.body

/-- `parseGitHubRepositoryPushedAt`; the outer result is the error. -/
def parseGitHubRepositoryPushedAt (lib : GatewayLib) (raw : GoString) : Option (Option Int) :=
  let raw := GoString.trimSpace raw
  if raw = [] || raw = lit "null" then some none
  else if raw.head? = some 34 then
    match lib.unmarshalString raw with
    | none => none
    | some value => if value = [] then some none else (lib.parseRFC3339 value).map some
  else (lib.unmarshalInt64 raw).map fun seconds => some (seconds.toInt * second)

/-! ## Admission -/

/-- `admissionResult`. -/
structure AdmissionResult where
  event : GoString := []
  action : GoString := []
  deliveryID : GoString := []
  ignore : Option String := none
  nameSpace : GoString := []
  objectKind : GoString := []
  objectID : GoString := []
  sourceRevision : GoString := []
  sourceRef : GoString := []
  sourceBefore : GoString := []
  sourceAfter : GoString := []
  sourceHeadTime : Option Int := none
  sourceTimestamp : Option Int := none
  actorClass : GoString := []
  authMethod : GoString := []
  authVerified : Bool := false
  deriving DecidableEq, Repr

/-- `bearerOrHeaderMatches`. -/
def bearerOrHeaderMatches (request : Request) (want : GoString) : Bool :=
  let start := lit "Bearer "
  let auth := request.header "Authorization"
  request.header "X-Signal-Token" = want ||
    (hasPrefix auth start && auth.drop start.length = want)

/-- `headerDefault`. -/
def headerDefault (request : Request) (name : String) (fallback : GoString) : GoString :=
  if request.header name ≠ [] then request.header name else fallback

/-- `admitManual`. -/
def admitManual (lib : GatewayLib) (request : Request) (route : Route) :
    Except RejectedRequest AdmissionResult := do
  let result : AdmissionResult :=
    { event := headerDefault request "X-Signal-Event" (lit "manual")
      action := request.header "X-Signal-Action"
      deliveryID := request.header "X-Signal-Delivery"
      authMethod := lit "manual_test"
      authVerified := false }
  if route.manualAuthTokenEnv ≠ [] then
    let want := lib.getenv route.manualAuthTokenEnv
    rejectUnless (want ≠ []) 503 "missing_manual_token"
    rejectUnless (bearerOrHeaderMatches request want = true) 401 "bad_manual_token"
    return { result with authMethod := lit "manual_bearer", authVerified := true }
  else return result

/-- What `admitGitHubTuple` makes of an event whose `tuple` it has found. -/
def admitTuple (route : Route) (event deliveryID action : GoString) (tuple : AdmissionTuple) :
    AdmissionResult :=
  if event = lit "ping" && !route.github.publishPing then { ignore := some "ping" }
  else if event = lit "push" || event = lit "status" then
    { event := event, deliveryID := deliveryID }
  else if !containsAllowed tuple.actions action then
    { event := event, action := action, deliveryID := deliveryID, ignore := some "action_filtered" }
  else { event := event, action := action, deliveryID := deliveryID }

/-- `admitGitHubTuple`: the first tuple for the repository and the event decides. -/
def admitGitHubTuple (route : Route) (event deliveryID action repository : GoString) :
    Except RejectedRequest AdmissionResult :=
  let own := route.admission.tuples.filter (fun t => t.repository = repository)
  match own.find? (fun t => t.event = event) with
  | some tuple => .ok (admitTuple route event deliveryID action tuple)
  | none =>
    if own = [] then .error ⟨403, "repository_not_allowed"⟩ else .error ⟨403, "event_not_allowed"⟩

/-- The identity a `check_run` or `check_suite` object gives. -/
def CheckObject.enrich (result : AdmissionResult) : Option CheckObject → AdmissionResult
  | none => result
  | some check =>
    let result := { result with
      objectKind := lit "commit"
      sourceRevision := check.headSHA
      objectID := check.headSHA }
    match check.pullRequests with
    | [number] =>
      if 0 < number.toInt then
        { result with objectKind := lit "pull_request", objectID := GoString.decimal number.toInt }
      else result
    | _ => result

/-- The fields of a push, in `enrichGitHubAdmission`. -/
def enrichPush (lib : GatewayLib) (result : AdmissionResult) (payload : GitHubPayload)
    (pushedAt : Option Int) : AdmissionResult :=
  { result with
    sourceRef := payload.ref
    sourceBefore := payload.before
    sourceAfter := payload.after
    sourceRevision := payload.after
    sourceTimestamp := pushedAt
    sourceHeadTime := (payload.headCommit.filter (· ≠ [])).bind lib.parseRFC3339 }

/-- The objects of a payload that are no checks, in `enrichGitHubAdmission`. -/
def enrichObjects (result : AdmissionResult) (payload : GitHubPayload) : AdmissionResult :=
  let result := match payload.issue with
    | none => result
    | some issue => { result with
        objectKind := lit "issue"
        objectID := GoString.decimal issue.number.toInt
        sourceRevision := issue.updatedAt }
  let result := match payload.pullRequest with
    | none => result
    | some pull => { result with
        objectKind := lit "pull_request"
        objectID := GoString.decimal pull.number.toInt
        sourceRevision := if pull.headSHA = [] then pull.updatedAt else pull.headSHA }
  match payload.release with
  | none => result
  | some release => { result with
      objectKind := lit "release"
      objectID := GoString.decimal release.id.toInt
      sourceRevision := if release.updatedAt = [] then release.tagName else release.updatedAt }

/-- What `enrichGitHubAdmission` sets before it looks at an object of the payload. -/
def enrichEvent (lib : GatewayLib) (result : AdmissionResult) (event : GoString)
    (payload : GitHubPayload) (pushedAt : Option Int) : AdmissionResult :=
  let result := { result with
    nameSpace := payload.repository
    objectKind := event
    authMethod := lit "github_hmac_sha256"
    authVerified := true
    actorClass := lib.toLower payload.senderType }
  if event = lit "push" then enrichPush lib result payload pushedAt else result

/-- `enrichGitHubAdmission`. -/
def enrichGitHubAdmission (lib : GatewayLib) (result : AdmissionResult) (event : GoString)
    (payload : GitHubPayload) (pushedAt : Option Int) : AdmissionResult :=
  let result := enrichEvent lib result event payload pushedAt
  let result := enrichObjects result payload
  let result := CheckObject.enrich result payload.checkRun
  let result := CheckObject.enrich result payload.checkSuite
  if event = lit "status" && payload.sha ≠ [] then
    { result with
      objectKind := lit "commit", objectID := payload.sha, sourceRevision := payload.sha }
  else result

/-- The checks `admitGitHub` makes on a push; the result is `pushed_at`. -/
def checkPush (lib : GatewayLib) (route : Route) (event : GoString) (payload : GitHubPayload) :
    Except RejectedRequest (Option Int) :=
  if event = lit "push" then do
    rejectUnless (containsAllowed route.github.pushRefs payload.ref = true) 403 "ref_not_allowed"
    rejectUnless (validGitHubSHA payload.before = true ∧ validGitHubSHA payload.after = true ∧
      hasPrefix payload.ref (lit "refs/heads/") = true) 400 "invalid_push_identity"
    match parseGitHubRepositoryPushedAt lib payload.pushedAt with
    | none => .error ⟨400, "invalid_push_identity"⟩
    | some pushedAt => .ok pushedAt
  else .ok none

/-- The checks `admitGitHub` makes on the head of a CI event. -/
def checkCI (event : GoString) (payload : GitHubPayload) : Except RejectedRequest Unit :=
  if event = lit "check_run" then
    rejectUnless (payload.checkRun.any (fun c => validGitHubSHA c.headSHA) = true) 400
      "invalid_ci_identity"
  else if event = lit "check_suite" then
    rejectUnless (payload.checkSuite.any (fun c => validGitHubSHA c.headSHA) = true) 400
      "invalid_ci_identity"
  else if event = lit "status" then
    rejectUnless (validGitHubSHA payload.sha = true) 400 "invalid_ci_identity"
  else .ok ()

/-- The decision of a route without tuples, in `admitGitHub`. -/
def admitListed (lib : GatewayLib) (route : Route) (event deliveryID : GoString)
    (payload : GitHubPayload) (pushedAt : Option Int) : Except RejectedRequest AdmissionResult := do
  rejectUnless (containsAllowed route.admission.repositories payload.repository = true) 403
    "repository_not_allowed"
  rejectUnless (containsAllowed route.admission.events event = true) 403 "event_not_allowed"
  if event = lit "ping" && !route.github.publishPing then return { ignore := some "ping" }
  else if !containsAllowed route.admission.actions payload.action then
    return { event := event, action := payload.action, deliveryID := deliveryID,
             ignore := some "action_filtered" }
  else
    return enrichGitHubAdmission lib
      { event := event, action := payload.action, deliveryID := deliveryID } event payload pushedAt

/-- `admitGitHub`. -/
def admitGitHub (lib : GatewayLib) (request : Request) (route : Route) (body : GoString) :
    Except RejectedRequest AdmissionResult := do
  let secret := lib.getenv route.github.webhookSecretEnv
  rejectUnless (secret ≠ []) 503 "missing_github_secret"
  rejectUnless (verifySignature lib secret body (request.header "X-Hub-Signature-256") = true) 401
    "bad_github_signature"
  let event := request.header "X-GitHub-Event"
  let deliveryID := request.header "X-GitHub-Delivery"
  match lib.unmarshalGitHub body with
  | none => .error ⟨400, "invalid_github_payload"⟩
  | some payload =>
    let pushedAt ← checkPush lib route event payload
    checkCI event payload
    if route.admission.tuples ≠ [] then
      let result ← admitGitHubTuple route event deliveryID payload.action payload.repository
      return enrichGitHubAdmission lib result event payload pushedAt
    else admitListed lib route event deliveryID payload pushedAt

/-- `Server.admit`. -/
def admitBySource (lib : GatewayLib) (request : Request) (route : Route) (body : GoString) :
    Except RejectedRequest AdmissionResult :=
  if route.source = lit "github" then admitGitHub lib request route body
  else if route.source = lit "manual" then admitManual lib request route
  else .error ⟨403, "unknown_source"⟩

/-! ## Requests -/

/-- How the gateway treats a request it does not reject. -/
inductive Handled where
  | ignored (reason : String)
  | publishes (subject : GoString) (signal : Signal)
  deriving DecidableEq, Repr

/-- The signal of an admitted request, in `handleRoute`. -/
def newSignal (route : Route) (admission : AdmissionResult) (body signalID : GoString)
    (receivedAt : Int) : Signal where
  signalID := signalID
  source := route.source
  routeID := route.id
  receivedAt := receivedAt
  sourceEvent := admission.event
  sourceAction := admission.action
  sourceDeliveryID := admission.deliveryID
  nameSpace := admission.nameSpace
  objectKind := admission.objectKind
  objectID := admission.objectID
  sourceRevision := admission.sourceRevision
  sourceRef := admission.sourceRef
  sourceBefore := admission.sourceBefore
  sourceAfter := admission.sourceAfter
  sourceHeadTime := admission.sourceHeadTime
  sourceTimestamp := admission.sourceTimestamp
  actorClass := admission.actorClass
  authentication := ⟨admission.authMethod, admission.authVerified⟩
  payload := body

/-- `Server.handleRoute`, with the id of the new signal and the time of the clock. -/
def handleRoute (lib : GatewayLib) (request : Request) (route : Route) (signalID : GoString)
    (receivedAt : Int) : Except RejectedRequest Handled := do
  let body ← readJSONBody lib route.maxBodyBytes request
  let admission ← admitBySource lib request route body
  match admission.ignore with
  | some reason => return .ignored reason
  | none => return .publishes route.subject (newSignal route admission body signalID receivedAt)

end SignalPlane.Gateway
