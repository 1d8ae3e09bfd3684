/-
SignalPlane.Dispatcher.Model — the values the dispatcher passes around.

Statuses and states are enumerations where the database holds one of a fixed
set of words. What the broker sends stays a byte string: the dispatcher
compares it with the words it knows, and an unknown word is a case of its own.
Instants are nanoseconds, and the `…At` columns of the tables are the
milliseconds `UnixMilli` stores.

What the code takes from Go's standard library and from the network encoding
(SHA-256, JSON, URL parsing, `fmt.Sscan`) is a parameter, `GoLib`, with the
laws the proofs use as fields.
-/
import SignalPlane.Lib.GoString
import SignalPlane.Lib.Clock

namespace SignalPlane.Dispatcher

/-! ## Errors -/

/-- `BrokerError`. -/
structure BrokerError where
  status : Int := 0
  code : GoString := []
  message : GoString := []
  transport : Bool := false
  malformed : Bool := false
  deriving DecidableEq, Repr

/-- `BrokerError.Retryable`. -/
def BrokerError.retryable (e : BrokerError) : Bool :=
  e.transport || e.status = 429 || 500 ≤ e.status || e.code = lit "profile_busy"

/-- An `error`: its text, and the `BrokerError` that `errors.As` finds in it. -/
structure GoError where
  text : GoString
  broker : Option BrokerError := none
  deriving DecidableEq, Repr

/-- `errors.New`. -/
def newError (text : String) : GoError := { text := lit text }

/-- A `BrokerError` as an `error`. -/
def BrokerError.toError (e : BrokerError) : GoError := { text := e.message, broker := some e }

/-- `sql.ErrNoRows`. -/
def errNoRows : GoError := newError "sql: no rows in result set"

/-- A constraint of the schema that a statement would break. -/
def constraintFailed (constraint : String) : GoError :=
  newError ("constraint failed: " ++ constraint)

/-- What `database/sql` says of an argument that is a uint64 of 2^63 or more. -/
def highBitSet (argument : String) : GoError :=
  newError ("sql: converting argument $" ++ argument ++
    " type: uint64 values with high bit set are not supported")

/-- `IsRetryable`. -/
def isRetryable (err : GoError) : Bool := err.broker.any BrokerError.retryable

/-- `safeBrokerError`: at most 512 bytes of valid UTF-8. -/
def safeBrokerError (err : GoError) : GoString :=
  let text := GoString.toValidUTF8 err.text [0xEF, 0xBF, 0xBD]
  if text.length > 512 then GoString.trimToValid 512 (text.take 512) else text

/-- `isStalePullHead`. -/
def isStalePullHead (err : GoError) : Bool :=
  err.broker.any (fun e => e.code = lit "stale_pull_head")

/-- Fail unless the condition holds: the early `return err` of a Go function. -/
def require (c : Prop) [Decidable c] (err : GoError) : Except GoError Unit :=
  if c then .ok () else .error err

/-- `expectOne`: a keyed `UPDATE` has to hit its row. -/
def expectOne (hit : Bool) (operation : String) : Except GoError Unit :=
  require (hit = true) (newError (operation ++ ": expected one lifecycle row, updated 0"))

theorem bind_eq_ok {ε α β : Type} {x : Except ε α} {f : α → Except ε β} {b : β} :
    (x >>= f) = .ok b ↔ ∃ a, x = .ok a ∧ f a = .ok b := by
  cases x <;> simp [bind, Except.bind]

theorem pure_eq_ok {ε α : Type} {a b : α} : (pure a : Except ε α) = .ok b ↔ a = b := by
  simp [pure, Except.pure]

@[simp] theorem require_eq_ok {c : Prop} [Decidable c] {err : GoError} {u : Unit} :
    require c err = .ok u ↔ c := by
  by_cases h : c <;> simp [require, h]

theorem require_bind_eq_ok {c : Prop} [Decidable c] {err : GoError} {α : Type}
    {f : Unit → Except GoError α} {a : α} :
    (require c err >>= f) = .ok a ↔ c ∧ f () = .ok a := by
  rw [bind_eq_ok]
  constructor
  · rintro ⟨_, hc, hf⟩
    exact ⟨require_eq_ok.mp hc, hf⟩
  · rintro ⟨hc, hf⟩
    exact ⟨(), require_eq_ok.mpr hc, hf⟩

theorem expectOne_bind_eq_ok {hit : Bool} {operation : String} {α : Type}
    {f : Unit → Except GoError α} {a : α} :
    (expectOne hit operation >>= f) = .ok a ↔ hit = true ∧ f () = .ok a :=
  require_bind_eq_ok

/-! ## Statuses and states -/

/-- `jobs.status`. The `legacy…` words are the ones `OpenStore` rewrites. -/
inductive JobStatus where
  | pendingLaunch | launchRetry | launched | completed | failed | timedOut
  | reportPending | reportRetry | reportBlocked | stopped | cancelled
  | ciWaiting | ciRepair | ciEscalation | externalWaiting
  | legacyPending | legacyRetry | legacyRunning | legacySucceeded | legacyTerminal
  deriving DecidableEq, Repr

/-- The word the database holds. -/
def JobStatus.text : JobStatus → String
  | .pendingLaunch => "pending_launch"
  | .launchRetry => "launch_retry"
  | .launched => "launched"
  | .completed => "completed"
  | .failed => "failed"
  | .timedOut => "timed_out"
  | .reportPending => "report_pending"
  | .reportRetry => "report_retry"
  | .reportBlocked => "report_blocked"
  | .stopped => "stopped"
  | .cancelled => "cancelled"
  | .ciWaiting => "ci_waiting"
  | .ciRepair => "ci_repair"
  | .ciEscalation => "ci_escalation"
  | .externalWaiting => "external_waiting"
  | .legacyPending => "pending"
  | .legacyRetry => "retry"
  | .legacyRunning => "running"
  | .legacySucceeded => "succeeded"
  | .legacyTerminal => "terminal"

/-- `pending_launch` or `launch_retry`. -/
def JobStatus.isQueued (s : JobStatus) : Bool := s = .pendingLaunch || s = .launchRetry

/-- The statuses `ClaimDue` hands out as `WorkStatus`. -/
def JobStatus.isPolled (s : JobStatus) : Bool :=
  s = .launched || s = .externalWaiting || s = .reportPending

/-- The words of an older schema. -/
def JobStatus.isLegacy (s : JobStatus) : Bool :=
  s = .legacyPending || s = .legacyRetry || s = .legacyRunning || s = .legacySucceeded ||
    s = .legacyTerminal

/-- `repository_ci_tasks.state`. -/
inductive CITaskState where
  | waitingCI | repairReady | repairRunning | completed | escalationPending
  | escalationBlocked | escalated
  deriving DecidableEq, Repr

/-- `repository_ci_reconciliations.state`. -/
inductive ReconciliationState where
  | queued | running | completed
  deriving DecidableEq, Repr

/-- `repository_ci_attempts.state`. -/
inductive AttemptState where
  | ready | running | candidateDelivered | failed
  deriving DecidableEq, Repr

/-- The word the database holds. -/
def AttemptState.text : AttemptState → GoString
  | .ready => lit "ready"
  | .running => lit "running"
  | .candidateDelivered => lit "candidate_delivered"
  | .failed => lit "failed"

/-- `notification_outbox.status`. -/
inductive OutboxStatus where
  | pending | retry | delivered | blocked
  deriving DecidableEq, Repr

/-- `repository_ci_escalation_outbox.state`. -/
inductive EscalationState where
  | pending | delivered | blocked
  deriving DecidableEq, Repr

/-- `repository_run_external_waits.state`. -/
inductive WaitState where
  | waiting | resumeReady | resumed
  deriving DecidableEq, Repr

/-! ## Values -/

/-- `Job`: what a claim scans out of a `jobs` row. -/
structure Job where
  id : Int
  semanticKey : GoString
  routeID : GoString
  profile : GoString
  repository : GoString
  issueNumber : Int
  deliveryID : GoString
  brokerRunID : GoString
  status : JobStatus
  attempts : Int
  preOutboxAttempts : Int
  firstAttemptAt : Int := Clock.zero
  deriving DecidableEq, Repr

/-- `TerminalResult`. `result` is the JSON text of the map, `none` for a nil map. -/
structure TerminalResult where
  version : GoString
  runID : GoString
  profile : GoString
  repo : GoString
  branch : GoString := []
  status : GoString
  outcome : GoString
  finalizeReason : GoString := []
  terminalSource : GoString := []
  idempotencyKeyDigest : GoString := []
  requestFingerprint : GoString := []
  launchConfigVersion : GoString := []
  result : Option GoString := none
  finalSummary : GoString := []
  failureStage : GoString := []
  failureReason : GoString := []
  modelExecutionStarted : Bool := false
  failureClass : GoString := []
  deriving DecidableEq, Repr

/-- The `pull_request` object of a worker result. -/
structure PullRequest where
  number : Int
  htmlURL : GoString
  url : GoString
  deriving DecidableEq, Repr

/-- `workerTerminalResult`. -/
structure WorkerTerminalResult where
  version : GoString := []
  outcome : GoString := []
  detail : GoString := []
  stage : GoString := []
  runID : GoString := []
  repository : GoString := []
  branch : GoString := []
  verificationStatus : GoString := []
  expectedOldHeadSHA : GoString := []
  candidateHeadSHA : GoString := []
  deliveredHeadSHA : GoString := []
  validatedTreeSHA : GoString := []
  deliveredTreeSHA : GoString := []
  pullRequest : Option PullRequest := none
  deriving DecidableEq, Repr

/-- `CIExternalWait`. -/
structure CIExternalWait where
  service : GoString
  phase : GoString
  operation : GoString
  reason : GoString
  generation : Int
  since : Int
  deriving DecidableEq, Repr

/-- `RunStatus`. -/
structure RunStatus where
  runID : GoString
  status : GoString
  externalWait : Option CIExternalWait := none
  deriving DecidableEq, Repr

/-- `FailedCheck`. -/
structure FailedCheck where
  name : GoString
  conclusion : GoString
  summary : GoString := []
  evidence : GoString := []
  deriving DecidableEq, Repr

/-- `CIObservation`. -/
structure CIObservation where
  repository : GoString
  pullNumber : Int
  headSHA : GoString
  state : GoString
  failedChecks : List FailedCheck := []
  truncated : Bool := false
  observedBytes : Int := 0
  deriving DecidableEq, Repr

/-- `CIRepairTask`. -/
structure CIRepairTask where
  jobID : Int
  repository : GoString
  issueNumber : Int
  pullNumber : Int
  branch : GoString
  currentHeadSHA : GoString
  agentModel : GoString
  state : CITaskState
  repairAttempts : Int
  reconcileAt : Int := Clock.zero
  lastCIState : GoString
  deriving DecidableEq, Repr

/-- `CIRepairAttempt`. -/
structure CIRepairAttempt where
  attemptKey : GoString
  jobID : Int
  attemptNumber : Int
  failedHeadSHA : GoString
  agentModel : GoString
  state : AttemptState
  charged : Bool
  brokerRunID : GoString
  maxRuntimeSeconds : Int
  externalWait : Option CIExternalWait := none
  externalResumeKey : GoString := []
  resumedGeneration : Int := 0
  operations : Int
  deriving DecidableEq, Repr

/-- `CIReconciliation`. -/
structure CIReconciliation where
  operationKey : GoString
  task : CIRepairTask
  headSHA : GoString
  deadlineWake : Bool
  operations : Int
  deriving DecidableEq, Repr

/-- `CIRepairDelivery`. -/
structure CIRepairDelivery where
  expectedOldHeadSHA : GoString
  candidateHeadSHA : GoString
  validatedTreeSHA : GoString
  deliveredHeadSHA : GoString
  deliveredTreeSHA : GoString
  deriving DecidableEq, Repr

/-- `CIEscalationReport`. -/
structure CIEscalationReport where
  job : Job
  operationKey : GoString
  body : GoString
  attempts : Int
  deriving DecidableEq, Repr

/-- `Report`. -/
structure Report where
  id : Int
  jobID : Int
  job : Job
  version : GoString
  body : GoString
  idempotencyKey : GoString
  attempts : Int
  deriving DecidableEq, Repr

/-- `RepositoryRunExternalWait`. -/
structure RepositoryRunExternalWait where
  jobID : Int
  brokerRunID : GoString
  wait : CIExternalWait
  resumeKey : GoString
  maxRuntimeSeconds : Int
  state : WaitState
  deriving DecidableEq, Repr

/-- `CommentResult`. -/
structure CommentResult where
  id : Int
  url : GoString
  deriving DecidableEq, Repr

/-- `envelope.Signal`, with the fields of `Meta` the dispatcher reads. -/
structure Signal where
  source : GoString
  sourceEvent : GoString
  sourceAction : GoString
  sourceDeliveryID : GoString
  nameSpace : GoString
  objectKind : GoString
  objectID : GoString
  sourceRevision : GoString
  receivedAt : Int
  verified : Bool
  payload : GoString
  deriving DecidableEq, Repr

/-- The fields `Select` decodes from a provider payload. -/
structure IssueEvent where
  action : GoString
  fullName : GoString
  number : Int
  state : GoString
  pullRequest : GoString
  label : GoString
  senderLogin : GoString
  deriving DecidableEq, Repr

/-- `config.RepositoryTaskRoute`, with the fields the dispatcher reads. -/
structure RepositoryTaskRoute where
  id : GoString
  profile : GoString
  repository : GoString
  event : GoString
  action : GoString
  label : GoString
  deriving DecidableEq, Repr

/-- `Candidate`. -/
structure Candidate where
  repository : GoString
  issueNumber : Int
  deliveryID : GoString
  routeID : GoString
  profile : GoString
  deriving DecidableEq, Repr

/-! ## The standard library -/

/-- What the dispatcher takes from Go's standard library. The decoders return the value they
filled in and whether they succeeded. -/
structure GoLib where
  /-- Lower-case hexadecimal SHA-256. -/
  sha256Hex : GoString → GoString
  jsonValid : GoString → Bool
  marshalTerminalResult : TerminalResult → Except GoError GoString
  unmarshalWorker : GoString → WorkerTerminalResult × Bool
  marshalObservation : CIObservation → Option GoString
  unmarshalObservation : GoString → CIObservation → CIObservation
  /-- `url.Parse` succeeds with scheme `https`, a host and no user information. -/
  parsesAsHTTPS : GoString → Bool
  /-- `fmt.Sscan` into an `int64`. -/
  sscanInt : GoString → Option Int
  unmarshalSignal : GoString → Except GoError Signal
  unmarshalIssueEvent : GoString → Option IssueEvent
  jsonValid_nil : jsonValid [] = false
  marshal_valid : ∀ r encoded, marshalTerminalResult r = .ok encoded → jsonValid encoded = true

/-! ## Delays -/

def launchRetryWindow : Int := 10 * minute
def reportRetryMaxAttempts : Int := 24
def preOutboxMaxAttempts : Int := 10
def statusPollInterval : Int := 2 * second
def externalRecoveryWake : Int := 15 * minute
def reporterUnavailableDelay : Int := minute
def ciReconcileLease : Int := 2 * minute

/-- A doubling delay from `base`, doubled at most `steps` times and capped. -/
def backoff (base : Int) (steps : Nat) (cap : Int) (attempt : Int) : Int :=
  let attempt := if attempt < 1 then 1 else attempt
  let delay := base * 2 ^ min (attempt - 1).toNat steps
  if delay > cap then cap else delay

/-- `LaunchRetryDelay`. -/
def launchRetryDelay : Int → Int := backoff (2 * second) 4 (20 * second)

/-- `ReportRetryDelay`. -/
def reportRetryDelay : Int → Int := backoff (30 * second) 7 hour

/-- `PreOutboxRetryDelay`. -/
def preOutboxRetryDelay : Int → Int := backoff statusPollInterval 5 minute

/-- No retry comes sooner than the base delay. -/
theorem le_backoff {base cap : Int} {steps : Nat} (h0 : 0 ≤ base) (hcap : base ≤ cap)
    (attempt : Int) : base ≤ backoff base steps cap attempt := by
  have hpow : ∀ n : Nat, base ≤ base * 2 ^ n := by
    intro n
    have h1 : (1 : Int) ≤ 2 ^ n := Int.pow_pos (by decide)
    have := Int.mul_le_mul_of_nonneg_left h1 h0
    omega
  simp only [backoff]
  generalize (if attempt < 1 then 1 else attempt) - 1 = k
  have := hpow (min k.toNat steps)
  split <;> omega

/-! ## The CI policy -/

/-- `CIRepairPolicy`. -/
structure CIRepairPolicy where
  reconciliationWake : Int := 0
  activeTimeout : Int := 0
  maxAttempts : Int := 0
  deriving DecidableEq, Repr

/-- `CIRepairPolicy.Validate`. -/
def CIRepairPolicy.validate (p : CIRepairPolicy) : Except GoError Unit := do
  let wake := if p.reconciliationWake = 0 then p.activeTimeout else p.reconciliationWake
  require (¬ (wake < minute ∨ wake > 7 * 24 * hour))
    (newError "CI repair reconciliation wake must be between one minute and seven days")
  require (¬ (p.activeTimeout < minute ∨ p.activeTimeout > hour))
    (newError ("CI repair active timeout must be between one minute and the reviewed 60-minute " ++
      "broker template maximum"))
  require (¬ (p.maxAttempts < 1 ∨ p.maxAttempts > 2))
    (newError "CI repair attempts must be between one and two")
  return ()

/-- `policy.Validate() == nil`. -/
def CIRepairPolicy.isValid (p : CIRepairPolicy) : Bool := p.validate.isOk

/-- `Store.ConfigureCIRepair`: the policy the store keeps. -/
def configureCIRepair (p : CIRepairPolicy) : Except GoError CIRepairPolicy := do
  let p := if p.reconciliationWake = 0 then { p with reconciliationWake := p.activeTimeout } else p
  p.validate
  return p

/-- `Store.ciPolicy`: the zero policy of a store that was never configured, or what
`ConfigureCIRepair` stored. -/
def StorePolicy := { p : CIRepairPolicy // p = {} ∨ ∃ q, configureCIRepair q = .ok p }

/-- `durationSeconds`: rounded up. Go's division truncates, and the dividend is positive
for every configured duration. -/
def durationSeconds (d : Int) : Int := Int.tdiv (d + second - 1) second

/-! ## Pure checks -/

/-- `githubSHA`: forty lower-case hexadecimal digits. -/
def isGithubSHA (s : GoString) : Bool :=
  s.length = 40 && s.all (fun b => (48 ≤ b && b ≤ 57) || (97 ≤ b && b ≤ 102))

/-- `validHTTPSURL`. -/
def validHTTPSURL (lib : GoLib) (raw : GoString) : Bool :=
  !(raw.length = 0 || raw.length > 2048) && lib.parsesAsHTTPS raw

/-- The operations an external wait may name in each phase. -/
def CIExternalWait.operations (phase : GoString) : Option (List GoString) :=
  if phase = lit "preparation" then
    some [lit "issue.read", lit "issue_comments.read", lit "pull.read", lit "ci.observe",
      lit "actions_job_log.read"]
  else if phase = lit "delivery" then
    some [lit "pull.read", lit "pull.reconcile", lit "pull.create", lit "git.push"]
  else none

/-- `CIExternalWait.Validate`. -/
def CIExternalWait.validate (w : CIExternalWait) : Except GoError Unit := do
  require (¬ (w.service ≠ lit "github" ∨ w.generation < 1 ∨ Clock.isZero w.since = true))
    (newError "external wait lacks GitHub identity, generation, or timestamp")
  require (¬ (w.reason ≠ lit "unavailable" ∧ w.reason ≠ lit "rate_limited"))
    (newError "external wait has invalid reason")
  match CIExternalWait.operations w.phase with
  | none => .error (newError "external wait has invalid phase")
  | some operations =>
    require (w.operation ∈ operations) (newError "external wait has invalid operation")

/-- What `ReconciledStatus` makes of the broker's word for a run: the dispatcher's status, or
the error for a word it does not know. -/
def reconciledStatus (status : GoString) : Except GoError JobStatus :=
  if status ∈ [lit "accepted", lit "queued", lit "pending", lit "launching", lit "running",
      lit "in_progress"] then .ok .launched
  else if status ∈ [lit "completed", lit "succeeded", lit "success"] then .ok .completed
  else if status ∈ [lit "failed", lit "error"] then .ok .failed
  else if status ∈ [lit "timed_out", lit "timeout"] then .ok .timedOut
  else if status = lit "stopped" then .ok .stopped
  else if status ∈ [lit "cancelled", lit "canceled"] then .ok .cancelled
  else .error (BrokerError.toError
    { malformed := true, message := lit "broker returned unknown run status" })

/-- A wait is not a status of a run that moves on. -/
theorem ne_waiting_of_reconciledStatus {word : GoString} {status : JobStatus}
    (h : reconciledStatus word = .ok status) : word ≠ lit "waiting_external" := by
  intro hword
  have hunknown : (reconciledStatus (lit "waiting_external")).isOk = false := by decide
  rw [← hword, h] at hunknown
  cases hunknown

/-! ## Keys -/

/-- `ciReconcileKey`. -/
def ciReconcileKey (jobID : Int) (headSHA : GoString) : GoString :=
  lit "ci-reconcile:v1:" ++ (GoString.decimal jobID ++ 58 :: headSHA)

/-- A reconciliation key determines its job and head. -/
theorem ciReconcileKey_inj {j j' : Int} {h h' : GoString}
    (hk : ciReconcileKey j h = ciReconcileKey j' h') : j = j' ∧ h = h' :=
  GoString.decimal_sep_inj (by decide) (List.append_cancel_left hk)

/-- The attempt key `ApplyCIObservation` and `FinishCIRepairFailure` write. -/
def ciAttemptKey (jobID : Int) (agentModel head : GoString) (number : Int) : GoString :=
  lit "ci-repair:v1:" ++ GoString.decimal jobID ++ lit ":" ++ agentModel ++ lit ":" ++ head ++
    lit ":" ++ GoString.decimal number

/-- `ciResumeKey`. -/
def ciResumeKey (attemptKey : GoString) (generation : Int) : GoString :=
  lit "ci-repair-resume:v1:" ++ attemptKey ++ lit ":" ++ GoString.decimal generation

/-- `repositoryRunResumeKey`. -/
def repositoryRunResumeKey (job : Job) (generation : Int) : GoString :=
  lit "repository-run-resume:v1:" ++ GoString.decimal job.id ++ lit ":" ++ job.brokerRunID ++
    lit ":" ++ GoString.decimal generation

/-- `Candidate.SemanticKey`. -/
def Candidate.semanticKey (c : Candidate) : GoString :=
  lit "repository-task:v1:" ++ c.routeID ++ lit ":" ++ c.repository ++ lit ":issue:" ++
    GoString.decimal c.issueNumber

/-- `brokerSourceID`. -/
def brokerSourceID (lib : GoLib) (job : Job) : GoString :=
  lit "repository-task-dispatcher-v1-" ++
    lib.sha256Hex (job.routeID ++ [0] ++ job.repository ++ [0] ++
      GoString.decimal job.issueNumber ++ [0] ++ job.profile)

/-- `reportKey`. -/
def reportKey (lib : GoLib) (job : Job) (version : GoString) : GoString :=
  lit "repository-task-terminal:v1:" ++ lib.sha256Hex (job.semanticKey ++ [0] ++ version)

end SignalPlane.Dispatcher
