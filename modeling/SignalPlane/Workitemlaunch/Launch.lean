/-
SignalPlane.Workitemlaunch.Launch — the executor that launches work items, and
the worker loop around it.

`Executor.execute` is `Execute`: its checks, the call of the broker, and what
it reports for each answer. `launchWorkItem` is `Broker.LaunchWorkItem`; the
answer of the broker is a parameter, and covers a response that was lost after
the broker had accepted the launch, which the caller sees as a transport error.

`Router.workOne` is split at the points where a process can die: after the
claim, after the executor has run, after the completion. A `Move` is one such
part, a crash, or a call of the ledger by somebody else. `LaunchState` holds
the ledger, what the worker has in memory, and every launch that was made.
-/
import SignalPlane.Workledger.Run

namespace SignalPlane.Workitemlaunch

open Dispatcher (BrokerError)
open Workledger

/-! ## The broker -/

/-- `LaunchResult`. -/
structure LaunchResult where
  version : GoString
  runID : GoString
  deriving DecidableEq, Repr

/-- The arguments of `LaunchWorkItem`. -/
structure LaunchCall where
  profile : GoString
  workItemID : GoString
  uploadID : GoString
  idempotencyKey : GoString
  deriving DecidableEq, Repr

def brokerRunLaunchVersion : GoString := lit "broker-run-launch/v1"

/-- `permanentMalformed(message, nil)`. -/
def permanentMalformed (message : String) : BrokerError :=
  { message := lit message, malformed := true }

/-- A text that is required and bounded. -/
def bounded (limit : Nat) (value : GoString) : Bool :=
  decide (GoString.trimSpace value ≠ []) && decide (value.length ≤ limit)

/-- `Broker.LaunchWorkItem`. The reply is what `doJSON` returns; an endpoint the deployment's URL
does not give is one of its errors. -/
def launchWorkItem (call : LaunchCall) (reply : Except BrokerError LaunchResult) :
    Except BrokerError LaunchResult :=
  if bounded 64 call.workItemID = false then
    .error (permanentMalformed "authoritative work_item_id is required and bounded")
  else if bounded 80 call.uploadID = false then
    .error (permanentMalformed "authoritative upload_id is required and bounded")
  else if bounded 255 call.idempotencyKey = false then
    .error (permanentMalformed "work item launch idempotency key is required and bounded")
  else if GoString.trimSpace call.profile = [] then
    .error (permanentMalformed "launch profile is required")
  else match reply with
    | .error err => .error err
    | .ok result =>
      if result.version ≠ brokerRunLaunchVersion ∨ GoString.trimSpace result.runID = [] then
        .error (permanentMalformed "WorkItem broker launch response is invalid")
      else .ok { result with runID := GoString.trimSpace result.runID }

/-! ## The executor -/

/-- `WorkItemLauncherConfig`, as far as the executor reads it. No kind is the empty string. -/
structure WorkItemLauncherConfig where
  agentType : GoString
  executorID : GoString
  executorKind : Option ExecutorKind
  executorVersion : GoString
  profiles : List (GoString × GoString)

/-- The entry of a map, or the empty string. -/
def WorkItemLauncherConfig.profile (config : WorkItemLauncherConfig) (mode : GoString) :
    GoString :=
  ((config.profiles.find? fun entry => entry.1 = mode).map Prod.snd).getD []

/-- `Executor`. -/
structure Executor where
  config : WorkItemLauncherConfig
  /-- The broker is not `nil`. -/
  hasBroker : Bool

/-- `Executor.Descriptor`. -/
def Executor.descriptor (executor : Executor) : ExecutorDescriptor where
  id := executor.config.executorID
  kind := executor.config.executorKind.getD .deterministicTool
  version := executor.config.executorVersion

/-- `permanent`. -/
def permanent (message : GoString) : ExecutorResult :=
  { outcome := .permanentFailure, sanitizedError := message }

/-- The launch `Execute` asks for, or the message of the check that fails. -/
def Executor.call (executor : Executor) (item : WorkItem) (attempt : ExecutorAttempt) :
    Except GoString LaunchCall :=
  if executor.hasBroker = false then .error (lit "launcher broker is unavailable")
  else if item.agentType ≠ executor.config.agentType then
    .error (lit "work item agent type is not authorized by this launcher")
  else if item.objectKind ≠ lit "upload" ∨ item.objectID = [] then
    .error (lit "work item is not an authoritative upload")
  else if executor.config.profile item.agentMode = [] then
    .error (lit "work item mode has no deployment-owned launch profile")
  else .ok ⟨executor.config.profile item.agentMode, item.id, item.objectID,
    attempt.idempotencyKey⟩

/-- What `Execute` reports for the answer of the broker. -/
def report (lib : LedgerLib) : Except BrokerError LaunchResult → ExecutorResult
  | .error err =>
    if err.retryable then
      { outcome := .retryableFailure
        retryClassification := lit "broker_launch_transient"
        sanitizedError := lit "broker launch is temporarily unavailable" }
    else permanent (lit "broker launch was denied")
  | .ok result =>
    { outcome := .completed
      externalCorrelation := result.runID
      resultDigest := lit "sha256:" ++ GoString.hexEncode (lib.sha256 result.runID) }

/-- `Executor.Execute`: its result, and the launch it made. -/
def Executor.execute (lib : LedgerLib) (executor : Executor) (item : WorkItem)
    (attempt : ExecutorAttempt) (reply : Except BrokerError LaunchResult) :
    ExecutorResult × Option LaunchCall :=
  match executor.call item attempt with
  | .error message => (permanent message, none)
  | .ok call => (report lib (launchWorkItem call reply), some call)

/-! ## The worker -/

/-- The registered executors: the launcher, and others. -/
structure Router where
  launcher : Executor
  others : List ExecutorDescriptor

/-- The descriptor is the one the attempt was claimed for. -/
def fits (descriptor : ExecutorDescriptor) (attempt : ExecutorAttempt) : Bool :=
  decide (descriptor.version = attempt.executorVersion) &&
    decide (descriptor.kind = attempt.executorKind)

/-- The middle of `Router.WorkOne`: resolve the executor of a claimed attempt and run it. What
another executor reports is `other`. -/
def Router.dispatch (lib : LedgerLib) (router : Router) (item : WorkItem)
    (attempt : ExecutorAttempt) (reply : Except BrokerError LaunchResult)
    (other : ExecutorResult) : ExecutorResult × Option LaunchCall :=
  if router.launcher.descriptor.id = attempt.executorID then
    if fits router.launcher.descriptor attempt = false then
      (permanent (lit "claimed executor version is not registered"), none)
    else router.launcher.execute lib item attempt reply
  else match router.others.find? (fun descriptor => descriptor.id = attempt.executorID) with
    | none => (permanent (lit "claimed executor is not registered"), none)
    | some descriptor =>
      if fits descriptor attempt = false then
        (permanent (lit "claimed executor version is not registered"), none)
      else (other, none)

/-- What the worker has in memory. -/
inductive Worker where
  | idle
  | claimed (item : WorkItem) (attempt : ExecutorAttempt)
  | executed (attemptID : GoString) (result : ExecutorResult)

/-- The ledger, the worker, and the launches so far. -/
structure LaunchState where
  store : Store
  worker : Worker
  calls : List LaunchCall

def LaunchState.empty : LaunchState := ⟨Store.empty, .idle, []⟩

/-- Only the worker claims and completes. -/
def isWork : Op → Bool
  | .claim .. | .complete .. => true
  | _ => false

/-- One part of `WorkOne`, a crash, or a call by somebody else. The call of
`RecoverInterrupted` when a process starts is one of the latter. -/
inductive Move where
  | claim (tie : Nat) (token : Token) (now : Int)
  | execute (reply : Except BrokerError LaunchResult) (other : ExecutorResult)
  | finish (now : Int)
  | crash
  | call (op : Op)

/-- `finish`: a completion that fails is followed by `RecoverInterrupted`. -/
def finish (lib : LedgerLib) (attemptID : GoString) (result : ExecutorResult) (now : Int)
    (s : Store) : Store :=
  match complete lib attemptID result now s with
  | .ok s' => s'
  | .error _ => (recoverInterrupted now s).2

def Move.step (lib : LedgerLib) (router : Router) (st : LaunchState) : Move → LaunchState
  | .claim tie token now =>
    match st.worker, Workledger.claim tie token now st.store with
    | .idle, .ok (some (item, attempt), s) =>
      { st with store := s, worker := .claimed item attempt }
    | .idle, .ok (none, s) => { st with store := s }
    | _, _ => st
  | .execute reply other =>
    match st.worker with
    | .claimed item attempt =>
      let answer := router.dispatch lib item attempt reply other
      { st with worker := .executed attempt.id answer.1, calls := st.calls ++ answer.2.toList }
    | _ => st
  | .finish now =>
    match st.worker with
    | .executed attemptID result =>
      { st with store := Workitemlaunch.finish lib attemptID result now st.store, worker := .idle }
    | _ => st
  | .crash => { st with worker := .idle }
  | .call op => if isWork op then st else { st with store := op.step lib st.store }

/-- The states reached from the empty ledger by moves that all meet a condition. -/
inductive Launches (lib : LedgerLib) (router : Router) (ok : LaunchState → Move → Prop) :
    LaunchState → Prop where
  | empty : Launches lib router ok LaunchState.empty
  | step {st : LaunchState} (move : Move) (h : Launches lib router ok st) (hok : ok st move) :
      Launches lib router ok (move.step lib router st)

/-- The state after a list of moves. -/
def runMoves (lib : LedgerLib) (router : Router) (moves : List Move) (st : LaunchState) :
    LaunchState :=
  moves.foldl (Move.step lib router) st

/-- Every move of a list meets a condition on the state it finds. -/
def MovesMeet (lib : LedgerLib) (router : Router) (ok : LaunchState → Move → Prop) :
    List Move → LaunchState → Prop
  | [], _ => True
  | move :: moves, st => ok st move ∧ MovesMeet lib router ok moves (move.step lib router st)

instance MovesMeet.decidable (lib : LedgerLib) (router : Router)
    (ok : LaunchState → Move → Prop) [h : ∀ st move, Decidable (ok st move)] :
    ∀ moves st, Decidable (MovesMeet lib router ok moves st)
  | [], _ => .isTrue trivial
  | move :: moves, st =>
    have := MovesMeet.decidable lib router ok moves (move.step lib router st)
    inferInstanceAs (Decidable (ok st move ∧
      MovesMeet lib router ok moves (move.step lib router st)))

theorem Launches.run {lib : LedgerLib} {router : Router} {ok : LaunchState → Move → Prop}
    {moves : List Move} {st : LaunchState} (h : Launches lib router ok st)
    (hmoves : MovesMeet lib router ok moves st) :
    Launches lib router ok (runMoves lib router moves st) := by
  induction moves generalizing st with
  | nil => exact h
  | cons move moves ih => exact ih (.step move h hmoves.1) hmoves.2

end SignalPlane.Workitemlaunch
