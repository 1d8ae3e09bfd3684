/-
SignalPlane.Dispatcher.Run — runs of the dispatcher.

The dispatcher process does two things to its store: it processes deliveries
and it lets the worker run one piece of work at a time. An `Input` is one such
step with everything it gets from outside: the delivery, the clock, the
broker's answers, and the database's choice between equal rows. A state is
reachable when some list of inputs leads to it from an empty store.
`ReachableBy` restricts the steps to those that meet a condition; a result
about every step is the case where the condition is `True`.

The last section is one small dispatcher, with one route and a library that
decodes the few texts it is given. Concrete runs in other modules use it.
-/
import SignalPlane.Dispatcher.Process

namespace SignalPlane.Dispatcher

open Clock
open Workflow (exec)

/-! ## Steps and runs -/

/-- One step of the dispatcher, with what it gets from outside. -/
inductive Input where
  | process (delivery : Delivery) (now : Int)
  | runOne (tie : Nat) (now : Int) (answers : BrokerAnswers)

/-- A broker that answers every call with an error. `process` asks nothing. -/
def silentBroker : BrokerAnswers
  | ⟨_, .launch _⟩ => (.error (newError "no broker") : Except GoError GoString)
  | ⟨_, .launchRepair ..⟩ => (.error (newError "no broker") : Except GoError GoString)
  | ⟨_, .status _⟩ => (.error (newError "no broker") : Except GoError RunStatus)
  | ⟨_, .resumeRun ..⟩ => (.error (newError "no broker") : Except GoError RunStatus)
  | ⟨_, .terminalResult _⟩ => (.error (newError "no broker") : Except GoError TerminalResult)
  | ⟨_, .comment ..⟩ => (.error (newError "no broker") : Except GoError CommentResult)
  | ⟨_, .observeCI ..⟩ => (.error (newError "no broker") : Except GoError CIObservation)

/-- The store after a step. -/
def Input.step (env : Env) (s : Store) : Input → Store
  | .process delivery now => (exec silentBroker (Dispatcher.process env [] delivery now) s).store
  | .runOne tie now answers => (exec answers (Dispatcher.runOne env tie now) s).store

/-- The store after a list of steps. -/
def run (env : Env) (inputs : List Input) (s : Store) : Store := inputs.foldl (Input.step env) s

/-- The states reached from an empty store by steps that all meet the condition `ok`. -/
inductive ReachableBy (env : Env) (ok : Store → Input → Prop) : Store → Prop where
  | empty : ReachableBy env ok Store.empty
  | step {s : Store} (i : Input) (h : ReachableBy env ok s) (hi : ok s i) :
      ReachableBy env ok (i.step env s)

/-- The states reached from an empty store. -/
def Reachable (env : Env) : Store → Prop := ReachableBy env (fun _ _ => True)

/-- An invariant: it holds of the empty store and every allowed step keeps it. -/
theorem ReachableBy.invariant {env : Env} {ok : Store → Input → Prop} {I : Store → Prop}
    (hempty : I Store.empty) (hstep : ∀ s i, I s → ok s i → I (i.step env s)) {s : Store}
    (h : ReachableBy env ok s) : I s := by
  induction h with
  | empty => exact hempty
  | step i _ hi ih => exact hstep _ i ih hi

theorem ReachableBy.reachable {env : Env} {ok : Store → Input → Prop} {s : Store}
    (h : ReachableBy env ok s) : Reachable env s := by
  induction h with
  | empty => exact .empty
  | step i _ _ ih => exact .step i ih trivial

theorem Reachable.empty {env : Env} : Reachable env Store.empty := ReachableBy.empty

/-- The end of a run from a reachable state is reachable. -/
theorem Reachable.run {env : Env} {s : Store} (h : Reachable env s) (inputs : List Input) :
    Reachable env (Dispatcher.run env inputs s) := by
  induction inputs generalizing s with
  | nil => exact h
  | cons i inputs ih => exact ih (.step i h trivial)

/-! ## A small dispatcher -/

namespace Sample

/-- A forty-digit identity. -/
def sha (digit : UInt8) : GoString := List.replicate 40 digit

/-- The worker result behind the text `worker`. -/
def worker : WorkerTerminalResult :=
  { version := workerResultVersion
    outcome := lit "ready_for_review"
    runID := lit "run-1"
    repository := lit "octo/repo"
    branch := lit "task"
    verificationStatus := lit "passed"
    deliveredHeadSHA := sha 97
    validatedTreeSHA := sha 98
    pullRequest := some ⟨7, lit "https://github.com/octo/repo/pull/7",
      lit "https://api.github.com/pulls/7"⟩ }

/-- The signal behind every delivery: issue 5 was labelled. -/
def labelled (deliveryID : GoString) : Signal :=
  { source := lit "github"
    sourceEvent := lit "issues"
    sourceAction := lit "labeled"
    sourceDeliveryID := deliveryID
    nameSpace := lit "octo/repo"
    objectKind := lit "issue"
    objectID := lit "5"
    sourceRevision := []
    receivedAt := 0
    verified := true
    payload := [] }

/-- A library that decodes the texts of the sample. -/
def lib : GoLib where
  sha256Hex s := s
  jsonValid s := s ≠ []
  marshalTerminalResult _ := .ok (lit "\x7b\x7d")
  unmarshalWorker s := if s = lit "worker" then (worker, true) else ({}, s = lit "null")
  marshalObservation _ := some (lit "\x7b\x7d")
  unmarshalObservation _ o := o
  parsesAsHTTPS s := s.take 8 = lit "https://"
  sscanInt s := if s = lit "5" then some 5 else none
  unmarshalSignal data := .ok (labelled data)
  unmarshalIssueEvent _ :=
    some ⟨lit "labeled", lit "octo/repo", 5, lit "open", [], lit "go", lit "octocat"⟩
  jsonValid_nil := rfl
  marshal_valid := by
    intro r encoded h
    cases h
    decide

/-- A valid policy: a wake after one minute, at most two attempts. -/
def policy : StorePolicy := ⟨⟨minute, minute, 2⟩, .inr ⟨⟨minute, minute, 2⟩, rfl⟩⟩

/-- The production client with a reporter. -/
def broker : BrokerCapabilities :=
  ⟨true, true, true, true, fun _ => rfl, fun _ => rfl, fun _ => rfl⟩

def env : Env :=
  ⟨lib, policy, broker,
    [⟨lit "route", lit "agent", lit "octo/repo", lit "issues", lit "labeled", lit "go"⟩]⟩

/-- Delivery number `n` of the labelled issue. -/
def deliver (n : Nat) (now : Int) : Input :=
  .process ⟨.ok n, lit "delivery" ++ GoString.decimal n, .ok ()⟩ now

/-- The projection of a run that is ready for review. -/
def ready : TerminalResult :=
  { version := terminalResultVersion
    runID := lit "run-1"
    profile := lit "agent"
    repo := lit "octo/repo"
    branch := lit "task"
    status := lit "completed"
    outcome := lit "ready_for_review"
    idempotencyKeyDigest := lit "digest"
    requestFingerprint := lit "fingerprint"
    launchConfigVersion := lit "v1"
    result := some (lit "worker")
    finalSummary := lit "done" }

/-- A broker whose run `run-1` has the given status and projection, and whose CI answers
`observe`. -/
def answers (status : Except GoError RunStatus) (projection : Except GoError TerminalResult)
    (observe : CIRepairTask → GoString → Except GoError CIObservation) : BrokerAnswers
  | ⟨_, .launch _⟩ => (.ok (lit "run-1") : Except GoError GoString)
  | ⟨_, .launchRepair ..⟩ => (.ok (lit "run-2") : Except GoError GoString)
  | ⟨_, .status _⟩ => status
  | ⟨_, .resumeRun runID _ _⟩ =>
    (.ok { runID := runID, status := lit "running" } : Except GoError RunStatus)
  | ⟨_, .terminalResult _⟩ => projection
  | ⟨_, .comment ..⟩ => (.ok ⟨1, lit "https://github.com/c/1"⟩ : Except GoError CommentResult)
  | ⟨_, .observeCI task head⟩ => observe task head

/-- The status of the finished run. -/
def finished : RunStatus := { runID := lit "run-1", status := lit "completed" }

/-- The run finished. -/
def completed : Except GoError RunStatus := .ok finished

/-- CI is green. -/
def green (task : CIRepairTask) (head : GoString) : Except GoError CIObservation :=
  .ok { repository := task.repository
        pullNumber := task.pullNumber
        headSHA := head
        state := lit "success" }

/-- A failure that may be retried. -/
def unavailable : GoError := BrokerError.toError { transport := true, message := lit "timeout" }

/-- A worker pass in which the run is ready for review and CI is green. -/
def readyPass (now : Int) : Input := .runOne 0 now (answers completed (.ok ready) green)

/-- One delivery at time 0 and the launch one second later. -/
def launchedRun : List Input := [deliver 1 0, readyPass second]

/-- The store with one launched job. -/
def launchedStore : Store := run env launchedRun .empty

/-- The launched job, as a claim scans it. -/
def job : Job :=
  { id := 1
    semanticKey := lit "repository-task:v1:route:octo/repo:issue:5"
    routeID := lit "route"
    profile := lit "agent"
    repository := lit "octo/repo"
    issueNumber := 5
    deliveryID := lit "delivery1"
    brokerRunID := lit "run-1"
    status := .launched
    attempts := 1
    preOutboxAttempts := 0
    firstAttemptAt := second }

/-- The store after the projection of the finished run failed once. -/
def unprojectedStore : Store :=
  run env [.runOne 0 (3 * second) (answers completed (.error unavailable) green)] launchedStore

/-- The run waits for GitHub. -/
def waitingRun : RunStatus :=
  { runID := lit "run-1"
    status := lit "waiting_external"
    externalWait := some
      ⟨lit "github", lit "preparation", lit "issue.read", lit "unavailable", 1, 2 * second⟩ }

/-- A worker pass in which the run waits. -/
def waitPass (now : Int) : Input := .runOne 0 now (answers (.ok waitingRun) (.ok ready) green)

/-- The store after the launched run was found waiting. -/
def waitingStore : Store := run env [waitPass (3 * second)] launchedStore

theorem launchedStore_reachable : Reachable env launchedStore := Reachable.empty.run launchedRun

theorem waitingStore_reachable : Reachable env waitingStore := launchedStore_reachable.run _

theorem unprojectedStore_reachable : Reachable env unprojectedStore :=
  launchedStore_reachable.run _

end Sample

end SignalPlane.Dispatcher
