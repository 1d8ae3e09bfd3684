/-
SignalPlane.Resumeupload.Executor — the executor that uploads releases, and the
loop that runs it.

`execute` is `Executor.Execute` and `workOne` is `Router.WorkOne`, as workflows
over the ledger: every access to the ledger is a transaction of its own, and
GitHub, YouKnowMe and the other registered executors are asked. An upload whose
response is lost is one that is answered with an error.

`system` is the executor loop among others who use the same ledger: they admit,
activate and recover, but only the loop claims, completes and records results.
`Upload` carries the operation it is made for; the call itself has the other
three fields.
-/
import SignalPlane.Lib.Contract
import SignalPlane.Resumeupload.Router
import SignalPlane.Workitemlaunch.Launch

namespace SignalPlane.Resumeupload

open Dispatcher (GoError)
open Workledger
open Workflow (atomic commit perform request)
open Workitemlaunch (fits permanent)

/-! ## Questions -/

/-- A call of `Upload`, and the operation it is made for. -/
structure Upload where
  operation : ReleaseOperation
  filename : GoString
  content : GoString
  key : GoString
  deriving DecidableEq, Repr

/-- What the loop asks of others. -/
inductive Question where
  | downloadVerified (operation : ReleaseOperation)
  | upload (call : Upload)
  /-- `Execute` of another executor. -/
  | execute (executor : ExecutorDescriptor) (item : WorkItem) (attempt : ExecutorAttempt)

/-- What they answer. Of the response to an upload only its id is read. -/
@[reducible] def Answer : Question → Type
  | .downloadVerified _ => Except GoError GoString
  | .upload _ => Except GoError GoString
  | .execute .. => Except GoError ExecutorResult

/-- A part of the loop. -/
abbrev Task := Workflow Store Question Answer

def downloadVerified (operation : ReleaseOperation) : Task (Except GoError GoString) :=
  request (Question.downloadVerified operation)

def upload (call : Upload) : Task (Except GoError GoString) := request (Question.upload call)

def executeOther (executor : ExecutorDescriptor) (item : WorkItem) (attempt : ExecutorAttempt) :
    Task (Except GoError ExecutorResult) :=
  request (Question.execute executor item attempt)

/-! ## The executor -/

/-- `Executor.Descriptor`. -/
def descriptor : ExecutorDescriptor := ⟨executorID, .deterministicTool, lit "v1"⟩

/-- The idempotency key of a digest. -/
def uploadKey (digest : GoString) : GoString :=
  lit "signal-plane:resume:v1:" ++ trimSHA256 digest

/-- The file name of a digest. -/
def uploadFilename (digest : GoString) : GoString :=
  lit "resume_" ++ trimSHA256 digest ++ lit ".structured.md"

/-- The digest of a result. -/
def uploadResult (lib : LedgerLib) (uploadID digest : GoString) : GoString :=
  lit "sha256:" ++ GoString.hexEncode (lib.sha256 (uploadID ++ lit ":" ++ digest))

def completedWith (external result : GoString) : ExecutorResult :=
  { outcome := .completed, externalCorrelation := external, resultDigest := result }

def retryable (classification message : String) : ExecutorResult :=
  { outcome := .retryableFailure
    retryClassification := lit classification
    sanitizedError := lit message }

/-- The attempt was made for this operation. -/
def evidenceMatches (attempt : ExecutorAttempt) (operation : ReleaseOperation) : Bool :=
  decide (attempt.id = []) ||
    (decide (attempt.operationIdempotencyKey = uploadKey operation.computedDigest) &&
      decide (attempt.requestedOperationDigest = operation.computedDigest))

/-- The end of `Execute`: the upload, and the record of its result. -/
def uploadContent (lib : LedgerLib) (operation : ReleaseOperation) (content : GoString)
    (now : Int) : Task (Except GoError ExecutorResult) := do
  match ← upload ⟨operation, uploadFilename operation.computedDigest, content,
      uploadKey operation.computedDigest⟩ with
  | .error _ =>
    return .ok (retryable "youknowme_ambiguous" "YouKnowMe upload did not return a durable result")
  | .ok uploadID =>
    let result := uploadResult lib uploadID operation.computedDigest
    match ← commit (recordContentResult operation.computedDigest uploadID result now) with
    | .error err => return .error err
    | .ok () => return .ok (completedWith uploadID result)

/-- `Execute` of an operation whose content has no result yet. -/
def fetchContent (lib : LedgerLib) (attempt : ExecutorAttempt) (operation : ReleaseOperation)
    (now : Int) : Task (Except GoError ExecutorResult) := do
  match ← downloadVerified operation with
  | .error _ =>
    return .ok (retryable "github_release_read" "verified release asset retrieval failed")
  | .ok content =>
    if evidenceMatches attempt operation = false then
      return .ok (permanent (lit "attempt operation evidence does not match durable release"))
    else uploadContent lib operation content now

/-- `Executor.Execute`. -/
def execute (lib : LedgerLib) (item : WorkItem) (attempt : ExecutorAttempt) (now : Int) :
    Task (Except GoError ExecutorResult) := do
  match ← perform (fun s => (s.releaseOperation item.id, s)) with
  | .error _ => return .ok (permanent (lit "release operation is unavailable"))
  | .ok operation =>
    match ← perform (fun s => (s.contentResult operation.computedDigest, s)) with
    | some (external, result) => return .ok (completedWith external result)
    | none => fetchContent lib attempt operation now

/-! ## The loop -/

/-- What one round of the loop gets from outside. -/
structure Round where
  /-- A recovery that failed is made up for first. -/
  needsRecovery : Bool := false
  tie : Nat := 0
  token : Token
  now : Int
  /-- The clock of the executor when it records a result. -/
  recordedAt : Int

/-- The middle of `WorkOne`: resolve the executor of a claimed attempt and run it. -/
def dispatch (lib : LedgerLib) (others : List ExecutorDescriptor) (item : WorkItem)
    (attempt : ExecutorAttempt) (recordedAt : Int) : Task ExecutorResult :=
  let internal := retryable "executor_internal" "executor returned an internal error"
  let mismatch := permanent (lit "claimed executor version is not registered")
  if executorID = attempt.executorID then
    if fits descriptor attempt = false then return mismatch
    else do
      let result ← execute lib item attempt recordedAt
      return result.toOption.getD internal
  else match others.find? (fun executor => executor.id = attempt.executorID) with
    | none => return permanent (lit "claimed executor is not registered")
    | some executor =>
      if fits executor attempt = false then return mismatch
      else do
        let result ← executeOther executor item attempt
        return result.toOption.getD internal

/-- `Router.finish`. -/
def finish (lib : LedgerLib) (attemptID : GoString) (result : ExecutorResult) (now : Int) :
    Task Unit := do
  match ← commit (complete lib attemptID result now) with
  | .ok () => return ()
  | .error _ => perform fun s => ((), (recoverInterrupted now s).2)

/-- `WorkOne` from the claim on. -/
def claimAndWork (lib : LedgerLib) (others : List ExecutorDescriptor) (round : Round) :
    Task Unit := do
  match ← atomic (claim round.tie round.token round.now) with
  | .error _ | .ok none => return ()
  | .ok (some (item, attempt)) => do
    let result ← dispatch lib others item attempt round.recordedAt
    finish lib attempt.id result round.now

/-- `Router.WorkOne`. -/
def workOne (lib : LedgerLib) (others : List ExecutorDescriptor) (round : Round) : Task Unit :=
  if round.needsRecovery then do
    perform fun s => ((), (recoverInterrupted round.now s).2)
    claimAndWork lib others round
  else claimAndWork lib others round

/-- Only the loop claims, completes and records results. -/
def isLoops : Op → Bool
  | .claim .. | .complete .. | .recordContentResult .. => true
  | _ => false

/-- The loop, and the calls of others. -/
def system (lib : LedgerLib) (others : List ExecutorDescriptor) :
    Workflow.System Store Question Answer Round Op where
  program := workOne lib others
  act op s := if isLoops op then s else op.step lib s

/-- A state of the loop. -/
abbrev Loop := Workflow.Process Store Question Answer

end SignalPlane.Resumeupload
