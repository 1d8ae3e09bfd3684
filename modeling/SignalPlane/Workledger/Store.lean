/-
SignalPlane.Workledger.Store — the ledger's tables and the operations of `store.go`.

Each table is a `Table` over its primary key. An operation is a function from
the store to its result and the store it commits, or the error it returns; an
error leaves nothing behind, because every operation is one transaction or one
statement. The `UNIQUE` and `CHECK` constraints an operation can run into are
conditions of the function. The foreign keys are no conditions: every row an
operation refers to is one it has just read or written, and no row that
another refers to is ever deleted.

An identifier is what `newID` makes of a token. The primary keys decide what
happens when a token repeats, so nothing is assumed about it here.

`Complete` shadows `err` in the branch that updates the rows, so an error of
those updates would be dropped; neither update can break a constraint of the
schema, and the model has no such case.
-/
import SignalPlane.Lib.Table
import SignalPlane.Workledger.Model

namespace SignalPlane.Workledger

open Clock
open Dispatcher (GoError newError errNoRows constraintFailed highBitSet require)

def durablePollInterval : Int := 5 * second
def durableWaitDeadline : Int := 30 * minute

/-! ## Rows -/

/-- `route_snapshots`. The column `definition_json` is written from a definition and read by
`DecodeRouteDefinition` only, so the row holds the value the text decodes to. -/
structure RouteSnapshotRow where
  id : GoString
  routeID : GoString
  schemaVersion : Int
  semanticVersion : GoString
  digest : GoString
  executorID : GoString
  executorKind : ExecutorKind
  executorVersion : GoString
  definition : RouteDefinition
  activatedAt : Int
  retiredAt : Option Int := none
  deriving DecidableEq, Repr

/-- `work_items`. -/
structure WorkItemRow where
  id : GoString
  routeSnapshotID : GoString
  routeID : GoString
  semanticObjectKey : GoString
  source : GoString
  nameSpace : GoString
  objectKind : GoString
  objectID : GoString
  sourceRevision : GoString
  serializationKey : GoString
  taskEvidenceDigest : GoString
  agentType : GoString
  agentMode : GoString
  typeContractRevision : GoString
  resolvedReleaseGeneration : Int := 0
  resolvedReleaseDigest : GoString := []
  brokerRunID : GoString := []
  authoritativePRRepository : GoString := []
  authoritativePRNumber : Int := 0
  state : WorkState
  stateVersion : Int := 1
  supersededByID : Option GoString := none
  latestExecutorCorrelation : GoString := []
  createdAt : Int
  updatedAt : Int
  terminalAt : Option Int := none
  nextAttemptAt : Option Int := none
  waitDeadlineAt : Option Int := none
  deriving DecidableEq, Repr

/-- `work_events`: the columns copied from the event are the event. -/
structure WorkEventRow where
  id : GoString
  workItemID : GoString
  event : Event
  eventDigest : GoString
  recordedAt : Int
  deriving DecidableEq, Repr

/-- `executor_attempts`. -/
structure ExecutorAttemptRow where
  id : GoString
  workItemID : GoString
  attemptNumber : Nat
  executorID : GoString
  executorKind : ExecutorKind
  executorVersion : GoString
  idempotencyKey : GoString
  operationIdempotencyKey : GoString := []
  requestedOperationDigest : GoString
  state : AttemptState
  retryClassification : GoString := []
  externalCorrelation : GoString := []
  resultDigest : GoString := []
  sanitizedError : GoString := []
  createdAt : Int
  startedAt : Int
  completedAt : Option Int := none
  deriving DecidableEq, Repr

/-- `serialization_leases`. -/
structure LeaseRow where
  serializationKey : GoString
  workItemID : GoString
  attemptID : GoString
  acquiredAt : Int
  deriving DecidableEq, Repr

/-- `release_operations`. -/
structure ReleaseOperationRow where
  workItemID : GoString
  operation : ReleaseOperation
  deriving DecidableEq, Repr

/-- `content_results`. -/
structure ContentResultRow where
  computedDigest : GoString
  externalCorrelation : GoString
  resultDigest : GoString
  recordedAt : Int
  deriving DecidableEq, Repr

/-- `ingress_failures`. -/
structure IngressFailureRow where
  source : GoString
  nameSpace : GoString
  sourceDeliveryID : GoString
  eventDigest : GoString
  classification : GoString
  attempts : Int
  recordedAt : Int
  deriving DecidableEq, Repr

def IngressFailureRow.key (r : IngressFailureRow) : GoString × GoString × GoString :=
  (r.source, r.nameSpace, r.sourceDeliveryID)

/-- The ledger. -/
structure Store where
  routeSnapshots : Table RouteSnapshotRow.id
  workItems : Table WorkItemRow.id
  workEvents : Table WorkEventRow.id
  executorAttempts : Table ExecutorAttemptRow.id
  leases : Table LeaseRow.serializationKey
  releaseOperations : Table ReleaseOperationRow.workItemID
  contentResults : Table ContentResultRow.computedDigest
  ingressFailures : Table IngressFailureRow.key
  deriving DecidableEq

def Store.empty : Store :=
  ⟨.empty, .empty, .empty, .empty, .empty, .empty, .empty, .empty⟩

/-! ## What a query returns -/

/-- `RouteSnapshot`. -/
structure RouteSnapshot where
  id : GoString
  routeID : GoString
  schemaVersion : Int
  semanticVersion : GoString
  digest : GoString
  executorID : GoString
  executorKind : ExecutorKind
  executorVersion : GoString
  admission : AdmissionPolicy
  concurrency : ConcurrencyPolicy
  retry : RetryPolicy
  activatedAt : Int
  retiredAt : Option Int := none
  deriving DecidableEq, Repr

/-- `WorkItem`. -/
structure WorkItem where
  id : GoString
  routeSnapshotID : GoString
  routeID : GoString
  semanticObjectKey : GoString
  source : GoString
  nameSpace : GoString
  objectKind : GoString
  objectID : GoString
  sourceRevision : GoString
  serializationKey : GoString
  agentType : GoString
  agentMode : GoString
  typeContractRevision : GoString
  resolvedReleaseGeneration : Int
  resolvedReleaseDigest : GoString
  brokerRunID : GoString
  authoritativePRRepository : GoString
  authoritativePRNumber : Int
  state : WorkState
  stateVersion : Int
  supersededByID : GoString
  latestExecutorCorrelation : GoString
  createdAt : Int
  updatedAt : Int
  terminalAt : Option Int
  nextAttemptAt : Option Int
  deriving DecidableEq, Repr

/-- `ExecutorAttempt`. -/
structure ExecutorAttempt where
  id : GoString
  workItemID : GoString
  attemptNumber : Nat
  executorID : GoString
  executorKind : ExecutorKind
  executorVersion : GoString
  idempotencyKey : GoString
  operationIdempotencyKey : GoString
  requestedOperationDigest : GoString
  state : AttemptState
  retryClassification : GoString
  externalCorrelation : GoString
  resultDigest : GoString
  createdAt : Int
  deriving DecidableEq, Repr

/-- `AdmissionResult`. -/
structure AdmissionResult where
  workItem : WorkItem
  eventID : GoString
  duplicate : Bool := false
  deriving DecidableEq, Repr

/-- The columns of a snapshot, with the policies of a definition. -/
def RouteSnapshotRow.scan (r : RouteSnapshotRow) (d : RouteDefinition) : RouteSnapshot where
  id := r.id
  routeID := r.routeID
  schemaVersion := r.schemaVersion
  semanticVersion := r.semanticVersion
  digest := r.digest
  executorID := r.executorID
  executorKind := r.executorKind
  executorVersion := r.executorVersion
  admission := d.admission
  concurrency := d.concurrency
  retry := d.retry
  activatedAt := ofUnixMilli r.activatedAt
  retiredAt := r.retiredAt.map ofUnixMilli

/-- `workItemScan`: an absent successor reads as the empty string. -/
def WorkItemRow.scan (r : WorkItemRow) : WorkItem where
  id := r.id
  routeSnapshotID := r.routeSnapshotID
  routeID := r.routeID
  semanticObjectKey := r.semanticObjectKey
  source := r.source
  nameSpace := r.nameSpace
  objectKind := r.objectKind
  objectID := r.objectID
  sourceRevision := r.sourceRevision
  serializationKey := r.serializationKey
  agentType := r.agentType
  agentMode := r.agentMode
  typeContractRevision := r.typeContractRevision
  resolvedReleaseGeneration := r.resolvedReleaseGeneration
  resolvedReleaseDigest := r.resolvedReleaseDigest
  brokerRunID := r.brokerRunID
  authoritativePRRepository := r.authoritativePRRepository
  authoritativePRNumber := r.authoritativePRNumber
  state := r.state
  stateVersion := r.stateVersion
  supersededByID := r.supersededByID.getD []
  latestExecutorCorrelation := r.latestExecutorCorrelation
  createdAt := ofUnixMilli r.createdAt
  updatedAt := ofUnixMilli r.updatedAt
  terminalAt := r.terminalAt.map ofUnixMilli
  nextAttemptAt := r.nextAttemptAt.map ofUnixMilli

def ExecutorAttemptRow.scan (r : ExecutorAttemptRow) : ExecutorAttempt where
  id := r.id
  workItemID := r.workItemID
  attemptNumber := r.attemptNumber
  executorID := r.executorID
  executorKind := r.executorKind
  executorVersion := r.executorVersion
  idempotencyKey := r.idempotencyKey
  operationIdempotencyKey := r.operationIdempotencyKey
  requestedOperationDigest := r.requestedOperationDigest
  state := r.state
  retryClassification := r.retryClassification
  externalCorrelation := r.externalCorrelation
  resultDigest := r.resultDigest
  createdAt := ofUnixMilli r.createdAt

/-- `QueryRow(…).Scan(…)`: no row is an error. -/
def selectRow {α : Type} : Option α → Except GoError α
  | some row => .ok row
  | none => .error errNoRows

/-! ## Statements on single tables -/

/-- `UPDATE work_items SET f WHERE p`. -/
def Store.updateItems (s : Store) (p : WorkItemRow → Bool) (f : WorkItemRow → WorkItemRow)
    (hf : ∀ r, (f r).id = r.id) : Store :=
  { s with workItems := s.workItems.update p f hf }

/-- `UPDATE executor_attempts SET f WHERE p`. -/
def Store.updateAttempts (s : Store) (p : ExecutorAttemptRow → Bool)
    (f : ExecutorAttemptRow → ExecutorAttemptRow) (hf : ∀ r, (f r).id = r.id) : Store :=
  { s with executorAttempts := s.executorAttempts.update p f hf }

/-- `UPDATE route_snapshots SET f WHERE p`. -/
def Store.updateSnapshots (s : Store) (p : RouteSnapshotRow → Bool)
    (f : RouteSnapshotRow → RouteSnapshotRow) (hf : ∀ r, (f r).id = r.id) : Store :=
  { s with routeSnapshots := s.routeSnapshots.update p f hf }

/-- `DELETE FROM serialization_leases WHERE p`. -/
def Store.deleteLeases (s : Store) (p : LeaseRow → Bool) : Store :=
  { s with leases := s.leases.delete p }

/-- The ledger with a new row in a table; a taken key leaves it as it is. -/
def Store.withItem (s : Store) (row : WorkItemRow) : Store :=
  { s with workItems := s.workItems.insert row }

def Store.withAttempt (s : Store) (row : ExecutorAttemptRow) : Store :=
  { s with executorAttempts := s.executorAttempts.insert row }

def Store.withLease (s : Store) (row : LeaseRow) : Store :=
  { s with leases := s.leases.insert row }

def Store.withEvent (s : Store) (row : WorkEventRow) : Store :=
  { s with workEvents := s.workEvents.insert row }

def Store.withOperation (s : Store) (row : ReleaseOperationRow) : Store :=
  { s with releaseOperations := s.releaseOperations.insert row }

def Store.withSnapshot (s : Store) (row : RouteSnapshotRow) : Store :=
  { s with routeSnapshots := s.routeSnapshots.insert row }

/-- `INSERT INTO work_items`. -/
def Store.insertItem (s : Store) (row : WorkItemRow) : Except GoError Store := do
  require (s.workItems.find? row.id = none) (constraintFailed "work_items.id")
  return s.withItem row

/-- `INSERT INTO executor_attempts`. -/
def Store.insertAttempt (s : Store) (row : ExecutorAttemptRow) : Except GoError Store := do
  require (s.executorAttempts.find? row.id = none) (constraintFailed "executor_attempts.id")
  require (∀ a ∈ s.executorAttempts.rows, a.idempotencyKey ≠ row.idempotencyKey)
    (constraintFailed "executor_attempts.idempotency_key")
  require (∀ a ∈ s.executorAttempts.rows,
      ¬ (a.workItemID = row.workItemID ∧ a.attemptNumber = row.attemptNumber))
    (constraintFailed "executor_attempts.work_item_id, executor_attempts.attempt_number")
  return s.withAttempt row

/-- `INSERT INTO serialization_leases`. -/
def Store.insertLease (s : Store) (row : LeaseRow) : Except GoError Store := do
  require (s.leases.find? row.serializationKey = none)
    (constraintFailed "serialization_leases.serialization_key")
  require (∀ l ∈ s.leases.rows, l.workItemID ≠ row.workItemID)
    (constraintFailed "serialization_leases.work_item_id")
  require (∀ l ∈ s.leases.rows, l.attemptID ≠ row.attemptID)
    (constraintFailed "serialization_leases.attempt_id")
  return s.withLease row

/-- `INSERT INTO work_events`. The driver refuses a sequence with its high bit set. -/
def Store.insertEvent (s : Store) (row : WorkEventRow) : Except GoError Store := do
  require (row.event.transportSequence.toNat < 2 ^ 63) (highBitSet "7")
  require (s.workEvents.find? row.id = none) (constraintFailed "work_events.id")
  require (∀ r ∈ s.workEvents.rows, ¬ (r.event.source = row.event.source ∧
      r.event.nameSpace = row.event.nameSpace ∧
      r.event.sourceDeliveryID = row.event.sourceDeliveryID))
    (constraintFailed "work_events.source, work_events.namespace, work_events.source_delivery_id")
  require (∀ r ∈ s.workEvents.rows, ¬ (r.event.transportStream = row.event.transportStream ∧
      r.event.transportSequence = row.event.transportSequence))
    (constraintFailed "work_events.transport_stream, work_events.transport_sequence")
  return s.withEvent row

/-! ## Routes -/

/-- `retired_at = now`. -/
def RouteSnapshotRow.retire (now : Int) (r : RouteSnapshotRow) : RouteSnapshotRow :=
  { r with retiredAt := some (unixMilli now) }

@[simp] theorem RouteSnapshotRow.id_retire (now : Int) (r : RouteSnapshotRow) :
    (r.retire now).id = r.id := rfl

/-- `UPDATE route_snapshots SET retired_at=? WHERE p AND retired_at IS NULL`, with
`CHECK(retired_at IS NULL OR retired_at>=activated_at)`. -/
def Store.retireSnapshots (s : Store) (p : RouteSnapshotRow → Bool) (now : Int) :
    Except GoError Store := do
  require (∀ r ∈ s.routeSnapshots.rows, p r = true ∧ r.retiredAt = none →
      r.activatedAt ≤ unixMilli now)
    (constraintFailed "retired_at IS NULL OR retired_at>=activated_at")
  return s.updateSnapshots (fun r => p r && decide (r.retiredAt = none))
    (RouteSnapshotRow.retire now) (RouteSnapshotRow.id_retire now)

/-- The row of a new activation. -/
def newSnapshot (definition : RouteDefinition) (executor : ExecutorDescriptor)
    (digest : GoString) (token : Token) (now : Int) : RouteSnapshotRow where
  id := newID "route" token
  routeID := definition.id
  schemaVersion := definition.schemaVersion
  semanticVersion := definition.semanticVersion
  digest := digest
  executorID := executor.id
  executorKind := executor.kind
  executorVersion := executor.version
  definition := definition.decoded
  activatedAt := unixMilli now

/-- The active snapshot of a route under a digest. -/
def Store.activeUnder (s : Store) (routeID digest : GoString) : Option RouteSnapshotRow :=
  s.routeSnapshots.rows.find? fun r =>
    decide (r.routeID = routeID) && decide (r.digest = digest) && decide (r.retiredAt = none)

/-- Retire what is active for the route, and store the new snapshot. -/
def replaceSnapshot (row : RouteSnapshotRow) (now : Int) (s : Store) : Except GoError Store := do
  let s ← s.retireSnapshots (fun r => r.routeID = row.routeID) now
  require (s.routeSnapshots.find? row.id = none) (constraintFailed "route_snapshots.id")
  return s.withSnapshot row

/-- `fmt.Errorf("save route snapshot: %w", err)`. -/
def saveRouteError (err : GoError) : GoError :=
  { err with text := lit "save route snapshot: " ++ err.text }

/-- `saveRoute`. -/
def saveRoute (lib : LedgerLib) (definition : RouteDefinition) (executor : ExecutorDescriptor)
    (token : Token) (now : Int) (s : Store) : Except GoError (RouteSnapshot × Store) := do
  definition.validate lib
  require (definition.executorID = executor.id)
    (newError "route executor does not match descriptor")
  executor.validate lib
  let digest ← activationDigest lib definition executor
  match s.activeUnder definition.id digest with
  | some existing => return (existing.scan definition, s)
  | none =>
    let row := newSnapshot definition executor digest token now
    let s ← (replaceSnapshot row now s).mapError saveRouteError
    return ({ row.scan definition with activatedAt := now }, s)

/-- `ActivateRoute`. -/
def activateRoute (lib : LedgerLib) (definition : RouteDefinition) (registry : Option Registry)
    (token : Token) (now : Int) (s : Store) : Except GoError (RouteSnapshot × Store) := do
  match registry with
  | none => .error (newError "executor registry is required")
  | some registry =>
    let executor ← registry.resolve lib definition.executorID
    saveRoute lib definition executor token now s

/-- `RetireRoute`. -/
def retireRoute (snapshotID : GoString) (now : Int) (s : Store) : Except GoError Store := do
  let s' ← s.retireSnapshots (fun r => r.id = snapshotID) now
  require (s.routeSnapshots.hits snapshotID (fun r => r.retiredAt = none) = true)
    (newError "active route snapshot not found")
  return s'

/-- `loadDefinition`: `DecodeRouteDefinition` validates what it decodes. -/
def Store.loadDefinition (lib : LedgerLib) (s : Store) (id : GoString) :
    Except GoError RouteDefinition := do
  let row ← selectRow (s.routeSnapshots.find? id)
  row.definition.validate lib
  return row.definition

/-- `ORDER BY route_id, id`. -/
def RouteSnapshotRow.listedBefore (a b : RouteSnapshotRow) : Prop :=
  a.routeID < b.routeID ∨ (a.routeID = b.routeID ∧ a.id ≤ b.id)

instance : DecidableRel RouteSnapshotRow.listedBefore := fun a b =>
  inferInstanceAs (Decidable (a.routeID < b.routeID ∨ (a.routeID = b.routeID ∧ a.id ≤ b.id)))

/-- The active snapshots, as `MatchRoute` lists them. -/
def Store.activeRoutes (s : Store) : List RouteSnapshotRow :=
  (s.routeSnapshots.rows.filter fun r => r.retiredAt = none).insertionSort
    RouteSnapshotRow.listedBefore

/-- The loop of `MatchRoute`: the snapshots whose policy accepts the event. -/
def matchingRoutes (lib : LedgerLib) (e : Event) :
    List RouteSnapshotRow → Except GoError (List RouteSnapshot)
  | [] => .ok []
  | row :: rows =>
    match row.definition.validate lib with
    | .error err => .error ⟨lit "decode active route " ++ lib.quote row.routeID ++ lit ": " ++
        err.text, err.broker⟩
    | .ok () => do
      let found ← matchingRoutes lib e rows
      return if row.definition.admission.matches e then row.scan row.definition :: found
        else found

/-- `MatchRoute`. -/
def matchRoute (lib : LedgerLib) (e : Event) (s : Store) : Except GoError RouteSnapshot := do
  match ← matchingRoutes lib e s.activeRoutes with
  | [] => .error (newError "no active route matches event")
  | [snapshot] => return snapshot
  | found => .error ⟨lit "ambiguous active routes match event: " ++
      GoString.decimal found.length, none⟩

/-! ## Admission -/

/-- The recorded delivery with the source, namespace and delivery id of an event. -/
def Store.recordedDelivery (s : Store) (e : Event) : Option WorkEventRow :=
  s.workEvents.rows.find? fun r =>
    decide (r.event.source = e.source) && decide (r.event.nameSpace = e.nameSpace) &&
      decide (r.event.sourceDeliveryID = e.sourceDeliveryID)

/-- `DeliveryRecorded`. -/
def deliveryRecorded (lib : LedgerLib) (e : Event) (s : Store) : Except GoError Bool :=
  match s.recordedDelivery e with
  | none => .ok false
  | some row => do
    require (row.eventDigest = e.digest lib)
      (newError "source delivery id conflicts with different event content")
    return true

/-- The checks of `admit` that come before it looks for the delivery: binding, route, fields
and expiry. They return the definition of the snapshot. -/
def checkAdmission (lib : LedgerLib) (snapshotID : GoString) (e : Event) (binding : AgentBinding)
    (now : Int) (s : Store) : Except GoError RouteDefinition := do
  binding.rejectAdmissionSelection
  binding.admissionBinding.validate
  let snapshot ← selectRow (s.routeSnapshots.find? snapshotID)
  let definition ← s.loadDefinition lib snapshotID
  require (snapshot.retiredAt = none ∧ definition.admission.matches e = true)
    (newError "event is not admitted by active route snapshot")
  require (e.sourceDeliveryID ≠ [] ∧ e.transportStream ≠ [] ∧ e.transportSequence ≠ 0 ∧
      e.nameSpace ≠ [] ∧ e.objectID ≠ [] ∧ e.sourceRevision ≠ [] ∧ e.payloadDigest ≠ [] ∧
      e.evidenceRef ≠ [])
    (newError "event requires delivery, transport, namespace, object, and revision identity")
  require (0 ≤ e.hopCount ∧ ∀ t ∈ e.expiresAt, now < t)
    (newError "event is expired or has an invalid hop count")
  return definition

/-- The answer to a delivery that is recorded. -/
def duplicateAdmission (lib : LedgerLib) (e : Event) (operation : Option ReleaseOperation)
    (row : WorkEventRow) (s : Store) : Except GoError AdmissionResult := do
  require (row.eventDigest = e.digest lib)
    (newError "source delivery id conflicts with different event content")
  require (∀ o ∈ operation,
      (s.releaseOperations.find? row.workItemID).map ReleaseOperationRow.operation = some o)
    (newError "duplicate delivery conflicts with durable release operation")
  let item ← selectRow (s.workItems.find? row.workItemID)
  return ⟨item.scan, row.id, true⟩

/-- The newest item of a snapshot for an object and a revision. -/
def Store.matchedItem (s : Store) (snapshotID : GoString) (e : Event) (tie : Nat) :
    Option WorkItemRow :=
  pick (fun a b => decide (b.createdAt ≤ a.createdAt))
    (s.workItems.rows.filter fun r =>
      decide (r.routeSnapshotID = snapshotID) &&
        decide (r.semanticObjectKey = e.semanticObjectKey) &&
        decide (r.sourceRevision = e.sourceRevision)) tie

/-- The row of new work. -/
def newItem (snapshotID : GoString) (definition : RouteDefinition) (e : Event)
    (binding : AgentBinding) (token : Token) (now : Int) : WorkItemRow where
  id := newID "work" token
  routeSnapshotID := snapshotID
  routeID := definition.id
  semanticObjectKey := e.semanticObjectKey
  source := e.source
  nameSpace := e.nameSpace
  objectKind := e.objectKind
  objectID := e.objectID
  sourceRevision := e.sourceRevision
  serializationKey := serializationKey definition e
  taskEvidenceDigest := e.payloadDigest
  agentType := binding.agentType
  agentMode := binding.mode
  typeContractRevision := binding.typeContractRevision
  state := .admitted
  createdAt := unixMilli now
  updatedAt := unixMilli now
  nextAttemptAt := some (unixMilli now)

/-- `state IN ('running','recoverable','retry_scheduled')`. -/
def ExecutorAttemptRow.unsettled (a : ExecutorAttemptRow) : Bool :=
  a.state = .running || a.state = .recoverable || a.state = .retryScheduled

/-- `state='superseded', completed_at=now`. -/
def ExecutorAttemptRow.supersede (now : Int) (a : ExecutorAttemptRow) : ExecutorAttemptRow :=
  { a with state := .superseded, completedAt := some (unixMilli now) }

@[simp] theorem ExecutorAttemptRow.id_supersede (now : Int) (a : ExecutorAttemptRow) :
    (a.supersede now).id = a.id := rfl

/-- The `UPDATE` of an item that newer work replaces. -/
def WorkItemRow.supersede (successor : GoString) (now : Int) (r : WorkItemRow) : WorkItemRow :=
  { r with
    state := .superseded
    stateVersion := r.stateVersion + 1
    supersededByID := some successor
    updatedAt := unixMilli now
    terminalAt := some (unixMilli now)
    nextAttemptAt := none }

@[simp] theorem WorkItemRow.id_supersede (successor : GoString) (now : Int) (r : WorkItemRow) :
    (r.supersede successor now).id = r.id := rfl

/-- The open items of a route and an object other than the new one. -/
def WorkItemRow.replacedBy (item : WorkItemRow) (r : WorkItemRow) : Bool :=
  decide (r.routeID = item.routeID) && decide (r.semanticObjectKey = item.semanticObjectKey) &&
    decide (r.id ≠ item.id) && r.state.isOpen

/-- The subquery `work_item_id IN (SELECT id FROM work_items WHERE p)`. -/
def Store.isItem (s : Store) (p : WorkItemRow → Bool) (id : GoString) : Bool :=
  s.workItems.hits id p

/-- The three statements that supersede the work a new item replaces. -/
def Store.supersedeOthers (s : Store) (item : WorkItemRow) (now : Int) : Store :=
  let attempts := s.updateAttempts
    (fun a => a.unsettled && s.isItem item.replacedBy a.workItemID)
    (ExecutorAttemptRow.supersede now) (ExecutorAttemptRow.id_supersede now)
  let leases := attempts.deleteLeases (fun l => s.isItem item.replacedBy l.workItemID)
  leases.updateItems item.replacedBy (WorkItemRow.supersede item.id now)
    (WorkItemRow.id_supersede item.id now)

/-- New work, and what it supersedes. -/
def admitNew (definition : RouteDefinition) (row : WorkItemRow) (now : Int) (s : Store) :
    Except GoError Store := do
  let s ← s.insertItem row
  return if definition.concurrency.supersede then s.supersedeOthers row now else s

/-- The item an event belongs to: the matched one, or new work. -/
def admitItem (snapshotID : GoString) (definition : RouteDefinition) (e : Event)
    (binding : AgentBinding) (tie : Nat) (token : Token) (now : Int) (s : Store) :
    Except GoError (WorkItem × Store) :=
  match s.matchedItem snapshotID e tie with
  | some row => .ok (row.scan, s)
  | none => do
    let row := newItem snapshotID definition e binding token now
    let s ← admitNew definition row now s
    return ({ row.scan with createdAt := now, updatedAt := now, nextAttemptAt := none }, s)

/-- `INSERT INTO release_operations … ON CONFLICT DO NOTHING`, and the check of what is stored. -/
def attachOperation (itemID : GoString) (operation : Option ReleaseOperation) (s : Store) :
    Except GoError Store :=
  match operation with
  | none => .ok s
  | some o => do
    let s := s.withOperation ⟨itemID, o⟩
    require ((s.releaseOperations.find? itemID).map ReleaseOperationRow.operation = some o)
      (newError "work item conflicts with durable release operation")
    return s

/-- `admit`. -/
def admitEvent (lib : LedgerLib) (snapshotID : GoString) (e : Event)
    (operation : Option ReleaseOperation) (binding : AgentBinding) (tie : Nat)
    (workToken eventToken : Token) (now : Int) (s : Store) :
    Except GoError (AdmissionResult × Store) := do
  let definition ← checkAdmission lib snapshotID e binding now s
  match s.recordedDelivery e with
  | some row =>
    let result ← duplicateAdmission lib e operation row s
    return (result, s)
  | none =>
    let (item, s) ← admitItem snapshotID definition e binding.admissionBinding tie workToken now s
    let s ← attachOperation item.id operation s
    let eventID := newID "event" eventToken
    let s ← s.insertEvent ⟨eventID, item.id, e, e.digest lib, unixMilli now⟩
    return (⟨item, eventID, false⟩, s)

/-- `AdmitWithAgent`; `Admit` passes the zero binding. -/
def admitWithAgent (lib : LedgerLib) (snapshotID : GoString) (e : Event) (binding : AgentBinding)
    (tie : Nat) (workToken eventToken : Token) (now : Int) (s : Store) :
    Except GoError (AdmissionResult × Store) :=
  admitEvent lib snapshotID e none binding tie workToken eventToken now s

/-- `AdmitRelease`. -/
def admitRelease (lib : LedgerLib) (snapshotID : GoString) (e : Event)
    (operation : ReleaseOperation) (tie : Nat) (workToken eventToken : Token) (now : Int)
    (s : Store) : Except GoError (AdmissionResult × Store) := do
  operation.validate lib
  admitEvent lib snapshotID e (some operation) {} tie workToken eventToken now s

/-! ## Other records -/

/-- `DO UPDATE`: the row of a delivery keeps its digest. -/
def IngressFailureRow.refresh (classification : GoString) (attempts now : Int)
    (r : IngressFailureRow) : IngressFailureRow :=
  { r with attempts := attempts, classification := classification, recordedAt := unixMilli now }

@[simp] theorem IngressFailureRow.key_refresh (classification : GoString) (attempts now : Int)
    (r : IngressFailureRow) : (r.refresh classification attempts now).key = r.key := rfl

/-- `RecordIngressFailure`. -/
def recordIngressFailure (lib : LedgerLib) (e : Event) (classification : GoString)
    (attempts now : Int) (s : Store) : Except GoError Store := do
  require (1 ≤ attempts ∧ classification ≠ [] ∧ classification.length ≤ 80)
    (newError "invalid bounded ingress failure")
  let row : IngressFailureRow := ⟨e.source, e.nameSpace, e.sourceDeliveryID, e.digest lib,
    classification, attempts, unixMilli now⟩
  let failures := s.ingressFailures.insert row
  return { s with
    ingressFailures := failures.updateKey row.key (fun _ => true)
      (IngressFailureRow.refresh classification attempts now)
      (IngressFailureRow.key_refresh classification attempts now) }

/-- `ReleaseOperation`. -/
def Store.releaseOperation (s : Store) (itemID : GoString) : Except GoError ReleaseOperation := do
  let row ← selectRow (s.releaseOperations.find? itemID)
  return row.operation

/-- `ContentResult`: the correlation and the digest, if there is a row. -/
def Store.contentResult (s : Store) (digest : GoString) : Option (GoString × GoString) :=
  (s.contentResults.find? digest).map fun row => (row.externalCorrelation, row.resultDigest)

/-- `RecordContentResult`. -/
def recordContentResult (digest external result : GoString) (now : Int) (s : Store) :
    Except GoError Store := do
  let results := s.contentResults.insert ⟨digest, external, result, unixMilli now⟩
  let row ← selectRow (results.find? digest)
  require (row.externalCorrelation = external ∧ row.resultDigest = result)
    (newError "content digest already has a conflicting durable result")
  return { s with contentResults := results }

/-! ## Claims -/

/-- Whether the wait deadline of a waiting item has passed. -/
def WorkItemRow.waitExpired (now : Int) (r : WorkItemRow) : Bool :=
  decide (r.state = .waiting) && r.waitDeadlineAt.any (fun d => decide (d ≤ unixMilli now))

/-- The `UPDATE` of an item whose deadline has passed. -/
def WorkItemRow.expire (now : Int) (r : WorkItemRow) : WorkItemRow :=
  { r with
    state := .failed
    stateVersion := r.stateVersion + 1
    terminalAt := some (unixMilli now)
    nextAttemptAt := none
    updatedAt := unixMilli now }

@[simp] theorem WorkItemRow.id_expire (now : Int) (r : WorkItemRow) :
    (r.expire now).id = r.id := rfl

/-- The first statement of `Claim`. -/
def Store.expireWaits (s : Store) (now : Int) : Store :=
  s.updateItems (WorkItemRow.waitExpired now) (WorkItemRow.expire now) (WorkItemRow.id_expire now)

/-- Whether `Claim` may take an item: ready, due, and its key not leased. -/
def Store.claimable (s : Store) (now : Int) (r : WorkItemRow) : Bool :=
  r.state.isReady && r.nextAttemptAt.any (fun t => decide (t ≤ unixMilli now)) &&
    (s.leases.find? r.serializationKey).isNone

/-- `ORDER BY next_attempt_at, created_at`. -/
def WorkItemRow.dueBefore (a b : WorkItemRow) : Bool :=
  match a.nextAttemptAt, b.nextAttemptAt with
  | some x, some y => decide (x < y) || (decide (x = y) && decide (a.createdAt ≤ b.createdAt))
  | none, _ => true
  | some _, none => false

/-- The item `Claim` selects. -/
def Store.nextDue (s : Store) (tie : Nat) (now : Int) : Option WorkItemRow :=
  pick WorkItemRow.dueBefore (s.workItems.rows.filter (s.claimable now)) tie

/-- The recoverable attempt with the highest number; numbers of an item are unique. -/
def Store.recoverableAttempt (s : Store) (itemID : GoString) : Option ExecutorAttemptRow :=
  pick (fun a b => decide (b.attemptNumber ≤ a.attemptNumber))
    (s.executorAttempts.rows.filter fun a =>
      decide (a.workItemID = itemID) && decide (a.state = .recoverable)) 0

/-- The `UPDATE` of an item that is claimed. -/
def WorkItemRow.activate (now : Int) (r : WorkItemRow) : WorkItemRow :=
  { r with
    state := .active
    stateVersion := r.stateVersion + 1
    updatedAt := unixMilli now
    nextAttemptAt := none }

@[simp] theorem WorkItemRow.id_activate (now : Int) (r : WorkItemRow) :
    (r.activate now).id = r.id := rfl

/-- The `UPDATE` of a recoverable attempt that is claimed again. -/
def ExecutorAttemptRow.restart (now : Int) (a : ExecutorAttemptRow) : ExecutorAttemptRow :=
  { a with state := .running, startedAt := unixMilli now, completedAt := none }

@[simp] theorem ExecutorAttemptRow.id_restart (now : Int) (a : ExecutorAttemptRow) :
    (a.restart now).id = a.id := rfl

/-- The item a claim returns: the selected one with the columns it has just written. -/
def WorkItemRow.claimedItem (now : Int) (r : WorkItemRow) : WorkItem :=
  { r.scan with
    state := .active, stateVersion := r.stateVersion + 1, updatedAt := now, nextAttemptAt := none }

/-- A claim that takes up an interrupted attempt. Its last `UPDATE` looks for a waiting item
only. -/
def reclaim (row : WorkItemRow) (attempt : ExecutorAttemptRow) (now : Int) (s : Store) :
    Except GoError ((WorkItem × ExecutorAttempt) × Store) := do
  let s := s.updateAttempts
    (fun a => decide (a.id = attempt.id) && decide (a.state = .recoverable))
    (ExecutorAttemptRow.restart now) (ExecutorAttemptRow.id_restart now)
  let s ← s.insertLease ⟨row.serializationKey, row.id, attempt.id, unixMilli now⟩
  let s := s.updateItems (fun r => decide (r.id = row.id) && decide (r.state = .waiting))
    (WorkItemRow.activate now) (WorkItemRow.id_activate now)
  return ((row.claimedItem now, { attempt.scan with state := .running }), s)

/-- `fmt.Sprintf("executor:%s:%s:%d", …)`. -/
def executorKey (itemID snapshotDigest : GoString) (number : Nat) : GoString :=
  lit "executor:" ++ itemID ++ lit ":" ++ snapshotDigest ++ lit ":" ++ GoString.decimal number

/-- `strings.TrimPrefix(contentDigest, "sha256:")`. -/
def trimSHA256 (digest : GoString) : GoString :=
  if digest.take 7 = lit "sha256:" then digest.drop 7 else digest

/-- The row of a first or a further attempt. -/
def newAttempt (row : WorkItemRow) (snapshot : RouteSnapshotRow) (number : Nat)
    (operation : Option ReleaseOperationRow) (token : Token) (now : Int) :
    ExecutorAttemptRow where
  id := newID "attempt" token
  workItemID := row.id
  attemptNumber := number
  executorID := snapshot.executorID
  executorKind := snapshot.executorKind
  executorVersion := snapshot.executorVersion
  idempotencyKey := executorKey row.id snapshot.digest number
  operationIdempotencyKey := match operation with
    | some o => lit "signal-plane:resume:v1:" ++ trimSHA256 o.operation.computedDigest
    | none => []
  requestedOperationDigest := match operation with
    | some o => o.operation.computedDigest
    | none => snapshot.digest
  state := .running
  createdAt := unixMilli now
  startedAt := unixMilli now

/-- The attempts of an item, in the order in which they were created. -/
def Store.attemptsOf (s : Store) (itemID : GoString) : List ExecutorAttemptRow :=
  s.executorAttempts.rows.filter fun a => decide (a.workItemID = itemID)

/-- A claim that starts the next attempt. -/
def startAttempt (row : WorkItemRow) (token : Token) (now : Int) (s : Store) :
    Except GoError ((WorkItem × ExecutorAttempt) × Store) := do
  let snapshot ← selectRow (s.routeSnapshots.find? row.routeSnapshotID)
  let attempt := newAttempt row snapshot ((s.attemptsOf row.id).length + 1)
    (s.releaseOperations.find? row.id) token now
  let s ← s.insertAttempt attempt
  let s ← s.insertLease ⟨row.serializationKey, row.id, attempt.id, unixMilli now⟩
  let s := s.updateItems (fun r => decide (r.id = row.id) && r.state.isReady)
    (WorkItemRow.activate now) (WorkItemRow.id_activate now)
  return ((row.claimedItem now, { attempt.scan with createdAt := now }), s)

/-- The attempt a claim works on: the recoverable one, or the next. -/
def claimItem (row : WorkItemRow) (token : Token) (now : Int) (s : Store) :
    Except GoError ((WorkItem × ExecutorAttempt) × Store) :=
  match s.recoverableAttempt row.id with
  | some attempt => reclaim row attempt now s
  | none => startAttempt row token now s

/-- `Claim`; `none` is the answer `false`. -/
def claim (tie : Nat) (token : Token) (now : Int) (s : Store) :
    Except GoError (Option (WorkItem × ExecutorAttempt) × Store) := do
  let s := s.expireWaits now
  match s.nextDue tie now with
  | none => return (none, s)
  | some row =>
    let (claimed, s) ← claimItem row token now s
    return (some claimed, s)

/-! ## Completion -/

/-- What `Complete` writes for an outcome. `deadlineAt` is written for a waiting outcome only. -/
structure Settlement where
  attemptState : AttemptState
  state : WorkState
  terminalAt : Option Int
  nextAttemptAt : Option Int
  deadlineAt : Option Int := none
  deriving DecidableEq, Repr

/-- The `switch` of `Complete`. The delays are indexed by the number of the attempt. -/
def settle (lib : LedgerLib) (retry : RetryPolicy) (attemptNumber : Nat)
    (result : ExecutorResult) (now : Int) : Except GoError Settlement :=
  match result.outcome with
  | .completed => .ok ⟨.succeeded, .completed, some (unixMilli now), none, none⟩
  | .permanentFailure => .ok ⟨.failed, .failed, some (unixMilli now), none, none⟩
  | .retryableFailure =>
    if retry.maxAttempts ≤ attemptNumber then
      .ok ⟨.failed, .deadLetter, some (unixMilli now), none, none⟩
    else match retry.backoff[attemptNumber - 1]? with
      | some delay => .ok ⟨.retryScheduled, .waiting, none, some (unixMilli (now + delay)), none⟩
      | none => .error (newError "runtime error: index out of range")
  | .waiting => do
    let next := result.nextAttemptAt.getD (now + durablePollInterval)
    let deadline := result.deadlineAt.getD (now + durableWaitDeadline)
    require (now < next ∧ next < deadline)
      (newError "waiting result requires future schedule and deadline")
    return ⟨.retryScheduled, .waiting, none, some (unixMilli next), some (unixMilli deadline)⟩
  | .other word => .error ⟨lit "unsupported executor outcome " ++ lib.quote word, none⟩

/-- The `UPDATE` of a finished attempt. -/
def ExecutorAttemptRow.settle (settlement : Settlement) (result : ExecutorResult) (now : Int)
    (a : ExecutorAttemptRow) : ExecutorAttemptRow :=
  { a with
    state := settlement.attemptState
    retryClassification := result.retryClassification
    externalCorrelation := result.externalCorrelation
    resultDigest := result.resultDigest
    sanitizedError := result.sanitizedError
    completedAt := some (unixMilli now) }

@[simp] theorem ExecutorAttemptRow.id_settle (settlement : Settlement) (result : ExecutorResult)
    (now : Int) (a : ExecutorAttemptRow) : (a.settle settlement result now).id = a.id := rfl

/-- The `UPDATE` of an item whose attempt has finished: the wait deadline is only ever set
once. -/
def WorkItemRow.settle (settlement : Settlement) (result : ExecutorResult) (now : Int)
    (r : WorkItemRow) : WorkItemRow :=
  { r with
    state := settlement.state
    stateVersion := r.stateVersion + 1
    latestExecutorCorrelation := result.externalCorrelation
    updatedAt := unixMilli now
    terminalAt := settlement.terminalAt
    nextAttemptAt := settlement.nextAttemptAt
    waitDeadlineAt :=
      if result.outcome = .waiting then r.waitDeadlineAt.or settlement.deadlineAt
      else r.waitDeadlineAt }

@[simp] theorem WorkItemRow.id_settle (settlement : Settlement) (result : ExecutorResult)
    (now : Int) (r : WorkItemRow) : (r.settle settlement result now).id = r.id := rfl

/-- `Complete`. -/
def complete (lib : LedgerLib) (attemptID : GoString) (result : ExecutorResult) (now : Int)
    (s : Store) : Except GoError Store := do
  let attempt ← selectRow (s.executorAttempts.find? attemptID)
  require (attempt.state = .running) (newError "attempt is not running")
  let item ← selectRow (s.workItems.find? attempt.workItemID)
  if item.state = .superseded then
    return (s.updateAttempts (fun a => decide (a.id = attemptID))
      (ExecutorAttemptRow.supersede now) (ExecutorAttemptRow.id_supersede now)).deleteLeases
        (fun l => decide (l.attemptID = attemptID))
  else
    require (item.state = .active) (newError "work item is not active")
    let definition ← s.loadDefinition lib item.routeSnapshotID
    let settlement ← settle lib definition.retry attempt.attemptNumber result now
    let s := s.updateAttempts (fun a => decide (a.id = attemptID))
      (ExecutorAttemptRow.settle settlement result now)
      (ExecutorAttemptRow.id_settle settlement result now)
    let s := s.updateItems (fun r => decide (r.id = item.id) && decide (r.state = .active))
      (WorkItemRow.settle settlement result now) (WorkItemRow.id_settle settlement result now)
    return s.deleteLeases (fun l => decide (l.attemptID = attemptID))

/-! ## Waking and recovery -/

/-- The `UPDATE` of an item that is woken. -/
def WorkItemRow.wake (now : Int) (r : WorkItemRow) : WorkItemRow :=
  { r with
    nextAttemptAt := some (unixMilli now)
    updatedAt := unixMilli now
    stateVersion := r.stateVersion + 1 }

@[simp] theorem WorkItemRow.id_wake (now : Int) (r : WorkItemRow) :
    (r.wake now).id = r.id := rfl

/-- A waiting item without a schedule. -/
def WorkItemRow.dormant (r : WorkItemRow) : Bool :=
  decide (r.state = .waiting) && r.nextAttemptAt.isNone

/-- `WakeWaiting`. -/
def wakeWaiting (itemID : GoString) (now : Int) (s : Store) : Except GoError Store := do
  require (s.workItems.hits itemID WorkItemRow.dormant = true)
    (newError "work item is not waiting for an external wakeup")
  return s.updateItems (fun r => decide (r.id = itemID) && r.dormant)
    (WorkItemRow.wake now) (WorkItemRow.id_wake now)

/-- The `UPDATE` of an attempt whose completion is unknown. -/
def ExecutorAttemptRow.interrupt (a : ExecutorAttemptRow) : ExecutorAttemptRow :=
  { a with
    state := .recoverable
    sanitizedError :=
      lit "executor completion is ambiguous; reclaim with the same idempotency key" }

@[simp] theorem ExecutorAttemptRow.id_interrupt (a : ExecutorAttemptRow) :
    a.interrupt.id = a.id := rfl

/-- The `UPDATE` of an item whose attempt was interrupted. -/
def WorkItemRow.requeue (now : Int) (r : WorkItemRow) : WorkItemRow :=
  { r with
    state := .waiting
    stateVersion := r.stateVersion + 1
    nextAttemptAt := some (unixMilli now)
    updatedAt := unixMilli now }

@[simp] theorem WorkItemRow.id_requeue (now : Int) (r : WorkItemRow) :
    (r.requeue now).id = r.id := rfl

/-- `RecoverInterrupted`. -/
def recoverInterrupted (now : Int) (s : Store) : Nat × Store :=
  let superseded := s.updateAttempts
    (fun a => a.unsettled && s.isItem (fun r => r.state = .superseded) a.workItemID)
    (ExecutorAttemptRow.supersede now) (ExecutorAttemptRow.id_supersede now)
  let interrupted := superseded.updateAttempts
    (fun a => decide (a.state = .running) && s.isItem (fun r => r.state = .active) a.workItemID)
    ExecutorAttemptRow.interrupt ExecutorAttemptRow.id_interrupt
  let requeued := interrupted.updateItems (fun r => r.state = .active)
    (WorkItemRow.requeue now) (WorkItemRow.id_requeue now)
  ((s.workItems.rows.filter fun r => r.state = .active).length, requeued.deleteLeases fun _ => true)

/-! ## What the broker resolves -/

/-- The `UPDATE` of a resolved release. -/
def WorkItemRow.resolve (generation : Int) (digest brokerRunID : GoString) (now : Int)
    (r : WorkItemRow) : WorkItemRow :=
  { r with
    resolvedReleaseGeneration := generation
    resolvedReleaseDigest := digest
    brokerRunID := brokerRunID
    stateVersion := r.stateVersion + 1
    updatedAt := unixMilli now }

@[simp] theorem WorkItemRow.id_resolve (generation : Int) (digest brokerRunID : GoString)
    (now : Int) (r : WorkItemRow) : (r.resolve generation digest brokerRunID now).id = r.id := rfl

/-- `ResolveRelease`. -/
def resolveRelease (itemID : GoString) (generation : Int) (digest brokerRunID : GoString)
    (now : Int) (s : Store) : Except GoError Store := do
  require (0 < generation) (newError "resolved release generation must be positive")
  require (imageDigestFormat digest = true)
    (newError "resolved release digest must be a sha256 image digest")
  require (brokerRunID ≠ [] ∧ brokerRunID.length ≤ 256)
    (newError "broker run id is required and bounded")
  let prior ← selectRow (s.workItems.find? itemID)
  if prior.resolvedReleaseGeneration = generation then
    require (prior.resolvedReleaseDigest = digest)
      (newError "resolved generation already bound to a different digest")
    require (prior.brokerRunID = [] ∨ prior.brokerRunID = brokerRunID)
      (newError "resolved generation already bound to a different broker run")
  else
    require (prior.resolvedReleaseGeneration ≤ generation)
      (newError "resolved release generation is not monotonic")
  return s.updateItems (fun r => decide (r.id = itemID))
    (WorkItemRow.resolve generation digest brokerRunID now)
    (WorkItemRow.id_resolve generation digest brokerRunID now)

/-- The `UPDATE` of a correlated pull request. -/
def WorkItemRow.correlate (repository : GoString) (number now : Int) (r : WorkItemRow) :
    WorkItemRow :=
  { r with
    authoritativePRRepository := repository
    authoritativePRNumber := number
    stateVersion := r.stateVersion + 1
    updatedAt := unixMilli now }

@[simp] theorem WorkItemRow.id_correlate (repository : GoString) (number now : Int)
    (r : WorkItemRow) : (r.correlate repository number now).id = r.id := rfl

/-- `RecordAuthoritativePRCorrelation`. -/
def recordAuthoritativePRCorrelation (itemID repository : GoString) (number now : Int)
    (s : Store) : Except GoError Store := do
  require (repoFormat repository = true ∧ repository.length ≤ 256)
    (newError "authoritative PR repository must be owner/name")
  require (0 < number) (newError "authoritative PR number must be positive")
  let prior ← selectRow (s.workItems.find? itemID)
  require (prior.authoritativePRRepository = [] ∨
      (prior.authoritativePRRepository = repository ∧ prior.authoritativePRNumber = number))
    (newError "work item already correlated to a different pull request")
  return s.updateItems (fun r => decide (r.id = itemID))
    (WorkItemRow.correlate repository number now) (WorkItemRow.id_correlate repository number now)

end SignalPlane.Workledger
