/-
SignalPlane.Workledger.Adapter — from a published signal to an event of the
ledger.

`GitHubAdapter.normalize` is the only adapter there is. It refuses a signal
whose authentication the gateway did not vouch for, or that lacks one of the
fields an event is identified by. The delivery is not among them.
-/
import SignalPlane.Envelope
import SignalPlane.Workledger.Model

namespace SignalPlane.Workledger

open Dispatcher (GoError newError require)

/-- The digest of a payload. -/
def payloadDigest (lib : LedgerLib) (payload : GoString) : GoString :=
  lit "sha256:" ++ GoString.hexEncode (lib.sha256 payload)

/-- `GitHubAdapter.Normalize`. -/
def GitHubAdapter.normalize (lib : LedgerLib) (signal : Envelope.Signal) (stream : GoString)
    (sequence : UInt64) : Except GoError Event := do
  require (signal.source = lit "github" ∧ signal.authentication.verified = true ∧
      signal.authentication.method = lit "github_hmac_sha256")
    (newError "verified GitHub HMAC authentication is required")
  require (signal.nameSpace ≠ [] ∧ signal.objectKind ≠ [] ∧ signal.objectID ≠ [] ∧
      signal.sourceRevision ≠ [])
    (newError "GitHub envelope lacks normalized namespace, object, or revision identity")
  require (stream ≠ [] ∧ sequence ≠ 0)
    (newError "transport stream and positive sequence are required")
  return {
    signalID := signal.signalID
    sourceDeliveryID := signal.sourceDeliveryID
    transportStream := stream
    transportSequence := sequence
    source := signal.source
    nameSpace := signal.nameSpace
    objectKind := signal.objectKind
    objectID := signal.objectID
    eventKind := signal.sourceEvent
    action := signal.sourceAction
    actorClass := signal.actorClass
    sourceRevision := signal.sourceRevision
    correlationID := signal.correlationID
    causationID := signal.causationID
    rootWorkItemID := signal.rootWorkItemID
    parentWorkItemID := signal.parentWorkItemID
    originatingSession := signal.originatingSession
    originatingTurn := signal.originatingTurn
    hopCount := signal.hopCount
    expiresAt := signal.expiresAt
    payloadDigest := payloadDigest lib signal.payload
    evidenceRef := lit "jetstream://" ++ stream ++ lit "/" ++ GoString.decimal sequence.toNat
    receivedAt := signal.receivedAt }

/-- `AdapterFor`, and `Normalize` of the adapter it returns. -/
def normalize (lib : LedgerLib) (signal : Envelope.Signal) (stream : GoString)
    (sequence : UInt64) : Except GoError Event := do
  require (signal.source = lit "github")
    ⟨lit "no authenticated adapter registered for source " ++ lib.quote signal.source, none⟩
  GitHubAdapter.normalize lib signal stream sequence

end SignalPlane.Workledger
