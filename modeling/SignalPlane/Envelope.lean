/-
SignalPlane.Envelope — the signals that components exchange.

A signal is what the gateway publishes and every consumer decodes: where it
came from, what it is about, how its sender was authenticated, and the
provider's own payload. The correlation fields are those of a work item that
caused the signal; the gateway leaves them empty. The dispatcher reads a part of
the metadata; `dispatched` is the signal as it sees it.
-/
import SignalPlane.Dispatcher.Model

namespace SignalPlane.Envelope

/-- `envelope.Authentication`. -/
structure Authentication where
  method : GoString
  verified : Bool
  deriving DecidableEq, Repr

/-- `envelope.Meta`. -/
structure Meta where
  signalID : GoString
  source : GoString
  routeID : GoString
  receivedAt : Int
  sourceEvent : GoString
  sourceAction : GoString
  sourceDeliveryID : GoString
  nameSpace : GoString
  objectKind : GoString
  objectID : GoString
  sourceRevision : GoString
  sourceRef : GoString
  sourceBefore : GoString
  sourceAfter : GoString
  sourceHeadTime : Option Int
  sourceTimestamp : Option Int
  actorClass : GoString
  correlationID : GoString := []
  causationID : GoString := []
  rootWorkItemID : GoString := []
  parentWorkItemID : GoString := []
  originatingSession : GoString := []
  originatingTurn : GoString := []
  hopCount : Int := 0
  expiresAt : Option Int := none
  authentication : Authentication
  deriving DecidableEq, Repr

/-- `envelope.Signal`. -/
structure Signal extends Meta where
  payload : GoString
  deriving DecidableEq, Repr

/-- The fields the dispatcher reads. -/
def Signal.dispatched (signal : Signal) : Dispatcher.Signal where
  source := signal.source
  sourceEvent := signal.sourceEvent
  sourceAction := signal.sourceAction
  sourceDeliveryID := signal.sourceDeliveryID
  nameSpace := signal.nameSpace
  objectKind := signal.objectKind
  objectID := signal.objectID
  sourceRevision := signal.sourceRevision
  receivedAt := signal.receivedAt
  verified := signal.authentication.verified
  payload := signal.payload

end SignalPlane.Envelope
