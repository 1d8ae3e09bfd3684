/-
SignalPlane.Resumeupload.Router — the ingress of release webhooks.

`Router.process` is one delivery of a signal: it is decoded, checked to be a
published release of the one repository, looked up in the ledger, completed
with what GitHub says about the release, and admitted under the one active
route that matches. A delivery is settled when it is acknowledged or
terminated; JetStream hands one that is not settled out again, at most five
times. Only a failed hydration leads to `retryOrDeadLetter`.

What the process gets from outside is a `Pass`: the answer of GitHub, the
clock, the tokens `newID` draws, whether acknowledging works, and the calls
others made to the ledger since the last delivery. JSON decoding is a
parameter. `deliverAll` is the whole life of a signal in the stream.
-/
import SignalPlane.Workledger.Adapter
import SignalPlane.Workledger.Run

namespace SignalPlane.Resumeupload

open Workledger
open Dispatcher (GoError newError)

/-- `Repository`. -/
def repository : GoString := lit "grubbyhacker/resume-builder"

/-- `ExecutorID`. -/
def executorID : GoString := lit "youknowme_upload_v1"

/-- The fields `Process` decodes from the payload of a release. -/
structure ReleasePayload where
  repositoryID : Int
  repositoryFullName : GoString
  installationID : Int
  releaseID : Int
  deriving DecidableEq, Repr

/-- What the router takes from Go's standard library. -/
structure ReleaseLib extends LedgerLib where
  unmarshalSignal : GoString → Except GoError Envelope.Signal
  unmarshalRelease : GoString → Option ReleasePayload

/-- What one delivery gets from outside. -/
structure Pass where
  /-- What others did to the ledger since the last delivery. -/
  others : List Op := []
  /-- `Hydrate`: what GitHub says about a release. -/
  hydrate : Int → Int → Int → Except GoError ReleaseOperation
  tie : Nat := 0
  workToken : Token
  eventToken : Token
  now : Int
  ackSync : Except GoError Unit := .ok ()
  term : Except GoError Unit := .ok ()

/-- The result of `Process`, whether the delivery is settled, and the ledger. -/
structure Processed where
  result : Except GoError Unit
  settled : Bool
  store : Store

/-- `_ = delivery.Term(); return err`. -/
def terminate (pass : Pass) (err : GoError) (s : Store) : Processed :=
  ⟨.error err, pass.term.isOk, s⟩

/-- `return delivery.AckSync()`. -/
def acknowledge (pass : Pass) (s : Store) : Processed := ⟨pass.ackSync, pass.ackSync.isOk, s⟩

/-- `return err`: the delivery comes again. -/
def defer (err : GoError) (s : Store) : Processed := ⟨.error err, false, s⟩

/-- An event of the release admission. -/
def isRelease (e : Event) : Bool :=
  decide (e.source = lit "github") && decide (e.nameSpace = repository) &&
    decide (e.objectKind = lit "release") && decide (e.eventKind = lit "release") &&
    decide (e.action = lit "published")

/-- `Router.retryOrDeadLetter`. -/
def retryOrDeadLetter (lib : ReleaseLib) (pass : Pass) (numDelivered : Nat) (e : Event)
    (classification : GoString) (cause : GoError) (s : Store) : Processed :=
  if numDelivered < 5 then defer cause s
  else match recordIngressFailure lib.toLedgerLib e classification numDelivered pass.now s with
    | .error err => defer { err with text := lit "record ingress dead letter: " ++ err.text } s
    | .ok s' => match pass.term with
      | .error err => defer err s'
      | .ok () => ⟨.error cause, true, s'⟩

/-- The end of `Process`: a hydrated release is admitted under the route that matches. -/
def admitHydrated (lib : ReleaseLib) (pass : Pass) (e : Event) (operation : ReleaseOperation)
    (s : Store) : Processed :=
  match matchRoute lib.toLedgerLib e s with
  | .error err => defer err s
  | .ok snapshot =>
    if snapshot.executorID ≠ executorID then
      defer (newError "matched route selected an unsupported executor") s
    else match admitRelease lib.toLedgerLib snapshot.id e operation pass.tie pass.workToken
        pass.eventToken pass.now s with
      | .error err => defer err s
      | .ok (_, s') => acknowledge pass s'

/-- `Process` of a release event that is not recorded yet. -/
def processNew (lib : ReleaseLib) (pass : Pass) (numDelivered : Nat) (e : Event)
    (payload : GoString) (s : Store) : Processed :=
  match (lib.unmarshalRelease payload).filter (fun p =>
      decide (p.repositoryFullName = repository) &&
        decide (e.objectID = GoString.decimal p.releaseID)) with
  | none => terminate pass (newError "release webhook identity is invalid") s
  | some p => match pass.hydrate p.repositoryID p.installationID p.releaseID with
    | .error cause => retryOrDeadLetter lib pass numDelivered e (lit "release_hydration") cause s
    | .ok operation => admitHydrated lib pass e operation s

/-- `Router.Process`, for delivery number `numDelivered` of a message. -/
def process (lib : ReleaseLib) (stream data : GoString) (streamSequence : Except GoError UInt64)
    (numDelivered : Nat) (pass : Pass) (s : Store) : Processed :=
  match lib.unmarshalSignal data with
  | .error err => terminate pass err s
  | .ok signal => match streamSequence with
    | .error err => defer err s
    | .ok sequence => match normalize lib.toLedgerLib signal stream sequence with
      | .error err => terminate pass err s
      | .ok e =>
        if isRelease e = false then
          terminate pass
            (newError "event does not match the exact Resume Builder release admission") s
        else match deliveryRecorded lib.toLedgerLib e s with
          | .error err => defer err s
          | .ok true => acknowledge pass s
          | .ok false => processNew lib pass numDelivered e signal.payload s

/-! ## The life of a message -/

/-- A message of the stream. -/
structure Message where
  stream : GoString
  data : GoString
  sequence : UInt64

/-- `Process` of delivery `n` of a message, after what others did. -/
def Message.deliver (lib : ReleaseLib) (m : Message) (n : Nat) (pass : Pass) (s : Store) :
    Processed :=
  process lib m.stream m.data (.ok m.sequence) n pass (run lib.toLedgerLib pass.others s)

/-- The deliveries of a message, with the ledger each of them finds: one after the other until one
is settled. -/
def Message.passes (lib : ReleaseLib) (m : Message) :
    Nat → List Pass → Store → List (Nat × Pass × Store)
  | _, [], _ => []
  | n, pass :: rest, s =>
    (n, pass, run lib.toLedgerLib pass.others s) ::
      if (m.deliver lib n pass s).settled then []
      else m.passes lib (n + 1) rest (m.deliver lib n pass s).store

/-- The ledger after these deliveries. -/
def Message.deliverAll (lib : ReleaseLib) (m : Message) : Nat → List Pass → Store → Store
  | _, [], s => s
  | n, pass :: rest, s =>
    if (m.deliver lib n pass s).settled then (m.deliver lib n pass s).store
    else m.deliverAll lib (n + 1) rest (m.deliver lib n pass s).store

end SignalPlane.Resumeupload
