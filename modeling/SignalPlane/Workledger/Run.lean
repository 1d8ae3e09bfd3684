/-
SignalPlane.Workledger.Run — runs of the ledger.

An `Op` is one call of an operation that writes, with everything it gets from
outside: its arguments, the clock, the tokens `newID` draws and the database's
choice between equal rows. SQLite runs transactions one after another, so a
run is a list of calls; a call that returns an error leaves the store as it
was. A state is reachable when some list of calls leads to it from the empty
ledger.

The last section is a small ledger for concrete runs: one route, whose
admission accepts the events of one source.
-/
import SignalPlane.Workledger.Store

namespace SignalPlane.Workledger

open Clock
open Dispatcher (GoError)

variable {s : Store} {ok : Store → Op → Prop}

/-! ## Calls and runs -/

/-- One call that writes, with what it gets from outside. -/
inductive Op where
  | activateRoute (definition : RouteDefinition) (registry : Option Registry) (token : Token)
      (now : Int)
  | retireRoute (snapshotID : GoString) (now : Int)
  | admitWithAgent (snapshotID : GoString) (e : Event) (binding : AgentBinding) (tie : Nat)
      (workToken eventToken : Token) (now : Int)
  | admitRelease (snapshotID : GoString) (e : Event) (operation : ReleaseOperation) (tie : Nat)
      (workToken eventToken : Token) (now : Int)
  | recordIngressFailure (e : Event) (classification : GoString) (attempts now : Int)
  | recordContentResult (digest external result : GoString) (now : Int)
  | claim (tie : Nat) (token : Token) (now : Int)
  | complete (attemptID : GoString) (result : ExecutorResult) (now : Int)
  | wakeWaiting (itemID : GoString) (now : Int)
  | recoverInterrupted (now : Int)
  | resolveRelease (itemID : GoString) (generation : Int) (digest brokerRunID : GoString)
      (now : Int)
  | recordAuthoritativePRCorrelation (itemID repository : GoString) (number now : Int)

/-- The store a call commits, or its error. -/
def Op.exec (lib : LedgerLib) (s : Store) : Op → Except GoError Store
  | .activateRoute definition registry token now =>
    (Workledger.activateRoute lib definition registry token now s).map Prod.snd
  | .retireRoute snapshotID now => Workledger.retireRoute snapshotID now s
  | .admitWithAgent snapshotID e binding tie workToken eventToken now =>
    (Workledger.admitWithAgent lib snapshotID e binding tie workToken eventToken now s).map
      Prod.snd
  | .admitRelease snapshotID e operation tie workToken eventToken now =>
    (Workledger.admitRelease lib snapshotID e operation tie workToken eventToken now s).map
      Prod.snd
  | .recordIngressFailure e classification attempts now =>
    Workledger.recordIngressFailure lib e classification attempts now s
  | .recordContentResult digest external result now =>
    Workledger.recordContentResult digest external result now s
  | .claim tie token now => (Workledger.claim tie token now s).map Prod.snd
  | .complete attemptID result now => Workledger.complete lib attemptID result now s
  | .wakeWaiting itemID now => Workledger.wakeWaiting itemID now s
  | .recoverInterrupted now => .ok (Workledger.recoverInterrupted now s).2
  | .resolveRelease itemID generation digest brokerRunID now =>
    Workledger.resolveRelease itemID generation digest brokerRunID now s
  | .recordAuthoritativePRCorrelation itemID repository number now =>
    Workledger.recordAuthoritativePRCorrelation itemID repository number now s

/-- The store after a call. -/
def Op.step (lib : LedgerLib) (s : Store) (op : Op) : Store :=
  match op.exec lib s with
  | .ok s' => s'
  | .error _ => s

/-- The store after a list of calls. -/
def run (lib : LedgerLib) (ops : List Op) (s : Store) : Store := ops.foldl (Op.step lib) s

/-- The states reached from the empty ledger by calls that all meet the condition `ok`. -/
inductive ReachableBy (lib : LedgerLib) (ok : Store → Op → Prop) : Store → Prop where
  | empty : ReachableBy lib ok Store.empty
  | step {s : Store} (op : Op) (h : ReachableBy lib ok s) (hop : ok s op) :
      ReachableBy lib ok (op.step lib s)

/-- The states reached from the empty ledger. -/
def Reachable (lib : LedgerLib) : Store → Prop := ReachableBy lib fun _ _ => True

/-- A call commits a store or leaves the one it found. -/
theorem Op.step_cases (lib : LedgerLib) (s : Store) (op : Op) :
    op.step lib s = s ∨ op.exec lib s = .ok (op.step lib s) := by
  unfold Op.step
  cases h : op.exec lib s with
  | ok s' => exact .inr rfl
  | error err => exact .inl rfl

theorem Op.step_of_exec {lib : LedgerLib} {s' : Store} {op : Op} (h : op.exec lib s = .ok s') :
    op.step lib s = s' := by
  simp only [Op.step, h]

theorem Op.step_of_error {lib : LedgerLib} {op : Op} {err : GoError}
    (h : op.exec lib s = .error err) : op.step lib s = s := by
  simp only [Op.step, h]

/-- An invariant: it holds of the empty ledger and every committed call keeps it. -/
theorem ReachableBy.invariant {lib : LedgerLib} {I : Store → Prop} (hempty : I Store.empty)
    (hstep : ∀ s op s', I s → ok s op → op.exec lib s = .ok s' → I s') (h : ReachableBy lib ok s) :
    I s := by
  induction h with
  | empty => exact hempty
  | step op _ hop ih =>
    rcases Op.step_cases lib _ op with he | he
    · rwa [he]
    · exact hstep _ op _ ih hop he

theorem ReachableBy.reachable {lib : LedgerLib} (h : ReachableBy lib ok s) : Reachable lib s := by
  induction h with
  | empty => exact .empty
  | step op _ _ ih => exact .step op ih trivial

/-- The end of a run from a reachable state is reachable. -/
theorem Reachable.run {lib : LedgerLib} (h : Reachable lib s) (ops : List Op) :
    Reachable lib (Workledger.run lib ops s) := by
  induction ops generalizing s with
  | nil => exact h
  | cons op ops ih => exact ih (.step op h trivial)

/-- Every call of a list meets a condition on the store it finds. -/
def Meets (lib : LedgerLib) (ok : Store → Op → Prop) : List Op → Store → Prop
  | [], _ => True
  | op :: ops, s => ok s op ∧ Meets lib ok ops (op.step lib s)

instance Meets.decidable (lib : LedgerLib) (ok : Store → Op → Prop)
    [h : ∀ s op, Decidable (ok s op)] : ∀ ops s, Decidable (Meets lib ok ops s)
  | [], _ => .isTrue trivial
  | op :: ops, s =>
    have := Meets.decidable lib ok ops (op.step lib s)
    inferInstanceAs (Decidable (ok s op ∧ Meets lib ok ops (op.step lib s)))

theorem ReachableBy.run {lib : LedgerLib} {ops : List Op} (h : ReachableBy lib ok s)
    (hops : Meets lib ok ops s) : ReachableBy lib ok (Workledger.run lib ops s) := by
  induction ops generalizing s with
  | nil => exact h
  | cons op ops ih => exact ih (.step op h hops.1) hops.2

/-! ## A small ledger -/

namespace Sample

/-- A library whose hash is the text itself. -/
def lib : LedgerLib where
  sha256 s := s
  marshalCanonical c := GoString.join [c.source, c.nameSpace, c.objectKind, c.objectID,
    c.eventKind, c.action, c.actorClass, c.sourceRevision, c.payloadDigest] (lit ",")
  marshalActivation d x := d.id ++ lit "@" ++ d.semanticVersion ++ x.version
  parsesRFC3339 _ := true
  quote s := s

def registry : Registry := ⟨[⟨lit "tool", .deterministicTool, lit "1"⟩]⟩

/-- A route that serialises by object, supersedes, and allows two retries. -/
def route : RouteDefinition where
  id := lit "route"
  schemaVersion := 1
  semanticVersion := lit "1"
  executorID := lit "tool"
  admission := ⟨[lit "github"], [], [lit "issue"], [lit "opened"], []⟩
  concurrency := ⟨.object, true⟩
  retry := ⟨3, [second, 2 * second]⟩

def token (n : UInt8) : Token := .random [n]

def activate : Op := .activateRoute route (some registry) (token 0) 0

/-- Revision `revision` of an object, delivered as number `n`. -/
def event (n : UInt8) (nameSpace objectID revision : GoString) : Event where
  sourceDeliveryID := [n]
  transportStream := lit "stream"
  transportSequence := n.toUInt64
  source := lit "github"
  nameSpace := nameSpace
  objectKind := lit "issue"
  objectID := objectID
  eventKind := lit "opened"
  sourceRevision := revision
  payloadDigest := lit "payload"
  evidenceRef := lit "evidence"

/-- Delivery `n` under the active snapshot. -/
def deliver (n : UInt8) (nameSpace objectID revision : GoString) (now : Int) : Op :=
  .admitWithAgent (newID "route" (token 0)) (event n nameSpace objectID revision) {} 0 (token n)
    (token n) now

def itemID (n : UInt8) : GoString := newID "work" (token n)

def attemptID (n : UInt8) : GoString := newID "attempt" (token n)

def claim (n : UInt8) (now : Int) : Op := .claim 0 (token n) now

/-- Attempt `n` reports an outcome. -/
def report (n : UInt8) (outcome : ExecutorOutcome) (now : Int) : Op :=
  .complete (attemptID n) { outcome := outcome } now

/-- An item waits, is claimed again, and a restart interrupts its second attempt. -/
def interrupted : List Op :=
  [activate, deliver 1 (lit "octo/repo") (lit "1") (lit "a") 0, claim 1 0, report 1 .waiting 0,
    claim 2 (10 * second), .recoverInterrupted (20 * second)]

/-- The ledger after a list of calls. -/
def after (ops : List Op) : Store := run lib ops Store.empty

theorem reachable_after (ops : List Op) : Reachable lib (after ops) :=
  Reachable.run ReachableBy.empty ops

end Sample

end SignalPlane.Workledger
