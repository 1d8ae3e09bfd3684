/-
SignalPlane.Workledger.Work — one piece of work, and what can happen to it.

The ledger spreads a piece of work over three tables: the item, its attempts
and its lease. `Work` puts them together again, with the terms of the route
snapshot the item was admitted under, and `Work.Step` lists what can happen to
it: it is superseded, its wait expires, an attempt is started or taken up
again, an attempt reports an outcome, a restart interrupts it, it is woken,
the broker resolves its release or its pull request. Each step has a `Kind`.

`Work.Valid` is what holds of every piece of work: its `Shape`, which says for
each state what attempts and leases there are, the numbers of its attempts,
and which columns go with which state. `Work.Step.valid` shows that every step
keeps it. Nothing here mentions the database; `Transactions` shows that each
operation of the store takes every piece of work through such steps.
-/
import SignalPlane.Workledger.Store

namespace SignalPlane.Workledger

open Clock

variable {lib : LedgerLib} {w w' : Work} {now : Int} {k : Kind} {a attempt : ExecutorAttemptRow}
  {retry : RetryPolicy} {result : ExecutorResult} {settlement : Settlement}
  {l : List ExecutorAttemptRow}

/-! ## Work -/

/-- What a route snapshot fixes for the work admitted under it. -/
structure Terms where
  definition : RouteDefinition
  executorID : GoString
  executorKind : ExecutorKind
  executorVersion : GoString
  digest : GoString
  deriving DecidableEq, Repr

def RouteSnapshotRow.terms (r : RouteSnapshotRow) : Terms :=
  ⟨r.definition, r.executorID, r.executorKind, r.executorVersion, r.digest⟩

/-- An item with its terms, its attempts in the order of their creation, and its leases. -/
structure Work where
  item : WorkItemRow
  terms : Option Terms
  attempts : List ExecutorAttemptRow
  leases : List LeaseRow
  deriving DecidableEq

/-- An attempt that is running or may be taken up again. -/
def ExecutorAttemptRow.isOpen (a : ExecutorAttemptRow) : Bool :=
  decide (a.state = .running) || decide (a.state = .recoverable)

/-- The columns of an item that are never written again. -/
structure ItemIdentity where
  id : GoString
  routeSnapshotID : GoString
  routeID : GoString
  semanticObjectKey : GoString
  source : GoString
  nameSpace : GoString
  objectKind : GoString
  objectID : GoString
  sourceRevision : GoString
  serializationKey : GoString
  taskEvidenceDigest : GoString
  agentType : GoString
  agentMode : GoString
  typeContractRevision : GoString
  createdAt : Int
  deriving DecidableEq

def WorkItemRow.identity (r : WorkItemRow) : ItemIdentity :=
  ⟨r.id, r.routeSnapshotID, r.routeID, r.semanticObjectKey, r.source, r.nameSpace, r.objectKind,
    r.objectID, r.sourceRevision, r.serializationKey, r.taskEvidenceDigest, r.agentType,
    r.agentMode, r.typeContractRevision, r.createdAt⟩

/-- The columns of an attempt that are never written again. -/
structure AttemptIdentity where
  id : GoString
  workItemID : GoString
  attemptNumber : Nat
  executorID : GoString
  executorKind : ExecutorKind
  executorVersion : GoString
  idempotencyKey : GoString
  operationIdempotencyKey : GoString
  requestedOperationDigest : GoString
  createdAt : Int
  deriving DecidableEq

def ExecutorAttemptRow.identity (a : ExecutorAttemptRow) : AttemptIdentity :=
  ⟨a.id, a.workItemID, a.attemptNumber, a.executorID, a.executorKind, a.executorVersion,
    a.idempotencyKey, a.operationIdempotencyKey, a.requestedOperationDigest, a.createdAt⟩

section Identity

variable (a now) (r : WorkItemRow)

@[simp] theorem ExecutorAttemptRow.identity_supersede :
    (a.supersede now).identity = a.identity := rfl

@[simp] theorem ExecutorAttemptRow.identity_restart : (a.restart now).identity = a.identity := rfl

@[simp] theorem ExecutorAttemptRow.identity_settle (settlement : Settlement)
    (result : ExecutorResult) : (a.settle settlement result now).identity = a.identity := rfl

@[simp] theorem ExecutorAttemptRow.identity_interrupt : a.interrupt.identity = a.identity := rfl

@[simp] theorem WorkItemRow.identity_supersede (successor : GoString) :
    (r.supersede successor now).identity = r.identity := rfl

@[simp] theorem WorkItemRow.identity_expire : (r.expire now).identity = r.identity := rfl

@[simp] theorem WorkItemRow.identity_activate : (r.activate now).identity = r.identity := rfl

@[simp] theorem WorkItemRow.identity_settle (settlement : Settlement) (result : ExecutorResult) :
    (r.settle settlement result now).identity = r.identity := rfl

@[simp] theorem WorkItemRow.identity_wake : (r.wake now).identity = r.identity := rfl

@[simp] theorem WorkItemRow.identity_requeue : (r.requeue now).identity = r.identity := rfl

@[simp] theorem WorkItemRow.identity_resolve (generation : Int) (digest brokerRunID : GoString) :
    (r.resolve generation digest brokerRunID now).identity = r.identity := rfl

@[simp] theorem WorkItemRow.identity_correlate (repository : GoString) (number : Int) :
    (r.correlate repository number now).identity = r.identity := rfl

end Identity

/-- A row rewritten where a condition holds. -/
def rewrite {α : Type} (p : α → Bool) (f : α → α) (a : α) : α := if p a then f a else a

theorem rewrite_of {α : Type} {p : α → Bool} {f : α → α} {a : α} (h : p a = true) :
    rewrite p f a = f a := if_pos h

theorem rewrite_of_not {α : Type} {p : α → Bool} {f : α → α} {a : α} (h : p a = false) :
    rewrite p f a = a := by
  simp [rewrite, h]

/-- What the new value and the old value share, the rewritten row has. -/
theorem rewrite_keeps {α β : Type} {p : α → Bool} {f : α → α} {g : α → β}
    (h : ∀ a, g (f a) = g a) (a : α) : g (rewrite p f a) = g a := by
  cases hp : p a with
  | true => rw [rewrite_of hp, h]
  | false => rw [rewrite_of_not hp]

theorem rewrite_congr {α : Type} {p q : α → Bool} {f : α → α} {a : α} (h : p a = q a) :
    rewrite p f a = rewrite q f a := by
  simp only [rewrite, h]

/-- Rows that the condition spares stay as they are. -/
theorem map_rewrite_eq_self {α : Type} {p : α → Bool} {f : α → α} {l : List α}
    (h : ∀ a ∈ l, p a = false) : l.map (rewrite p f) = l := by
  refine (List.map_congr_left fun a ha => ?_).trans (List.map_id l)
  exact rewrite_of_not (h a ha)

theorem map_rewrite_keeps {α β : Type} {p : α → Bool} {f : α → α} {g : α → β}
    (h : ∀ a, g (f a) = g a) (l : List α) : (l.map (rewrite p f)).map g = l.map g := by
  rw [List.map_map]
  exact List.map_congr_left fun a _ => rewrite_keeps h a

namespace Work

/-- New work, without attempts. -/
def admitted (item : WorkItemRow) (terms : Terms) : Work := ⟨item, some terms, [], []⟩

def supersede (successor : GoString) (now : Int) (w : Work) : Work :=
  { w with
    item := w.item.supersede successor now
    attempts := w.attempts.map
      (rewrite ExecutorAttemptRow.unsettled (ExecutorAttemptRow.supersede now))
    leases := [] }

def expire (now : Int) (w : Work) : Work := { w with item := w.item.expire now }

/-- The lease a claim takes. -/
def lease (attemptID : GoString) (now : Int) (w : Work) : LeaseRow :=
  ⟨w.item.serializationKey, w.item.id, attemptID, unixMilli now⟩

def reclaim (attemptID : GoString) (now : Int) (w : Work) : Work :=
  { w with
    item := rewrite (fun r => decide (r.state = .waiting)) (WorkItemRow.activate now) w.item
    attempts := w.attempts.map
      (rewrite (fun a => decide (a.id = attemptID) && decide (a.state = .recoverable))
        (ExecutorAttemptRow.restart now))
    leases := w.leases ++ [w.lease attemptID now] }

def start (attempt : ExecutorAttemptRow) (now : Int) (w : Work) : Work :=
  { w with
    item := w.item.activate now
    attempts := w.attempts ++ [attempt]
    leases := w.leases ++ [w.lease attempt.id now] }

def settle (attemptID : GoString) (settlement : Settlement) (result : ExecutorResult) (now : Int)
    (w : Work) : Work :=
  { w with
    item := w.item.settle settlement result now
    attempts := w.attempts.map
      (rewrite (fun a => decide (a.id = attemptID))
        (ExecutorAttemptRow.settle settlement result now))
    leases := w.leases.filter fun l => !decide (l.attemptID = attemptID) }

/-- A late completion of superseded work closes its attempt and no more. -/
def close (attemptID : GoString) (now : Int) (w : Work) : Work :=
  { w with
    attempts := w.attempts.map
      (rewrite (fun a => decide (a.id = attemptID)) (ExecutorAttemptRow.supersede now))
    leases := w.leases.filter fun l => !decide (l.attemptID = attemptID) }

/-- A restart: the attempts of superseded work are closed, an active item goes back to
waiting with its attempt recoverable, and every lease is gone. -/
def recover (now : Int) (w : Work) : Work :=
  { w with
    item := rewrite (fun r => decide (r.state = .active)) (WorkItemRow.requeue now) w.item
    attempts := (w.attempts.map
      (rewrite (fun a => a.unsettled && decide (w.item.state = .superseded))
        (ExecutorAttemptRow.supersede now))).map
      (rewrite (fun a => decide (a.state = .running) && decide (w.item.state = .active))
        ExecutorAttemptRow.interrupt)
    leases := [] }

/-- The item changes in columns that belong to no attempt. -/
def withItem (f : WorkItemRow → WorkItemRow) (w : Work) : Work := { w with item := f w.item }

/-! ## Steps -/

/-- What `ResolveRelease` checks before it writes. -/
structure Resolves (r : WorkItemRow) (generation : Int) (digest brokerRunID : GoString) :
    Prop where
  positive : 0 < generation
  format : imageDigestFormat digest = true
  run : brokerRunID ≠ [] ∧ brokerRunID.length ≤ 256
  forward : r.resolvedReleaseGeneration ≤ generation
  same : r.resolvedReleaseGeneration = generation →
    r.resolvedReleaseDigest = digest ∧ (r.brokerRunID = [] ∨ r.brokerRunID = brokerRunID)

/-- What `RecordAuthoritativePRCorrelation` checks before it writes. -/
structure Correlates (r : WorkItemRow) (repository : GoString) (number : Int) : Prop where
  format : repoFormat repository = true ∧ repository.length ≤ 256
  positive : 0 < number
  same : r.authoritativePRRepository = [] ∨
    (r.authoritativePRRepository = repository ∧ r.authoritativePRNumber = number)

/-- The kinds of steps, with what later statements ask about them. -/
inductive Kind where
  | supersede
  | expire (now : Int)
  | claim
  | report (result : ExecutorResult) (now : Int)
  | recover
  | wake
  | resolve (generation : Int) (digest brokerRunID : GoString)
  | correlate (repository : GoString) (number : Int)
  deriving DecidableEq

/-- What can happen to a piece of work. -/
inductive Step (lib : LedgerLib) : Kind → Work → Work → Prop where
  | supersede {w : Work} (successor : GoString) (now : Int) (hopen : w.item.state.isOpen = true) :
      Step lib .supersede w (w.supersede successor now)
  | expire {w : Work} (now : Int) (hexpired : w.item.waitExpired now = true) :
      Step lib (.expire now) w (w.expire now)
  | reclaim {w : Work} (attempt : ExecutorAttemptRow) (now : Int)
      (hready : w.item.state.isReady = true) (hmem : attempt ∈ w.attempts)
      (hstate : attempt.state = .recoverable) :
      Step lib .claim w (w.reclaim attempt.id now)
  | start {w : Work} (snapshot : RouteSnapshotRow) (operation : Option ReleaseOperationRow)
      (token : Token) (now : Int) (hready : w.item.state.isReady = true)
      (hclosed : ∀ a ∈ w.attempts, a.state ≠ .recoverable)
      (hfresh : ∀ a ∈ w.attempts, a.id ≠ newID "attempt" token)
      (hterms : w.terms = some snapshot.terms) :
      Step lib .claim w
        (w.start (newAttempt w.item snapshot (w.attempts.length + 1) operation token now) now)
  | settle {w : Work} (attempt : ExecutorAttemptRow) (terms : Terms) (settlement : Settlement)
      (result : ExecutorResult) (now : Int) (hmem : attempt ∈ w.attempts)
      (hrunning : attempt.state = .running) (hactive : w.item.state = .active)
      (hterms : w.terms = some terms)
      (hsettle : Workledger.settle lib terms.definition.retry attempt.attemptNumber result now =
        .ok settlement) :
      Step lib (.report result now) w (w.settle attempt.id settlement result now)
  | close {w : Work} (attempt : ExecutorAttemptRow) (result : ExecutorResult) (now : Int)
      (hmem : attempt ∈ w.attempts) (hrunning : attempt.state = .running)
      (hsuperseded : w.item.state = .superseded) :
      Step lib (.report result now) w (w.close attempt.id now)
  | recover {w : Work} (now : Int) : Step lib .recover w (w.recover now)
  | wake {w : Work} (now : Int) (hdormant : w.item.dormant = true) :
      Step lib .wake w (w.withItem (WorkItemRow.wake now))
  | resolve {w : Work} (generation : Int) (digest brokerRunID : GoString) (now : Int)
      (hresolves : Resolves w.item generation digest brokerRunID) :
      Step lib (.resolve generation digest brokerRunID) w
        (w.withItem (WorkItemRow.resolve generation digest brokerRunID now))
  | correlate {w : Work} (repository : GoString) (number now : Int)
      (hcorrelates : Correlates w.item repository number) :
      Step lib (.correlate repository number) w
        (w.withItem (WorkItemRow.correlate repository number now))

/-! ## The shape of valid work -/

/-- No attempt of a list is open. -/
def Closed (attempts : List ExecutorAttemptRow) : Prop := ∀ a ∈ attempts, a.isOpen = false

/-- Every attempt before the last is closed, and the last one is in a state. -/
def EndsIn (state : AttemptState) (attempts : List ExecutorAttemptRow) : Prop :=
  ∃ earlier last, attempts = earlier ++ [last] ∧ Closed earlier ∧ last.state = state

/-- The one attempt that is running, and the one lease, which is the attempt's. -/
def Leased (w : Work) : Prop :=
  ∃ earlier last now, w.attempts = earlier ++ [last] ∧ Closed earlier ∧
    last.state = .running ∧ w.leases = [w.lease last.id now]

/-- The attempts and leases that go with a state. -/
def Shape (w : Work) : Prop :=
  match w.item.state with
  | .admitted => w.attempts = [] ∧ w.leases = []
  | .active => w.Leased
  | .waiting | .failed =>
    (Closed w.attempts ∨ EndsIn .recoverable w.attempts) ∧ w.leases = []
  | .completed | .superseded | .deadLetter => Closed w.attempts ∧ w.leases = []
  | .observed | .cancelled => False

/-- What the terms of an item fix for its attempts. -/
structure FromTerms (itemID : GoString) (terms : Terms) (a : AttemptIdentity) : Prop where
  executorID : a.executorID = terms.executorID
  executorKind : a.executorKind = terms.executorKind
  executorVersion : a.executorVersion = terms.executorVersion
  key : a.idempotencyKey = executorKey itemID terms.digest a.attemptNumber
  item : a.workItemID = itemID

/-- The history of an item: its terms are there and valid, and its attempts are numbered in the
order of their creation and carry what the terms fix. -/
structure Recorded (lib : LedgerLib) (item : ItemIdentity) (terms : Option Terms)
    (attempts : List AttemptIdentity) : Prop where
  terms : ∃ t, terms = some t ∧ t.definition.validate lib = .ok () ∧
    item.routeID = t.definition.id ∧ ∀ a ∈ attempts, FromTerms item.id t a
  numbered : attempts.map AttemptIdentity.attemptNumber = List.range' 1 attempts.length
  nodup : (attempts.map AttemptIdentity.id).Nodup

/-- The columns of an item that go with its state. -/
structure Columns (r : WorkItemRow) : Prop where
  scheduled : r.nextAttemptAt.isSome = r.state.isReady
  ended : r.terminalAt.isSome = r.state.isTerminal
  successor : r.supersededByID.isSome = decide (r.state = .superseded)

/-- What holds of every piece of work. -/
structure Valid (lib : LedgerLib) (w : Work) : Prop where
  shape : w.Shape
  columns : Columns w.item
  recorded : Recorded lib w.item.identity w.terms (w.attempts.map ExecutorAttemptRow.identity)

/-! ## Attempts -/

theorem isOpen_eq_false : a.isOpen = false ↔ a.state ≠ .running ∧ a.state ≠ .recoverable := by
  simp [ExecutorAttemptRow.isOpen]

theorem closed_append {l' : List ExecutorAttemptRow} : Closed (l ++ l') ↔ Closed l ∧ Closed l' := by
  simp only [Closed, List.mem_append, or_imp, forall_and]

/-- Rewriting rows with a closed row keeps a list closed. -/
theorem Closed.map_rewrite {p : ExecutorAttemptRow → Bool}
    {f : ExecutorAttemptRow → ExecutorAttemptRow} (hl : Closed l) (hf : ∀ a, (f a).isOpen = false) :
    Closed (l.map (rewrite p f)) := by
  intro a ha
  obtain ⟨b, hb, rfl⟩ := List.mem_map.mp ha
  cases hp : p b with
  | true => rw [rewrite_of hp]; exact hf b
  | false => rw [rewrite_of_not hp]; exact hl b hb

/-- Superseding closes every attempt. -/
theorem closed_supersede (l : List ExecutorAttemptRow) (now : Int) :
    Closed (l.map (rewrite ExecutorAttemptRow.unsettled (ExecutorAttemptRow.supersede now))) := by
  intro a ha
  obtain ⟨a, -, rfl⟩ := List.mem_map.mp ha
  cases hp : a.unsettled with
  | true => rw [rewrite_of hp]; rfl
  | false =>
    rw [rewrite_of_not hp, isOpen_eq_false]
    simp only [ExecutorAttemptRow.unsettled, Bool.or_eq_false_iff, decide_eq_false_iff_not] at hp
    exact hp.1

/-- An open attempt of a list whose earlier attempts are closed is the last one. -/
theorem eq_last {earlier : List ExecutorAttemptRow} {last : ExecutorAttemptRow}
    (hclosed : Closed earlier) (ha : a ∈ earlier ++ [last]) (hopen : a.isOpen = true) :
    a = last := by
  rcases List.mem_append.mp ha with ha | ha
  · rw [hclosed a ha] at hopen
    cases hopen
  · exact List.mem_singleton.mp ha

theorem isOpen_of_running (h : a.state = .running) : a.isOpen = true := by
  simp [ExecutorAttemptRow.isOpen, h]

theorem isOpen_of_recoverable (h : a.state = .recoverable) : a.isOpen = true := by
  simp [ExecutorAttemptRow.isOpen, h]

/-! ## Outcomes -/

/-- What a completion can write: an item that ends with its attempt closed for good, or one
that waits for a further attempt. -/
theorem settle_cases {number : Nat}
    (h : Workledger.settle lib retry number result now = .ok settlement) :
    (settlement.state ∈ [WorkState.completed, .failed, .deadLetter] ∧
      settlement.attemptState ∈ [AttemptState.succeeded, .failed] ∧
      settlement.terminalAt = some (unixMilli now) ∧ settlement.nextAttemptAt = none) ∨
    (settlement.state = .waiting ∧ settlement.attemptState = .retryScheduled ∧
      settlement.terminalAt = none ∧ settlement.nextAttemptAt.isSome = true) := by
  unfold Workledger.settle at h
  split at h
  · cases h; simp
  · cases h; simp
  · split at h
    · cases h; simp
    · split at h
      · cases h; simp
      · cases h
  · simp only [Dispatcher.require_bind_eq_ok, Dispatcher.pure_eq_ok] at h
    obtain ⟨-, rfl⟩ := h
    simp
  · cases h

/-- A finished attempt is closed. -/
theorem isOpen_settle {number : Nat}
    (h : Workledger.settle lib retry number result now = .ok settlement) (a : ExecutorAttemptRow) :
    (a.settle settlement result now).isOpen = false := by
  rw [isOpen_eq_false]
  rcases settle_cases h with ⟨-, ha, -, -⟩ | ⟨-, ha, -, -⟩
  · simp only [List.mem_cons, List.not_mem_nil, or_false] at ha
    rcases ha with ha | ha <;> simp [ExecutorAttemptRow.settle, ha]
  · simp [ExecutorAttemptRow.settle, ha]

/-! ## Steps keep the shape -/

/-- What the shape looks at. -/
theorem Shape.congr (h : w.Shape) (hstate : w'.item.state = w.item.state)
    (hkey : w'.item.serializationKey = w.item.serializationKey) (hid : w'.item.id = w.item.id)
    (hattempts : w'.attempts = w.attempts) (hleases : w'.leases = w.leases) : w'.Shape := by
  have hlease : ∀ id now, w'.lease id now = w.lease id now := by
    intro id now
    simp only [lease, hkey, hid]
  simpa only [Shape, Leased, hstate, hattempts, hleases, hlease] using h

/-- Work that is not active holds no lease, and none of its attempts is running. -/
theorem Shape.idle (h : w.Shape) (hstate : w.item.state ≠ .active) :
    w.leases = [] ∧ ∀ a ∈ w.attempts, a.state ≠ .running := by
  have hclosed : Closed w.attempts → ∀ a ∈ w.attempts, a.state ≠ .running :=
    fun hc a ha => (isOpen_eq_false.mp (hc a ha)).1
  have hopen : Closed w.attempts ∨ EndsIn .recoverable w.attempts →
      ∀ a ∈ w.attempts, a.state ≠ .running := by
    rintro (hc | ⟨earlier, last, hl, hc, hlast⟩) a ha hrun
    · exact hclosed hc a ha hrun
    · rw [hl] at ha
      rw [eq_last hc ha (isOpen_of_running hrun), hlast] at hrun
      cases hrun
  unfold Shape at h
  cases hs : w.item.state <;> simp only [hs] at h hstate
  case active => exact absurd rfl hstate
  case admitted => exact ⟨h.2, by simp [h.1]⟩
  case waiting => exact ⟨h.2, hopen h.1⟩
  case failed => exact ⟨h.2, hopen h.1⟩
  case completed => exact ⟨h.2, hclosed h.1⟩
  case superseded => exact ⟨h.2, hclosed h.1⟩
  case deadLetter => exact ⟨h.2, hclosed h.1⟩

theorem Shape.leased (h : w.Shape) (hstate : w.item.state = .active) : w.Leased := by
  simpa only [Shape, hstate] using h

/-- Work that waits for `Claim` has an attempt to take up again at its end, or no open one. -/
theorem Shape.ready (h : w.Shape) (hready : w.item.state.isReady = true) :
    w.leases = [] ∧ (Closed w.attempts ∨
      (w.item.state = .waiting ∧ EndsIn .recoverable w.attempts)) := by
  unfold Shape at h
  cases hs : w.item.state <;> simp only [hs, WorkState.isReady, Bool.false_eq_true] at h hready
  case admitted => exact ⟨h.2, .inl (by simp [h.1, Closed])⟩
  case waiting => exact ⟨h.2, h.1.imp_right fun he => ⟨rfl, he⟩⟩

/-- Only waiting and failed work has an attempt to take up again. -/
theorem Shape.recoverable (h : w.Shape) (ha : a ∈ w.attempts) (hstate : a.state = .recoverable) :
    w.item.state = .waiting ∨ w.item.state = .failed := by
  have hclosed : ¬ Closed w.attempts := by
    intro hc
    rw [Closed] at hc
    exact (isOpen_eq_false.mp (hc a ha)).2 hstate
  unfold Shape at h
  cases hs : w.item.state <;> simp only [hs] at h
  case admitted =>
    rw [h.1] at ha
    cases ha
  case active =>
    obtain ⟨earlier, last, -, hl, hearlier, hlast, -⟩ := h
    rw [hl] at ha
    rw [eq_last hearlier ha (isOpen_of_recoverable hstate), hlast] at hstate
    cases hstate
  case waiting => exact .inl rfl
  case failed => exact .inr rfl
  all_goals exact absurd h.1 hclosed

theorem shape_supersede (successor : GoString) (now : Int) : (w.supersede successor now).Shape :=
  ⟨closed_supersede w.attempts now, rfl⟩

theorem Shape.expire (h : w.Shape) (hexpired : w.item.waitExpired now = true) :
    (w.expire now).Shape := by
  simp only [WorkItemRow.waitExpired, Bool.and_eq_true, decide_eq_true_eq] at hexpired
  unfold Shape at h
  rw [hexpired.1] at h
  exact h

theorem reclaim_item {attemptID : GoString} (hwaiting : w.item.state = .waiting) :
    (w.reclaim attemptID now).item = w.item.activate now := by
  simp only [Work.reclaim]
  exact rewrite_of (decide_eq_true hwaiting)

theorem Shape.reclaim (h : w.Shape) (hready : w.item.state.isReady = true)
    (hmem : attempt ∈ w.attempts) (hstate : attempt.state = .recoverable) :
    (w.reclaim attempt.id now).Shape := by
  obtain ⟨hleases, hclosed | ⟨hwaiting, earlier, last, hl, hclosed, hlast⟩⟩ := h.ready hready
  · have := hclosed attempt hmem
    rw [isOpen_of_recoverable hstate] at this
    cases this
  · have heq : attempt = last := eq_last hclosed (hl ▸ hmem) (isOpen_of_recoverable hstate)
    subst heq
    have hitem : (w.reclaim attempt.id now).item = w.item.activate now := reclaim_item hwaiting
    have hearlier : earlier.map (rewrite
        (fun a => decide (a.id = attempt.id) && decide (a.state = .recoverable))
        (ExecutorAttemptRow.restart now)) = earlier :=
      map_rewrite_eq_self fun a ha => by simp [(isOpen_eq_false.mp (hclosed a ha)).2]
    simp only [Shape, hitem, WorkItemRow.activate]
    refine ⟨earlier, attempt.restart now, now, ?_, hclosed, rfl, ?_⟩
    · simp only [Work.reclaim, hl, List.map_append, List.map_cons, List.map_nil, hearlier]
      rw [rewrite_of (by simp [hstate])]
    · simp only [lease, hitem]
      simp only [Work.reclaim, hleases, List.nil_append]
      rfl

theorem Shape.start (h : w.Shape) (hready : w.item.state.isReady = true)
    (hclosed : ∀ a ∈ w.attempts, a.state ≠ .recoverable) (hrunning : attempt.state = .running) :
    (w.start attempt now).Shape := by
  obtain ⟨hleases, hshape⟩ := h.ready hready
  have hall : Closed w.attempts := by
    rcases hshape with hall | ⟨-, earlier, last, hl, -, hlast⟩
    · exact hall
    · exact absurd hlast (hclosed last (by simp [hl]))
  exact ⟨w.attempts, attempt, now, rfl, hall, hrunning, by
    simp only [Work.start, hleases, List.nil_append]
    rfl⟩

/-- A completion of active work is one of its last attempt, and leaves no attempt open. -/
theorem Shape.closed_settle (h : w.Shape) (hmem : attempt ∈ w.attempts)
    (hrunning : attempt.state = .running) (hactive : w.item.state = .active)
    (hsettle : Workledger.settle lib retry attempt.attemptNumber result now = .ok settlement) :
    Closed (w.settle attempt.id settlement result now).attempts ∧
      (w.settle attempt.id settlement result now).leases = [] := by
  obtain ⟨earlier, last, acquired, hl, hclosed, hlast, hleases⟩ := h.leased hactive
  have heq : attempt = last := eq_last hclosed (hl ▸ hmem) (isOpen_of_running hrunning)
  subst heq
  constructor
  · simp only [Work.settle, hl, List.map_append, List.map_cons, List.map_nil, closed_append]
    refine ⟨hclosed.map_rewrite (isOpen_settle hsettle), ?_⟩
    rw [rewrite_of (by simp)]
    intro a ha
    rw [List.mem_singleton.mp ha]
    exact isOpen_settle hsettle attempt
  · simp [Work.settle, hleases, lease]

theorem Shape.settle (h : w.Shape) (hmem : attempt ∈ w.attempts)
    (hrunning : attempt.state = .running) (hactive : w.item.state = .active)
    (hsettle : Workledger.settle lib retry attempt.attemptNumber result now = .ok settlement) :
    (w.settle attempt.id settlement result now).Shape := by
  obtain ⟨hall, hnone⟩ := h.closed_settle hmem hrunning hactive hsettle
  have hstate : (w.settle attempt.id settlement result now).item.state = settlement.state := rfl
  unfold Shape
  rw [hstate]
  rcases settle_cases hsettle with ⟨hended, -⟩ | ⟨hwaiting, -⟩
  · simp only [List.mem_cons, List.not_mem_nil, or_false] at hended
    rcases hended with he | he | he <;> rw [he]
    exacts [⟨hall, hnone⟩, ⟨.inl hall, hnone⟩, ⟨hall, hnone⟩]
  · rw [hwaiting]
    exact ⟨.inl hall, hnone⟩

theorem recover_item_of_active (hactive : w.item.state = .active) :
    (w.recover now).item = w.item.requeue now := by
  simp only [Work.recover]
  exact rewrite_of (decide_eq_true hactive)

theorem recover_item (now : Int) (hactive : w.item.state ≠ .active) :
    (w.recover now).item = w.item := by
  simp only [Work.recover]
  exact rewrite_of_not (decide_eq_false hactive)

theorem recover_attempts_of_active (hactive : w.item.state = .active) : (w.recover now).attempts =
      w.attempts.map (rewrite (fun a => decide (a.state = .running))
        ExecutorAttemptRow.interrupt) := by
  simp only [Work.recover, hactive, reduceCtorEq, decide_false, Bool.and_false, decide_true,
    Bool.and_true]
  rw [map_rewrite_eq_self (l := w.attempts) fun _ _ => rfl]

theorem recover_attempts (now : Int) (hactive : w.item.state ≠ .active) : (w.recover now).attempts =
      w.attempts.map (rewrite (fun a => a.unsettled && decide (w.item.state = .superseded))
        (ExecutorAttemptRow.supersede now)) := by
  simp only [Work.recover, hactive, decide_false, Bool.and_false]
  exact map_rewrite_eq_self fun _ _ => rfl

theorem Shape.recover (h : w.Shape) (now : Int) : (w.recover now).Shape := by
  by_cases hactive : w.item.state = .active
  · obtain ⟨earlier, last, acquired, hl, hclosed, hlast, -⟩ := h.leased hactive
    simp only [Shape, recover_item_of_active hactive, WorkItemRow.requeue]
    refine ⟨.inr ⟨earlier, last.interrupt, ?_, hclosed, rfl⟩, rfl⟩
    rw [recover_attempts_of_active hactive, hl, List.map_append, List.map_singleton,
      rewrite_of (by simp [hlast]), map_rewrite_eq_self fun a ha => ?_]
    exact decide_eq_false (isOpen_eq_false.mp (hclosed a ha)).1
  · have hitem := recover_item now hactive
    have hattempts := recover_attempts now hactive
    by_cases hsuperseded : w.item.state = .superseded
    · have hclosed : Closed w.attempts := by
        unfold Shape at h
        rw [hsuperseded] at h
        exact h.1
      simp only [Shape, hitem, hsuperseded]
      rw [hattempts]
      exact ⟨hclosed.map_rewrite fun _ => rfl, rfl⟩
    · rw [map_rewrite_eq_self fun a _ => by simp [hsuperseded]] at hattempts
      exact h.congr (by rw [hitem]) (by rw [hitem]) (by rw [hitem]) hattempts
        (h.idle hactive).1.symm

theorem Step.shape (h : Step lib k w w') (hw : w.Shape) : w'.Shape := by
  cases h with
  | supersede successor now _ => exact shape_supersede successor now
  | expire now hexpired => exact hw.expire hexpired
  | reclaim attempt now hready hmem hstate => exact hw.reclaim hready hmem hstate
  | start snapshot operation token now hready hclosed _ _ => exact hw.start hready hclosed rfl
  | settle attempt terms settlement result now hmem hrunning hactive _ hsettle =>
    exact hw.settle hmem hrunning hactive hsettle
  | close attempt result now hmem hrunning hsuperseded =>
    exact absurd hrunning ((hw.idle (by simp [hsuperseded])).2 attempt hmem)
  | recover now => exact hw.recover now
  | wake | resolve | correlate => exact hw.congr rfl rfl rfl rfl rfl

/-! ## Steps keep the rest -/

/-- A step writes no column that identifies the item, and not its terms. -/
theorem Step.identity (h : Step lib k w w') :
    w'.item.identity = w.item.identity ∧ w'.terms = w.terms := by
  cases h with
  | reclaim attempt now =>
    exact ⟨rewrite_keeps (fun r => r.identity_activate now) w.item, rfl⟩
  | recover now => exact ⟨rewrite_keeps (fun r => r.identity_requeue now) w.item, rfl⟩
  | _ => exact ⟨rfl, rfl⟩

/-- A step keeps the identity of every attempt, and adds at most one attempt at the end: the
next number, with what the terms fix. -/
theorem Step.attempts (h : Step lib k w w') :
    w'.attempts.map ExecutorAttemptRow.identity = w.attempts.map ExecutorAttemptRow.identity ∨
      ∃ snapshot operation token now, w.terms = some snapshot.terms ∧
        (∀ a ∈ w.attempts, a.id ≠ newID "attempt" token) ∧
        w'.attempts = w.attempts ++
          [newAttempt w.item snapshot (w.attempts.length + 1) operation token now] := by
  cases h with
  | supersede _ now | close _ _ now =>
    exact .inl (map_rewrite_keeps (fun a => a.identity_supersede now) w.attempts)
  | reclaim attempt now _ _ _ =>
    exact .inl (map_rewrite_keeps (fun a => a.identity_restart now) w.attempts)
  | start snapshot operation token now _ _ hfresh hterms =>
    exact .inr ⟨snapshot, operation, token, now, hterms, hfresh, rfl⟩
  | settle attempt terms settlement result now _ _ _ _ _ =>
    exact .inl (map_rewrite_keeps (fun a => a.identity_settle now settlement result) w.attempts)
  | recover now =>
    refine .inl ?_
    simp only [Work.recover]
    rw [map_rewrite_keeps ExecutorAttemptRow.identity_interrupt,
      map_rewrite_keeps fun a => a.identity_supersede now]
  | expire | wake | resolve | correlate => exact .inl rfl

theorem Recorded.append {item : ItemIdentity} {t : Terms} {attempts : List AttemptIdentity}
    {a : AttemptIdentity} (h : Recorded lib item (some t) attempts)
    (hnumber : a.attemptNumber = attempts.length + 1) (hfresh : ∀ b ∈ attempts, b.id ≠ a.id)
    (hterms : FromTerms item.id t a) : Recorded lib item (some t) (attempts ++ [a]) := by
  obtain ⟨⟨t', ht', hvalid, hroute, hall⟩, hnumbered, hnodup⟩ := h
  cases ht'
  refine ⟨⟨t, rfl, hvalid, hroute, ?_⟩, ?_, ?_⟩
  · intro b hb
    rcases List.mem_append.mp hb with hb | hb
    · exact hall b hb
    · rw [List.mem_singleton.mp hb]
      exact hterms
  · rw [List.map_append, List.map_singleton, hnumbered, hnumber, List.length_append,
      List.length_singleton, List.range'_1_concat, Nat.add_comm 1]
  · rw [List.map_append, List.map_singleton]
    refine List.Nodup.append hnodup (List.nodup_singleton _) ?_
    intro id hid hid'
    obtain ⟨b, hb, rfl⟩ := List.mem_map.mp hid
    exact hfresh b hb (List.mem_singleton.mp hid')

theorem Step.recorded (h : Step lib k w w')
    (hw : Recorded lib w.item.identity w.terms (w.attempts.map ExecutorAttemptRow.identity)) :
    Recorded lib w'.item.identity w'.terms (w'.attempts.map ExecutorAttemptRow.identity) := by
  obtain ⟨hitem, hterms⟩ := h.identity
  rw [hitem, hterms]
  rcases h.attempts with hsame | ⟨snapshot, operation, token, now, hsnapshot, hfresh, hnew⟩
  · rwa [hsame]
  · rw [hnew, List.map_append, List.map_singleton, hsnapshot]
    rw [hsnapshot] at hw
    refine hw.append ?_ ?_ ⟨rfl, rfl, rfl, rfl, rfl⟩
    · rw [List.length_map]
      rfl
    · intro b hb
      obtain ⟨a, ha, rfl⟩ := List.mem_map.mp hb
      exact hfresh a ha

theorem not_ended_of_isReady {state : WorkState} (h : state.isReady = true) :
    state.isTerminal = false ∧ state ≠ .superseded := by
  cases state <;> simp_all [WorkState.isReady, WorkState.isTerminal]

theorem Step.columns (h : Step lib k w w') (hw : Columns w.item) : Columns w'.item := by
  obtain ⟨hscheduled, hended, hsuccessor⟩ := hw
  cases h with
  | supersede successor now _ => exact ⟨rfl, rfl, rfl⟩
  | expire now hexpired =>
    simp only [WorkItemRow.waitExpired, Bool.and_eq_true, decide_eq_true_eq] at hexpired
    rw [hexpired.1] at hsuccessor
    exact ⟨rfl, rfl, hsuccessor⟩
  | reclaim attempt now hready _ _ =>
    by_cases hwaiting : w.item.state = .waiting
    · rw [reclaim_item hwaiting]
      rw [hwaiting] at hended hsuccessor
      exact ⟨rfl, hended, hsuccessor⟩
    · have hitem : (w.reclaim attempt.id now).item = w.item := by
        simp only [Work.reclaim]
        exact rewrite_of_not (decide_eq_false hwaiting)
      rw [hitem]
      exact ⟨hscheduled, hended, hsuccessor⟩
  | start snapshot operation token now hready _ _ _ =>
    obtain ⟨hterminal, hsuperseded⟩ := not_ended_of_isReady hready
    rw [hterminal] at hended
    rw [decide_eq_false hsuperseded] at hsuccessor
    exact ⟨rfl, hended, hsuccessor⟩
  | settle attempt terms settlement result now _ _ hactive _ hsettle =>
    rw [hactive] at hsuccessor
    rcases settle_cases hsettle with ⟨hstate, -, hterminal, hnext⟩ | ⟨hstate, -, hterminal, hnext⟩
    · simp only [List.mem_cons, List.not_mem_nil, or_false] at hstate
      rcases hstate with hstate | hstate | hstate <;>
        exact ⟨by simp [Work.settle, WorkItemRow.settle, hstate, hnext, WorkState.isReady],
          by simp [Work.settle, WorkItemRow.settle, hstate, hterminal, WorkState.isTerminal],
          by simpa [Work.settle, WorkItemRow.settle, hstate] using hsuccessor⟩
    · exact ⟨by simp [Work.settle, WorkItemRow.settle, hstate, hnext, WorkState.isReady],
        by simp [Work.settle, WorkItemRow.settle, hstate, hterminal, WorkState.isTerminal],
        by simpa [Work.settle, WorkItemRow.settle, hstate] using hsuccessor⟩
  | close | resolve | correlate => exact ⟨hscheduled, hended, hsuccessor⟩
  | recover now =>
    by_cases hactive : w.item.state = .active
    · rw [recover_item_of_active hactive]
      rw [hactive] at hended hsuccessor
      exact ⟨rfl, hended, hsuccessor⟩
    · rw [recover_item now hactive]
      exact ⟨hscheduled, hended, hsuccessor⟩
  | wake now hdormant =>
    simp only [WorkItemRow.dormant, Bool.and_eq_true, decide_eq_true_eq] at hdormant
    refine ⟨?_, hended, hsuccessor⟩
    simp [withItem, WorkItemRow.wake, hdormant.1, WorkState.isReady]

/-- Every step keeps valid work valid. -/
theorem Step.valid (h : Step lib k w w') (hw : w.Valid lib) : w'.Valid lib :=
  ⟨h.shape hw.shape, h.columns hw.columns, h.recorded hw.recorded⟩

/-- New work is valid. -/
theorem valid_admitted {item : WorkItemRow} {terms : Terms} (hstate : item.state = .admitted)
    (hcolumns : Columns item) (hroute : item.routeID = terms.definition.id)
    (hvalid : terms.definition.validate lib = .ok ()) : (admitted item terms).Valid lib where
  shape := by
    unfold Shape
    rw [show (admitted item terms).item.state = .admitted from hstate]
    exact ⟨rfl, rfl⟩
  columns := hcolumns
  recorded := ⟨⟨terms, rfl, hvalid, hroute, by simp [admitted]⟩, rfl, List.nodup_nil⟩

end Work

end SignalPlane.Workledger
