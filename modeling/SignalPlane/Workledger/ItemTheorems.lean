/-
SignalPlane.Workledger.ItemTheorems — what becomes of a work item over a run.

The statements here are about the row of one item, whatever is called in
between. Each of them is a relation between the row before and the row after
one `Work.Step`, which `Work.Steps.keeps` carries to whole runs.

* An item that has ended stays as it ended, and no call writes a row without
  counting up its version (`Step.ending`, `Step.version`).
* What the broker resolves only moves forward (`Advances`): the generation
  grows, a generation keeps its digest and its run, a pull request stays. With
  the checks of the two operations this makes the whole binding of an item
  acceptable in every state, although no operation checks all of it after
  admission (`Bound`, `Store.Authoritative`).
-/
import SignalPlane.Workledger.Refinement

namespace SignalPlane.Workledger

open Clock
open Dispatcher (GoError require bind_eq_ok require_eq_ok)

variable {b : AgentBinding} {id : GoString} {generation now : Int} {r' : WorkItemRow}

/-! ## Ended work and versions -/

/-- The columns that say how an item ended. -/
def WorkItemRow.ending (r : WorkItemRow) : WorkState × Option Int × Option GoString :=
  (r.state, r.terminalAt, r.supersededByID)

namespace Work

variable {lib : LedgerLib} {k : Kind} {w w' : Work}

theorem not_terminal_of_isOpen {state : WorkState} (h : state.isOpen = true) :
    state.isTerminal = false := by
  cases state <;> simp_all [WorkState.isOpen, WorkState.isTerminal]

/-- No step changes how an item has ended. -/
theorem Step.ending (h : Step lib k w w') (hended : w.item.state.isTerminal = true) :
    w'.item.ending = w.item.ending := by
  have hcontra : ∀ {P : Prop}, w.item.state.isTerminal = false → P := by
    intro P hopen
    rw [hended] at hopen
    cases hopen
  cases h with
  | supersede successor now hopen => exact hcontra (not_terminal_of_isOpen hopen)
  | expire now hexpired =>
    simp only [WorkItemRow.waitExpired, Bool.and_eq_true, decide_eq_true_eq] at hexpired
    exact hcontra (by rw [hexpired.1]; rfl)
  | reclaim attempt now hready _ _ => exact hcontra (not_ended_of_isReady hready).1
  | start snapshot operation token now hready _ _ _ =>
    exact hcontra (not_ended_of_isReady hready).1
  | settle attempt terms settlement result now _ _ hactive _ _ =>
    exact hcontra (by rw [hactive]; rfl)
  | recover now =>
    by_cases hactive : w.item.state = .active
    · exact hcontra (by rw [hactive]; rfl)
    · rw [recover_item now hactive]
  | wake now hdormant =>
    simp only [WorkItemRow.dormant, Bool.and_eq_true, decide_eq_true_eq] at hdormant
    exact hcontra (by rw [hdormant.1]; rfl)
  | close | resolve | correlate => rfl

/-- A step leaves the row of the item alone, or counts up its version. -/
theorem Step.version (h : Step lib k w w') :
    w'.item = w.item ∨ w'.item.stateVersion = w.item.stateVersion + 1 := by
  cases h with
  | reclaim attempt now _ _ _ =>
    by_cases hwaiting : w.item.state = .waiting
    · exact .inr (by rw [reclaim_item hwaiting]; rfl)
    · refine .inl ?_
      simp only [Work.reclaim]
      exact rewrite_of_not (decide_eq_false hwaiting)
  | recover now =>
    by_cases hactive : w.item.state = .active
    · exact .inr (by rw [recover_item_of_active hactive]; rfl)
    · exact .inl (recover_item now hactive)
  | close attempt result now _ _ _ => exact .inl rfl
  | _ => exact .inr rfl

/-- How an item has ended is how it stays. -/
theorem Steps.ending (h : Steps lib w w') :
    w.item.state.isTerminal = true → w'.item.ending = w.item.ending := by
  refine Steps.keeps (R := fun w w' => w.item.state.isTerminal = true →
    w'.item.ending = w.item.ending) (fun _ _ => rfl) ?_ (fun _ _ _ hstep => hstep.ending) h
  intro u v w huv hvw hu
  have hv := huv hu
  have hstate : v.item.state = u.item.state := congrArg Prod.fst hv
  exact (hvw (hstate ▸ hu)).trans hv

end Work

section Rows

variable {lib : LedgerLib} {s : Store} {r : WorkItemRow}

theorem ended_final_and_versions_grow (h : Reachable lib s)
    (hr : s.workItems.find? id = some r) :
    (∀ ops, ∃ r', (run lib ops s).workItems.find? id = some r' ∧
      (r.state.isTerminal = true → r'.state = r.state ∧ r'.terminalAt = r.terminalAt ∧
        r'.supersededByID = r.supersededByID)) ∧
    ∀ op : Op, ∃ r', (op.step lib s).workItems.find? id = some r' ∧
      (r' ≠ r → r.stateVersion < r'.stateVersion) := by
  obtain ⟨w, hw, rfl⟩ := Store.work_of_find? hr
  constructor
  · intro ops
    obtain ⟨w', hw', hsteps⟩ := h.run_work ops hw
    refine ⟨w'.item, (Store.work_eq_some.mp hw').1, fun hended => ?_⟩
    have hsame := hsteps.ending hended
    simp only [WorkItemRow.ending, Prod.mk.injEq] at hsame
    exact hsame
  · intro op
    obtain ⟨w', hw', hstep⟩ := h.step_work op hw
    refine ⟨w'.item, (Store.work_eq_some.mp hw').1, fun hne => ?_⟩
    rcases hstep with rfl | ⟨k, -, hk⟩
    · exact absurd rfl hne
    · rcases hk.version with hsame | hversion
      · exact absurd hsame hne
      · omega

end Rows

namespace Sample

/-- A second revision of an object supersedes the first, which is being worked on. -/
def superseding : List Op :=
  [activate, deliver 1 (lit "octo/repo") (lit "1") (lit "a") 0, claim 1 0,
    deliver 2 (lit "octo/repo") (lit "1") (lit "b") second]

end Sample

open Sample in
theorem ended_final_superseded :
    ∃ r, (after superseding).workItems.find? (itemID 1) = some r ∧
      r.state = .superseded ∧ r.stateVersion = 3 ∧
      ∀ ops, ∃ r', (run lib ops (after superseding)).workItems.find? (itemID 1) = some r' ∧
        (r.state.isTerminal = true → r'.state = r.state ∧ r'.terminalAt = r.terminalAt ∧
          r'.supersededByID = r.supersededByID) := by
  have hrow : ((after superseding).workItems.find? (itemID 1)).any
      (fun r => decide (r.state = .superseded ∧ r.stateVersion = 3)) = true := by
    decide +kernel
  obtain ⟨r, hr, hfacts⟩ := (Option.any_eq_true _ _).mp hrow
  obtain ⟨hstate, hversion⟩ := of_decide_eq_true hfacts
  exact ⟨r, hr, hstate, hversion,
    (ended_final_and_versions_grow (reachable_after superseding) hr).1⟩

/-! ## Bindings -/

/-- The binding an item's columns hold. -/
def WorkItemRow.binding (r : WorkItemRow) : AgentBinding where
  agentType := r.agentType
  mode := r.agentMode
  typeContractRevision := r.typeContractRevision
  resolvedReleaseGeneration := r.resolvedReleaseGeneration
  resolvedReleaseDigest := r.resolvedReleaseDigest
  brokerRunID := r.brokerRunID
  authoritativePRRepository := r.authoritativePRRepository
  authoritativePRNumber := r.authoritativePRNumber

namespace AgentBinding

/-- The part of a binding that a route selects. -/
structure Selected (b : AgentBinding) : Prop where
  agentType : kebabIdentifier b.agentType = true
  mode : snakeIdentifier b.mode = true
  contract : b.typeContractRevision ≠ [] ∧ b.typeContractRevision.length ≤ 256

/-- The part of a binding that the broker resolves. -/
structure Resolved (b : AgentBinding) : Prop where
  generation : 0 ≤ b.resolvedReleaseGeneration
  together : b.resolvedReleaseGeneration = 0 ↔ b.resolvedReleaseDigest = []
  digest : b.resolvedReleaseDigest = [] ∨ imageDigestFormat b.resolvedReleaseDigest = true
  run : b.brokerRunID = [] ∨ b.brokerRunID.length ≤ 256
  correlated : b.authoritativePRRepository = [] ↔ b.authoritativePRNumber = 0
  repository : b.authoritativePRRepository = [] ∨
    (repoFormat b.authoritativePRRepository = true ∧ b.authoritativePRRepository.length ≤ 256)
  number : b.authoritativePRRepository = [] ∨ 0 ≤ b.authoritativePRNumber

theorem validate_eq_ok : b.validate = .ok () ↔ b = {} ∨ (b.Selected ∧ b.Resolved) := by
  by_cases hzero : b = {}
  · simp [validate, zero, hzero]
  · have hz : b.zero = false := decide_eq_false hzero
    simp only [validate, hz, Bool.false_eq_true, if_false, bind_eq_ok, require_eq_ok, hzero,
      false_or]
    constructor
    · rintro ⟨⟨⟩, h1, ⟨⟩, h2, ⟨⟩, h3, ⟨⟩, h4, ⟨⟩, h5, ⟨⟩, h6, ⟨⟩, h7, ⟨⟩, h8, ⟨⟩, h9, h10⟩
      exact ⟨⟨h1, h2, h3⟩, ⟨h4, h5, h6, h7, h8, h9, h10⟩⟩
    · rintro ⟨⟨h1, h2, h3⟩, ⟨h4, h5, h6, h7, h8, h9, h10⟩⟩
      exact ⟨(), h1, (), h2, (), h3, (), h4, (), h5, (), h6, (), h7, (), h8, (), h9, h10⟩

/-- Admission refuses a binding that is more than a selection. -/
theorem eq_admissionBinding (h : b.rejectAdmissionSelection = .ok ()) : b.admissionBinding = b := by
  unfold rejectAdmissionSelection at h
  split at h
  · cases h
  · next hnone =>
    simp only [admissionSelections, List.find?_eq_none, List.mem_cons, List.not_mem_nil, or_false,
      forall_eq_or_imp, forall_eq, decide_eq_true_eq, Decidable.not_not] at hnone
    obtain ⟨hgeneration, hdigest, hrun, hrepository, hnumber⟩ := hnone
    cases b
    simp only at hgeneration hdigest hrun hrepository hnumber
    simp only [admissionBinding, hgeneration, hdigest, hrun, hrepository, hnumber]

/-- What is fixed at admission, and how the rest may move. -/
structure Advances (b b' : AgentBinding) : Prop where
  selection : b'.admissionBinding = b.admissionBinding
  forward : b.resolvedReleaseGeneration ≤ b'.resolvedReleaseGeneration
  same : b'.resolvedReleaseGeneration = b.resolvedReleaseGeneration → b.brokerRunID ≠ [] →
    b'.resolvedReleaseDigest = b.resolvedReleaseDigest ∧ b'.brokerRunID = b.brokerRunID
  correlation : b.authoritativePRRepository ≠ [] →
    b'.authoritativePRRepository = b.authoritativePRRepository ∧
      b'.authoritativePRNumber = b.authoritativePRNumber

theorem Advances.refl (b : AgentBinding) : b.Advances b :=
  ⟨rfl, le_rfl, fun _ _ => ⟨rfl, rfl⟩, fun _ => ⟨rfl, rfl⟩⟩

theorem Advances.trans {c d : AgentBinding} (h : b.Advances c) (h' : c.Advances d) :
    b.Advances d where
  selection := h'.selection.trans h.selection
  forward := h.forward.trans h'.forward
  same := by
    intro heq hrun
    have hbc : c.resolvedReleaseGeneration = b.resolvedReleaseGeneration :=
      le_antisymm (heq ▸ h'.forward) h.forward
    obtain ⟨hdigest, hrunc⟩ := h.same hbc hrun
    obtain ⟨hdigest', hrun'⟩ := h'.same (heq.trans hbc.symm) (by rwa [hrunc])
    exact ⟨hdigest'.trans hdigest, hrun'.trans hrunc⟩
  correlation := by
    intro hset
    obtain ⟨hrepository, hnumber⟩ := h.correlation hset
    obtain ⟨hrepository', hnumber'⟩ := h'.correlation (by rwa [hrepository])
    exact ⟨hrepository'.trans hrepository, hnumber'.trans hnumber⟩

/-- A binding the ledger can hold: an acceptable selection or none, and acceptable resolved
fields. -/
structure Bound (b : AgentBinding) : Prop where
  selected : b.admissionBinding = {} ∨ b.Selected
  resolved : b.Resolved

/-- A bound binding with a selection is one that `Validate` accepts. -/
theorem Bound.validate (h : b.Bound) (hselected : b.admissionBinding ≠ {}) : b.validate = .ok () :=
  validate_eq_ok.mpr (.inr ⟨h.selected.resolve_left hselected, h.resolved⟩)

/-- What admission lets through is bound. -/
theorem bound_admissionBinding (h : b.admissionBinding.validate = .ok ()) :
    b.admissionBinding.Bound := by
  rcases validate_eq_ok.mp h with hzero | ⟨hselected, hresolved⟩
  · refine ⟨.inl (by rw [hzero]; rfl), ?_⟩
    rw [hzero]
    exact ⟨le_rfl, by simp, .inl rfl, .inl rfl, by simp, .inl rfl, .inl rfl⟩
  · exact ⟨.inr hselected, hresolved⟩

end AgentBinding

theorem ne_nil_of_imageDigestFormat {s : GoString} (h : imageDigestFormat s = true) : s ≠ [] := by
  rintro rfl
  revert h
  decide

theorem ne_nil_of_repoFormat {s : GoString} (h : repoFormat s = true) : s ≠ [] := by
  rintro rfl
  revert h
  decide

namespace Work

variable {lib : LedgerLib} {k : Kind} {w w' : Work}

/-- Two kinds of steps write the binding of an item. -/
theorem Step.binding (h : Step lib k w w') :
    w'.item.binding = w.item.binding ∨
    (∃ generation digest brokerRunID, k = .resolve generation digest brokerRunID ∧
      Resolves w.item generation digest brokerRunID ∧
      w'.item.binding = { w.item.binding with
        resolvedReleaseGeneration := generation
        resolvedReleaseDigest := digest
        brokerRunID := brokerRunID }) ∨
    (∃ repository number, k = .correlate repository number ∧
      Correlates w.item repository number ∧
      w'.item.binding = { w.item.binding with
        authoritativePRRepository := repository
        authoritativePRNumber := number }) := by
  cases h with
  | reclaim attempt now _ _ _ =>
    exact .inl (rewrite_keeps (g := WorkItemRow.binding) (f := WorkItemRow.activate now)
      (fun _ => rfl) w.item)
  | recover now =>
    exact .inl (rewrite_keeps (g := WorkItemRow.binding) (f := WorkItemRow.requeue now)
      (fun _ => rfl) w.item)
  | resolve generation digest brokerRunID now hresolves =>
    exact .inr (.inl ⟨generation, digest, brokerRunID, rfl, hresolves, rfl⟩)
  | correlate repository number now hcorrelates =>
    exact .inr (.inr ⟨repository, number, rfl, hcorrelates, rfl⟩)
  | _ => exact .inl rfl

theorem Step.advances (h : Step lib k w w') : w.item.binding.Advances w'.item.binding := by
  rcases h.binding with hsame | ⟨generation, digest, brokerRunID, -, hresolves, hset⟩ |
    ⟨repository, number, -, hcorrelates, hset⟩
  · rw [hsame]
    exact .refl _
  · rw [hset]
    refine ⟨rfl, hresolves.forward, fun heq hrun => ?_, fun _ => ⟨rfl, rfl⟩⟩
    obtain ⟨hdigest, hsame⟩ := hresolves.same (Eq.symm heq)
    exact ⟨hdigest.symm, (hsame.resolve_left hrun).symm⟩
  · rw [hset]
    refine ⟨rfl, le_rfl, fun _ _ => ⟨rfl, rfl⟩, fun hset => ?_⟩
    obtain ⟨hrepository, hnumber⟩ := hcorrelates.same.resolve_left hset
    exact ⟨hrepository.symm, hnumber.symm⟩

/-- Each of the two operations checks enough for the whole binding to stay acceptable. -/
theorem Step.bound (h : Step lib k w w') (hw : w.item.binding.Bound) :
    w'.item.binding.Bound := by
  obtain ⟨hselected, hresolved⟩ := hw
  rcases h.binding with hsame | ⟨generation, digest, brokerRunID, -, hresolves, hset⟩ |
    ⟨repository, number, -, hcorrelates, hset⟩
  · rw [hsame]
    exact ⟨hselected, hresolved⟩
  · rw [hset]
    have hpositive := hresolves.positive
    refine ⟨hselected.imp_right fun hs => ⟨hs.agentType, hs.mode, hs.contract⟩,
      ⟨hpositive.le, ?_, .inr hresolves.format, .inr hresolves.run.2, hresolved.correlated,
        hresolved.repository, hresolved.number⟩⟩
    exact iff_of_false hpositive.ne' (ne_nil_of_imageDigestFormat hresolves.format)
  · rw [hset]
    have hpositive := hcorrelates.positive
    refine ⟨hselected.imp_right fun hs => ⟨hs.agentType, hs.mode, hs.contract⟩,
      ⟨hresolved.generation, hresolved.together, hresolved.digest, hresolved.run, ?_,
        .inr hcorrelates.format, .inr hpositive.le⟩⟩
    exact iff_of_false (ne_nil_of_repoFormat hcorrelates.format.1) hpositive.ne'

theorem Steps.advances (h : Steps lib w w') : w.item.binding.Advances w'.item.binding :=
  Steps.keeps (R := fun w w' => w.item.binding.Advances w'.item.binding) (fun _ => .refl _)
    (fun _ _ _ h h' => h.trans h') (fun _ _ _ hstep => hstep.advances) h

theorem Steps.bound (h : Steps lib w w') : w.item.binding.Bound → w'.item.binding.Bound :=
  Steps.keeps (R := fun w w' => w.item.binding.Bound → w'.item.binding.Bound) (fun _ => id)
    (fun _ _ _ h h' hb => h' (h hb)) (fun _ _ _ hstep => hstep.bound) h

end Work

/-- A call of `Admit`, `AdmitWithAgent` or `AdmitRelease`. -/
def Op.isAdmission : Op → Bool
  | .admitWithAgent .. | .admitRelease .. => true
  | _ => false

/-- What callers and the broker can make of the bindings, from a state on. -/
structure Store.Authoritative (lib : LedgerLib) (s : Store) : Prop where
  /-- An admission writes no resolved field: of no item that is there, nor of a new one. -/
  admission : ∀ op : Op, op.isAdmission = true → ∀ id r',
    (op.step lib s).workItems.find? id = some r' →
      (∃ r, s.workItems.find? id = some r ∧ r'.binding = r.binding) ∨
      (s.workItems.find? id = none ∧ r'.binding = r'.binding.admissionBinding)
  /-- The generation never decreases, and a pull request stays. -/
  forward : ∀ id r, s.workItems.find? id = some r → ∀ ops, ∃ r',
    (run lib ops s).workItems.find? id = some r' ∧
      r.resolvedReleaseGeneration ≤ r'.resolvedReleaseGeneration ∧
      (r.authoritativePRRepository ≠ [] →
        r'.authoritativePRRepository = r.authoritativePRRepository ∧
          r'.authoritativePRNumber = r.authoritativePRNumber)
  /-- Two resolutions of one generation agree, whatever happens between them. -/
  resolution : ∀ id generation digest brokerRunID now s₁ ops digest' brokerRunID' now' s₂,
    resolveRelease id generation digest brokerRunID now s = .ok s₁ →
    resolveRelease id generation digest' brokerRunID' now' (run lib ops s₁) = .ok s₂ →
      digest' = digest ∧ brokerRunID' = brokerRunID
  /-- A refused call changes nothing, and a call of the broker is refused unless the item that it
  finds passes its checks. -/
  refused : (∀ op err, Op.exec lib s op = .error err → op.step lib s = s) ∧
    (∀ id generation digest brokerRunID now,
      (∃ r, s.workItems.find? id = some r ∧ Work.Resolves r generation digest brokerRunID) ∨
        (Op.resolveRelease id generation digest brokerRunID now).step lib s = s) ∧
    ∀ id repository number now,
      (∃ r, s.workItems.find? id = some r ∧ Work.Correlates r repository number) ∨
        (Op.recordAuthoritativePRCorrelation id repository number now).step lib s = s
  /-- An item admitted with a selection keeps it, in a binding that `Validate` accepts. -/
  bound : ∀ snapshotID e binding tie workToken eventToken now s' id r',
    Op.exec lib s (.admitWithAgent snapshotID e binding tie workToken eventToken now) = .ok s' →
    binding ≠ {} → s.workItems.find? id = none → s'.workItems.find? id = some r' →
      ∀ ops, ∃ r'', (run lib ops s').workItems.find? id = some r'' ∧
        r''.binding.validate = .ok () ∧ r''.binding.admissionBinding = binding

section Authoritative

variable {lib : LedgerLib} {s s' : Store}

theorem admission_binding (h : Reachable lib s) {op : Op} (hop : op.isAdmission = true)
    (hr' : (op.step lib s).workItems.find? id = some r') :
    (∃ r, s.workItems.find? id = some r ∧ r'.binding = r.binding) ∨
      (s.workItems.find? id = none ∧ r'.binding = r'.binding.admissionBinding) := by
  rcases op.step_cases lib s with he | he
  · rw [he] at hr'
    exact .inl ⟨r', hr', rfl⟩
  · obtain ⟨w', hw', rfl⟩ := Store.work_of_find? hr'
    obtain ⟨k, hmay, hevolves⟩ := Op.evolves h.sound he id
    have hk : k = none ∨ k = some .supersede := by
      cases op <;> first | exact hmay | cases hop
    generalize hv : s.work id = v at hevolves
    rw [hw'] at hevolves
    cases hevolves with
    | same => exact .inl ⟨w'.item, (Store.work_eq_some.mp hv).1, rfl⟩
    | admitted snapshot e binding token now _ _ => exact .inr ⟨Store.work_eq_none.mp hv, rfl⟩
    | @step k w _ hstep =>
      refine .inl ⟨w.item, (Store.work_eq_some.mp hv).1, ?_⟩
      obtain rfl : k = .supersede := by simpa using hk
      rcases hstep.binding with hsame | ⟨_, _, _, hne, -⟩ | ⟨_, _, hne, -⟩
      · exact hsame
      · cases hne
      · cases hne

/-- After a resolution an item has what was resolved. -/
theorem resolveRelease_binding {digest brokerRunID : GoString}
    (h : resolveRelease id generation digest brokerRunID now s = .ok s') :
    brokerRunID ≠ [] ∧ ∃ w, s'.work id = some w ∧
      w.item.resolvedReleaseGeneration = generation ∧ w.item.resolvedReleaseDigest = digest ∧
      w.item.brokerRunID = brokerRunID := by
  obtain ⟨prior, hprior, hresolves, rfl⟩ := resolveRelease_eq_ok.mp h
  have hfound : (s.updateItems (fun r => decide (r.id = id))
      (WorkItemRow.resolve generation digest brokerRunID now)
      (WorkItemRow.id_resolve generation digest brokerRunID now)).workItems.find? id =
        some (prior.resolve generation digest brokerRunID now) := by
    rw [Store.updateItems, Table.find?_update, hprior, Option.map_some,
      if_pos (decide_eq_true (Table.key_of_find? hprior))]
  obtain ⟨w, hw, hitem⟩ := Store.work_of_find? hfound
  refine ⟨hresolves.run.1, w, hw, ?_⟩
  rw [hitem]
  exact ⟨rfl, rfl, rfl⟩

theorem resolution_agrees (h : Reachable lib s) {digest brokerRunID digest' brokerRunID' : GoString}
    {now' : Int} {s1 s2 : Store} {ops : List Op}
    (hfirst : resolveRelease id generation digest brokerRunID now s = .ok s1)
    (hsecond : resolveRelease id generation digest' brokerRunID' now' (run lib ops s1) = .ok s2) :
    digest' = digest ∧ brokerRunID' = brokerRunID := by
  obtain ⟨hrun, w, hw, hgeneration, rfl, rfl⟩ := resolveRelease_binding hfirst
  have hs1 : Reachable lib s1 := by
    have hstep : (Op.resolveRelease id generation w.item.resolvedReleaseDigest w.item.brokerRunID
      now).step lib s = s1 := Op.step_of_exec hfirst
    exact hstep ▸ .step _ h trivial
  obtain ⟨w', hw', hsteps⟩ := hs1.run_work ops hw
  obtain ⟨prior, hprior, hresolves, -⟩ := resolveRelease_eq_ok.mp hsecond
  rw [(Store.work_eq_some.mp hw').1] at hprior
  cases hprior
  -- The second resolution finds the generation it resolves: it cannot have moved on.
  have hadvances := hsteps.advances
  have hforward : w.item.resolvedReleaseGeneration ≤ w'.item.resolvedReleaseGeneration :=
    hadvances.forward
  have hsame : w'.item.resolvedReleaseGeneration = w.item.resolvedReleaseGeneration :=
    le_antisymm (hgeneration ▸ hresolves.forward) hforward
  obtain ⟨hdigest, hbroker⟩ := hadvances.same hsame hrun
  obtain ⟨hdigest', hbroker'⟩ := hresolves.same (hsame.trans hgeneration)
  have hkept : w'.item.brokerRunID = w.item.brokerRunID := hbroker
  have hset : w'.item.brokerRunID ≠ [] := by rwa [hkept]
  exact ⟨hdigest'.symm.trans hdigest, (hbroker'.resolve_left hset).symm.trans hbroker⟩

/-- The item an admission with a selection adds. -/
theorem admitted_binding {snapshotID : GoString} {e : Event} {binding : AgentBinding} {tie : Nat}
    {workToken eventToken : Token}
    (h : Op.exec lib s (.admitWithAgent snapshotID e binding tie workToken eventToken now) =
      .ok s') (hnew : s.workItems.find? id = none) (hr' : s'.workItems.find? id = some r') :
    r'.binding = binding ∧ r'.binding.Bound := by
  obtain ⟨result, h⟩ := map_snd_eq_ok.mp h
  rcases admit_items h with ⟨hsame, -⟩ | ⟨snapshot, -, hadmissible, -, -, hfresh, hitems⟩
  · rw [hsame, hnew] at hr'
    cases hr'
  · rw [hitems, Store.find?_withNewWork hfresh, hnew] at hr'
    split at hr'
    · cases hr'
      have hbinding : (newItem snapshotID snapshot.definition e binding.admissionBinding workToken
        now).binding = binding.admissionBinding := rfl
      rw [hbinding]
      exact ⟨AgentBinding.eq_admissionBinding hadmissible.selection,
        AgentBinding.bound_admissionBinding hadmissible.binding⟩
    · cases hr'

theorem authoritative_of_reachable (h : Reachable lib s) : s.Authoritative lib where
  admission := fun _ hop _ _ hr' => admission_binding h hop hr'
  forward := by
    intro id r hr ops
    obtain ⟨w, hw, rfl⟩ := Store.work_of_find? hr
    obtain ⟨w', hw', hsteps⟩ := h.run_work ops hw
    exact ⟨w'.item, (Store.work_eq_some.mp hw').1, hsteps.advances.forward,
      hsteps.advances.correlation⟩
  resolution := fun _ _ _ _ _ _ _ _ _ _ _ hfirst hsecond => resolution_agrees h hfirst hsecond
  refused := by
    refine ⟨fun _ _ herror => Op.step_of_error herror, ?_, ?_⟩
    · intro id generation digest brokerRunID now
      refine (Op.step_cases lib s _).symm.imp_left fun hexec => ?_
      obtain ⟨r, hr, hresolves, -⟩ := resolveRelease_eq_ok.mp hexec
      exact ⟨r, hr, hresolves⟩
    · intro id repository number now
      refine (Op.step_cases lib s _).symm.imp_left fun hexec => ?_
      obtain ⟨r, hr, hcorrelates, -⟩ := recordAuthoritativePRCorrelation_eq_ok.mp hexec
      exact ⟨r, hr, hcorrelates⟩
  bound := by
    intro snapshotID e binding tie workToken eventToken now s' id r' hexec hne hnew hr' ops
    obtain ⟨hbinding, hbound⟩ := admitted_binding hexec hnew hr'
    have hs' : Reachable lib s' := Op.step_of_exec hexec ▸ .step _ h trivial
    obtain ⟨w, hw, rfl⟩ := Store.work_of_find? hr'
    obtain ⟨w', hw', hsteps⟩ := hs'.run_work ops hw
    have hselection : w'.item.binding.admissionBinding = binding := by
      rw [hsteps.advances.selection, hbinding]
      obtain ⟨result, hadmit⟩ := map_snd_eq_ok.mp hexec
      obtain ⟨snapshot, -, hadmissible, -⟩ := admit_eq_ok.mp hadmit
      exact AgentBinding.eq_admissionBinding hadmissible.selection
    refine ⟨w'.item, (Store.work_eq_some.mp hw').1, ?_, hselection⟩
    exact (hsteps.bound hbound).validate (by rwa [hselection])

end Authoritative

namespace Sample

def selection : AgentBinding where
  agentType := lit "youknowme-curator"
  mode := lit "reconcile"
  typeContractRevision := lit "revision-1"

def imageDigest : GoString := lit "sha256:" ++ List.replicate 64 97

/-- An item admitted with a selection, with a resolved release and a pull request. -/
def resolving : List Op :=
  [activate,
    .admitWithAgent (newID "route" (token 0)) (event 1 (lit "octo/repo") (lit "1") (lit "a"))
      selection 0 (token 1) (token 1) 0,
    .resolveRelease (itemID 1) 7 imageDigest (lit "run-1") 0,
    .recordAuthoritativePRCorrelation (itemID 1) (lit "octo/repo") 12 0]

end Sample

open Sample in
theorem authoritative_resolving :
    ((after resolving).workItems.find? (itemID 1)).any (fun r =>
        decide (r.resolvedReleaseGeneration = 7 ∧ r.authoritativePRNumber = 12 ∧
          r.binding.validate.toOption = some ())) = true ∧
    (after resolving).Authoritative lib :=
  ⟨by decide +kernel, authoritative_of_reachable (reachable_after resolving)⟩

end SignalPlane.Workledger
