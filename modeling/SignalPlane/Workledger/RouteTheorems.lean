/-
SignalPlane.Workledger.RouteTheorems — route snapshots and the work under them.

Only `ActivateRoute` and `RetireRoute` write snapshots, and all they do to a
row that is there is to retire it (`Op.snapshots`, `Retires`). From this come
the invariants of the table (`Store.Routed`): one active snapshot a route, the
route id of the definition, a digest in hexadecimal.

`Store.Isolated` says what this means for work: its snapshot is the one it was
admitted under, with the same executor and the same definition, whatever is
activated later, so every attempt has the executor of that snapshot and every
failure is judged by its retry policy. No statement needs the clock to move
forward: a retirement before the activation fails on a constraint.
-/
import SignalPlane.Workledger.Refinement

namespace SignalPlane.Workledger

open Clock

variable {id : GoString} {definition : RouteDefinition} {executor : ExecutorDescriptor} {now : Int}
  {r : RouteSnapshotRow} {p : RouteSnapshotRow → Bool} {executors : Registry}
  {a : ExecutorAttemptRow}

/-! ## What can happen to a snapshot -/

/-- A row that is the same, or has been retired since. -/
def RouteSnapshotRow.Retires (r r' : RouteSnapshotRow) : Prop :=
  r' = r ∨ (r.retiredAt = none ∧ ∃ t, r' = { r with retiredAt := some t })

namespace RouteSnapshotRow.Retires

variable {r' r'' : RouteSnapshotRow}

theorem refl (r : RouteSnapshotRow) : r.Retires r := .inl rfl

/-- A row is retired once. -/
theorem trans (h : r.Retires r') (h' : r'.Retires r'') : r.Retires r'' := by
  rcases h with rfl | ⟨hactive, t, rfl⟩
  · exact h'
  · rcases h' with rfl | ⟨hretired, -, -⟩
    · exact .inr ⟨hactive, t, rfl⟩
    · cases hretired

theorem terms (h : r.Retires r') : r'.terms = r.terms := by
  rcases h with rfl | ⟨-, t, rfl⟩
  · rfl
  · rfl

theorem columns (h : r.Retires r') :
    r'.routeID = r.routeID ∧ r'.definition = r.definition ∧ r'.digest = r.digest := by
  rcases h with rfl | ⟨-, t, rfl⟩
  · exact ⟨rfl, rfl, rfl⟩
  · exact ⟨rfl, rfl, rfl⟩

/-- What is active now was active before. -/
theorem active (h : r.Retires r') (hactive : r'.retiredAt = none) : r' = r := by
  rcases h with rfl | ⟨-, t, rfl⟩
  · rfl
  · cases hactive

end RouteSnapshotRow.Retires

section Snapshots

variable {lib : LedgerLib} {s s' : Store}

/-- What a call can do to the snapshots: retire some, and after that add one of a route that
has no active one left. -/
inductive Store.Reroutes (lib : LedgerLib) (s s' : Store) : Prop where
  | same (h : s'.routeSnapshots = s.routeSnapshots)
  | retire (p : RouteSnapshotRow → Bool) (now : Int) (h : s.retireSnapshots p now = .ok s')
  | replace (definition : RouteDefinition) (executor : ExecutorDescriptor) (token : Token)
      (now : Int) (s₁ : Store) (hvalid : definition.validate lib = .ok ())
      (hretire : s.retireSnapshots (fun r => decide (r.routeID = definition.id)) now = .ok s₁)
      (hfresh : s₁.routeSnapshots.find? (newID "route" token) = none)
      (h : s' = s₁.withSnapshot
        (newSnapshot definition executor (lib.activation definition executor) token now))

theorem Op.snapshots {op : Op} (h : op.exec lib s = .ok s') : s.Reroutes lib s' := by
  cases Op.commits h with
  | replaced executor s1 hvalid hretire hfresh =>
    exact .replace _ executor _ _ s1 hvalid hretire hfresh rfl
  | retired hretire => exact .retire _ _ hretire
  | admitted h | released h =>
    obtain rfl | ⟨_, _, _, _, _, -, -, rfl⟩ := admit_frame h <;> exact .same rfl
  | _ => exact .same rfl

/-- What retiring the active rows with `p` makes of a row. -/
def RouteSnapshotRow.retireIf (p : RouteSnapshotRow → Bool) (now : Int) :
    RouteSnapshotRow → RouteSnapshotRow :=
  rewrite (fun r => p r && decide (r.retiredAt = none)) (RouteSnapshotRow.retire now)

theorem RouteSnapshotRow.retires_retireIf (p : RouteSnapshotRow → Bool) (now : Int)
    (r : RouteSnapshotRow) : r.Retires (r.retireIf p now) := by
  by_cases hp : p r = true ∧ r.retiredAt = none
  · exact .inr ⟨hp.2, _, rewrite_of (by simp [hp])⟩
  · refine .inl (rewrite_of_not ?_)
    simpa [← Bool.not_eq_true] using hp

/-- Nothing with `p` is active afterwards. -/
theorem RouteSnapshotRow.retiredAt_retireIf (hp : p r = true) :
    (r.retireIf p now).retiredAt ≠ none := by
  by_cases hactive : r.retiredAt = none
  · rw [retireIf, rewrite_of (by simp [hp, hactive])]
    simp [retire]
  · rwa [retireIf, rewrite_of_not (by simp [hactive])]

theorem rows_retireSnapshots (h : s.retireSnapshots p now = .ok s') :
    s'.routeSnapshots.rows = s.routeSnapshots.rows.map (RouteSnapshotRow.retireIf p now) := by
  obtain ⟨-, rfl⟩ := retireSnapshots_eq_ok.mp h
  rfl

theorem find?_retireSnapshots (h : s.retireSnapshots p now = .ok s') (id : GoString) :
    s'.routeSnapshots.find? id =
      (s.routeSnapshots.find? id).map (RouteSnapshotRow.retireIf p now) := by
  obtain ⟨-, rfl⟩ := retireSnapshots_eq_ok.mp h
  exact s.routeSnapshots.find?_update _ _ (RouteSnapshotRow.id_retire now) id

/-- A call leaves every snapshot, and at most retires it. -/
theorem Store.Reroutes.retires (h : s.Reroutes lib s') (hr : s.routeSnapshots.find? id = some r) :
    ∃ r', s'.routeSnapshots.find? id = some r' ∧ r.Retires r' := by
  cases h with
  | same h => exact ⟨r, by rw [h, hr], .refl r⟩
  | retire p now h =>
    exact ⟨_, by rw [find?_retireSnapshots h, hr, Option.map_some], r.retires_retireIf p now⟩
  | replace definition executor token now s1 hvalid hretire hfresh h =>
    have hs1 := find?_retireSnapshots hretire id
    rw [hr, Option.map_some] at hs1
    have hkept : s'.routeSnapshots.find? id = s1.routeSnapshots.find? id := by
      rw [h]
      refine Table.find?_insert_ne _ ?_
      rintro rfl
      cases hs1.symm.trans hfresh
    exact ⟨_, hkept.trans hs1, r.retires_retireIf _ now⟩

/-- Where a snapshot after a call comes from: from before the call, or it is the new one, and
then every other snapshot of its route is retired. -/
theorem Store.Reroutes.origin (h : s.Reroutes lib s') {r' : RouteSnapshotRow}
    (hr' : r' ∈ s'.routeSnapshots.rows) :
    (∃ r ∈ s.routeSnapshots.rows, r.Retires r') ∨
    (∃ definition executor token now, definition.validate lib = .ok () ∧
      r' = newSnapshot definition executor (lib.activation definition executor) token now ∧
      ∀ q ∈ s'.routeSnapshots.rows, q.routeID = definition.id → q ≠ r' → q.retiredAt ≠ none) := by
  cases h with
  | same h => exact .inl ⟨r', h ▸ hr', .refl r'⟩
  | retire p now h =>
    rw [rows_retireSnapshots h] at hr'
    obtain ⟨r, hr, rfl⟩ := List.mem_map.mp hr'
    exact .inl ⟨r, hr, r.retires_retireIf p now⟩
  | replace definition executor token now s1 hvalid hretire hfresh h =>
    subst h
    have hrows := rows_retireSnapshots hretire
    rcases Table.mem_insert.mp hr' with hr' | ⟨-, rfl⟩
    · rw [hrows] at hr'
      obtain ⟨r, hr, rfl⟩ := List.mem_map.mp hr'
      exact .inl ⟨r, hr, r.retires_retireIf _ now⟩
    · refine .inr ⟨definition, executor, token, now, hvalid, rfl, fun q hq hroute hne => ?_⟩
      rcases Table.mem_insert.mp hq with hq | ⟨-, rfl⟩
      · rw [hrows] at hq
        obtain ⟨r, hr, rfl⟩ := List.mem_map.mp hq
        rw [(r.retires_retireIf _ now).columns.1] at hroute
        exact RouteSnapshotRow.retiredAt_retireIf (decide_eq_true hroute)
      · exact absurd rfl hne

end Snapshots

/-! ## The invariant of the snapshot table -/

structure Store.Routed (lib : LedgerLib) (s : Store) : Prop where
  single : ∀ r ∈ s.routeSnapshots.rows, ∀ r' ∈ s.routeSnapshots.rows,
    r.routeID = r'.routeID → r.retiredAt = none → r'.retiredAt = none → r = r'
  route : ∀ r ∈ s.routeSnapshots.rows, r.definition.id = r.routeID
  digest : ∀ r ∈ s.routeSnapshots.rows, ∃ bytes, r.digest = GoString.hexEncode bytes

section Routed

variable {lib : LedgerLib} {s s' : Store}

theorem Store.Reroutes.routed (h : s.Reroutes lib s') (hs : s.Routed lib) : s'.Routed lib where
  single := by
    intro r hr r' hr' hroute hactive hactive'
    -- Of two active rows of a route at most one is new, and beside a new one none is active.
    rcases h.origin hr with ⟨q, hq, hretires⟩ | ⟨definition, executor, token, now, -, hnew, hold⟩
    · rcases h.origin hr' with ⟨q', hq', hretires'⟩ |
        ⟨definition, executor, token, now, -, hnew, hold⟩
      · obtain rfl := hretires.active hactive
        obtain rfl := hretires'.active hactive'
        exact hs.single r hq r' hq' hroute hactive hactive'
      · by_contra hne
        exact hold r hr (hroute.trans (by rw [hnew]; rfl)) hne hactive
    · by_contra hne
      exact hold r' hr' (hroute.symm.trans (by rw [hnew]; rfl)) (Ne.symm hne) hactive'
  route := by
    intro r hr
    rcases h.origin hr with ⟨q, hq, hretires⟩ | ⟨definition, executor, token, now, -, rfl, -⟩
    · obtain ⟨hroute, hdefinition, -⟩ := hretires.columns
      rw [hroute, hdefinition]
      exact hs.route q hq
    · rfl
  digest := by
    intro r hr
    rcases h.origin hr with ⟨q, hq, hretires⟩ | ⟨definition, executor, token, now, -, rfl, -⟩
    · rw [hretires.columns.2.2]
      exact hs.digest q hq
    · exact ⟨_, rfl⟩

theorem Reachable.routed (h : Reachable lib s) : s.Routed lib := by
  refine ReachableBy.invariant ?_ (fun _ _ _ hs _ hexec => (Op.snapshots hexec).routed hs) h
  exact ⟨fun _ hr => absurd hr List.not_mem_nil, fun _ hr => absurd hr List.not_mem_nil,
    fun _ hr => absurd hr List.not_mem_nil⟩

/-- Along a run a snapshot stays, and is at most retired. -/
theorem find?_snapshot_run (ops : List Op) (hr : s.routeSnapshots.find? id = some r) :
    ∃ r', (run lib ops s).routeSnapshots.find? id = some r' ∧ r.Retires r' := by
  induction ops generalizing s r with
  | nil => exact ⟨r, hr, .refl r⟩
  | cons op ops ih =>
    have hstep : ∃ q, (op.step lib s).routeSnapshots.find? id = some q ∧ r.Retires q := by
      rcases op.step_cases lib s with he | he
      · exact ⟨r, by rw [he, hr], .refl r⟩
      · exact (Op.snapshots he).retires hr
    obtain ⟨q, hq, hretires⟩ := hstep
    obtain ⟨r', hr', hretires'⟩ := ih hq
    exact ⟨r', hr', hretires.trans hretires'⟩

end Routed

/-! ## Work under a snapshot -/

/-- Route changes do not reach the work that is in flight. -/
structure Store.Isolated (lib : LedgerLib) (s : Store) : Prop where
  /-- At most one snapshot of a route is active. -/
  single : ∀ r ∈ s.routeSnapshots.rows, ∀ r' ∈ s.routeSnapshots.rows,
    r.routeID = r'.routeID → r.retiredAt = none → r'.retiredAt = none → r = r'
  /-- A snapshot stays as it is, but for being retired once. -/
  frozen : ∀ id r, s.routeSnapshots.find? id = some r → ∀ ops, ∃ r',
    (run lib ops s).routeSnapshots.find? id = some r' ∧
      (r' = r ∨ (r.retiredAt = none ∧ ∃ t, r' = { r with retiredAt := some t }))
  /-- Activating again what is active returns its id and changes nothing. -/
  repeated : ∀ definition executors executors' executor token now snapshot s₁ ops r,
    executors.resolve lib definition.executorID = .ok executor →
    executors'.resolve lib definition.executorID = .ok executor →
    activateRoute lib definition (some executors) token now s = .ok (snapshot, s₁) →
    (run lib ops s₁).routeSnapshots.find? snapshot.id = some r → r.retiredAt = none →
      ∀ token' now', ∃ snapshot', snapshot'.id = snapshot.id ∧
        activateRoute lib definition (some executors') token' now' (run lib ops s₁) =
          .ok (snapshot', run lib ops s₁)
  /-- A new item belongs to the snapshot it is admitted under. -/
  admitted : ∀ snapshotID e operation binding tie workToken eventToken now result s' id r,
    admitEvent lib snapshotID e operation binding tie workToken eventToken now s =
      .ok (result, s') →
    s.workItems.find? id = none → s'.workItems.find? id = some r → r.routeSnapshotID = snapshotID
  /-- It stays with that snapshot, which keeps its executor and its definition. -/
  pinned : ∀ id r, s.workItems.find? id = some r → ∃ q,
    s.routeSnapshots.find? r.routeSnapshotID = some q ∧ ∀ ops, ∃ r' q',
      (run lib ops s).workItems.find? id = some r' ∧ r'.routeSnapshotID = r.routeSnapshotID ∧
      (run lib ops s).routeSnapshots.find? r.routeSnapshotID = some q' ∧ q'.terms = q.terms
  /-- Every attempt has the executor of its item's snapshot. -/
  executor : ∀ a ∈ s.executorAttempts.rows, ∃ r q,
    s.workItems.find? a.workItemID = some r ∧
      s.routeSnapshots.find? r.routeSnapshotID = some q ∧ a.executorID = q.executorID ∧
      a.executorKind = q.executorKind ∧ a.executorVersion = q.executorVersion
  /-- Every completion of active work is judged by the retry policy of its snapshot. -/
  retry : ∀ attemptID result now s' a r q,
    complete lib attemptID result now s = .ok s' →
    s.executorAttempts.find? attemptID = some a → s.workItems.find? a.workItemID = some r →
    r.state = .active → s.routeSnapshots.find? r.routeSnapshotID = some q →
      ∃ settlement, settle lib q.definition.retry a.attemptNumber result now = .ok settlement ∧
        s'.workItems.find? r.id = some (r.settle settlement result now)

section Isolated

variable {lib : LedgerLib} {s s' : Store}

/-- The row an activation leaves active, whether it is new or not. -/
theorem activateRoute_active {token : Token} {snapshot : RouteSnapshot}
    (hresolve : executors.resolve lib definition.executorID = .ok executor)
    (h : activateRoute lib definition (some executors) token now s = .ok (snapshot, s')) :
    (definition.validate lib = .ok () ∧ definition.executorID = executor.id ∧
      executor.validate lib = .ok ()) ∧
    ∃ r, s'.routeSnapshots.find? snapshot.id = some r ∧ r.routeID = definition.id ∧
      r.digest = lib.activation definition executor := by
  obtain ⟨_, executor', hsome, hresolve', hsave⟩ := activateRoute_eq_ok.mp h
  cases hsome
  rw [hresolve] at hresolve'
  cases hresolve'
  obtain ⟨hvalid, hid, hexecutor, hcases⟩ := saveRoute_eq_ok.mp hsave
  refine ⟨⟨hvalid, hid, hexecutor⟩, ?_⟩
  rcases hcases with ⟨existing, hactive, rfl, rfl⟩ | ⟨-, rfl, hreplace⟩
  · have hmem := List.mem_of_find?_eq_some hactive
    have hprops := List.find?_some hactive
    simp only [Bool.and_eq_true, decide_eq_true_eq] at hprops
    exact ⟨existing, Table.find?_key hmem, hprops.1.1, hprops.1.2⟩
  · obtain ⟨s1, -, hfresh, rfl⟩ := replaceSnapshot_eq_ok.mp hreplace
    refine ⟨newSnapshot definition executor (lib.activation definition executor) token now, ?_,
      rfl, rfl⟩
    have hinsert := Table.find?_insert_self s1.routeSnapshots
      (newSnapshot definition executor (lib.activation definition executor) token now)
    rw [hfresh, Option.getD_none] at hinsert
    exact hinsert

/-- Activating what is active finds it. -/
theorem activateRoute_again (hs : s.Routed lib)
    (hresolve : executors.resolve lib definition.executorID = .ok executor)
    (hvalid : definition.validate lib = .ok ()) (hid : definition.executorID = executor.id)
    (hexecutor : executor.validate lib = .ok ()) (hr : r ∈ s.routeSnapshots.rows)
    (hroute : r.routeID = definition.id) (hdigest : r.digest = lib.activation definition executor)
    (hactive : r.retiredAt = none) (token : Token) (now : Int) :
    activateRoute lib definition (some executors) token now s = .ok (r.scan definition, s) := by
  refine activateRoute_eq_ok.mpr ⟨executors, executor, rfl, hresolve, ?_⟩
  refine saveRoute_eq_ok.mpr ⟨hvalid, hid, hexecutor, .inl ⟨r, ?_, rfl, rfl⟩⟩
  have hsome : (s.activeUnder definition.id (lib.activation definition executor)).isSome := by
    refine List.find?_isSome.mpr ⟨r, hr, ?_⟩
    simp [hroute, hdigest, hactive]
  obtain ⟨q, hq⟩ := Option.isSome_iff_exists.mp hsome
  have hprops := List.find?_some hq
  simp only [Bool.and_eq_true, decide_eq_true_eq] at hprops
  -- The row that is found is active for the same route, and there is only one.
  rw [hq, hs.single q (List.mem_of_find?_eq_some hq) r hr (hprops.1.1.trans hroute.symm) hprops.2
    hactive]

theorem activation_repeated (h : Reachable lib s) {executors' : Registry} {token : Token}
    {snapshot : RouteSnapshot} {s1 : Store} {ops : List Op}
    (hresolve : executors.resolve lib definition.executorID = .ok executor)
    (hresolve' : executors'.resolve lib definition.executorID = .ok executor)
    (hexec : activateRoute lib definition (some executors) token now s = .ok (snapshot, s1))
    (hr : (run lib ops s1).routeSnapshots.find? snapshot.id = some r) (hactive : r.retiredAt = none)
    (token' : Token) (now' : Int) : ∃ snapshot', snapshot'.id = snapshot.id ∧
      activateRoute lib definition (some executors') token' now' (run lib ops s1) =
        .ok (snapshot', run lib ops s1) := by
  obtain ⟨⟨hvalid, hid, hexecutor⟩, q, hq, hroute, hdigest⟩ := activateRoute_active hresolve hexec
  have hs1 : Reachable lib s1 := by
    have hstep : (Op.activateRoute definition (some executors) token now).step lib s = s1 :=
      Op.step_of_exec (map_snd_eq_ok.mpr ⟨snapshot, hexec⟩)
    exact hstep ▸ .step _ h trivial
  obtain ⟨q', hq', hretires⟩ := find?_snapshot_run ops hq
  rw [hr] at hq'
  cases hq'
  obtain ⟨hroute', -, hdigest'⟩ := hretires.columns
  have hsame : r.id = snapshot.id := Table.key_of_find? hr
  refine ⟨r.scan definition, hsame, ?_⟩
  exact activateRoute_again (hs1.run ops).routed hresolve' hvalid hid hexecutor
    (Table.mem_of_find? hr) (hroute'.trans hroute) (hdigest'.trans hdigest) hactive token' now'

/-- The snapshot of an item. -/
theorem Store.Sound.snapshot (hs : s.Sound lib) {w : Work} (hw : s.work id = some w) :
    ∃ q, s.routeSnapshots.find? w.item.routeSnapshotID = some q ∧
      w.terms = some q.terms := by
  obtain ⟨⟨t, hterms, -⟩, -⟩ := (hs.works hw).recorded
  have hfound := (work_eq_some.mp hw).2.1
  rw [hterms, termsOf, eq_comm, Option.map_eq_some_iff] at hfound
  obtain ⟨q, hq, rfl⟩ := hfound
  exact ⟨q, hq, hterms⟩

theorem item_pinned (h : Reachable lib s) {r : WorkItemRow} (hr : s.workItems.find? id = some r) :
    ∃ q, s.routeSnapshots.find? r.routeSnapshotID = some q ∧ ∀ ops, ∃ r' q',
      (run lib ops s).workItems.find? id = some r' ∧ r'.routeSnapshotID = r.routeSnapshotID ∧
      (run lib ops s).routeSnapshots.find? r.routeSnapshotID = some q' ∧ q'.terms = q.terms := by
  obtain ⟨w, hw, rfl⟩ := Store.work_of_find? hr
  obtain ⟨q, hq, -⟩ := h.sound.snapshot hw
  refine ⟨q, hq, fun ops => ?_⟩
  obtain ⟨w', hw', hsteps⟩ := h.run_work ops hw
  obtain ⟨q', hq', hretires⟩ := find?_snapshot_run ops hq
  have hidentity : w'.item.identity = w.item.identity :=
    Work.Steps.keeps (R := fun w w' => w'.item.identity = w.item.identity) (fun _ => rfl)
      (fun _ _ _ h h' => h'.trans h) (fun _ _ _ hstep => hstep.identity.1) hsteps
  exact ⟨w'.item, q', (Store.work_eq_some.mp hw').1,
    congrArg ItemIdentity.routeSnapshotID hidentity, hq', hretires.terms⟩

theorem attempt_executor (h : Reachable lib s) (ha : a ∈ s.executorAttempts.rows) :
    ∃ r q, s.workItems.find? a.workItemID = some r ∧
      s.routeSnapshots.find? r.routeSnapshotID = some q ∧ a.executorID = q.executorID ∧
      a.executorKind = q.executorKind ∧ a.executorVersion = q.executorVersion := by
  obtain ⟨w, hw⟩ := Store.work_isSome (h.sound.linked.attempts a ha)
  obtain ⟨q, hq, hterms⟩ := h.sound.snapshot hw
  obtain ⟨⟨t, ht, -, -, hall⟩, -⟩ := (h.sound.works hw).recorded
  rw [hterms] at ht
  cases ht
  have hfrom := hall a.identity (List.mem_map_of_mem (Store.mem_attempts ha hw))
  exact ⟨w.item, q, (Store.work_eq_some.mp hw).1, hq, hfrom.executorID, hfrom.executorKind,
    hfrom.executorVersion⟩

theorem completion_retry {attemptID : GoString} {result : ExecutorResult} {r : WorkItemRow}
    {q : RouteSnapshotRow} (h : complete lib attemptID result now s = .ok s')
    (ha : s.executorAttempts.find? attemptID = some a)
    (hr : s.workItems.find? a.workItemID = some r) (hactive : r.state = .active)
    (hq : s.routeSnapshots.find? r.routeSnapshotID = some q) :
    ∃ settlement, settle lib q.definition.retry a.attemptNumber result now = .ok settlement ∧
      s'.workItems.find? r.id = some (r.settle settlement result now) := by
  obtain ⟨attempt, item, hattempt, -, hitem, hcases⟩ := complete_eq_ok.mp h
  rw [ha] at hattempt
  cases hattempt
  rw [hr] at hitem
  cases hitem
  rcases hcases with ⟨hsuperseded, -⟩ | ⟨-, definition, settlement, hdefinition, hsettle, rfl⟩
  · rw [hactive] at hsuperseded
    cases hsuperseded
  · obtain ⟨row, hrow, -, rfl⟩ := loadDefinition_eq_ok.mp hdefinition
    rw [hq] at hrow
    cases hrow
    refine ⟨settlement, hsettle, ?_⟩
    obtain ⟨w, hw, rfl⟩ := Store.work_of_find? hr
    have hid : w.item.id = a.workItemID := Store.id_of_work hw
    rw [hid]
    exact (Store.work_eq_some.mp (Store.work_settled hw hactive)).1

theorem isolated_of_reachable (h : Reachable lib s) : s.Isolated lib where
  single := h.routed.single
  frozen := fun _ _ hr ops => find?_snapshot_run ops hr
  repeated := fun _ _ _ _ _ _ _ _ _ _ hresolve hresolve' hexec hr hactive token now =>
    activation_repeated h hresolve hresolve' hexec hr hactive token now
  admitted := by
    intro snapshotID e operation binding tie workToken eventToken now result s' id r hexec hnew hr
    rcases admit_items hexec with ⟨hsame, -⟩ | ⟨snapshot, -, -, -, -, hfresh, hitems⟩
    · rw [hsame, hnew] at hr
      cases hr
    · rw [hitems, Store.find?_withNewWork hfresh, hnew] at hr
      split at hr
      · cases hr
        rfl
      · cases hr
  pinned := fun _ _ hr => item_pinned h hr
  executor := fun _ ha => attempt_executor h ha
  retry := fun _ _ _ _ _ _ _ hexec ha hr hactive hq => completion_retry hexec ha hr hactive hq

end Isolated

namespace Sample

/-- The next version of the route, with one attempt only. -/
def strictRoute : RouteDefinition :=
  { route with semanticVersion := lit "2", retry := ⟨1, []⟩ }

/-- Work in flight when a stricter version of its route is activated. -/
def rerouted : List Op :=
  [activate, deliver 1 (lit "octo/repo") (lit "1") (lit "a") 0, claim 1 0,
    .activateRoute strictRoute (some registry) (token 9) second,
    report 1 .retryableFailure (2 * second)]

end Sample

open Sample in
/-- The failure is judged by the route the item was admitted under: it may be tried again. -/
theorem isolated_rerouted :
    ((after rerouted).workItems.rows.map (fun r => (r.state, r.nextAttemptAt)) =
        [(.waiting, some 3000)] ∧
      (after rerouted).routeSnapshots.rows.map RouteSnapshotRow.retiredAt = [some 1000, none]) ∧
    (after rerouted).Isolated lib :=
  ⟨by decide +kernel, isolated_of_reachable (reachable_after rerouted)⟩

end SignalPlane.Workledger
