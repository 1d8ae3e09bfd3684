/-
SignalPlane.Workledger.SupersessionTheorems — newer work replaces older work.

New work of a route that supersedes closes the open work of the same route and
the same semantic object key. `Store.Continues` says what any call does to the
items: every row keeps its place and, unless the call adds new work, its
successor. From it come the two invariants of `Store.Chained`: where every
snapshot of a route supersedes, one item per key is open, and a successor is a
later item of the same route and key. Positions grow along successors, so a
chain of them ends.

The key is four fields joined with colons, and none of the fields is free of
colons. Two objects whose fields are split at different places can share a
key, and then new work of one replaces work of the other. The last section
says exactly when that happens.
-/
import SignalPlane.Workledger.ItemTheorems
import SignalPlane.Workledger.RouteTheorems
import SignalPlane.Workledger.AdmissionTheorems

namespace SignalPlane.Workledger

open Clock

variable {now : Int} {id : GoString} {r r' row : WorkItemRow} {definition : RouteDefinition}
  {e : Event} {k : Work.Kind} {binding : AgentBinding}

/-! ## What a call does to the items -/

/-- The ids of the items in the order of their creation. -/
def Store.itemIDs (s : Store) : List GoString := s.workItems.rows.map WorkItemRow.id

/-- The place of an item in that order. -/
def Store.position (s : Store) (id : GoString) : Nat := s.itemIDs.idxOf id

section Items

variable {lib : LedgerLib} {s s' : Store}

theorem Store.mem_itemIDs : id ∈ s.itemIDs ↔ ∃ r, s.workItems.find? id = some r := by
  simp only [itemIDs, List.mem_map]
  constructor
  · rintro ⟨r, hr, rfl⟩
    exact ⟨r, Table.find?_key hr⟩
  · rintro ⟨r, hr⟩
    exact ⟨r, Table.mem_of_find? hr, Table.key_of_find? hr⟩

theorem Store.itemIDs_updateItems (s : Store) (p : WorkItemRow → Bool)
    (f : WorkItemRow → WorkItemRow) (hf : ∀ r, (f r).id = r.id) :
    (s.updateItems p f hf).itemIDs = s.itemIDs :=
  Table.map_key_ite p f hf s.workItems.rows

theorem Store.itemIDs_withNewWork (hfresh : s.workItems.find? row.id = none) :
    (s.withNewWork definition row now).itemIDs = s.itemIDs ++ [row.id] := by
  have hadded : (s.withItem row).itemIDs = s.itemIDs ++ [row.id] := by
    simp only [itemIDs, withItem, Table.rows_insert hfresh, List.map_append, List.map_singleton]
  unfold withNewWork
  split
  · rw [← hadded]
    exact Store.itemIDs_updateItems _ _ _ _
  · exact hadded

/-- A row that is not superseded in between: it keeps its identity and its successor, and once
it has ended it does not open again. -/
structure WorkItemRow.Continues (r r' : WorkItemRow) : Prop where
  identity : r'.identity = r.identity
  successor : r'.supersededByID = r.supersededByID
  ended : r.state.isTerminal = true → r'.state.isTerminal = true

/-- What a call does to the items: each stays in its place and continues, or new work is
added. -/
inductive Store.Continues (lib : LedgerLib) (s s' : Store) : Prop where
  | kept (hids : s'.itemIDs = s.itemIDs)
      (hrows : ∀ id r', s'.workItems.find? id = some r' →
        ∃ r, s.workItems.find? id = some r ∧ r.Continues r')
  | added (snapshot : RouteSnapshotRow) (e : Event) (binding : AgentBinding) (token : Token)
      (now : Int) (hadmissible : Admissible lib s snapshot e binding now)
      (hfresh : s.workItems.find? (newID "work" token) = none)
      (hitems : s'.workItems = (s.withNewWork snapshot.definition (newItem snapshot.id
        snapshot.definition e binding.admissionBinding token now) now).workItems)

/-- Only an admission supersedes. -/
theorem Op.May.supersede {op : Op} (h : op.May s id (some .supersede)) :
    op.isAdmission = true := by
  cases op with
  | admitWithAgent => rfl
  | admitRelease => rfl
  | _ =>
    simp only [Op.May] at h
    first
      | (split at h <;> cases h)
      | simp at h

/-- Every step but that of superseded work keeps the successor. -/
theorem Work.Step.successor {w w' : Work} (h : Work.Step lib k w w') (hk : k ≠ .supersede) :
    w'.item.supersededByID = w.item.supersededByID := by
  cases h with
  | supersede => exact absurd rfl hk
  | reclaim attempt now =>
    exact rewrite_keeps (g := WorkItemRow.supersededByID) (f := WorkItemRow.activate now)
      (fun _ => rfl) w.item
  | recover now =>
    exact rewrite_keeps (g := WorkItemRow.supersededByID) (f := WorkItemRow.requeue now)
      (fun _ => rfl) w.item
  | _ => rfl

theorem Work.Step.continues {w w' : Work} (h : Work.Step lib k w w') (hk : k ≠ .supersede) :
    w.item.Continues w'.item where
  identity := h.identity.1
  successor := h.successor hk
  ended := by
    intro hended
    have hstate : w'.item.state = w.item.state := congrArg Prod.fst (h.ending hended)
    rw [hstate, hended]

/-- A call that is no admission adds no item and moves none. -/
theorem Op.itemIDs {op : Op} (hop : op.isAdmission = false) (h : op.exec lib s = .ok s') :
    s'.itemIDs = s.itemIDs := by
  have hswept : ∀ now, (s.expireWaits now).itemIDs = s.itemIDs :=
    fun now => s.itemIDs_updateItems _ _ _
  cases Op.commits h with
  | admitted | released => cases hop
  | replaced _ _ _ hretire | retired hretire =>
    obtain ⟨-, rfl⟩ := retireSnapshots_eq_ok.mp hretire
    rfl
  | swept tie token now => exact hswept now
  | @reclaimed _ now _ _ _ _ | @started _ now _ _ _ _ =>
    exact (Store.itemIDs_updateItems _ _ _ _).trans (hswept now)
  | settled itemID attemptID settlement result now =>
    exact Store.itemIDs_updateItems _ _ _ (WorkItemRow.id_settle settlement result now)
  | recovered now => exact Store.itemIDs_updateItems _ _ _ (WorkItemRow.id_requeue now)
  | woken | resolved | correlated => exact Store.itemIDs_updateItems _ _ _ _
  | _ => rfl

theorem admit_continues {snapshotID : GoString} {operation : Option ReleaseOperation} {tie : Nat}
    {workToken eventToken : Token} {result : AdmissionResult}
    (h : admitEvent lib snapshotID e operation binding tie workToken eventToken now s =
      .ok (result, s')) : s.Continues lib s' := by
  rcases admit_items h with ⟨hsame, -⟩ | ⟨snapshot, rfl, hadmissible, -, -, hfresh, hitems⟩
  · refine .kept (by rw [Store.itemIDs, hsame, Store.itemIDs]) fun id r' hr' => ?_
    exact ⟨r', by rw [← hsame, hr'], rfl, rfl, fun hended => hended⟩
  · exact .added snapshot e binding workToken now hadmissible hfresh hitems

theorem Op.continues (hs : s.Sound lib) {op : Op} (h : op.exec lib s = .ok s') :
    s.Continues lib s' := by
  cases hop : op.isAdmission with
  | true =>
    cases op with
    | admitWithAgent snapshotID e binding tie workToken eventToken now =>
      obtain ⟨result, h⟩ := map_snd_eq_ok.mp h
      exact admit_continues h
    | admitRelease snapshotID e operation tie workToken eventToken now =>
      obtain ⟨result, h⟩ := map_snd_eq_ok.mp h
      obtain ⟨-, -, h⟩ := Dispatcher.bind_eq_ok.mp h
      exact admit_continues h
    | _ => cases hop
  | false =>
    have hids := Op.itemIDs hop h
    refine .kept hids fun id r' hr' => ?_
    obtain ⟨r, hr⟩ := Store.mem_itemIDs.mp (hids ▸ Store.mem_itemIDs.mpr ⟨r', hr'⟩)
    obtain ⟨w, hw, rfl⟩ := Store.work_of_find? hr
    obtain ⟨w', hw', rfl⟩ := Store.work_of_find? hr'
    obtain ⟨k, hmay, hevolves⟩ := Op.evolves hs h id
    rw [hw, hw'] at hevolves
    refine ⟨w.item, hr, ?_⟩
    cases hevolves with
    | same => exact ⟨rfl, rfl, fun hended => hended⟩
    | step hstep =>
      refine hstep.continues ?_
      rintro rfl
      rw [hmay.supersede] at hop
      cases hop

end Items

/-! ## One open item per key, and later successors -/

/-- Every snapshot of the route supersedes. -/
def Store.Supersedes (s : Store) (routeID : GoString) : Prop :=
  ∀ q ∈ s.routeSnapshots.rows, q.routeID = routeID → q.definition.concurrency.supersede = true

structure Store.Chained (s : Store) : Prop where
  open_unique : ∀ id id' r r', s.workItems.find? id = some r → s.workItems.find? id' = some r' →
    s.Supersedes r.routeID → r'.routeID = r.routeID →
    r'.semanticObjectKey = r.semanticObjectKey → r.state.isTerminal = false →
    r'.state.isTerminal = false → id = id'
  later : ∀ id r, s.workItems.find? id = some r → ∀ next, r.supersededByID = some next →
    s.position id < s.position next ∧ ∃ r', s.workItems.find? next = some r' ∧
      r'.routeID = r.routeID ∧ r'.semanticObjectKey = r.semanticObjectKey

section Chained

variable {lib : LedgerLib} {s s' : Store}

theorem WorkItemRow.Continues.not_ended (h : r.Continues r') (hopen : r'.state.isTerminal = false) :
    r.state.isTerminal = false := by
  cases hstate : r.state.isTerminal with
  | false => rfl
  | true => exact (h.ended hstate).symm.trans hopen

/-- Snapshots are not removed, so a route whose snapshots all supersede had no other before. -/
theorem Store.Supersedes.before {routeID : GoString} (h : s.Reroutes lib s')
    (hs' : s'.Supersedes routeID) : s.Supersedes routeID := by
  intro q hq hroute
  obtain ⟨q', hq', hretires⟩ := h.retires (Table.find?_key hq)
  obtain ⟨hroute', hdefinition, -⟩ := hretires.columns
  rw [← hdefinition]
  exact hs' q' (Table.mem_of_find? hq') (hroute'.trans hroute)

theorem Store.Chained.kept (hs : s.Chained) (hroutes : s.Reroutes lib s')
    (hids : s'.itemIDs = s.itemIDs)
    (hrows : ∀ id r', s'.workItems.find? id = some r' →
      ∃ r, s.workItems.find? id = some r ∧ r.Continues r') : s'.Chained where
  open_unique := by
    intro id id' r r' hr hr' hsupersedes hroute hkey hopen hopen'
    obtain ⟨q, hq, hc⟩ := hrows id r hr
    obtain ⟨q', hq', hc'⟩ := hrows id' r' hr'
    have hrouteID := congrArg ItemIdentity.routeID hc.identity
    have hrouteID' := congrArg ItemIdentity.routeID hc'.identity
    have hkeyID := congrArg ItemIdentity.semanticObjectKey hc.identity
    have hkeyID' := congrArg ItemIdentity.semanticObjectKey hc'.identity
    have hbefore : s.Supersedes q.routeID := by
      rw [show q.routeID = r.routeID from hrouteID.symm]
      exact hsupersedes.before hroutes
    exact hs.open_unique id id' q q' hq hq' hbefore (hrouteID'.symm.trans (hroute.trans hrouteID))
      (hkeyID'.symm.trans (hkey.trans hkeyID)) (hc.not_ended hopen) (hc'.not_ended hopen')
  later := by
    intro id r hr next hnext
    obtain ⟨q, hq, hc⟩ := hrows id r hr
    rw [hc.successor] at hnext
    obtain ⟨hposition, q', hq', hroute, hkey⟩ := hs.later id q hq next hnext
    obtain ⟨r', hr'⟩ := Store.mem_itemIDs.mp (hids ▸ Store.mem_itemIDs.mpr ⟨q', hq'⟩)
    obtain ⟨p, hp, hc'⟩ := hrows next r' hr'
    cases hp.symm.trans hq'
    rw [Store.position, Store.position, hids]
    refine ⟨hposition, r', hr', ?_, ?_⟩
    · exact (congrArg ItemIdentity.routeID hc'.identity).trans
        (hroute.trans (congrArg ItemIdentity.routeID hc.identity).symm)
    · exact (congrArg ItemIdentity.semanticObjectKey hc'.identity).trans
        (hkey.trans (congrArg ItemIdentity.semanticObjectKey hc.identity).symm)

/-- An item after new work was added: the new one, or an earlier one, superseded or not. -/
theorem find?_added (hfresh : s.workItems.find? row.id = none)
    (hitems : s'.workItems = (s.withNewWork definition row now).workItems)
    (hr' : s'.workItems.find? id = some r') :
    (id = row.id ∧ r' = row) ∨ ∃ r, s.workItems.find? id = some r ∧
      ((r' = r ∧ (definition.concurrency.supersede && row.replacedBy r) = false) ∨
        (r' = r.supersede row.id now ∧ row.replacedBy r = true)) := by
  rw [hitems, Store.find?_withNewWork hfresh] at hr'
  split at hr'
  · next hid => exact .inl ⟨hid, (Option.some.inj hr').symm⟩
  · obtain ⟨r, hr, rfl⟩ := Option.map_eq_some_iff.mp hr'
    refine .inr ⟨r, hr, ?_⟩
    cases hreplaced : definition.concurrency.supersede && row.replacedBy r with
    | false => exact .inl ⟨rewrite_of_not hreplaced, rfl⟩
    | true => exact .inr ⟨rewrite_of hreplaced, (Bool.and_eq_true_iff.mp hreplaced).2⟩

theorem find?_replaced (hfresh : s.workItems.find? row.id = none)
    (hsupersede : definition.concurrency.supersede = true)
    (hitems : s'.workItems = (s.withNewWork definition row now).workItems)
    (hr : s.workItems.find? id = some r) (hreplaced : row.replacedBy r = true) :
    s'.workItems.find? id = some (r.supersede row.id now) := by
  have hid : id ≠ row.id := by
    rintro rfl
    cases hr.symm.trans hfresh
  rw [hitems, Store.find?_withNewWork hfresh, if_neg hid, hr, Option.map_some, rewrite_of]
  rw [hsupersede, hreplaced]
  rfl

theorem isOpen_of_not_terminal {state : WorkState} (h : state.isTerminal = false) :
    state.isOpen = true := by
  cases state <;> first | rfl | cases h

/-- Where the route supersedes, no other item of the key of new work is open beside it. -/
theorem not_open_beside (hfresh : s.workItems.find? row.id = none)
    (hsupersede : definition.concurrency.supersede = true)
    (hitems : s'.workItems = (s.withNewWork definition row now).workItems)
    (hr' : s'.workItems.find? id = some r') (hid : id ≠ row.id) (hroute : r'.routeID = row.routeID)
    (hkey : r'.semanticObjectKey = row.semanticObjectKey) : r'.state.isTerminal = true := by
  rcases find?_added hfresh hitems hr' with ⟨hnew, -⟩ | ⟨r, hr, ⟨rfl, hspared⟩ | ⟨rfl, -⟩⟩
  · exact absurd hnew hid
  · by_contra hopen
    have hopen := isOpen_of_not_terminal (Bool.not_eq_true _ ▸ hopen)
    have hrid : r'.id ≠ row.id := fun he => hid ((Table.key_of_find? hr).symm.trans he)
    rw [hsupersede] at hspared
    simp [WorkItemRow.replacedBy, hroute, hkey, hrid, hopen] at hspared
  · rfl

/-- New work comes last, and takes the place of successor of what it supersedes. -/
theorem Store.Chained.later_added (hs : s.Chained) (hfresh : s.workItems.find? row.id = none)
    (hitems : s'.workItems = (s.withNewWork definition row now).workItems)
    (hrowNext : row.supersededByID = none) (hr : s'.workItems.find? id = some r) {next : GoString}
    (hnext : r.supersededByID = some next) :
    s'.position id < s'.position next ∧ ∃ r', s'.workItems.find? next = some r' ∧
      r'.routeID = r.routeID ∧ r'.semanticObjectKey = r.semanticObjectKey := by
  have hids : s'.itemIDs = s.itemIDs ++ [row.id] := by
    rw [← Store.itemIDs_withNewWork hfresh, Store.itemIDs, hitems, Store.itemIDs]
  have hold : ∀ {id r}, s.workItems.find? id = some r → s'.position id = s.position id := by
    intro id r hr
    rw [Store.position, hids, List.idxOf_append_of_mem (Store.mem_itemIDs.mpr ⟨r, hr⟩)]
    rfl
  rcases find?_added hfresh hitems hr with ⟨rfl, rfl⟩ | ⟨q, hq, ⟨rfl, -⟩ | ⟨rfl, hreplaced⟩⟩
  · rw [hrowNext] at hnext
    cases hnext
  · obtain ⟨hposition, q', hq', hroute, hkey⟩ := hs.later id r hq next hnext
    refine ⟨by rwa [hold hq, hold hq'], ?_⟩
    obtain ⟨r', hr'⟩ : ∃ r', s'.workItems.find? next = some r' := by
      refine Store.mem_itemIDs.mp ?_
      rw [hids]
      exact List.mem_append_left _ (Store.mem_itemIDs.mpr ⟨q', hq'⟩)
    refine ⟨r', hr', ?_⟩
    rcases find?_added hfresh hitems hr' with ⟨rfl, -⟩ | ⟨p, hp, hr''⟩
    · cases hq'.symm.trans hfresh
    · cases hp.symm.trans hq'
      rcases hr'' with ⟨rfl, -⟩ | ⟨rfl, -⟩
      · exact ⟨hroute, hkey⟩
      · exact ⟨hroute, hkey⟩
  · -- The item was open until now, and its successor is the new work at the end.
    cases hnext
    have hmem : id ∈ s.itemIDs := Store.mem_itemIDs.mpr ⟨q, hq⟩
    have hnew : row.id ∉ s.itemIDs := by
      intro hin
      obtain ⟨p, hp⟩ := Store.mem_itemIDs.mp hin
      cases hp.symm.trans hfresh
    have hlast : s'.position row.id = s.itemIDs.length := by
      rw [Store.position, hids, List.idxOf_append_of_notMem hnew]
      simp
    simp only [WorkItemRow.replacedBy, Bool.and_eq_true, decide_eq_true_eq] at hreplaced
    refine ⟨?_, row, ?_, hreplaced.1.1.1.symm, hreplaced.1.1.2.symm⟩
    · rw [hold hq, hlast]
      exact List.idxOf_lt_length_of_mem hmem
    · rw [hitems]
      exact Store.find?_withNewWork_self hfresh

theorem Store.Chained.added (hs : s.Chained) (hrouted : s.Routed lib) (hroutes : s.Reroutes lib s')
    {snapshot : RouteSnapshotRow} {token : Token} (hsnapshot : snapshot ∈ s.routeSnapshots.rows)
    (hfresh : s.workItems.find? (newID "work" token) = none)
    (hitems : s'.workItems = (s.withNewWork snapshot.definition (newItem snapshot.id
      snapshot.definition e binding token now) now).workItems) : s'.Chained := by
  generalize hrow : newItem snapshot.id snapshot.definition e binding token now = row at hitems
  have hrowID : row.id = newID "work" token := by rw [← hrow]; rfl
  have hrowRoute : row.routeID = snapshot.definition.id := by rw [← hrow]; rfl
  have hrowNext : row.supersededByID = none := by rw [← hrow]; rfl
  rw [← hrowID] at hfresh
  have hsupersede : s'.Supersedes row.routeID → snapshot.definition.concurrency.supersede = true :=
    fun h => h.before hroutes snapshot hsnapshot
      ((hrouted.route snapshot hsnapshot).symm.trans hrowRoute.symm)
  constructor
  · intro id id' r r' hr hr' hsupersedes hroute hkey hopen hopen'
    rcases find?_added hfresh hitems hr with ⟨rfl, rfl⟩ | ⟨q, hq, ⟨rfl, -⟩ | ⟨rfl, -⟩⟩
    · by_contra hne
      have := not_open_beside hfresh (hsupersede hsupersedes) hitems hr' (Ne.symm hne) hroute hkey
      exact absurd (this.symm.trans hopen') (by simp)
    · rcases find?_added hfresh hitems hr' with ⟨rfl, rfl⟩ | ⟨q', hq', ⟨rfl, -⟩ | ⟨rfl, -⟩⟩
      · by_contra hne
        rw [← hroute] at hsupersedes
        have := not_open_beside hfresh (hsupersede hsupersedes) hitems hr hne hroute.symm
          hkey.symm
        exact absurd (this.symm.trans hopen) (by simp)
      · exact hs.open_unique id id' r r' hq hq' (hsupersedes.before hroutes) hroute hkey hopen
          hopen'
      · cases hopen'
    · cases hopen
  · exact fun id r hr next hnext => hs.later_added hfresh hitems hrowNext hr hnext

theorem Reachable.chained (h : Reachable lib s) : s.Chained := by
  have hinv : s.Sound lib ∧ s.Routed lib ∧ s.Chained := by
    refine ReachableBy.invariant (I := fun s => s.Sound lib ∧ s.Routed lib ∧ s.Chained) ?_ ?_ h
    · exact ⟨Store.sound_empty lib, Reachable.routed .empty,
        ⟨fun _ _ _ _ hr => (by cases hr), fun _ _ hr => (by cases hr)⟩⟩
    · rintro s op s' ⟨hsound, hrouted, hs⟩ - hexec
      have hroutes := Op.snapshots hexec
      refine ⟨Op.sound hsound hexec, hroutes.routed hrouted, ?_⟩
      cases Op.continues hsound hexec with
      | kept hids hrows => exact hs.kept hroutes hids hrows
      | added snapshot e binding token now hadmissible hfresh hitems =>
        exact hs.added hrouted hroutes (Table.mem_of_find? hadmissible.found) hfresh hitems
  exact hinv.2.2

end Chained

/-! ## Chains of successors -/

/-- The id in `superseded_by_id`. -/
def Store.successor (s : Store) (id : GoString) : Option GoString :=
  (s.workItems.find? id).bind WorkItemRow.supersededByID

/-- The item reached by following successors `n` times, or until there is none. -/
def Store.follow (s : Store) : Nat → GoString → GoString
  | 0, id => id
  | n + 1, id =>
    match s.successor id with
    | some next => s.follow n next
    | none => id

/-- Supersession keeps one live item per object. -/
structure Store.OneLive (s : Store) : Prop where
  /-- One item of a route and a key is open, where every snapshot of the route supersedes. -/
  live : ∀ routeID, s.Supersedes routeID → ∀ r ∈ s.workItems.rows, ∀ r' ∈ s.workItems.rows,
    r.routeID = routeID → r'.routeID = routeID → r.semanticObjectKey = r'.semanticObjectKey →
    r.state.isTerminal = false → r'.state.isTerminal = false → r = r'
  /-- A successor is an item of the same route and key that was created later. -/
  later : ∀ r ∈ s.workItems.rows, ∀ next, r.supersededByID = some next →
    ∃ r', s.workItems.find? next = some r' ∧ r'.routeID = r.routeID ∧
      r'.semanticObjectKey = r.semanticObjectKey ∧ s.position r.id < s.position next
  /-- A chain of successors ends at an item that is not superseded. -/
  ends : ∀ r ∈ s.workItems.rows, ∃ n r', s.workItems.find? (s.follow n r.id) = some r' ∧
    r'.state ≠ .superseded

section OneLive

variable {lib : LedgerLib} {s : Store}

/-- Positions grow along a chain, so it ends. -/
theorem Store.Chained.follow_ends (hs : s.Chained) (hr : s.workItems.find? id = some r) :
    ∃ n r', s.workItems.find? (s.follow n id) = some r' ∧ r'.supersededByID = none := by
  induction hm : s.itemIDs.length - s.position id using Nat.strong_induction_on
    generalizing id r with
  | _ m ih =>
    cases hnext : r.supersededByID with
    | none => exact ⟨0, r, hr, hnext⟩
    | some next =>
      obtain ⟨hposition, q, hq, -⟩ := hs.later id r hr next hnext
      have hlast : s.position next < s.itemIDs.length :=
        List.idxOf_lt_length_of_mem (Store.mem_itemIDs.mpr ⟨q, hq⟩)
      obtain ⟨n, r', hr', hend⟩ := ih _ (by omega) hq rfl
      refine ⟨n + 1, r', ?_, hend⟩
      have hsuccessor : s.successor id = some next := by
        rw [Store.successor, hr, Option.bind_some, hnext]
      simpa only [Store.follow, hsuccessor] using hr'

theorem oneLive_of_reachable (h : Reachable lib s) : s.OneLive where
  live := by
    rintro _ hsupersedes r hr r' hr' rfl hroute hkey hopen hopen'
    have hid := h.chained.open_unique r.id r'.id r r' (Table.find?_key hr) (Table.find?_key hr')
      hsupersedes hroute hkey.symm hopen hopen'
    exact Option.some.inj (((Table.find?_key hr).symm.trans (by rw [hid])).trans
      (Table.find?_key hr'))
  later := by
    intro r hr next hnext
    obtain ⟨hposition, r', hr', hroute, hkey⟩ := h.chained.later r.id r (Table.find?_key hr) next
      hnext
    exact ⟨r', hr', hroute, hkey, hposition⟩
  ends := by
    intro r hr
    obtain ⟨n, r', hr', hend⟩ := h.chained.follow_ends (Table.find?_key hr)
    obtain ⟨w, hw, rfl⟩ := Store.work_of_find? hr'
    refine ⟨n, w.item, hr', fun hstate => ?_⟩
    have hcolumn := (h.sound.works hw).columns.successor
    rw [hend, hstate] at hcolumn
    cases hcolumn

end OneLive

namespace Sample

/-- Three revisions of one object, the second one claimed before the third arrives. -/
def revisions : List Op :=
  [activate, deliver 1 (lit "octo/repo") (lit "1") (lit "a") 0,
    deliver 2 (lit "octo/repo") (lit "1") (lit "b") 0, claim 1 0,
    deliver 3 (lit "octo/repo") (lit "1") (lit "c") 0]

end Sample

open Sample in
/-- Three revisions of one object make a chain that ends at the third. -/
theorem oneLive_revisions :
    (after revisions).OneLive ∧
      (after revisions).follow 2 (itemID 1) = itemID 3 :=
  ⟨oneLive_of_reachable (reachable_after _), by decide +kernel⟩

/-! ## The object behind a key -/

/-- The item is work of the event's object. -/
def WorkItemRow.sameObject (r : WorkItemRow) (e : Event) : Prop :=
  r.source = e.source ∧ r.nameSpace = e.nameSpace ∧ r.objectKind = e.objectKind ∧
    r.objectID = e.objectID

/-- The fields of the item are as long as those of the event, so that a common key is split at
the same places. -/
def WorkItemRow.splitsAs (r : WorkItemRow) (e : Event) : Prop :=
  r.source.length = e.source.length ∧ r.nameSpace.length = e.nameSpace.length ∧
    r.objectKind.length = e.objectKind.length

/-- The request supersedes nothing, or every open item it finds under its key has the key split
as the event's. -/
def Request.Distinguishes (q : Request) (s : Store) (routeID : GoString) : Prop :=
  s.recordedDelivery q.event ≠ none ∨ s.matchedItem q.snapshotID q.event q.tie ≠ none ∨
    ∀ r ∈ s.workItems.rows, r.routeID = routeID → r.state.isOpen = true →
      r.semanticObjectKey = q.event.semanticObjectKey → r.splitsAs q.event

section Objects

variable {lib : LedgerLib} {s s' : Store}

theorem semanticObjectKey_inj {a b c d a' b' c' d' : GoString}
    (h : semanticObjectKey a b c d = semanticObjectKey a' b' c' d') (ha : a.length = a'.length)
    (hb : b.length = b'.length) (hc : c.length = c'.length) :
    a = a' ∧ b = b' ∧ c = c' ∧ d = d' := by
  have hkey : ∀ a b c d : GoString, semanticObjectKey a b c d =
      a ++ (lit ":" ++ (b ++ (lit ":" ++ (c ++ (lit ":" ++ d))))) := by
    intro a b c d
    simp [semanticObjectKey, GoString.join, List.intercalate]
  rw [hkey, hkey] at h
  obtain ⟨rfl, h1⟩ := List.append_inj h ha
  obtain ⟨rfl, h2⟩ := List.append_inj (List.append_cancel_left h1) hb
  obtain ⟨rfl, h3⟩ := List.append_inj (List.append_cancel_left h2) hc
  exact ⟨rfl, rfl, rfl, List.append_cancel_left h3⟩

/-- The key of an item is made from its own fields. -/
theorem Reachable.semanticKey (h : Reachable lib s) (hr : s.workItems.find? id = some r) :
    r.semanticObjectKey = semanticObjectKey r.source r.nameSpace r.objectKind r.objectID := by
  obtain ⟨w, hw, rfl⟩ := Store.work_of_find? hr
  refine Reachable.works (P := fun w => w.item.semanticObjectKey = semanticObjectKey w.item.source
    w.item.nameSpace w.item.objectKind w.item.objectID) (fun _ _ _ _ _ => rfl) ?_ h hw
  intro k w w' _ hstep hkey
  have hidentity := hstep.identity.1
  simp only [WorkItemRow.identity, ItemIdentity.mk.injEq] at hidentity
  obtain ⟨-, -, -, hk, hsource, hspace, hkind, hobject, -⟩ := hidentity
  rw [hk, hsource, hspace, hkind, hobject, hkey]

theorem sameObject_of_splitsAs (h : Reachable lib s) (hr : s.workItems.find? id = some r)
    (hkey : r.semanticObjectKey = e.semanticObjectKey) (hsplits : r.splitsAs e) :
    r.sameObject e := by
  obtain ⟨hsource, hspace, hkind⟩ := hsplits
  exact semanticObjectKey_inj ((h.semanticKey hr).symm.trans hkey) hsource hspace hkind

/-- An admission under a route that supersedes changes the state of items of its own object
only, exactly when it distinguishes the objects it finds under its key. -/
theorem supersedes_same_object_iff (h : Reachable lib s) {q : Request} {result : AdmissionResult}
    (hexec : q.exec lib s = .ok (result, s')) {snapshot : RouteSnapshotRow}
    (hsnapshot : s.routeSnapshots.find? q.snapshotID = some snapshot)
    (hsupersede : snapshot.definition.concurrency.supersede = true) :
    (∀ id r r', s.workItems.find? id = some r → s'.workItems.find? id = some r' →
      r'.state ≠ r.state → r.routeID = snapshot.definition.id ∧ r.sameObject q.event) ↔
    q.Distinguishes s snapshot.definition.id := by
  have hadmit := Request.admitEvent_of_exec hexec
  rcases admit_items hadmit with ⟨hsame, hfound⟩ |
    ⟨snapshot', hid, hadmissible, hrecorded, hmatched, hfresh, hitems⟩
  · constructor
    · intro _
      exact hfound.elim .inl fun hm => .inr (.inl hm)
    · intro _ id r r' hr hr' hstate
      rw [hsame, hr] at hr'
      cases hr'
      exact absurd rfl hstate
  · have heq := hadmissible.found
    rw [hid, hsnapshot] at heq
    cases heq
    constructor
    · intro hall
      refine .inr (.inr fun r hr hroute hopen hkey => ?_)
      -- An open item of the route under the key is superseded, so its state changes.
      have hr := Table.find?_key hr
      have hrid : r.id ≠ newID "work" q.workToken := by
        intro he
        rw [he, hfresh] at hr
        cases hr
      have hr' := find?_replaced hfresh hsupersede hitems hr
        (by simp [WorkItemRow.replacedBy, newItem, hroute, hkey, hrid, hopen])
      have hstate : (r.supersede (newID "work" q.workToken) q.now).state ≠ r.state := by
        intro he
        have hsuperseded : r.state = .superseded := he.symm
        rw [hsuperseded] at hopen
        cases hopen
      obtain ⟨-, hsource, hspace, hkind, -⟩ := hall r.id r _ hr hr' hstate
      exact ⟨by rw [hsource], by rw [hspace], by rw [hkind]⟩
    · rintro (hd | hm | hsplits) id r r' hr hr' hstate
      · exact absurd hrecorded hd
      · exact absurd hmatched hm
      · rcases find?_added hfresh hitems hr' with ⟨rfl, rfl⟩ | ⟨p, hp, hcases⟩
        · cases hr.symm.trans hfresh
        · cases hp.symm.trans hr
          rcases hcases with ⟨rfl, -⟩ | ⟨rfl, hreplaced⟩
          · exact absurd rfl hstate
          · simp only [WorkItemRow.replacedBy, Bool.and_eq_true, decide_eq_true_eq] at hreplaced
            obtain ⟨⟨⟨hroute, hkey⟩, -⟩, hopen⟩ := hreplaced
            exact ⟨hroute, sameObject_of_splitsAs h hr hkey
              (hsplits r (Table.mem_of_find? hr) hroute hopen hkey)⟩

end Objects

namespace Sample

/-- Delivery `2`, of revision `b` of an object. -/
def newer (nameSpace objectID : GoString) : Request :=
  { request 2 2 (.agent {}) with event := event 2 nameSpace objectID (lit "b") }

/-- The ledger with delivery `1` in it, of revision `a` of an object. -/
def older (nameSpace objectID : GoString) : Store :=
  after [activate, deliver 1 nameSpace objectID (lit "a") 0]

/-- Whether the request supersedes item `1` of the ledger. -/
def replaces (q : Request) (s : Store) : Bool :=
  (q.exec lib s).toOption.any fun answer =>
    (s.workItems.find? (itemID 1)).any fun r =>
      (answer.2.workItems.find? (itemID 1)).any fun r' => decide (r'.state ≠ r.state)

theorem replaces_eq_true {q : Request} {s : Store} (h : replaces q s = true) :
    ∃ result s' r r', q.exec lib s = .ok (result, s') ∧ s.workItems.find? (itemID 1) = some r ∧
      s'.workItems.find? (itemID 1) = some r' ∧ r'.state ≠ r.state := by
  obtain ⟨⟨result, s'⟩, hexec, h⟩ := (Option.any_eq_true _ _).mp h
  obtain ⟨r, hr, h⟩ := (Option.any_eq_true _ _).mp h
  obtain ⟨r', hr', h⟩ := (Option.any_eq_true _ _).mp h
  refine ⟨result, s', r, r', ?_, hr, hr', of_decide_eq_true h⟩
  cases hx : q.exec lib s with
  | ok answer =>
    rw [hx] at hexec
    rw [Option.some.inj hexec]
  | error err =>
    rw [hx] at hexec
    cases hexec

theorem snapshot_older (nameSpace objectID : GoString)
    (h : ((older nameSpace objectID).routeSnapshots.find? (newID "route" (token 0))).any
      (fun q => q.definition.concurrency.supersede) = true) :
    ∃ snapshot, (older nameSpace objectID).routeSnapshots.find?
        (newer nameSpace objectID).snapshotID = some snapshot ∧
      snapshot.definition.concurrency.supersede = true :=
  (Option.any_eq_true _ _).mp h

end Sample

open Sample in
/-- The next revision of an object supersedes the one before. -/
theorem supersedes_same_object_revision :
    ∃ (s' : Store) (snapshot : RouteSnapshotRow),
      (∃ r r', (older (lit "octo/repo") (lit "1")).workItems.find? (itemID 1) =
          some r ∧ s'.workItems.find? (itemID 1) = some r' ∧ r'.state ≠ r.state) ∧
      ((∀ id r r', (older (lit "octo/repo") (lit "1")).workItems.find? id = some r →
          s'.workItems.find? id = some r' → r'.state ≠ r.state →
          r.routeID = snapshot.definition.id ∧
            r.sameObject (newer (lit "octo/repo") (lit "1")).event) ↔
        (newer (lit "octo/repo") (lit "1")).Distinguishes
          (older (lit "octo/repo") (lit "1")) snapshot.definition.id) := by
  obtain ⟨result, s', r, r', hexec, hr, hr', hstate⟩ := replaces_eq_true
    (q := newer (lit "octo/repo") (lit "1"))
    (s := older (lit "octo/repo") (lit "1")) (by decide +kernel)
  obtain ⟨snapshot, hsnapshot, hsupersede⟩ :=
    snapshot_older (lit "octo/repo") (lit "1") (by decide +kernel)
  exact ⟨s', snapshot, ⟨r, r', hr, hr', hstate⟩,
    supersedes_same_object_iff (reachable_after _) hexec hsnapshot hsupersede⟩

open Sample in
/-- Two objects with one key: what is in the namespace of the first is in the object id of the
second. New work of the second replaces the work of the first. -/
theorem supersedes_other_object :
    Reachable lib (older (lit "n:issue") (lit "x")) ∧
    (∃ snapshot, (older (lit "n:issue") (lit "x")).routeSnapshots.find?
        (newer (lit "n") (lit "issue:x")).snapshotID = some snapshot ∧
      snapshot.definition.concurrency.supersede = true) ∧
    ∃ result s' r r',
      (newer (lit "n") (lit "issue:x")).exec lib
        (older (lit "n:issue") (lit "x")) = .ok (result, s') ∧
      (older (lit "n:issue") (lit "x")).workItems.find? (itemID 1) = some r ∧
      s'.workItems.find? (itemID 1) = some r' ∧ r'.state ≠ r.state ∧
      ¬ r.sameObject (newer (lit "n") (lit "issue:x")).event := by
  refine ⟨reachable_after _, snapshot_older _ _ (by decide +kernel), ?_⟩
  obtain ⟨result, s', r, r', hexec, hr, hr', hstate⟩ := replaces_eq_true
    (q := newer (lit "n") (lit "issue:x"))
    (s := older (lit "n:issue") (lit "x")) (by decide +kernel)
  refine ⟨result, s', r, r', hexec, hr, hr', hstate, fun hsame => ?_⟩
  have hspace : ((older (lit "n:issue") (lit "x")).workItems.find?
      (itemID 1)).any (fun r => decide (r.nameSpace = lit "n")) = false := by
    decide +kernel
  rw [hr, Option.any_some] at hspace
  exact of_decide_eq_false hspace hsame.2.1

end SignalPlane.Workledger
