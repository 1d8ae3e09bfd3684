/-
SignalPlane.Routeresolver.ResolverTheorems — what an accepted route table
selects, and what its revision says.

A table that passes `validate` has entries within bounds (`Bounded`) and one
entry per fact; the order of the entries does not matter. `bindSnapshots`
rewrites the entries one by one, and `new` returns the entry of a fact. The
binding of an entry passes the checks of an admission except where its
contract revision is empty, which `validate` lets through and admission does
not.

A revision determines the table up to the order of its routes, as far as the
JSON text and the digest tell tables apart.
-/
import SignalPlane.Routeresolver.Resolver
import SignalPlane.Workledger.ItemTheorems

namespace SignalPlane.Routeresolver

open Dispatcher (GoError newError require bind_eq_ok require_eq_ok
  require_bind_eq_ok pure_eq_ok)
open Workledger

variable {lib : ResolverLib} {config bound c d : Config} {route : RouteEntry}
  {routes : List RouteEntry} {snapshots : GoString → GoString} {resolver : Resolver}
  {catalog : Option (GoString → GoString → Bool)}

/-! ## Accepted tables -/

/-- An entry within the bounds of `Config.Validate`. -/
structure RouteEntry.Bounded (route : RouteEntry) : Prop where
  fact : factPattern route.fact = true
  agentType : kebabIdentifier route.agentType = true
  mode : snakeIdentifier route.mode = true
  selector : route.routeID = [] ↔ route.routeSnapshotID ≠ []
  routeID : route.routeID = [] ∨ kebabIdentifier route.routeID = true
  snapshot : route.routeSnapshotID.length ≤ 256
  contract : route.contractRevision.length ≤ 256

theorem validateRoutes_eq_ok {i : Nat} {seen : List GoString} :
    validateRoutes lib i seen routes = .ok () ↔
      (∀ route ∈ routes, route.Bounded ∧ route.fact ∉ seen) ∧
        (routes.map RouteEntry.fact).Nodup := by
  induction routes generalizing i seen with
  | nil => simp [validateRoutes]
  | cons route routes ih =>
    rw [List.forall_mem_cons]
    simp only [validateRoutes, require_bind_eq_ok, ih, List.map_cons, List.nodup_cons, List.mem_map,
      List.mem_cons, not_or, not_exists, not_and]
    constructor
    · rintro ⟨hfact, hseen, ha, hm, hs, hr, hsnapshot, hcontract, hrest, hnodup⟩
      exact ⟨⟨⟨⟨hfact, ha, hm, hs, hr, hsnapshot, hcontract⟩, hseen⟩, fun r hr' =>
        ⟨(hrest r hr').1, (hrest r hr').2.2⟩⟩, fun r hr' => (hrest r hr').2.1, hnodup⟩
    · rintro ⟨⟨⟨⟨hfact, ha, hm, hs, hr, hsnapshot, hcontract⟩, hseen⟩, hrest⟩, hnew, hnodup⟩
      exact ⟨hfact, hseen, ha, hm, hs, hr, hsnapshot, hcontract, fun r hr' =>
        ⟨(hrest r hr').1, hnew r hr', (hrest r hr').2⟩, hnodup⟩

theorem Config.validate_eq_ok : config.validate lib = .ok () ↔
    0 < config.version ∧ config.routes ≠ [] ∧ (∀ route ∈ config.routes, route.Bounded) ∧
      (config.routes.map RouteEntry.fact).Nodup := by
  simp [Config.validate, require_bind_eq_ok, validateRoutes_eq_ok]

/-- The order of the routes does not matter. -/
theorem Config.validate_perm (hversion : c.version = d.version) (hroutes : c.routes.Perm d.routes)
    (h : c.validate lib = .ok ()) : d.validate lib = .ok () := by
  obtain ⟨hpos, hne, hbounded, hnodup⟩ := validate_eq_ok.mp h
  refine validate_eq_ok.mpr ⟨hversion ▸ hpos, fun hnil => ?_, fun r hr => ?_, ?_⟩
  · rw [hnil] at hroutes
    exact hne hroutes.eq_nil
  · exact hbounded r (hroutes.mem_iff.mpr hr)
  · exact ((hroutes.map _).nodup_iff).mp hnodup

/-- What binding makes of an entry. -/
def RouteEntry.bind (snapshots : GoString → GoString) (route : RouteEntry) : RouteEntry :=
  if route.routeID = [] then route
  else { route with routeID := [], routeSnapshotID := snapshots route.routeID }

theorem mapM_bindSnapshot {bound : List RouteEntry} :
    routes.mapM (RouteEntry.bindSnapshot lib snapshots) = .ok bound ↔
      (∀ route ∈ routes, route.routeID = [] ∨ snapshots route.routeID ≠ []) ∧
        bound = routes.map (RouteEntry.bind snapshots) := by
  have hentry : ∀ {route bound : RouteEntry}, route.bindSnapshot lib snapshots = .ok bound ↔
      (route.routeID = [] ∨ snapshots route.routeID ≠ []) ∧ bound = route.bind snapshots := by
    intro route bound
    unfold RouteEntry.bindSnapshot RouteEntry.bind
    split
    · next hid => simp only [hid, Except.ok.injEq, true_or, true_and, eq_comm]
    · next hid =>
      simp only [require_bind_eq_ok, pure_eq_ok, hid, false_or]
      exact and_congr_right fun _ => eq_comm
  induction routes generalizing bound with
  | nil =>
    rw [List.mapM_nil, pure_eq_ok]
    simp [eq_comm]
  | cons route routes ih =>
    simp only [List.mapM_cons, bind_eq_ok, pure_eq_ok, hentry, ih, List.forall_mem_cons,
      List.map_cons]
    constructor
    · rintro ⟨_, ⟨hr, rfl⟩, _, ⟨hrs, rfl⟩, rfl⟩
      exact ⟨⟨hr, hrs⟩, rfl⟩
    · rintro ⟨⟨hr, hrs⟩, rfl⟩
      exact ⟨_, ⟨hr, rfl⟩, _, ⟨hrs, rfl⟩, rfl⟩

theorem Config.bindSnapshots_eq_ok : config.bindSnapshots lib snapshots = .ok bound ↔
    config.validate lib = .ok () ∧
      (∀ route ∈ config.routes, route.routeID = [] ∨ snapshots route.routeID ≠ []) ∧
      bound.validate lib = .ok () ∧
      bound = { config with routes := config.routes.map (RouteEntry.bind snapshots) } := by
  simp only [Config.bindSnapshots, bind_eq_ok, pure_eq_ok, mapM_bindSnapshot]
  constructor
  · rintro ⟨⟨⟩, hvalid, _, ⟨hactive, rfl⟩, ⟨⟩, hbound, rfl⟩
    exact ⟨hvalid, hactive, hbound, rfl⟩
  · rintro ⟨hvalid, hactive, hbound, rfl⟩
    exact ⟨(), hvalid, _, ⟨hactive, rfl⟩, (), hbound, rfl⟩

theorem declaredRoutes_ok {declares : GoString → GoString → Bool}
    {byFact byFact' : GoString → Option RouteEntry}
    (h : declaredRoutes lib declares byFact routes = .ok byFact') (k : GoString) :
    (∃ route ∈ routes, route.fact = k ∧ byFact' k = some route) ∨ byFact' k = byFact k := by
  induction routes generalizing byFact with
  | nil =>
    cases h
    exact .inr rfl
  | cons route routes ih =>
    simp only [declaredRoutes, require_bind_eq_ok] at h
    rcases ih h.2 with ⟨r, hr, hfact, hk⟩ | hk
    · exact .inl ⟨r, List.mem_cons_of_mem _ hr, hfact, hk⟩
    · by_cases hfact : k = route.fact
      · exact .inl ⟨route, List.mem_cons_self, hfact.symm, by simpa [hfact] using hk⟩
      · exact .inr (by simpa [hfact] using hk)

/-- A resolver returns the route of the event's fact. -/
theorem resolve_matched (h : new lib config catalog = .ok resolver) {event : Event}
    (hmatched : (resolver.resolve event).matched = true) :
    ∃ route ∈ config.routes, route.fact = fact event ∧ (resolver.resolve event).binding =
      { agentType := route.agentType
        mode := route.mode
        typeContractRevision := route.contractRevision } := by
  cases catalog with
  | none => cases h
  | some declares =>
    simp only [new, bind_eq_ok, pure_eq_ok] at h
    obtain ⟨-, -, -, -, -, -, _, -, byFact, hdeclared, rfl⟩ := h
    rcases declaredRoutes_ok hdeclared (fact event) with ⟨r, hr, hfact, hk⟩ | hnone
    · exact ⟨r, hr, hfact, by simp only [Resolver.resolve, hk]⟩
    · simp [Resolver.resolve, hnone] at hmatched

/-! ## Bindings -/

/-- The checks that `AdmitWithAgent` makes of a binding. -/
def Admissible (b : AgentBinding) : Prop :=
  b.rejectAdmissionSelection = .ok () ∧ b.admissionBinding.validate = .ok ()

theorem admissible_iff (h : route.Bounded) :
    Admissible ⟨route.agentType, route.mode, route.contractRevision, 0, [], [], [], 0⟩ ↔
      route.contractRevision ≠ [] := by
  rw [Admissible, AgentBinding.validate_eq_ok]
  constructor
  · rintro ⟨-, hzero | ⟨hselected, -⟩⟩
    · have hmode := h.mode
      rw [show route.mode = [] from congrArg AgentBinding.mode hzero] at hmode
      cases hmode
    · exact hselected.contract.1
  · intro hne
    refine ⟨rfl, .inr ⟨⟨h.agentType, h.mode, hne, h.contract⟩, ?_⟩⟩
    exact ⟨le_rfl, iff_of_true rfl rfl, .inl rfl, .inl rfl, iff_of_true rfl rfl, .inl rfl, .inl rfl⟩

/-- The binding a resolver returns is admissible exactly if the route of the event's fact names a
contract revision. -/
theorem selected_admissible_iff (hbind : config.bindSnapshots lib snapshots = .ok bound)
    (hnew : new lib bound catalog = .ok resolver) (event : Event)
    (hmatched : (resolver.resolve event).matched = true) :
    Admissible (resolver.resolve event).binding ↔
      ∃ route ∈ config.routes, route.fact = fact event ∧ route.contractRevision ≠ [] := by
  obtain ⟨hvalid, -, hbound, rfl⟩ := Config.bindSnapshots_eq_ok.mp hbind
  obtain ⟨r, hr, hfact, hbinding⟩ := resolve_matched hnew hmatched
  rw [hbinding, admissible_iff ((Config.validate_eq_ok.mp hbound).2.2.1 r hr)]
  -- The route of the table that `r` was bound from; its fact occurs once.
  obtain ⟨r0, hr0, rfl⟩ := List.mem_map.mp hr
  have hkept : (r0.bind snapshots).fact = r0.fact ∧
      (r0.bind snapshots).contractRevision = r0.contractRevision := by
    unfold RouteEntry.bind
    split <;> exact ⟨rfl, rfl⟩
  rw [hkept.2]
  constructor
  · exact fun hne => ⟨r0, hr0, hkept.1.symm.trans hfact, hne⟩
  · rintro ⟨r1, hr1, hfact1, hne⟩
    obtain rfl : r1 = r0 := List.inj_on_of_nodup_map (Config.validate_eq_ok.mp hvalid).2.2.2 hr1 hr0
      (hfact1.trans (hfact.symm.trans hkept.1))
    exact hne

namespace Sample

/-- A bound table whose second route names no contract revision. -/
def table : Config where
  version := 1
  routes :=
    [⟨lit "upload.done", lit "curator", lit "scan", [], lit "s", lit "r"⟩,
     ⟨lit "upload.lost", lit "curator", lit "scan", [], lit "s", []⟩]

/-- The library on `table`. -/
def goLib : ResolverLib where
  marshal _ := lit ("\x7b\"version\":1,\"routes\":[\x7b\"fact\":\"upload.done\",\"agent_type\":" ++
    "\"curator\",\"mode\":\"scan\",\"route_snapshot_id\":\"s\",\"contract_revision\":\"r\"\x7d," ++
    "\x7b\"fact\":\"upload.lost\",\"agent_type\":\"curator\",\"mode\":\"scan\"," ++
    "\"route_snapshot_id\":\"s\",\"contract_revision\":\"\"\x7d]\x7d")
  sha256 _ := (GoString.hexDecode
    (lit "28c4663f52078b612f2e25f0e7aa05215120ccad46455cff438f48df46e08178")).getD []
  toLower := List.map fun b => if GoString.isUpper b then b + 32 else b
  quote := quoted

def upload (action : String) : Event :=
  { Workledger.Sample.event 1 [] (lit "1") (lit "r") with
    eventKind := lit "upload", action := lit action }

/-- What the resolver of `table` says, for a catalog that declares everything. -/
def answer (action : String) : Except GoError Resolution :=
  (new goLib table (some fun _ _ => true)).map fun resolver => resolver.resolve (upload action)

end Sample

open Sample in
theorem pinned_route_admissible : ∃ resolver, table.bindSnapshots goLib (fun _ => []) = .ok table ∧
    new goLib table (some fun _ _ => true) = .ok resolver ∧
    Admissible (resolver.resolve (upload "done")).binding := by
  have hbind : table.bindSnapshots goLib (fun _ => []) = .ok table := by decide +kernel
  have hanswer : answer "done" = .ok ⟨true, lit "s", ⟨lit "curator", lit "scan", lit "r", 0, [], [],
      [], 0⟩⟩ := by decide +kernel
  unfold answer at hanswer
  cases hnew : new goLib table (some fun _ _ => true) with
  | error err =>
    rw [hnew] at hanswer
    cases hanswer
  | ok resolver =>
    rw [hnew] at hanswer
    have hmatched : (resolver.resolve (upload "done")).matched = true :=
      congrArg Resolution.matched (Except.ok.inj hanswer)
    exact ⟨resolver, hbind, rfl, (selected_admissible_iff hbind hnew _ hmatched).mpr
      ⟨_, List.mem_cons_self, by decide, by decide⟩⟩

open Sample in
/-- A route without a contract revision is accepted, and its binding is refused. -/
theorem unpinned_route_refused :
    table.bindSnapshots goLib (fun _ => []) = .ok table ∧
    answer "lost" = .ok ⟨true, lit "s", ⟨lit "curator", lit "scan", [], 0, [], [], [], 0⟩⟩ ∧
    AgentBinding.validate ⟨lit "curator", lit "scan", [], 0, [], [], [], 0⟩ = .error
      (newError "type_contract_revision is required and bounded when an agent is bound") := by
  decide +kernel

/-! ## Revisions -/

theorem RouteEntry.toJson_injective : Function.Injective RouteEntry.toJson := by
  have hname : lit "route_id" ≠ lit "route_snapshot_id" ∧ lit "route_id" ≠ lit "contract_revision" ∧
      lit "route_snapshot_id" ≠ lit "contract_revision" := by decide
  rintro ⟨⟩ ⟨⟩ h
  simp only [RouteEntry.toJson, omitEmpty, Json.object.injEq] at h
  split_ifs at h <;> simp_all [Ne.symm]

/-- Sorting by the facts, which occur once, forgets the order and nothing else. -/
theorem Config.canonical_eq_iff (hc : c.validate lib = .ok ()) :
    c.canonical = d.canonical ↔ c.version = d.version ∧ c.routes.Perm d.routes := by
  let le : RouteEntry → RouteEntry → Prop := fun a b => a.fact ≤ b.fact
  have hsorted : ∀ routes : List RouteEntry, (routes.insertionSort le).Pairwise le :=
    List.pairwise_insertionSort le
  simp only [Config.canonical, Config.mk.injEq]
  refine and_congr_right fun _ => ⟨fun h => ?_, fun h => ?_⟩
  · exact (List.perm_insertionSort le c.routes).symm.trans
      (h ▸ List.perm_insertionSort le d.routes)
  · refine List.Perm.eq_of_pairwise (fun a b ha hb hab hba => ?_) (hsorted _) (hsorted _) ?_
    · have hmem : b ∈ c.routes := h.mem_iff.mpr ((List.mem_insertionSort le).mp hb)
      exact List.inj_on_of_nodup_map (Config.validate_eq_ok.mp hc).2.2.2
        ((List.mem_insertionSort le).mp ha) hmem (List.le_antisymm hab hba)
    · exact (List.perm_insertionSort le _).trans (h.trans (List.perm_insertionSort le _).symm)

/-- Two tables have one revision exactly if they have the same version and the same routes in any
order, when the JSON texts of the sorted tables tell them apart and the digest tells the texts
apart. Binding keeps two such tables alike. -/
theorem revision_eq_iff (hc : c.validate lib = .ok ()) (hd : d.validate lib = .ok ())
    (hjson : lib.marshal c.canonical.toJson = lib.marshal d.canonical.toJson →
      c.canonical.toJson = d.canonical.toJson)
    (hsha : lib.sha256 (lib.marshal c.canonical.toJson) =
        lib.sha256 (lib.marshal d.canonical.toJson) →
      lib.marshal c.canonical.toJson = lib.marshal d.canonical.toJson) :
    (c.revision lib = d.revision lib ↔ c.version = d.version ∧ c.routes.Perm d.routes) ∧
    (c.version = d.version ∧ c.routes.Perm d.routes → ∀ snapshots bound,
      c.bindSnapshots lib snapshots = .ok bound → ∃ bound',
        d.bindSnapshots lib snapshots = .ok bound' ∧ bound.version = bound'.version ∧
          bound.routes.Perm bound'.routes) := by
  constructor
  · rw [← Config.canonical_eq_iff hc]
    simp only [Config.revision, hc, hd]
    constructor
    · intro h
      have htext := Except.ok.inj h
      rw [List.append_assoc, List.append_assoc, List.append_assoc, List.append_assoc] at htext
      have hcolon : GoString.isDecimalByte 58 = false := by decide
      obtain ⟨hversion, hhex⟩ := GoString.decimal_sep_inj hcolon (List.append_cancel_left htext)
      have hroutes := hjson (hsha (GoString.hexEncode_injective hhex))
      simp only [Config.toJson, Json.object.injEq, List.cons.injEq, Prod.mk.injEq,
        Json.array.injEq, true_and, and_true] at hroutes
      exact Config.mk.injEq .. ▸ ⟨hversion, RouteEntry.toJson_injective.list_map hroutes.2⟩
    · intro h
      rw [h, ((Config.canonical_eq_iff hc).mp h).1]
  · rintro ⟨hversion, hroutes⟩ snapshots bound hbind
    obtain ⟨-, hactive, hbound, rfl⟩ := Config.bindSnapshots_eq_ok.mp hbind
    have hbound' := hroutes.map (RouteEntry.bind snapshots)
    refine ⟨{ d with routes := d.routes.map (RouteEntry.bind snapshots) },
      Config.bindSnapshots_eq_ok.mpr ⟨hd, fun r hr => hactive r (hroutes.mem_iff.mpr hr), ?_, rfl⟩,
      hversion, hbound'⟩
    exact Config.validate_perm (by exact hversion) (by exact hbound') hbound

open Sample in
/-- The routes in the other order. -/
theorem revision_eq_reversed :
    let reversed : Config := { table with routes := table.routes.reverse }
    table.revision goLib = reversed.revision goLib := by
  intro reversed
  have hsame : reversed.canonical = table.canonical := by decide
  refine (revision_eq_iff (c := table) (d := reversed) (by decide) (by decide) (fun _ => ?_)
    fun _ => rfl).1.mpr ⟨rfl, (List.reverse_perm _).symm⟩
  rw [hsame]

end SignalPlane.Routeresolver
