/-
SignalPlane.Routeresolver.Resolver — which agent a domain fact selects.

A deployment's route table maps facts to an agent type and a mode. `validate`
bounds it, `bindSnapshots` replaces the stable route ids by the snapshots the
ledger minted, `revision` names a table by its content, and `new` builds the
resolver that the shadow ingress asks. `resolve` looks the fact of an event up
and never fails.

`json.Marshal`, SHA-256, `strings.ToLower` and the `%q` verb are parameters.
The value that is marshalled is written out (`Config.toJson`): the fields in
the order of the structs, `route_id` and `route_snapshot_id` only when they are
not empty. The table is never marshalled before it is valid, so its list of
routes is never null.
-/
import SignalPlane.Lib.Json
import SignalPlane.Workledger.Model

namespace SignalPlane.Routeresolver

open Dispatcher (GoError newError require)
open Workledger (AgentBinding Event kebabIdentifier snakeIdentifier)

/-- What the package takes from Go's library. -/
structure ResolverLib where
  /-- `json.Marshal`. -/
  marshal : Json → GoString
  sha256 : GoString → List UInt8
  /-- `strings.ToLower`. -/
  toLower : GoString → GoString
  /-- The `%q` verb. -/
  quote : GoString → GoString

/-! ## Route tables -/

/-- `RouteEntry`. -/
structure RouteEntry where
  fact : GoString
  agentType : GoString
  mode : GoString
  routeID : GoString := []
  routeSnapshotID : GoString := []
  contractRevision : GoString := []
  deriving DecidableEq, Repr

/-- `Config`. -/
structure Config where
  version : Int
  routes : List RouteEntry
  deriving DecidableEq, Repr

/-- `Fact`. -/
def fact (event : Event) : GoString :=
  if event.action = [] then event.eventKind else event.eventKind ++ lit "." ++ event.action

/-- `factPattern`: `^[a-z][a-z0-9_]*(\.[a-z][a-z0-9_]*)?$`. -/
def factPattern (s : GoString) : Bool :=
  let word := GoString.matchesFrom GoString.isLower
    fun b => GoString.isLower b || GoString.isDigit b || b = 95
  match s.dropWhile (· ≠ 46) with
  | [] => word s
  | _ :: action => word (s.takeWhile (· ≠ 46)) && word action

/-- An error that names the fact of a route. -/
def ResolverLib.routeError (lib : ResolverLib) (route : RouteEntry) (problem : GoString) :
    GoError :=
  ⟨lit "route " ++ lib.quote route.fact ++ problem, none⟩

/-- The loop of `Config.Validate`: the route at index `i`, after routes with the facts `seen`. -/
def validateRoutes (lib : ResolverLib) :
    Nat → List GoString → List RouteEntry → Except GoError Unit
  | _, _, [] => .ok ()
  | i, seen, route :: routes => do
    require (factPattern route.fact = true)
      ⟨lit "route " ++ GoString.decimal i ++ lit " fact " ++ lib.quote route.fact ++
        lit " is not a bounded domain-fact identifier", none⟩
    require (route.fact ∉ seen)
      ⟨lit "route config declares duplicate fact " ++ lib.quote route.fact, none⟩
    require (kebabIdentifier route.agentType = true)
      (lib.routeError route (lit " agent_type must be a bounded kebab-case identifier"))
    require (snakeIdentifier route.mode = true)
      (lib.routeError route (lit " mode must be a bounded snake_case identifier"))
    require (route.routeID = [] ↔ route.routeSnapshotID ≠ [])
      (lib.routeError route (lit " requires exactly one of route_id or route_snapshot_id"))
    require (route.routeID = [] ∨ kebabIdentifier route.routeID = true)
      (lib.routeError route (lit " route_id must be a bounded kebab-case identifier"))
    require (route.routeSnapshotID.length ≤ 256)
      (lib.routeError route (lit " route_snapshot_id is oversized"))
    require (route.contractRevision.length ≤ 256)
      (lib.routeError route (lit " contract_revision is oversized"))
    validateRoutes lib (i + 1) (route.fact :: seen) routes

/-- `Config.Validate`. -/
def Config.validate (lib : ResolverLib) (config : Config) : Except GoError Unit := do
  require (0 < config.version) (newError "route config version must be positive")
  require (config.routes ≠ []) (newError "route config must declare at least one route")
  validateRoutes lib 0 [] config.routes

/-- The body of the loop of `Config.BindSnapshots`. A route that is not activated has no entry in
the map, which reads as the empty id. -/
def RouteEntry.bindSnapshot (lib : ResolverLib) (snapshotByRouteID : GoString → GoString)
    (route : RouteEntry) : Except GoError RouteEntry :=
  if route.routeID = [] then .ok route
  else do
    require (snapshotByRouteID route.routeID ≠ [])
      (lib.routeError route (lit " references route_id " ++ lib.quote route.routeID ++
        lit " without a dispatcher activation"))
    return { route with routeID := [], routeSnapshotID := snapshotByRouteID route.routeID }

/-- `Config.BindSnapshots`. -/
def Config.bindSnapshots (lib : ResolverLib) (snapshotByRouteID : GoString → GoString)
    (config : Config) : Except GoError Config := do
  config.validate lib
  let routes ← config.routes.mapM (RouteEntry.bindSnapshot lib snapshotByRouteID)
  let bound : Config := { config with routes := routes }
  bound.validate lib
  return bound

/-! ## Revisions -/

/-- A member with `omitempty`. -/
def omitEmpty (name : String) (value : GoString) : List (GoString × Json) :=
  if value = [] then [] else [(lit name, .string value)]

def RouteEntry.toJson (route : RouteEntry) : Json :=
  .object ([(lit "fact", .string route.fact), (lit "agent_type", .string route.agentType),
    (lit "mode", .string route.mode)] ++ omitEmpty "route_id" route.routeID ++
    omitEmpty "route_snapshot_id" route.routeSnapshotID ++
    [(lit "contract_revision", .string route.contractRevision)])

def Config.toJson (config : Config) : Json :=
  .object [(lit "version", .number (GoString.decimal config.version)),
    (lit "routes", .array (config.routes.map RouteEntry.toJson))]

/-- The routes sorted by their facts, which a valid table has once each. -/
def Config.canonical (config : Config) : Config :=
  { config with routes := config.routes.insertionSort fun a b => a.fact ≤ b.fact }

/-- `Config.Revision`. -/
def Config.revision (lib : ResolverLib) (config : Config) : Except GoError GoString := do
  config.validate lib
  return lit "routecfg:v" ++ GoString.decimal config.version ++ lit ":" ++
    GoString.hexEncode (lib.sha256 (lib.marshal config.canonical.toJson))

/-! ## The resolver -/

/-- `Resolver`. -/
structure Resolver where
  revision : GoString
  byFact : GoString → Option RouteEntry

/-- `forbiddenFields`. -/
def forbiddenFields : List GoString :=
  [lit "image", lit "release", lit "generation", lit "digest", lit "broker_run",
    lit "broker_run_id", lit "resolved_release", lit "resolved_release_generation",
    lit "resolved_release_digest"]

/-- A field name as the key of a JSON object. -/
def quoted (field : GoString) : GoString := lit "\"" ++ field ++ lit "\""

/-- The last loop of `New`. -/
def declaredRoutes (lib : ResolverLib) (declares : GoString → GoString → Bool)
    (byFact : GoString → Option RouteEntry) :
    List RouteEntry → Except GoError (GoString → Option RouteEntry)
  | [] => .ok byFact
  | route :: routes => do
    require (declares route.agentType route.mode = true)
      (lib.routeError route (lit " selects mode " ++ lib.quote route.mode ++
        lit " not declared by AgentType " ++ lib.quote route.agentType))
    declaredRoutes lib declares (fun k => if k = route.fact then some route else byFact k) routes

/-- `New`; a catalog may be nil. -/
def new (lib : ResolverLib) (config : Config) :
    Option (GoString → GoString → Bool) → Except GoError Resolver
  | none => .error (newError "route resolver requires a mode catalog")
  | some declares => do
    config.validate lib
    config.routes.forM fun route =>
      require (route.routeID = [] ∧ route.routeSnapshotID ≠ [])
        (lib.routeError route (lit (" must be bound to a dispatcher-minted route_snapshot_id " ++
          "before resolver construction")))
    let lowered := lib.toLower (lib.marshal config.toJson)
    forbiddenFields.forM fun field =>
      require (¬ quoted field <:+: lowered)
        ⟨lit "route config must not carry selection field " ++ lib.quote field ++
          lit ": routing chooses agent_type and mode only", none⟩
    let revision ← config.revision lib
    let byFact ← declaredRoutes lib declares (fun _ => none) config.routes
    return { revision := revision, byFact := byFact }

/-- `shadowingress.Resolution`. -/
structure Resolution where
  matched : Bool
  routeSnapshotID : GoString := []
  binding : AgentBinding := {}
  deriving DecidableEq, Repr

/-- `Resolver.Resolve`. -/
def Resolver.resolve (resolver : Resolver) (event : Event) : Resolution :=
  match resolver.byFact (fact event) with
  | none => { matched := false }
  | some route =>
    { matched := true
      routeSnapshotID := route.routeSnapshotID
      binding :=
        { agentType := route.agentType
          mode := route.mode
          typeContractRevision := route.contractRevision } }

end SignalPlane.Routeresolver
