/-
  Denia.Deploy.Api — the requests of the control plane, each run to its end: the
  handlers of `src/api/{services,domains,deployments}.rs`, the route builders of
  `src/deploy/routes.rs`, and the autoscaler calls between them.

  A history is a list of requests over one `World`.  A deploy and a stop run their
  task (`Deploy.Coordinator`) with a list of answers; the autoscaler's operations
  run against `Env`.  Catalog reads may fail: a request carries whether the catalog
  could be read.  Roles, TLS issuance and log files are not modelled.
-/
import Denia.Deploy.Coordinator

namespace Denia.Deploy

open Autoscale Lib Verification

/-- `ApiError`. -/
inductive ApiError where
  | badRequest (reason : String)
  | notFound (reason : String)
  | conflict (reason : String)
  | repo (reason : String)
  | deploy (error : DeployError)
  | activation (error : ActivationError)

/-- The configuration the handlers read. -/
structure ApiConfig where
  controlDomain : Option String

/-! ## §1. `ServiceConfig::validate`. -/

/-- `DomainError`. -/
inductive DomainError where
  | emptyName
  | invalidName (name : String)
  | invalidHostname (reason : String)
  | invalidPort
  | invalidHealthPath
  | invalidHealthTimeout

/-- `HostnameError`'s `Display`. -/
def hostnameErrorText : HostnameError → String
  | .empty => "hostname is empty"
  | .invalidCharacter => "hostname contains invalid character"
  | .notFqdn => "hostname is not a fully qualified domain name"
  | .notHostname => "hostname looks like an IP address or includes a port or path"

/-- `DomainError`'s `Display`. -/
def DomainError.text : DomainError → String
  | .emptyName => "service name cannot be empty"
  | .invalidName name =>
      "invalid service name '" ++ name ++ "': only ASCII alphanumeric, '-' and '_' are allowed"
  | .invalidHostname reason => "invalid hostname: " ++ reason
  | .invalidPort => "internal port must be between 1 and 65535"
  | .invalidHealthPath => "health check path must start with /"
  | .invalidHealthTimeout => "health check timeout must be greater than zero"

/-- The characters of a name. -/
def safeName (name : String) : Bool :=
  name.toList.all fun c => isAsciiAlphanumeric c || c == '-' || c == '_'

/-- `validate_service_name`. -/
def validateServiceName (name : String) : Except DomainError Unit :=
  if (trim name.toList).isEmpty then .error .emptyName
  else if safeName name then .ok ()
  else .error (.invalidName name)

/-- The loop over the domains. -/
def validateDomains : List String → Except DomainError Unit
  | [] => .ok ()
  | domain :: rest =>
      match validateHostname domain with
      | .error e =>
          .error (.invalidHostname ("domain '" ++ domain ++ "': " ++ hostnameErrorText e))
      | .ok _ => validateDomains rest

/-- `HealthCheck::validate`. -/
def validateHealthCheck (check : HealthCheck) : Except DomainError Unit :=
  if check.path.toList.head? ≠ some '/' then .error .invalidHealthPath
  else if check.timeoutSeconds = 0 then .error .invalidHealthTimeout
  else .ok ()

/-- `ServiceConfig::validate`, up to the source; a policy is valid by its type. -/
def ServiceConfig.validate (service : ServiceConfig) : Except DomainError Unit :=
  match validateServiceName service.name with
  | .error e => .error e
  | .ok () =>
      match validateDomains service.domains with
      | .error e => .error e
      | .ok () =>
          if service.internalPort = 0 then .error .invalidPort
          else validateHealthCheck service.healthCheck

/-! ## §2. Services. -/

namespace Store

/-- The TLS hydration at the head of `put_service`. -/
def hydrate (db : Store) (service : ServiceConfig) : ServiceConfig :=
  let domains :=
    if service.tlsEnabled ∧ service.domains = [] ∧ service.id ≠ Uuid.nil then
      db.listVerifiedHostnames service.id
    else service.domains
  { service with domains := domains, tlsEnabled := service.tlsEnabled && !domains.isEmpty }

/-- The id under which `put_service` saves: the row of the same project and name, or
a fresh id; a given id must be that row's. -/
def resolveId (db : Store) (service : ServiceConfig) : Except ApiError (Store × ServiceConfig) :=
  if service.id = Uuid.nil then
    match db.listServices.find? fun s =>
        s.projectId = service.projectId ∧ s.name = service.name with
    | some found => .ok (db, { service with id := found.id })
    | none => .ok ({ db with nextId := db.nextId + 1 }, { service with id := db.nextId })
  else
    match db.getService service.id with
    | none => .error (.badRequest "service id does not exist")
    | some existing =>
        if existing.projectId ≠ service.projectId ∨ existing.name ≠ service.name then
          .error (.badRequest "service id does not match existing service project/name")
        else .ok (db, service)

/-- `put_service_q`: another row of the same project and name refuses the write, and so
does the primary key. -/
def putServiceQ (db : Store) (service : ServiceConfig) : Except ApiError Store :=
  if db.listServices.any fun s =>
      s.projectId = service.projectId ∧ s.name = service.name ∧ s.id ≠ service.id then
    .error (.repo "services.config_json.id does not match existing row id")
  else if db.listServices.any fun s =>
      s.id = service.id ∧ (s.projectId ≠ service.projectId ∨ s.name ≠ service.name) then
    .error (.repo "UNIQUE constraint failed: services.id")
  else .ok (db.putService service)

/-- The loop of `sync_domain_rows`.  `existing` is read once, before it; the rows of
an earlier hostname stay when a later one is refused. -/
def syncDomainRows (cfg : ApiConfig) (serviceId : Uuid) (existing : List String) :
    List String → Store → Store × Except ApiError Unit
  | [], db => (db, .ok ())
  | raw :: rest, db =>
      match validateHostname raw with
      | .error e => (db, .error (.badRequest (hostnameErrorText e)))
      | .ok hostname =>
          if hostname.name ∈ existing then syncDomainRows cfg serviceId existing rest db
          else if cfg.controlDomain = some hostname.name then
            (db, .error (.conflict "hostname is reserved for the control plane"))
          else
            match db.putServiceDomain serviceId hostname with
            | none => (db, .error (.conflict ("hostname already in use: " ++ hostname.name)))
            | some db => syncDomainRows cfg serviceId existing rest db

/-- `put_service`.  `accepted` is what the checks of the source, of its registry and of
the ACME email say. -/
def putServiceHandler (cfg : ApiConfig) (accepted : Bool) (service : ServiceConfig) (db : Store) :
    Store × Except ApiError Unit :=
  match (db.hydrate service).validate with
  | .error e => (db, .error (.badRequest e.text))
  | .ok () =>
      if !accepted then (db, .error (.badRequest "source refused"))
      else
        match db.resolveId (db.hydrate service) with
        | .error e => (db, .error e)
        | .ok (db, service) =>
            match db.putServiceQ service with
            | .error e => (db, .error e)
            | .ok db =>
                db.syncDomainRows cfg service.id
                  ((db.domains.filter (·.serviceId = service.id)).map (·.hostname.name))
                  service.domains

/-- `delete_service`: the row of the service, and nothing else. -/
def deleteServiceHandler (serviceId : Uuid) (db : Store) : Store × Except ApiError Unit :=
  match db.getService serviceId with
  | none => (db, .error (.notFound "service not found"))
  | some _ => (db.deleteService serviceId, .ok ())

/-- `create_service_domain`. -/
def createServiceDomain (cfg : ApiConfig) (serviceId : Uuid) (hostname : String) (db : Store) :
    Store × Except ApiError Unit :=
  match db.getService serviceId with
  | none => (db, .error (.notFound "service not found"))
  | some _ =>
      match validateHostname hostname with
      | .error e => (db, .error (.badRequest (hostnameErrorText e)))
      | .ok hostname =>
          if cfg.controlDomain = some hostname.name then
            (db, .error (.conflict "hostname is reserved for the control plane"))
          else
            match db.putServiceDomain serviceId hostname with
            | none => (db, .error (.conflict "hostname already in use"))
            | some db => (db, .ok ())

/-- The domain row of a service, as the verify and the delete handlers look it up. -/
def domainOf (db : Store) (serviceId domainId : Uuid) : Except ApiError ServiceDomain :=
  match db.getService serviceId with
  | none => .error (.notFound "service not found")
  | some _ =>
      match db.getServiceDomain domainId with
      | none => .error (.notFound "domain not found")
      | some d =>
          if d.serviceId ≠ serviceId then .error (.notFound "domain not found") else .ok d

end Store

/-! What the handlers above write: a service row, and PENDING domain rows. -/

/-- The services, the promotions and the verified hostnames are the same. -/
structure PendingAdded (db db' : Store) : Prop where
  services : db'.services = db.services
  promoted : db'.promoted = db.promoted
  verified : ∀ s, db'.listVerifiedHostnames s = db.listVerifiedHostnames s

namespace PendingAdded

theorem refl (db : Store) : PendingAdded db db := ⟨rfl, rfl, fun _ => rfl⟩

theorem trans {a b c : Store} (h : PendingAdded a b) (h' : PendingAdded b c) : PendingAdded a c :=
  ⟨h'.services.trans h.services, h'.promoted.trans h.promoted,
    fun s => (h'.verified s).trans (h.verified s)⟩

theorem getService {db db' : Store} (h : PendingAdded db db') (id : Uuid) :
    db'.getService id = db.getService id := by
  unfold Store.getService
  rw [h.services]

end PendingAdded

namespace Store

variable {db db' : Store} {saved : ServiceConfig}

theorem putServiceDomain_pending {serviceId : Uuid} {hostname : Hostname}
    (h : db.putServiceDomain serviceId hostname = some db') : PendingAdded db db' := by
  unfold putServiceDomain at h
  split at h <;> cases h
  refine ⟨rfl, rfl, fun s => ?_⟩
  unfold listVerifiedHostnames
  rw [List.filter_append, List.filter_cons_of_neg (by simp), List.filter_nil, List.append_nil]

theorem syncDomainRows_pending (cfg : ApiConfig) (serviceId : Uuid) (existing domains : List String)
    (db : Store) : PendingAdded db (db.syncDomainRows cfg serviceId existing domains).1 := by
  induction domains generalizing db with
  | nil => exact .refl db
  | cons raw rest ih =>
    unfold syncDomainRows
    split
    next => exact .refl db
    next hostname _ =>
      split
      next => exact ih db
      next =>
        split
        next => exact .refl db
        next =>
          split
          next => exact .refl db
          next db' hput => exact (putServiceDomain_pending hput).trans (ih db')

theorem createServiceDomain_pending (cfg : ApiConfig) (serviceId : Uuid) (hostname : String)
    (db : Store) : PendingAdded db (db.createServiceDomain cfg serviceId hostname).1 := by
  unfold createServiceDomain
  repeat' split
  all_goals try exact .refl db
  next db' hput => exact putServiceDomain_pending hput

/-- Resolving the id reads the services and keeps everything but the id. -/
theorem resolveId_ok {service : ServiceConfig} (h : db.resolveId service = .ok (db', saved)) :
    (∃ nextId, db' = { db with nextId := nextId }) ∧ saved.autoscale = service.autoscale ∧
      saved.projectId = service.projectId ∧ saved.name = service.name := by
  unfold resolveId at h
  repeat' split at h
  all_goals cases h
  all_goals exact ⟨⟨_, rfl⟩, rfl, rfl, rfl⟩

/-- A row that `put_service_q` overwrites is of the same project and name. -/
theorem putServiceQ_ok (h : db.putServiceQ saved = .ok db') :
    db' = db.putService saved ∧ ∀ old, db.getService saved.id = some old →
      old.projectId = saved.projectId ∧ old.name = saved.name := by
  unfold putServiceQ at h
  repeat' split at h
  all_goals cases h
  next hrow =>
    refine ⟨rfl, fun old hold => ?_⟩
    have hid : old.id = saved.id := db.services_id _ old hold
    have hmem : old ∈ db.listServices := by
      rwa [mem_listServices, hid]
    simp only [List.any_eq_true, not_exists, not_and, decide_eq_true_eq] at hrow
    have hsame := hrow old hmem hid
    exact ⟨not_not.mp fun h => hsame (.inl h), not_not.mp fun h => hsame (.inr h)⟩

/-- **What `put_service` writes**: nothing, or a config with the policy of the request
in a row of the same project and name, and pending domain rows. -/
theorem putServiceHandler_cases (cfg : ApiConfig) (accepted : Bool) (service : ServiceConfig)
    (db : Store) : PendingAdded db (db.putServiceHandler cfg accepted service).1 ∨
      ∃ saved : ServiceConfig, saved.autoscale = service.autoscale ∧
        (∀ old, db.getService saved.id = some old →
          old.projectId = service.projectId ∧ old.name = service.name) ∧
        PendingAdded (db.putService saved) (db.putServiceHandler cfg accepted service).1 := by
  unfold putServiceHandler
  split
  next => exact .inl (.refl db)
  next =>
    split
    next => exact .inl (.refl db)
    next =>
      split
      next => exact .inl (.refl db)
      next db1 saved hresolve =>
        obtain ⟨⟨nextId, rfl⟩, hauto, hproject, hname⟩ := resolveId_ok hresolve
        split
        next => exact .inl ⟨rfl, rfl, fun _ => rfl⟩
        next db2 hput =>
          obtain ⟨rfl, hrow⟩ := putServiceQ_ok hput
          refine .inr ⟨saved, hauto, fun old hold => ?_, ?_⟩
          · obtain ⟨holdProject, holdName⟩ := hrow old hold
            exact ⟨holdProject.trans hproject, holdName.trans hname⟩
          · have hnumbered : PendingAdded (db.putService saved)
                (Store.putService { db with nextId := nextId } saved) := ⟨rfl, rfl, fun _ => rfl⟩
            exact hnumbered.trans (syncDomainRows_pending cfg _ _ _ _)

end Store

/-! ## §3. Routes. -/

/-- The route of a service at the given hostnames. -/
def routeOf (svc : ServiceConfig) (hostnames : List String) : RouteSpec :=
  { serviceId := svc.id, serviceName := svc.name, domains := hostnames, tls := svc.tlsEnabled }

namespace World

/-- The entry `apply_routes` makes for a service: only for one that has an entry
already and a verified hostname. -/
def appliedEntry (w : World) (svc : ServiceConfig) : Option RouteSpec :=
  let hostnames := w.store.listVerifiedHostnames svc.id
  if hostnames.isEmpty then none
  else (w.snapshot.lookup svc.id).map fun _ => routeOf svc hostnames

theorem appliedEntry_eq_some {w : World} {svc : ServiceConfig} {spec : RouteSpec} :
    w.appliedEntry svc = some spec ↔ w.store.listVerifiedHostnames svc.id ≠ [] ∧
      (w.snapshot.lookup svc.id).isSome ∧
      spec = routeOf svc (w.store.listVerifiedHostnames svc.id) := by
  unfold appliedEntry
  cases hnames : w.store.listVerifiedHostnames svc.id with
  | nil => simp
  | cons =>
    cases w.snapshot.lookup svc.id with
    | none => simp
    | some => simp [eq_comm]

/-- The snapshot `apply_routes` builds. -/
def appliedSnapshot (w : World) : RouteSnapshot :=
  insertAll (·.id) w.appliedEntry w.store.listServices ∅

/-- The entry `rebuild_routes_on_boot` makes for a service. -/
def bootEntry (w : World) (svc : ServiceConfig) : Option RouteSpec :=
  match w.store.promotedDeployment svc.id with
  | none => none
  | some _ =>
      let hostnames := w.store.listVerifiedHostnames svc.id
      if hostnames.isEmpty then none else some (routeOf svc hostnames)

/-- The snapshot `rebuild_routes_on_boot` builds from the one it finds. -/
def bootSnapshot (w : World) : RouteSnapshot :=
  insertAll (·.id) w.bootEntry w.store.listServices w.snapshot

/-- Build the table of a snapshot and put both in place. -/
def rebuild (w : World) (snapshot : RouteSnapshot) : World × Except DeployError Unit :=
  (w.putSnapshot snapshot,
    match routeTableFromSnapshot snapshot with
    | .error e => .error (.ingress e)
    | .ok _ => .ok ())

/-- `apply_routes`. -/
def applyRoutes (w : World) : World × Except DeployError Unit := w.rebuild w.appliedSnapshot

/-- `rebuild_routes_on_boot`. -/
def rebuildRoutesOnBoot (w : World) : World × Except DeployError Unit := w.rebuild w.bootSnapshot

/-- Answer a request with the outcome of a deploy or route call. -/
def answered (result : World × Except DeployError Unit) : World × Except ApiError Unit :=
  (result.1, result.2.mapError .deploy)

/-! ## §4. Domains. -/

/-- `verify_service_domain`; `verified` is what the verifier finds.  Requests do not
overlap here, so none is refused as in progress and the row is there to be read
again. -/
def verifyServiceDomain (cfg : ApiConfig) (serviceId domainId : Uuid) (verified : Bool)
    (w : World) : World × Except ApiError Unit :=
  match w.store.domainOf serviceId domainId with
  | .error e => (w, .error e)
  | .ok d =>
      if cfg.controlDomain = some d.hostname.name then
        (w, .error (.conflict "hostname is reserved for the control plane"))
      else if d.status = .verified then (w, .ok ())
      else if verified then
        answered (w.onStore (·.updateServiceDomainStatus d.id .verified)).applyRoutes
      else (w.onStore (·.updateServiceDomainStatus d.id .failed), .ok ())

/-- `delete_service_domain_handler`. -/
def deleteServiceDomainHandler (serviceId domainId : Uuid) (w : World) :
    World × Except ApiError Unit :=
  match w.store.domainOf serviceId domainId with
  | .error e => (w, .error e)
  | .ok d =>
      if d.status = .verified then
        answered (w.onStore (·.deleteServiceDomain domainId)).applyRoutes
      else (w.onStore (·.deleteServiceDomain domainId), .ok ())

/-! ## §5. Deploys, stops and the autoscaler. -/

/-- What the catalog resolves a service to, if it can be read. -/
def resolved (w : World) (serviceId : Uuid) (readable : Bool) : Option ManagedService :=
  if readable then w.store.catalogResolve serviceId else none

/-- Run a controller operation. -/
def control (env : Env) (w : World) (op : Op) : World := { w with ctl := op.run env w.ctl }

/-- Run a deploy task to its end: the world and the result, if the answers fit. -/
def runDeploy (w : World) (t : DeployTask) (answers : List Answer) :
    Option (World × Except DeployError Unit) :=
  match exec deployStep (w, t) answers with
  | some (w', ⟨_, _, _, _, .done result⟩) => some (w', result)
  | _ => none

/-- Run a stop task to its end. -/
def runStop (w : World) (t : StopTask) (answers : List Answer) :
    Option (World × Except DeployError Unit) :=
  match exec stopStep (w, t) answers with
  | some (w', ⟨_, _, .done result⟩) => some (w', result)
  | _ => none

/-- `create_pending` and the task that is spawned. -/
def spawnDeploy (w : World) (svc : ServiceConfig) (request : DeploymentRequest) :
    World × DeployTask :=
  (w.onStore fun db => (db.createDeployment svc.id).1,
    .runWithDeps (w.store.createDeployment svc.id).2 svc request)

/-- `create_deployment` with the task it spawns: the handler answers at once and the task is
detached, here it runs to its end within the request, whose answer is its own.  A successful
deploy of an autoscaled service hands over to the controller. -/
def createDeployment (env : Env) (serviceId : Uuid) (request : DeploymentRequest)
    (answers : List Answer) (readable : Bool) (w : World) : Option (World × Except ApiError Unit) :=
  match w.store.getService serviceId with
  | none => some (w, .error (.notFound "service not found"))
  | some svc =>
      match (w.spawnDeploy svc request).1.runDeploy (w.spawnDeploy svc request).2 answers with
      | none => none
      | some (w, .error e) => some (w, .error (.deploy e))
      | some (w, .ok ()) =>
          if svc.autoscale.isSome then
            some (w.control env (.reconcileService (w.resolved svc.id readable)), .ok ())
          else some (w, .ok ())

/-- `lifecycle_command` with action `stop`. -/
def stopCommand (env : Env) (serviceId : Uuid) (answers : List Answer) (readable : Bool)
    (w : World) : Option (World × Except ApiError Unit) :=
  match w.store.getService serviceId with
  | none => some (w, .error (.notFound "service not found"))
  | some svc =>
      if svc.autoscale.isSome then
        ((w.control env (.drainAll svc.id (w.resolved svc.id readable))).runStop
          (.start svc.id true) answers).map answered
      else (w.runStop (.start svc.id false) answers).map answered

end World

/-! ## §6. Histories. -/

/-- The requests, and the tick of the controller. -/
inductive Request where
  | putService (service : ServiceConfig) (accepted : Bool)
  | deleteService (serviceId : Uuid)
  | createDomain (serviceId : Uuid) (hostname : String)
  | verifyDomain (serviceId domainId : Uuid) (verified : Bool)
  | deleteDomain (serviceId domainId : Uuid)
  | deploy (serviceId : Uuid) (request : DeploymentRequest) (answers : List Answer)
      (readable : Bool)
  | stop (serviceId : Uuid) (answers : List Answer) (readable : Bool)
  /-- a tick over the services whose catalog entries could be read -/
  | tick (seen : List Uuid) (nowS : Nat)
  | activate (serviceId : Uuid) (readable : Bool)

namespace Request

/-- A handler that only works on the database. -/
def onStore (w : World) (handler : Store → Store × Except ApiError Unit) :
    World × Except ApiError Unit :=
  ({ w with store := (handler w.store).1 }, (handler w.store).2)

/-- Run a request: the world it leaves and its answer, if the answers it carries fit
the calls it makes. -/
def run (cfg : ApiConfig) (env : Env) (w : World) : Request → Option (World × Except ApiError Unit)
  | .putService service accepted => some (onStore w (Store.putServiceHandler cfg accepted service))
  | .deleteService serviceId => some (onStore w (Store.deleteServiceHandler serviceId))
  | .createDomain serviceId hostname =>
      some (onStore w (Store.createServiceDomain cfg serviceId hostname))
  | .verifyDomain serviceId domainId verified =>
      some (w.verifyServiceDomain cfg serviceId domainId verified)
  | .deleteDomain serviceId domainId => some (w.deleteServiceDomainHandler serviceId domainId)
  | .deploy serviceId request answers readable =>
      w.createDeployment env serviceId request answers readable
  | .stop serviceId answers readable => w.stopCommand env serviceId answers readable
  | .tick seen nowS =>
      some (w.control env (.tick (w.store.catalogAll.filter (·.serviceId ∈ seen)) nowS), .ok ())
  | .activate serviceId readable =>
      some (w.control env (.activateOne (w.resolved serviceId readable)),
        (w.ctl.activateOne env (w.resolved serviceId readable)).2.mapError .activation)

/-- One request of a history. -/
def step (cfg : ApiConfig) (env : Env) (w : World) (r : Request) : Option World :=
  (r.run cfg env w).map Prod.fst

end Request

end Denia.Deploy
